import GossipGames.Proofs.Guard.Choices
import Mathlib.Algebra.Group.Nat.Defs
import Mathlib.Order.Bounds.Defs

/-!
# The search for the least model

The search finds the first choice, in ascending order, under which the guard holds.  Both ways of
searching, the truth table and the fixing of one name after the other, are compared with the plain
search through all choices.
-/

namespace GossipGames
namespace Guard

def firstChoice? (names : List String) (test : Nat → Bool) : Option Nat :=
  (List.range (choices names)).find? test

/-- The truth values that a choice gives to the names, the last name first. -/
def choiceValuation : List String → Nat → Valuation
  | [], _ => []
  | p :: names, choice => choiceValuation names choice ++ [(p, choice.testBit names.length)]

/-!
# The plain search

With one more name in front, the choices in which it is false are searched first.
-/

theorem firstChoice?_congr {names : List String} {f g : Nat → Bool}
    (h : ∀ choice, choice < choices names → f choice = g choice) :
    firstChoice? names f = firstChoice? names g := by
  have hmem : ∀ choice ∈ List.range (choices names), f choice = g choice := by
    intro choice hchoice
    exact h choice (List.mem_range.mp hchoice)
  unfold firstChoice?
  generalize List.range (choices names) = l at hmem
  induction l with
  | nil =>
      rfl
  | cons x xs ih =>
      rw [List.find?_cons, List.find?_cons, hmem x List.mem_cons_self,
        ih fun choice hchoice => hmem choice (List.mem_cons_of_mem x hchoice)]

theorem firstChoice?_cons (p : String) (names : List String) (test : Nat → Bool) :
    firstChoice? (p :: names) test =
      (firstChoice? names test).or
        ((firstChoice? names fun choice => test (choices names + choice)).map
          (choices names + ·)) := by
  rw [firstChoice?, choices_cons, List.range_add, List.find?_append, List.find?_map]
  rfl

theorem firstChoice?_eq_none_iff {names : List String} {test : Nat → Bool} :
    firstChoice? names test = none ↔ ∀ choice, choice < choices names → test choice = false := by
  simp [firstChoice?]

theorem lt_of_firstChoice? {names : List String} {test : Nat → Bool} {choice : Nat}
    (h : firstChoice? names test = some choice) : choice < choices names :=
  List.mem_range.mp (List.mem_of_find?_eq_some h)

theorem choiceValuation_add {names : List String} {n : Nat} (h : names.length ≤ n)
    (choice : Nat) :
    choiceValuation names (Nat.pow 2 n + choice) = choiceValuation names choice := by
  induction names with
  | nil =>
      rfl
  | cons p names ih =>
      have hlt : names.length < n := h
      simp [choiceValuation, Nat.pow_eq, Nat.testBit_two_pow_add_gt hlt] at ih ⊢
      exact ih (Nat.le_of_lt hlt)

theorem choiceValuation_cons_of_lt (p : String) {names : List String} {choice : Nat}
    (h : choice < choices names) :
    choiceValuation (p :: names) choice = choiceValuation names choice ++ [(p, false)] := by
  have hbit : choice.testBit names.length = false := Nat.testBit_lt_two_pow h
  rw [choiceValuation, hbit]

theorem choiceValuation_cons_add (p : String) {names : List String} {choice : Nat}
    (h : choice < choices names) :
    choiceValuation (p :: names) (choices names + choice) =
      choiceValuation names choice ++ [(p, true)] := by
  rw [choiceValuation, testBit_choices_add h]
  exact congrArg (· ++ [(p, true)]) (choiceValuation_add (Nat.le_refl names.length) choice)

theorem choiceValuation_reverse (names : List String) (mask : Nat) :
    choiceValuation names.reverse mask = maskValuation names mask := by
  induction names using List.reverseRecOn with
  | nil =>
      rfl
  | append_singleton names p ih =>
      simp [choiceValuation, maskValuation, ih, List.zipIdx_append]

theorem map_firstChoice?_cons (p : String) (names : List String) (test : Nat → Bool) :
    (firstChoice? (p :: names) test).map (choiceValuation (p :: names)) =
      (((firstChoice? names test).map (choiceValuation names)).map fun v => v ++ [(p, false)]).or
        (((firstChoice? names fun choice => test (choices names + choice)).map
          (choiceValuation names)).map fun v => v ++ [(p, true)]) := by
  rw [firstChoice?_cons]
  cases hlow : firstChoice? names test with
  | some choice =>
      simp [choiceValuation_cons_of_lt p (lt_of_firstChoice? hlow)]
  | none =>
      cases hhigh : firstChoice? names fun choice => test (choices names + choice) with
      | none =>
          rfl
      | some choice =>
          simp [choiceValuation_cons_add p (lt_of_firstChoice? hhigh)]

/-!
# Tables

A table has no bit beyond the choices, so a table without a low bit that is shifted by half of them
is a table of the other names.
-/

theorem always_lt (names : List String) : always names < 2 ^ choices names := by
  have hpos : 0 < 2 ^ choices names := Nat.two_pow_pos _
  simp only [always, Nat.pow_eq]
  omega

theorem column_lt (p : String) (names : List String) : column p names < 2 ^ choices names :=
  Nat.lt_pow_two_of_testBit _ fun choice h => testBit_column_of_le p names choice h

mutual

theorem table_lt (names : List String) : (g : Guard) → table names g < 2 ^ choices names
  | const value => by
      cases value
      · exact Nat.two_pow_pos _
      · exact always_lt names
  | var name => column_lt name names
  | not g => Nat.xor_lt_two_pow (always_lt names) (table_lt names g)
  | and gs => tableAll_lt names gs
  | or gs => tableAny_lt names gs
  | xor g h => Nat.xor_lt_two_pow (table_lt names g) (table_lt names h)
  | implies g h =>
      Nat.or_lt_two_pow (Nat.xor_lt_two_pow (always_lt names) (table_lt names g))
        (table_lt names h)
  | iff g h =>
      Nat.xor_lt_two_pow (always_lt names)
        (Nat.xor_lt_two_pow (table_lt names g) (table_lt names h))

theorem tableAll_lt (names : List String) :
    (gs : List Guard) → tableAll names gs < 2 ^ choices names
  | [] => always_lt names
  | _ :: gs => Nat.and_lt_two_pow _ (tableAll_lt names gs)

theorem tableAny_lt (names : List String) :
    (gs : List Guard) → tableAny names gs < 2 ^ choices names
  | [] => Nat.two_pow_pos _
  | g :: gs => Nat.or_lt_two_pow (table_lt names g) (tableAny_lt names gs)

end

theorem and_always_eq_zero_iff {names : List String} {t : Nat} :
    t &&& always names = 0 ↔ firstChoice? names t.testBit = none := by
  rw [firstChoice?_eq_none_iff]
  constructor
  · intro h choice hlt
    have hbit : (t &&& always names).testBit choice = false := by
      rw [h, Nat.zero_testBit]
    simpa [testBit_always, hlt] using hbit
  · intro h
    apply Nat.eq_of_testBit_eq
    intro choice
    rw [Nat.testBit_and, testBit_always, Nat.zero_testBit]
    by_cases hlt : choice < choices names
    · simp [h choice hlt]
    · simp [hlt]

theorem leastIn_eq (names : List String) :
    ∀ t, t < 2 ^ choices names →
      leastIn names t = (firstChoice? names t.testBit).map (choiceValuation names) := by
  induction names with
  | nil =>
      intro t ht
      have ht' : t < 2 := ht
      have hcases : t = 0 ∨ t = 1 := by omega
      rcases hcases with rfl | rfl
      · rfl
      · rfl
  | cons p names ih =>
      intro t ht
      have hlow : firstChoice? names (t &&& always names).testBit =
          firstChoice? names t.testBit :=
        firstChoice?_congr fun choice hlt => by simp [testBit_always, hlt]
      have hbelow : t &&& always names < 2 ^ choices names :=
        Nat.and_lt_two_pow t (always_lt names)
      have hshift : t >>> choices names < 2 ^ choices names := by
        rw [choices_cons, Nat.pow_add] at ht
        rw [Nat.shiftRight_eq_div_pow]
        exact Nat.div_lt_of_lt_mul ht
      have hhigh : (t >>> choices names).testBit =
          fun choice => t.testBit (choices names + choice) := by
        funext choice
        exact Nat.testBit_shiftRight t
      rw [map_firstChoice?_cons, leastIn, ih _ hshift, ih _ hbelow, hlow, hhigh]
      by_cases hzero : t &&& always names = 0
      · simp [hzero, and_always_eq_zero_iff.mp hzero]
      · cases hfirst : firstChoice? names t.testBit with
        | none =>
            exact absurd (and_always_eq_zero_iff.mpr hfirst) hzero
        | some choice =>
            simp [hzero]

theorem leastIn_table (names : List String) (g : Guard) :
    leastIn names (table names g) =
      (firstChoice? names fun choice => eval (truthUnder names choice) g).map
        (choiceValuation names) := by
  rw [leastIn_eq names _ (table_lt names g),
    firstChoice?_congr fun choice hlt => testBit_table hlt g]

theorem eval_fix_of_not_mentions {g : Guard} {p : String} (h : g.mentions p = false)
    (truth : String → Bool) (value : Bool) : eval (fix truth p value) g = eval truth g := by
  apply eval_congr
  intro q hq
  have hne : q ≠ p := by
    intro heq
    rw [heq] at hq
    rw [(mentions_iff_mem_leaves p g).mpr hq] at h
    cases h
  simp [fix, hne]

theorem searchDown_eq (names : List String) (g : Guard) :
    searchDown names g =
      (firstChoice? names fun choice => eval (truthUnder names choice) g).map
        (choiceValuation names) := by
  induction names generalizing g with
  | nil =>
      exact leastIn_table [] g
  | cons p names ih =>
      have hlow : (firstChoice? names fun choice => eval (truthUnder (p :: names) choice) g) =
          firstChoice? names fun choice => eval (fix (truthUnder names choice) p false) g :=
        firstChoice?_congr fun choice hlt => by rw [truthUnder_cons_of_lt p names hlt]
      have hhigh : (firstChoice? names fun choice =>
            eval (truthUnder (p :: names) (choices names + choice)) g) =
          firstChoice? names fun choice => eval (fix (truthUnder names choice) p true) g :=
        firstChoice?_congr fun choice hlt => by rw [truthUnder_cons_add p names hlt]
      unfold searchDown
      split
      · exact leastIn_table (p :: names) g
      · split
        · next hconst =>
          rw [eq_const_of_isConst hconst]
          symm
          simp [firstChoice?_eq_none_iff, eval]
        · rw [map_firstChoice?_cons, hlow, hhigh]
          split
          · -- Fixing the name in the guard is fixing it in the truth function.
            simp only [ih, eval_assign]
            cases firstChoice? names fun choice => eval (fix (truthUnder names choice) p false) g <;>
              rfl
          · next hmentions =>
            simp only [Bool.not_eq_true] at hmentions
            simp only [ih, eval_fix_of_not_mentions hmentions]
            cases firstChoice? names fun choice => eval (truthUnder names choice) g <;> rfl

/-!
# The least model

In terms of masks, the least model is the numerically least mask under which the guard holds.
-/

theorem leastModel?_eq {names : List String} (h : names.Nodup) (g : Guard) :
    leastModel? names g =
      (firstChoice? names fun mask => eval (maskTruth names mask) g).map
        (maskValuation names) := by
  rw [leastModel?, searchDown_eq, firstChoice?, choices_reverse]
  simp only [truthUnder_reverse h]
  apply Option.map_congr
  intro mask _
  exact choiceValuation_reverse names mask

theorem isSatisfiable_iff {g : Guard} :
    g.isSatisfiable = true ↔ ∃ truth, eval truth g = true := by
  have hleaves : ∀ p ∈ g.leaves, p ∈ g.propositions.reverse := by
    intro p hp
    simpa [propositions] using hp
  rw [← exists_choice_iff hleaves, isSatisfiable, leastModel?, searchDown_eq, Option.isSome_map,
    Option.isSome_iff_ne_none, ne_eq, firstChoice?_eq_none_iff]
  simp

end Guard
end GossipGames
