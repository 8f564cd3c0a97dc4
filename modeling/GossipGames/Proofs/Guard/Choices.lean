import GossipGames.Guard.Model
import Mathlib.Data.List.Induction

/-!
# Truth functions and choices

A guard looks at the names in it only.  So the finitely many choices of truth values for these names
stand for all truth functions, whatever other names there are.
-/

namespace GossipGames
namespace Guard

mutual

theorem eval_congr {t u : String → Bool} :
    (g : Guard) → (∀ p ∈ g.leaves, t p = u p) → eval t g = eval u g
  | const _, _ => rfl
  | var name, h => h name List.mem_cons_self
  | not g, h => by
      rw [eval, eval, eval_congr g h]
  | and gs, h => by
      rw [eval, eval, evalAll_congr gs h]
  | or gs, h => by
      rw [eval, eval, evalAny_congr gs h]
  | xor a b, h => by
      rw [eval, eval, eval_congr a fun p hp => h p (List.mem_append_left _ hp),
        eval_congr b fun p hp => h p (List.mem_append_right _ hp)]
  | implies a b, h => by
      rw [eval, eval, eval_congr a fun p hp => h p (List.mem_append_left _ hp),
        eval_congr b fun p hp => h p (List.mem_append_right _ hp)]
  | iff a b, h => by
      rw [eval, eval, eval_congr a fun p hp => h p (List.mem_append_left _ hp),
        eval_congr b fun p hp => h p (List.mem_append_right _ hp)]

theorem evalAll_congr {t u : String → Bool} :
    (gs : List Guard) → (∀ p ∈ leavesOf gs, t p = u p) → evalAll t gs = evalAll u gs
  | [], _ => rfl
  | g :: gs, h => by
      rw [evalAll, evalAll, eval_congr g fun p hp => h p (List.mem_append_left _ hp),
        evalAll_congr gs fun p hp => h p (List.mem_append_right _ hp)]

theorem evalAny_congr {t u : String → Bool} :
    (gs : List Guard) → (∀ p ∈ leavesOf gs, t p = u p) → evalAny t gs = evalAny u gs
  | [], _ => rfl
  | g :: gs, h => by
      rw [evalAny, evalAny, eval_congr g fun p hp => h p (List.mem_append_left _ hp),
        evalAny_congr gs fun p hp => h p (List.mem_append_right _ hp)]

end

/-!
# Choices

The number of a choice is less than the number of choices.  One more name in front, which weighs
most, doubles the choices: those in which it is false come first.
-/

theorem choices_pos (names : List String) : 0 < choices names :=
  Nat.two_pow_pos names.length

theorem testBit_choices_add {names : List String} {choice : Nat} (h : choice < choices names) :
    (choices names + choice).testBit names.length = true := by
  have hlow : choice.testBit names.length = false := Nat.testBit_lt_two_pow h
  rw [choices, Nat.pow_eq, Nat.testBit_two_pow_add_eq, hlow, Bool.not_false]

theorem truthUnder_cons_of_lt (q : String) (names : List String) {choice : Nat}
    (h : choice < choices names) :
    truthUnder (q :: names) choice = fix (truthUnder names choice) q false := by
  funext p
  by_cases hp : p = q
  · simp only [truthUnder, fix, hp, if_true]
    exact Nat.testBit_lt_two_pow h
  · simp [truthUnder, fix, hp]

theorem truthUnder_cons_add (q : String) (names : List String) {choice : Nat}
    (h : choice < choices names) :
    truthUnder (q :: names) (choices names + choice) =
      fix (truthUnder names choice) q true := by
  funext p
  by_cases hp : p = q
  · simp only [truthUnder, fix, hp, if_true]
    exact testBit_choices_add h
  · simp only [truthUnder, fix, hp, if_false]
    exact truthUnder_add p (Nat.le_refl names.length) choice

theorem exists_choice (truth : String → Bool) (names : List String) :
    ∃ choice, choice < choices names ∧ ∀ p ∈ names, truthUnder names choice p = truth p := by
  induction names with
  | nil =>
      exact ⟨0, choices_pos [], by simp⟩
  | cons q names ih =>
      rcases ih with ⟨choice, hlt, hagree⟩
      rw [choices_cons]
      cases hq : truth q with
      | false =>
          refine ⟨choice, by omega, ?_⟩
          intro p hp
          rw [truthUnder_cons_of_lt q names hlt, fix]
          by_cases hpq : p = q
          · simp [hpq, hq]
          · simpa [hpq] using hagree p (List.mem_of_ne_of_mem hpq hp)
      | true =>
          refine ⟨choices names + choice, by omega, ?_⟩
          intro p hp
          rw [truthUnder_cons_add q names hlt, fix]
          by_cases hpq : p = q
          · simp [hpq, hq]
          · simpa [hpq] using hagree p (List.mem_of_ne_of_mem hpq hp)

/-- The choices for some names decide whether a guard over them can hold. -/
theorem exists_choice_iff {g : Guard} {names : List String} (h : ∀ p ∈ g.leaves, p ∈ names) :
    (∃ choice, choice < choices names ∧ eval (truthUnder names choice) g = true) ↔
      ∃ truth, eval truth g = true := by
  constructor
  · intro hchoice
    rcases hchoice with ⟨choice, _, heval⟩
    exact ⟨truthUnder names choice, heval⟩
  · intro htruth
    rcases htruth with ⟨truth, heval⟩
    rcases exists_choice truth names with ⟨choice, hlt, hagree⟩
    exact ⟨choice, hlt, (eval_congr g fun p hp => hagree p (h p hp)).trans heval⟩

/-!
# Masks

A mask numbers a choice from the other end: bit `i` says whether the name at place `i` holds.  For
distinct names it is the choice for the names in reverse.
-/

def maskTruth (names : List String) (mask : Nat) (p : String) : Bool :=
  names.contains p && mask.testBit (names.idxOf p)

def maskValuation (names : List String) (mask : Nat) : Valuation :=
  names.zipIdx.map fun e => (e.1, mask.testBit e.2)

theorem choices_reverse (names : List String) : choices names.reverse = choices names := by
  simp [choices]

theorem truthUnder_reverse {names : List String} (h : names.Nodup) (mask : Nat) :
    truthUnder names.reverse mask = maskTruth names mask := by
  funext p
  induction names using List.reverseRecOn with
  | nil =>
      rfl
  | append_singleton names q ih =>
      rcases List.nodup_append.mp h with ⟨hnames, _, hapart⟩
      have hq : q ∉ names := fun hmem => hapart q hmem q List.mem_cons_self rfl
      by_cases hp : p = q
      · simp [truthUnder, maskTruth, hp, List.idxOf_append, hq]
      · have hrest := ih hnames
        by_cases hmem : p ∈ names <;>
          simp [truthUnder, maskTruth, hp, List.idxOf_append, hmem, hrest]

theorem exists_mask_iff {g : Guard} {names : List String} (hdistinct : names.Nodup)
    (h : ∀ p ∈ g.leaves, p ∈ names) :
    (∃ mask, mask < choices names ∧ eval (maskTruth names mask) g = true) ↔
      ∃ truth, eval truth g = true := by
  have hreverse : ∀ p ∈ g.leaves, p ∈ names.reverse := by
    intro p hp
    exact List.mem_reverse.mpr (h p hp)
  rw [← exists_choice_iff hreverse]
  simp only [truthUnder_reverse hdistinct, choices_reverse]

end Guard
end GossipGames
