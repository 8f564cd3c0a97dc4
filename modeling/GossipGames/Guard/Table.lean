import GossipGames.Guard.Basic

/-!
# Truth tables

The choices of truth values for some names are numbered: the first name of the list weighs most, and
its bit in the number of a choice says whether it holds.  The truth table of a guard is the number
whose bits say for which choices the guard holds, so that a connective acts on all choices at once.
-/

namespace GossipGames
namespace Guard

/-- The truth function that a choice stands for.  Names outside the list do not hold. -/
def truthUnder : List String → Nat → String → Bool
  | [], _, _ => false
  | q :: names, choice, p =>
      if p = q then choice.testBit names.length else truthUnder names choice p

def choices (names : List String) : Nat :=
  Nat.pow 2 names.length

def always (names : List String) : Nat :=
  Nat.pow 2 (choices names) - 1

/-- The table of a name.  Without the first name of the list the table repeats. -/
def column (p : String) : List String → Nat
  | [] => 0
  | q :: names =>
      if p = q then always names <<< choices names
      else
        let half := column p names
        half ||| half <<< choices names

mutual

def table (names : List String) : Guard → Nat
  | const value => if value then always names else 0
  | var name => column name names
  | not g => always names ^^^ table names g
  | and gs => tableAll names gs
  | or gs => tableAny names gs
  | xor g h => table names g ^^^ table names h
  | implies g h => (always names ^^^ table names g) ||| table names h
  | iff g h => always names ^^^ (table names g ^^^ table names h)

def tableAll (names : List String) : List Guard → Nat
  | [] => always names
  | g :: gs => table names g &&& tableAll names gs

def tableAny (names : List String) : List Guard → Nat
  | [] => 0
  | g :: gs => table names g ||| tableAny names gs

end

theorem choices_cons (q : String) (names : List String) :
    choices (q :: names) = choices names + choices names := by
  simp only [choices, Nat.pow_eq, List.length_cons, Nat.pow_succ]
  omega

theorem testBit_always (names : List String) (choice : Nat) :
    (always names).testBit choice = decide (choice < choices names) := by
  simp [always, Nat.pow_eq]

theorem testBit_column_of_le (p : String) (names : List String) :
    ∀ choice, choices names ≤ choice → (column p names).testBit choice = false := by
  induction names with
  | nil =>
      intro choice _
      simp [column]
  | cons q names ih =>
      intro choice h
      rw [choices_cons] at h
      have hbeyond : choices names ≤ choice - choices names := by omega
      by_cases hp : p = q
      · simp [column, hp, testBit_always, hbeyond]
      · simp [column, hp, ih choice (by omega), ih (choice - choices names) hbeyond]

theorem truthUnder_add (p : String) {names : List String} {n : Nat} (h : names.length ≤ n)
    (choice : Nat) :
    truthUnder names (Nat.pow 2 n + choice) p = truthUnder names choice p := by
  induction names with
  | nil =>
      rfl
  | cons q names ih =>
      have hlt : names.length < n := h
      simp [truthUnder, Nat.pow_eq, Nat.testBit_two_pow_add_gt hlt] at ih ⊢
      rw [ih (Nat.le_of_lt hlt)]

theorem testBit_column (p : String) (names : List String) :
    ∀ choice, choice < choices names →
      (column p names).testBit choice = truthUnder names choice p := by
  induction names with
  | nil =>
      intro choice _
      simp [column, truthUnder]
  | cons q names ih =>
      intro choice h
      rw [choices_cons] at h
      by_cases hlow : choice < choices names
      · have hhigh : ¬ choices names ≤ choice := Nat.not_le.mpr hlow
        by_cases hp : p = q
        · have hbit : choice.testBit names.length = false := Nat.testBit_lt_two_pow hlow
          simp [column, truthUnder, hp, hhigh, hbit]
        · simp [column, truthUnder, hp, hhigh, ih choice hlow]
      · obtain ⟨c, rfl⟩ := Nat.exists_eq_add_of_le (Nat.le_of_not_lt hlow)
        have hrest : c < choices names := by omega
        by_cases hp : p = q
        · have hbit : (choices names + c).testBit names.length = true := by
            have hc : c.testBit names.length = false := Nat.testBit_lt_two_pow hrest
            rw [choices, Nat.pow_eq, Nat.testBit_two_pow_add_eq, hc, Bool.not_false]
          simp [column, truthUnder, hp, testBit_always, hrest, hbit]
        · have hhalf := testBit_column_of_le p names (choices names + c) (Nat.le_add_right _ _)
          have htruth : truthUnder names (choices names + c) p = truthUnder names c p :=
            truthUnder_add p (Nat.le_refl names.length) c
          simp [column, truthUnder, hp, hhalf, htruth, ih c hrest]

mutual

theorem testBit_table {names : List String} {choice : Nat} (h : choice < choices names) :
    (g : Guard) → (table names g).testBit choice = eval (truthUnder names choice) g
  | const value => by cases value <;> simp [table, eval, testBit_always, h]
  | var name => by simp [table, eval, testBit_column name names choice h]
  | not g => by simp [table, eval, testBit_always, h, testBit_table h g]
  | and gs => by simp [table, eval, testBit_tableAll h gs]
  | or gs => by simp [table, eval, testBit_tableAny h gs]
  | xor g k => by
      simp only [table, eval, Nat.testBit_xor, testBit_table h g, testBit_table h k]
  | implies g k => by
      simp [table, eval, testBit_always, h, testBit_table h g, testBit_table h k]
  | iff g k => by
      simp only [table, eval, Nat.testBit_xor, testBit_always, h, decide_true,
        testBit_table h g, testBit_table h k]
      cases eval (truthUnder names choice) g <;> simp

theorem testBit_tableAll {names : List String} {choice : Nat} (h : choice < choices names) :
    (gs : List Guard) →
      (tableAll names gs).testBit choice = gs.all (eval (truthUnder names choice))
  | [] => by simp [tableAll, testBit_always, h]
  | g :: gs => by simp [tableAll, testBit_table h g, testBit_tableAll h gs]

theorem testBit_tableAny {names : List String} {choice : Nat} (h : choice < choices names) :
    (gs : List Guard) →
      (tableAny names gs).testBit choice = gs.any (eval (truthUnder names choice))
  | [] => by simp [tableAny]
  | g :: gs => by simp [tableAny, testBit_table h g, testBit_tableAny h gs]

end

end Guard
end GossipGames
