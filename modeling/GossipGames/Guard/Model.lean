import GossipGames.Guard.Table

/-!
# Models of guards

A model of a guard is a choice of truth values for its propositions under which it holds.  Models
are searched by fixing one proposition after the other and folding the constants that this brings,
so that a guard that has become false is given up at once.  When few propositions are left, the
model is read off the truth table.
-/

namespace GossipGames
namespace Guard

def isConst (value : Bool) : Guard → Bool
  | const v => v == value
  | _ => false

theorem eq_const_of_isConst {value : Bool} {g : Guard} (h : isConst value g = true) :
    g = const value := by
  cases g with
  | const v => simpa [isConst] using h
  | _ => simp [isConst] at h

def foldNot : Guard → Guard
  | const v => const (!v)
  | g => not g

def foldAnd (gs : List Guard) : Guard :=
  if gs.any (isConst false) then const false
  else if gs.all (isConst true) then const true
  else and (gs.filter fun g => !isConst true g)

def foldOr (gs : List Guard) : Guard :=
  if gs.any (isConst true) then const true
  else if gs.all (isConst false) then const false
  else or (gs.filter fun g => !isConst false g)

def foldXor : Guard → Guard → Guard
  | const true, g => foldNot g
  | const false, g => g
  | g, const true => foldNot g
  | g, const false => g
  | g, h => xor g h

def foldImplies : Guard → Guard → Guard
  | const true, g => g
  | const false, _ => const true
  | _, const true => const true
  | g, const false => foldNot g
  | g, h => implies g h

def foldIff : Guard → Guard → Guard
  | const true, g => g
  | const false, g => foldNot g
  | g, const true => g
  | g, const false => foldNot g
  | g, h => iff g h

@[simp]
theorem eval_foldNot (truth : String → Bool) (g : Guard) :
    eval truth (foldNot g) = !eval truth g := by
  unfold foldNot
  split <;> simp [eval]

@[simp]
theorem eval_foldAnd (truth : String → Bool) (gs : List Guard) :
    eval truth (foldAnd gs) = gs.all (eval truth) := by
  unfold foldAnd
  split
  · next h =>
    obtain ⟨g, hg, hc⟩ := List.any_eq_true.mp h
    have hfalse : eval truth g = false := by
      rw [eq_const_of_isConst hc, eval]
    symm
    simp only [eval, List.all_eq_false]
    exact ⟨g, hg, by simp [hfalse]⟩
  · split
    · next h =>
      symm
      simp only [eval, List.all_eq_true]
      intro g hg
      rw [eq_const_of_isConst (List.all_eq_true.mp h g hg), eval]
    · rw [eval, evalAll_eq_all, List.all_filter]
      congr 1
      funext g
      cases hc : isConst true g with
      | false => simp
      | true => simp [eq_const_of_isConst hc, eval]

@[simp]
theorem eval_foldOr (truth : String → Bool) (gs : List Guard) :
    eval truth (foldOr gs) = gs.any (eval truth) := by
  unfold foldOr
  split
  · next h =>
    obtain ⟨g, hg, hc⟩ := List.any_eq_true.mp h
    symm
    simp only [eval, List.any_eq_true]
    exact ⟨g, hg, by rw [eq_const_of_isConst hc, eval]⟩
  · split
    · next h =>
      symm
      simp only [eval, List.any_eq_false]
      intro g hg
      rw [eq_const_of_isConst (List.all_eq_true.mp h g hg), eval]
      simp
    · rw [eval, evalAny_eq_any, List.any_filter]
      congr 1
      funext g
      cases hc : isConst false g with
      | false => simp
      | true => simp [eq_const_of_isConst hc, eval]

@[simp]
theorem eval_foldXor (truth : String → Bool) (g h : Guard) :
    eval truth (foldXor g h) = (eval truth g != eval truth h) := by
  unfold foldXor
  split <;> simp [eval]

@[simp]
theorem eval_foldImplies (truth : String → Bool) (g h : Guard) :
    eval truth (foldImplies g h) = (!eval truth g || eval truth h) := by
  unfold foldImplies
  split <;> simp [eval]

@[simp]
theorem eval_foldIff (truth : String → Bool) (g h : Guard) :
    eval truth (foldIff g h) = (eval truth g == eval truth h) := by
  unfold foldIff
  split <;> simp [eval]

mutual

def assign (p : String) (value : Bool) : Guard → Guard
  | const v => const v
  | var name => if name = p then const value else var name
  | not g => foldNot (assign p value g)
  | and gs => foldAnd (assignEach p value gs)
  | or gs => foldOr (assignEach p value gs)
  | xor g h => foldXor (assign p value g) (assign p value h)
  | implies g h => foldImplies (assign p value g) (assign p value h)
  | iff g h => foldIff (assign p value g) (assign p value h)

def assignEach (p : String) (value : Bool) : List Guard → List Guard
  | [] => []
  | g :: gs => assign p value g :: assignEach p value gs

end

/-- A truth function with the value at one name replaced. -/
def fix (truth : String → Bool) (p : String) (value : Bool) : String → Bool :=
  fun name => if name = p then value else truth name

mutual

theorem eval_assign (truth : String → Bool) (p : String) (value : Bool) :
    (g : Guard) → eval truth (assign p value g) = eval (fix truth p value) g
  | const v => by simp [assign, eval]
  | var name => by
      by_cases h : name = p <;> simp [assign, eval, fix, h]
  | not g => by simp [assign, eval, eval_assign truth p value g]
  | and gs => by simp [assign, eval, all_assignEach truth p value gs]
  | or gs => by simp [assign, eval, any_assignEach truth p value gs]
  | xor g h => by simp [assign, eval, eval_assign truth p value g, eval_assign truth p value h]
  | implies g h => by
      simp [assign, eval, eval_assign truth p value g, eval_assign truth p value h]
  | iff g h => by simp [assign, eval, eval_assign truth p value g, eval_assign truth p value h]

theorem all_assignEach (truth : String → Bool) (p : String) (value : Bool) :
    (gs : List Guard) →
      (assignEach p value gs).all (eval truth) = gs.all (eval (fix truth p value))
  | [] => rfl
  | g :: gs => by
      simp [assignEach, eval_assign truth p value g, all_assignEach truth p value gs]

theorem any_assignEach (truth : String → Bool) (p : String) (value : Bool) :
    (gs : List Guard) →
      (assignEach p value gs).any (eval truth) = gs.any (eval (fix truth p value))
  | [] => rfl
  | g :: gs => by
      simp [assignEach, eval_assign truth p value g, any_assignEach truth p value gs]

end

/-!
# The least model

Of two choices, the one that makes the last differing proposition false is less.  A proposition that
the guard does not mention is false in the least model.
-/

abbrev Valuation :=
  List (String × Bool)

/-- The least choice in a table over names of which the first weighs most. -/
def leastIn : List String → Nat → Option Valuation
  | [], t => if t = 0 then none else some []
  | p :: names, t =>
      let low := t &&& always names
      if low = 0 then (leastIn names (t >>> choices names)).map fun v => v ++ [(p, true)]
      else (leastIn names low).map fun v => v ++ [(p, false)]

def tableNames : Nat :=
  16

/-- Searches the names from the last one, which weighs most, to the first. -/
def searchDown : List String → Guard → Option Valuation
  | [], g => leastIn [] (table [] g)
  | p :: names, g =>
      if names.length < tableNames then leastIn (p :: names) (table (p :: names) g)
      else if isConst false g then none
      else if g.mentions p then
        match searchDown names (assign p false g) with
        | some v => some (v ++ [(p, false)])
        | none => (searchDown names (assign p true g)).map fun v => v ++ [(p, true)]
      else (searchDown names g).map fun v => v ++ [(p, false)]

def leastModel? (names : List String) (g : Guard) : Option Valuation :=
  searchDown names.reverse g

def isSatisfiable (g : Guard) : Bool :=
  (leastModel? g.propositions g).isSome

def Valuation.truth (v : Valuation) (name : String) : Bool :=
  (v.lookup name).getD false

def valuations : List String → List Valuation
  | [] => [[]]
  | p :: names =>
      (valuations names).flatMap fun v => [(p, false) :: v, (p, true) :: v]

/-- The value of a guard for every choice on its propositions. -/
def truthTable (g : Guard) : List Bool :=
  (valuations g.propositions).map fun v => eval v.truth g

end Guard
end GossipGames
