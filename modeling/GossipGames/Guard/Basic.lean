import GossipGames.Text.Sorted

/-!
# Guard formulas

A guard is a propositional formula over named propositions.  Conjunction and disjunction take any
number of operands; the other connectives take two.
-/

namespace GossipGames

inductive Guard where
  | const (value : Bool)
  | var (name : String)
  | not (body : Guard)
  | and (operands : List Guard)
  | or (operands : List Guard)
  | xor (left right : Guard)
  | implies (left right : Guard)
  | iff (left right : Guard)
deriving Inhabited

namespace Guard

mutual

def eval (truth : String → Bool) : Guard → Bool
  | const value => value
  | var name => truth name
  | not body => !eval truth body
  | and operands => evalAll truth operands
  | or operands => evalAny truth operands
  | xor left right => eval truth left != eval truth right
  | implies left right => !eval truth left || eval truth right
  | iff left right => eval truth left == eval truth right

def evalAll (truth : String → Bool) : List Guard → Bool
  | [] => true
  | g :: gs => eval truth g && evalAll truth gs

def evalAny (truth : String → Bool) : List Guard → Bool
  | [] => false
  | g :: gs => eval truth g || evalAny truth gs

end

@[simp]
theorem evalAll_eq_all (truth : String → Bool) (gs : List Guard) :
    evalAll truth gs = gs.all (eval truth) := by
  induction gs with
  | nil =>
      rfl
  | cons g gs ih =>
      simp [evalAll, ih]

@[simp]
theorem evalAny_eq_any (truth : String → Bool) (gs : List Guard) :
    evalAny truth gs = gs.any (eval truth) := by
  induction gs with
  | nil =>
      rfl
  | cons g gs ih =>
      simp [evalAny, ih]

/-!
# Propositions

The leaves are the names as they occur from left to right; the propositions are the same names,
each once and ascending.
-/

mutual

def leaves : Guard → List String
  | const _ => []
  | var name => [name]
  | not body => leaves body
  | and operands => leavesOf operands
  | or operands => leavesOf operands
  | xor left right => leaves left ++ leaves right
  | implies left right => leaves left ++ leaves right
  | iff left right => leaves left ++ leaves right

def leavesOf : List Guard → List String
  | [] => []
  | g :: gs => leaves g ++ leavesOf gs

end

@[simp]
theorem leavesOf_eq_flatMap (gs : List Guard) :
    leavesOf gs = gs.flatMap leaves := by
  induction gs with
  | nil =>
      rfl
  | cons g gs ih =>
      simp [leavesOf, ih]

mutual

def mentions (p : String) : Guard → Bool
  | const _ => false
  | var name => name == p
  | not body => mentions p body
  | and operands => anyMentions p operands
  | or operands => anyMentions p operands
  | xor left right => mentions p left || mentions p right
  | implies left right => mentions p left || mentions p right
  | iff left right => mentions p left || mentions p right

def anyMentions (p : String) : List Guard → Bool
  | [] => false
  | g :: gs => mentions p g || anyMentions p gs

end

mutual

theorem mentions_iff_mem_leaves (p : String) :
    (g : Guard) → (mentions p g = true ↔ p ∈ leaves g)
  | const _ => by simp [mentions, leaves]
  | var name => by
      simp only [mentions, leaves, beq_iff_eq, List.mem_singleton]
      exact eq_comm
  | not g => by simp [mentions, leaves, mentions_iff_mem_leaves p g]
  | and gs => by simp [mentions, leaves, anyMentions_iff_mem_flatMap p gs]
  | or gs => by simp [mentions, leaves, anyMentions_iff_mem_flatMap p gs]
  | xor g h => by
      simp [mentions, leaves, mentions_iff_mem_leaves p g, mentions_iff_mem_leaves p h]
  | implies g h => by
      simp [mentions, leaves, mentions_iff_mem_leaves p g, mentions_iff_mem_leaves p h]
  | iff g h => by
      simp [mentions, leaves, mentions_iff_mem_leaves p g, mentions_iff_mem_leaves p h]

theorem anyMentions_iff_mem_flatMap (p : String) :
    (gs : List Guard) → (anyMentions p gs = true ↔ p ∈ gs.flatMap leaves)
  | [] => by simp [anyMentions]
  | g :: gs => by
      rw [anyMentions, Bool.or_eq_true, mentions_iff_mem_leaves p g,
        anyMentions_iff_mem_flatMap p gs, List.flatMap_cons, List.mem_append]

end

def propositions (g : Guard) : List String :=
  Sorted.ofList g.leaves

mutual

def same : Guard → Guard → Bool
  | const a, const b => a == b
  | var a, var b => a == b
  | not a, not b => same a b
  | and as, and bs => sameAll as bs
  | or as, or bs => sameAll as bs
  | xor a b, xor c d => same a c && same b d
  | implies a b, implies c d => same a c && same b d
  | iff a b, iff c d => same a c && same b d
  | _, _ => false

def sameAll : List Guard → List Guard → Bool
  | [], [] => true
  | a :: as, b :: bs => same a b && sameAll as bs
  | _, _ => false

end

mutual

theorem same_iff_eq : (a b : Guard) → (same a b = true ↔ a = b)
  | const _, b => by cases b <;> simp [same]
  | var _, b => by cases b <;> simp [same]
  | not a, b => by cases b <;> simp [same, same_iff_eq a]
  | and as, b => by cases b <;> simp [same, sameAll_iff_eq as]
  | or as, b => by cases b <;> simp [same, sameAll_iff_eq as]
  | xor a₁ a₂, b => by cases b <;> simp [same, same_iff_eq a₁, same_iff_eq a₂]
  | implies a₁ a₂, b => by cases b <;> simp [same, same_iff_eq a₁, same_iff_eq a₂]
  | iff a₁ a₂, b => by cases b <;> simp [same, same_iff_eq a₁, same_iff_eq a₂]

theorem sameAll_iff_eq : (as bs : List Guard) → (sameAll as bs = true ↔ as = bs)
  | [], bs => by cases bs <;> simp [sameAll]
  | a :: as, bs => by cases bs <;> simp [sameAll, same_iff_eq a, sameAll_iff_eq as]

end

instance : DecidableEq Guard := fun a b =>
  decidable_of_iff (same a b = true) (same_iff_eq a b)

end Guard
end GossipGames
