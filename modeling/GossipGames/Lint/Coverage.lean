import GossipGames.Instance.Basic
import GossipGames.Lint.Finding

/-!
# Coverage of a state

Whatever propositions hold, some transition of a state has to be enabled, and no two transitions to
different targets may be enabled under one action.  A transition whose action is the wildcard stands
for every action that its module declares.
-/

namespace GossipGames
namespace Lint

def wildcard : String :=
  "*"

structure Branch where
  action : String
  guard : Guard
  target : String

namespace Branch

def actions (m : Module) (b : Branch) : List String :=
  if b.action = wildcard then m.actions else [b.action]

def conflicts (b c : Branch) : Bool :=
  b.target != c.target && (Guard.and [b.guard, c.guard]).isSatisfiable

end Branch

def mentioned (branches : List Branch) : List String :=
  Sorted.ofList (branches.flatMap fun b => b.guard.leaves)

/-- The least valuation under which no branch is enabled. -/
def gap? (branches : List Branch) : Option Guard.Valuation :=
  Guard.leastModel? (mentioned branches)
    (Guard.and (branches.map fun b => Guard.not b.guard))

def pairs : List α → List (α × α)
  | [] => []
  | x :: xs => xs.map (fun y => (x, y)) ++ pairs xs

/-- Every two branches that conflict.  Among few propositions, the truth tables are compared. -/
def conflicting (branches : List Branch) : List (Branch × Branch) :=
  let names := (mentioned branches).reverse
  if names.length ≤ Guard.tableNames then
    let tables := branches.map fun b => (b, b.guard.table names)
    ((pairs tables).filter fun p =>
      p.1.1.target != p.2.1.target && p.1.2 &&& p.2.2 != 0).map fun p => (p.1.1, p.2.1)
  else (pairs branches).filter fun p => p.1.conflicts p.2

/-- The actions, ascending, for which two conflicting branches stand. -/
def overlapping (m : Module) (branches : List Branch) : List String :=
  let found := conflicting branches
  (Sorted.ofList (branches.flatMap fun b => b.actions m)).filter fun action =>
    found.any fun p => (p.1.actions m).contains action && (p.2.actions m).contains action

/-- The number of propositions at which a state is never examined. -/
def wordSize : Nat :=
  64

def coverage (limit : Nat) (m : Module) (branches : List Branch) : List Defect :=
  let count := (mentioned branches).length
  if limit < count ∨ wordSize ≤ count then []
  else
    (gap? branches).toList.map Defect.uncovered ++
      (overlapping m branches).map Defect.overlapping

end Lint
end GossipGames
