import GossipGames.Lint.Coverage
import GossipGames.Text.Blank

/-!
# The rules for an instance

The findings stand in the order of the instance: its declarations and its goal, then each module
with its own items, its states and their transitions, and after the transitions of a state its
coverage.
-/

namespace GossipGames
namespace Lint

structure Options where
  enabled : Bool := false
  denyWarnings : Bool := false
  /-- A state whose guards mention more propositions than this is not examined for coverage. -/
  maxEnumerated : Nat := 16
deriving DecidableEq, Inhabited

def findingsAt (location : String) (defects : List Defect) : List Finding :=
  defects.map fun d => ⟨location, d⟩

/-!
# Declarations and goals

A goal is a temporal formula.  Only its names are examined; the letters of the temporal operators
are no propositions.
-/

/-- The members of a list that occurred before, each time they occur again. -/
def repeated (seen : List String) : List String → List String
  | [] => []
  | x :: xs => if x ∈ seen then x :: repeated seen xs else repeated (x :: seen) xs

def temporalOperators : List String :=
  ["F", "G", "X", "U", "R", "W", "M"]

def names (text : String) : List String :=
  (Guard.lex text).filterMap fun p =>
    match p.lexeme with
    | Guard.Lexeme.token (Guard.Token.name name) => some name
    | _ => none

/-- Each name of a goal that is not declared, once and in ascending order. -/
def goalDefects (declared : List String) (goal : String) : List Defect :=
  (Sorted.ofList ((names goal).filter fun name =>
    !temporalOperators.contains name && !declared.contains name)).map Defect.undeclaredInGoal

def judge (declared : List String) (text : String) : Except Defect Guard :=
  if trim text.toList = [] then .error .emptyGuard
  else
    match Guard.parse text with
    | .error r => .error (.malformedGuard text r)
    | .ok g =>
        match g.propositions.filter fun name => !declared.contains name with
        | [] => .ok g
        | missing => .error (.undeclaredInGuard missing)

def guardDefects (declared : List String) (text : String) : List Defect :=
  match judge declared text with
  | .error d => [d]
  | .ok _ => []

def transitionDefects (declared : List String) (m : Module) (t : Transition) : List Defect :=
  (if t.action = wildcard ∨ m.hasAction t.action then [] else [.undeclaredAction t.action]) ++
    (if m.hasState t.target then [] else [.undefinedTarget t.target]) ++
    guardDefects declared t.guard

def branch? (declared : List String) (t : Transition) : Option Branch :=
  match judge declared t.guard with
  | .error _ => none
  | .ok g => some ⟨t.action, g, t.target⟩

def transitionLocation (location : String) (index : Nat) (t : Transition) : String :=
  location ++ "/" ++ t.action ++ "#" ++ toString index

/-- The findings of the transitions of a state from the one with a given index on. -/
def checkTransitions (declared : List String) (m : Module) (location : String) (index : Nat) :
    List Transition → List Finding
  | [] => []
  | t :: ts =>
      findingsAt (transitionLocation location index t) (transitionDefects declared m t) ++
        checkTransitions declared m location (index + 1) ts

def labelDefects (m : Module) (s : State) : List Defect :=
  (s.labels.filter fun l => !m.labels.contains l).map Defect.unlistedStateLabel

def coverageDefects (declared : List String) (limit : Nat) (m : Module) (s : State) :
    List Defect :=
  match s.transitions.mapM (branch? declared) with
  | some branches => coverage limit m branches
  | none => []

def checkState (declared : List String) (limit : Nat) (m : Module) (location : String)
    (s : State) : List Finding :=
  findingsAt location (labelDefects m s) ++
    checkTransitions declared m location 0 s.transitions ++
    findingsAt location (coverageDefects declared limit m s)

def payoffs : List String :=
  ["1", "true", "0", "false", "?"]

def moduleDefects (declared : List String) (m : Module) : List Defect :=
  goalDefects declared m.goal ++
    (if payoffs.contains m.payoff then [] else [.unsupportedPayoff m.payoff]) ++
    (m.labels.filter fun l => !declared.contains l).map Defect.undeclaredModuleLabel ++
    (if m.hasState m.initial then [] else [.undefinedInitial m.initial])

def checkModule (declared : List String) (limit : Nat) (name : String) (m : Module) :
    List Finding :=
  findingsAt name (moduleDefects declared m) ++
    m.states.flatMap fun e => checkState declared limit m (name ++ "/" ++ e.1) e.2

/-- All findings of an instance.  Whether the check is enabled is not asked here. -/
def check (o : Options) (g : Instance) : List Finding :=
  findingsAt "ap" ((repeated [] g.propositions).map Defect.repeatedProposition) ++
    findingsAt "instance" (goalDefects g.propositions g.goal) ++
    g.modules.flatMap fun e => checkModule g.propositions o.maxEnumerated e.1 e.2

end Lint
end GossipGames
