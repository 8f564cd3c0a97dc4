import GossipGames.Guard.Diagnosis
import GossipGames.Guard.Model

/-!
# Findings

A finding is a defect of an instance together with the item that has it.  Every defect belongs to
one category and has one wording.
-/

namespace GossipGames
namespace Lint

inductive Category where
  | proposition
  | goal
  | label
  | payoff
  | state
  | action
  | guard
  | completeness
  | overlap
deriving DecidableEq

def Category.name : Category → String
  | proposition => "proposition"
  | goal => "goal"
  | label => "label"
  | payoff => "payoff"
  | state => "state"
  | action => "action"
  | guard => "guard"
  | completeness => "completeness"
  | overlap => "overlap"

inductive Defect where
  | repeatedProposition (name : String)
  | undeclaredInGoal (name : String)
  | unsupportedPayoff (payoff : String)
  | undeclaredModuleLabel (label : String)
  | undefinedInitial (state : String)
  | unlistedStateLabel (label : String)
  | undeclaredAction (action : String)
  | undefinedTarget (state : String)
  | emptyGuard
  | malformedGuard (text : String) (rejection : Guard.Rejection)
  | undeclaredInGuard (names : List String)
  | uncovered (valuation : Guard.Valuation)
  | overlapping (action : String)
deriving DecidableEq

namespace Defect

def category : Defect → Category
  | repeatedProposition _ => Category.proposition
  | undeclaredInGoal _ => Category.goal
  | unsupportedPayoff _ => Category.payoff
  | undeclaredModuleLabel _ => Category.label
  | undefinedInitial _ => Category.state
  | unlistedStateLabel _ => Category.label
  | undeclaredAction _ => Category.action
  | undefinedTarget _ => Category.state
  | emptyGuard => Category.guard
  | malformedGuard _ _ => Category.guard
  | undeclaredInGuard _ => Category.guard
  | uncovered _ => Category.completeness
  | overlapping _ => Category.overlap

def describe : Guard.Valuation → String
  | [] => "no propositions hold"
  | v => " & ".intercalate (v.map fun e => if e.2 then e.1 else "!" ++ e.1)

def message : Defect → String
  | repeatedProposition name => "proposition '" ++ name ++ "' is declared more than once"
  | undeclaredInGoal name => "goal references undeclared proposition '" ++ name ++ "'"
  | unsupportedPayoff payoff => "unsupported payoff '" ++ payoff ++ "'"
  | undeclaredModuleLabel label => "module label '" ++ label ++ "' is not a declared proposition"
  | undefinedInitial state => "initial state '" ++ state ++ "' is not defined"
  | unlistedStateLabel label => "state label '" ++ label ++ "' is not among the module labels"
  | undeclaredAction action => "action '" ++ action ++ "' is not declared"
  | undefinedTarget state => "target state '" ++ state ++ "' is not defined"
  | emptyGuard => "guard is empty; readers expect a formula such as 'true'"
  | malformedGuard text rejection =>
      "guard '" ++ text ++ "' does not parse: " ++ rejection.diagnostic.display
  | undeclaredInGuard names =>
      "guard references undeclared propositions: " ++ ", ".intercalate names
  | uncovered valuation => "no transition is enabled when " ++ describe valuation
  | overlapping action =>
      "transitions under action '" ++ action ++ "' to different targets overlap"

def diagnostic? : Defect → Option (String × Diagnostic)
  | malformedGuard text rejection => some (text, rejection.diagnostic)
  | _ => none

end Defect

structure Finding where
  /-- The path to the item, for instance `A1/s2/w#0`. -/
  location : String
  defect : Defect
deriving DecidableEq

namespace Finding

def category (f : Finding) : Category :=
  f.defect.category

def message (f : Finding) : String :=
  f.defect.message

def display (f : Finding) : String :=
  "warning[" ++ f.category.name ++ "] " ++ f.location ++ ": " ++ f.message

def report? (f : Finding) : Option Report :=
  f.defect.diagnostic?.map fun d => d.2.report f.location d.1

end Finding
end Lint
end GossipGames
