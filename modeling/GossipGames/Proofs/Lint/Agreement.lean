import GossipGames.Proofs.Lint.Decision
import Mathlib.Data.List.Sort

/-!
# What the check asks of a module

The transitions of a state are checked against the declared names and against their module, of which
only the actions and the names of the states are looked at.  Where these are the same, the findings
are the same.
-/

namespace GossipGames
namespace Lint

structure Agree (m m' : Module) : Prop where
  actions : ∀ action, action ∈ m.actions ↔ action ∈ m'.actions
  names : ∀ name, name ∈ m.states.map Prod.fst ↔ name ∈ m'.states.map Prod.fst

variable {declared declared' : List String} {m m' : Module}

theorem goalDefects_congr (h : declared.Perm declared') (goal : String) :
    goalDefects declared goal = goalDefects declared' goal := by
  simp only [goalDefects, h.contains_eq]

theorem judge_congr (h : declared.Perm declared') (text : String) :
    judge declared text = judge declared' text := by
  simp only [judge, h.contains_eq]

theorem branch?_congr (h : declared.Perm declared') (t : Transition) :
    branch? declared t = branch? declared' t := by
  simp only [branch?, judge_congr h]

theorem hasAction_congr (h : Agree m m') (action : String) :
    m.hasAction action = m'.hasAction action := by
  rw [Bool.eq_iff_iff, hasAction_iff, hasAction_iff, h.actions]

theorem hasState_iff_mem_names {name : String} :
    m.hasState name = true ↔ name ∈ m.states.map Prod.fst := by
  simp [hasState_iff]

theorem hasState_congr (h : Agree m m') (name : String) :
    m.hasState name = m'.hasState name := by
  rw [Bool.eq_iff_iff, hasState_iff_mem_names, hasState_iff_mem_names, h.names]

theorem transitionDefects_congr (hdeclared : declared.Perm declared') (hm : Agree m m')
    (t : Transition) : transitionDefects declared m t = transitionDefects declared' m' t := by
  simp only [transitionDefects, guardDefects, judge_congr hdeclared, hasAction_congr hm,
    hasState_congr hm]

theorem checkTransitions_congr (hdeclared : declared.Perm declared') (hm : Agree m m')
    (location : String) (index : Nat) (ts : List Transition) :
    checkTransitions declared m location index ts =
      checkTransitions declared' m' location index ts := by
  induction ts generalizing index with
  | nil =>
      rfl
  | cons t ts ih =>
      rw [checkTransitions, checkTransitions, transitionDefects_congr hdeclared hm, ih]

theorem mem_actions_congr (h : Agree m m') (b : Branch) (action : String) :
    action ∈ b.actions m ↔ action ∈ b.actions m' := by
  unfold Branch.actions
  split
  · exact h.actions action
  · exact Iff.rfl

theorem overlapping_congr (h : Agree m m') (branches : List Branch) :
    overlapping m branches = overlapping m' branches := by
  refine (pairwise_overlapping m branches).eq_of_mem_iff (pairwise_overlapping m' branches) ?_
  intro action
  simp only [mem_overlapping, mem_actions_congr h]

theorem coverageDefects_congr {s s' : State} (hdeclared : declared.Perm declared')
    (hm : Agree m m') (hs : s.transitions = s'.transitions) (limit : Nat) :
    coverageDefects declared limit m s = coverageDefects declared' limit m' s' := by
  have hbranches : branch? declared = branch? declared' :=
    funext (branch?_congr hdeclared)
  simp only [coverageDefects, coverage, hbranches, hs, overlapping_congr hm]

end Lint
end GossipGames
