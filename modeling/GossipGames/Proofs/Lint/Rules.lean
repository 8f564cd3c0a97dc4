import GossipGames.Lint.Check
import GossipGames.Proofs.Guard.Lexemes
import GossipGames.Proofs.Lint.Coverage
import Mathlib.Data.Set.Card

/-!
# The rules of an instance

The rules are stated here without the check: what the texts of an instance have to read as, which
names have to be declared, and what the transitions of a state have to do under every truth function
on all names.
-/

namespace GossipGames

namespace Transition

/-- The guard can be read and holds. -/
def Enabled (t : Transition) (truth : String → Bool) : Prop :=
  ∃ g, Guard.parse t.guard = .ok g ∧ g.eval truth = true

def Mentions (t : Transition) (p : String) : Prop :=
  ∃ g, Guard.parse t.guard = .ok g ∧ p ∈ g.leaves

/-- The wildcard stands for every action that the module declares, another action for itself. -/
def StandsFor (t : Transition) (m : Module) (action : String) : Prop :=
  (t.action ≠ "*" ∧ t.action = action) ∨ (t.action = "*" ∧ action ∈ m.actions)

end Transition

namespace State

def mentioned (s : State) : Set String :=
  {p | ∃ t ∈ s.transitions, t.Mentions p}

def Stuck (s : State) (truth : String → Bool) : Prop :=
  ∀ t ∈ s.transitions, ¬ t.Enabled truth

/-- Two enabled transitions to different targets stand for the action. -/
def Overlaps (s : State) (m : Module) (truth : String → Bool) (action : String) : Prop :=
  ∃ t ∈ s.transitions, ∃ u ∈ s.transitions, t.target ≠ u.target ∧
    t.Enabled truth ∧ u.Enabled truth ∧ t.StandsFor m action ∧ u.StandsFor m action

end State

namespace Lint

def GuardSound (declared : List String) (text : String) : Prop :=
  ∃ g, Guard.parse text = .ok g ∧ ∀ p ∈ g.leaves, p ∈ declared

def GoalSound (declared : List String) (goal : String) : Prop :=
  ∀ name, Guard.Lexeme.token (Guard.Token.name name) ∈ (Guard.lex goal).map Guard.Piece.lexeme →
    name ∈ declared ∨ name ∈ ["F", "G", "X", "U", "R", "W", "M"]

structure TransitionSound (declared : List String) (m : Module) (t : Transition) : Prop where
  action : t.action = "*" ∨ t.action ∈ m.actions
  target : ∃ s, (t.target, s) ∈ m.states
  guard : GuardSound declared t.guard

/-- Coverage is required of a state unless its guards mention too many propositions. -/
structure StateSound (declared : List String) (limit : Nat) (m : Module) (s : State) : Prop where
  labels : ∀ l ∈ s.labels, l ∈ m.labels
  transitions : ∀ t ∈ s.transitions, TransitionSound declared m t
  complete : s.mentioned.ncard ≤ limit → s.mentioned.ncard < 64 →
    ∀ truth, ∃ t ∈ s.transitions, t.Enabled truth
  deterministic : s.mentioned.ncard ≤ limit → s.mentioned.ncard < 64 →
    ∀ truth action, ¬ s.Overlaps m truth action

structure ModuleSound (declared : List String) (limit : Nat) (m : Module) : Prop where
  goal : GoalSound declared m.goal
  payoff : m.payoff ∈ ["1", "true", "0", "false", "?"]
  labels : ∀ l ∈ m.labels, l ∈ declared
  initial : ∃ s, (m.initial, s) ∈ m.states
  states : ∀ e ∈ m.states, StateSound declared limit m e.2

structure InstanceSound (limit : Nat) (g : Instance) : Prop where
  propositions : g.propositions.Nodup
  goal : GoalSound g.propositions g.goal
  modules : ∀ e ∈ g.modules, ModuleSound g.propositions limit e.2

theorem judge_eq_ok_iff {declared : List String} {text : String} {g : Guard} :
    judge declared text = .ok g ↔ Guard.parse text = .ok g ∧ ∀ p ∈ g.leaves, p ∈ declared := by
  have hmissing : ∀ g' : Guard, (g'.propositions.filter fun name => !declared.contains name) = [] ↔
      ∀ p ∈ g'.leaves, p ∈ declared := by
    intro g'
    simp [Guard.propositions]
  unfold judge
  split
  · next hblank =>
    constructor
    · intro h
      cases h
    · intro h
      exact absurd hblank (Guard.trim_ne_nil_of_parse h.1)
  · split
    · next hparse =>
      simp [hparse]
    · next g' hparse =>
      split
      · next hnone =>
        rw [hparse]
        constructor
        · intro h
          cases h
          exact ⟨rfl, (hmissing g).mp hnone⟩
        · intro h
          cases h.1
          rfl
      · next hsome =>
        rw [hparse]
        constructor
        · intro h
          cases h
        · intro h
          cases h.1
          exact absurd ((hmissing g).mpr h.2) hsome

theorem exists_judge_iff {declared : List String} {text : String} :
    (∃ g, judge declared text = .ok g) ↔ GuardSound declared text := by
  simp only [judge_eq_ok_iff, GuardSound]

theorem guardDefects_eq_nil_iff {declared : List String} {text : String} :
    guardDefects declared text = [] ↔ GuardSound declared text := by
  rw [← exists_judge_iff]
  unfold guardDefects
  cases judge declared text <;> simp

/-!
# Branches

A transition whose guard cannot be read is never enabled, so a branch that is never enabled may
stand for it.
-/

def branchOf (t : Transition) : Branch where
  action := t.action
  guard :=
    match Guard.parse t.guard with
    | .ok g => g
    | .error _ => Guard.const false
  target := t.target

def branchesOf (s : State) : List Branch :=
  s.transitions.map branchOf

theorem eval_branchOf_iff {t : Transition} {truth : String → Bool} :
    (branchOf t).guard.eval truth = true ↔ t.Enabled truth := by
  unfold branchOf Transition.Enabled
  cases Guard.parse t.guard <;> simp [Guard.eval]

theorem mem_leaves_branchOf_iff {t : Transition} {p : String} :
    p ∈ (branchOf t).guard.leaves ↔ t.Mentions p := by
  unfold branchOf Transition.Mentions
  cases Guard.parse t.guard <;> simp [Guard.leaves]

theorem mem_actions_branchOf_iff {t : Transition} {m : Module} {action : String} :
    action ∈ (branchOf t).actions m ↔ t.StandsFor m action := by
  by_cases h : t.action = "*"
  · simp [Branch.actions, branchOf, Transition.StandsFor, wildcard, h]
  · simp [Branch.actions, branchOf, Transition.StandsFor, wildcard, h, eq_comm]

theorem mem_mentioned_branchesOf {s : State} {p : String} :
    p ∈ mentioned (branchesOf s) ↔ p ∈ s.mentioned := by
  simp [mem_mentioned, branchesOf, mem_leaves_branchOf_iff, State.mentioned]

theorem length_mentioned_branchesOf (s : State) :
    (mentioned (branchesOf s)).length = s.mentioned.ncard := by
  have hset : s.mentioned = ((mentioned (branchesOf s)).toFinset : Set String) := by
    ext p
    rw [Finset.mem_coe, List.mem_toFinset, mem_mentioned_branchesOf]
  rw [hset, Set.ncard_coe_finset, List.toFinset_card_of_nodup (nodup_mentioned _)]

theorem noneEnabled_branchesOf_iff {s : State} {truth : String → Bool} :
    NoneEnabled (branchesOf s) truth ↔ s.Stuck truth := by
  simp [NoneEnabled, branchesOf, State.Stuck, ← eval_branchOf_iff]

theorem mem_overlapping_branchesOf {s : State} {m : Module} {action : String} :
    action ∈ overlapping m (branchesOf s) ↔ ∃ truth, s.Overlaps m truth action := by
  rw [mem_overlapping]
  constructor
  · intro h
    rcases h with ⟨_, hb, _, hc, ⟨htarget, truth, heval⟩, hactions⟩
    rcases List.mem_map.mp hb with ⟨t, ht, rfl⟩
    rcases List.mem_map.mp hc with ⟨u, hu, rfl⟩
    exact ⟨truth, t, ht, u, hu, htarget, eval_branchOf_iff.mp heval.1, eval_branchOf_iff.mp heval.2,
      mem_actions_branchOf_iff.mp hactions.1, mem_actions_branchOf_iff.mp hactions.2⟩
  · intro h
    rcases h with ⟨truth, t, ht, u, hu, htarget, hevalt, hevalu, hactt, hactu⟩
    exact ⟨branchOf t, List.mem_map_of_mem ht, branchOf u, List.mem_map_of_mem hu,
      ⟨htarget, truth, eval_branchOf_iff.mpr hevalt, eval_branchOf_iff.mpr hevalu⟩,
      mem_actions_branchOf_iff.mpr hactt, mem_actions_branchOf_iff.mpr hactu⟩

theorem branch?_eq_some_iff {declared : List String} {t : Transition} {b : Branch} :
    branch? declared t = some b ↔ GuardSound declared t.guard ∧ b = branchOf t := by
  unfold branch?
  cases hjudge : judge declared t.guard with
  | error d =>
      have hunsound : ¬ GuardSound declared t.guard := by
        rw [← exists_judge_iff, hjudge]
        simp
      simp [hunsound]
  | ok g =>
      have hsound : GuardSound declared t.guard := exists_judge_iff.mp ⟨g, hjudge⟩
      simp [hsound, branchOf, (judge_eq_ok_iff.mp hjudge).1, eq_comm]

theorem mapM_branch?_eq_some_iff {declared : List String} {ts : List Transition}
    {bs : List Branch} :
    ts.mapM (branch? declared) = some bs ↔
      (∀ t ∈ ts, GuardSound declared t.guard) ∧ bs = ts.map branchOf := by
  induction ts generalizing bs with
  | nil =>
      simp [eq_comm]
  | cons t ts ih =>
      simp only [List.mapM_cons, Option.bind_eq_bind, Option.bind_eq_some_iff,
        branch?_eq_some_iff, ih, List.forall_mem_cons, List.map_cons]
      constructor
      · intro h
        rcases h with ⟨_, ⟨hfirst, rfl⟩, _, ⟨hrest, rfl⟩, heq⟩
        cases heq
        exact ⟨⟨hfirst, hrest⟩, rfl⟩
      · intro h
        rcases h with ⟨⟨hfirst, hrest⟩, rfl⟩
        exact ⟨_, ⟨hfirst, rfl⟩, _, ⟨hrest, rfl⟩, rfl⟩

theorem coverageDefects_of_sound {declared : List String} {limit : Nat} {m : Module} {s : State}
    (h : ∀ t ∈ s.transitions, GuardSound declared t.guard) :
    coverageDefects declared limit m s = coverage limit m (branchesOf s) := by
  rw [coverageDefects, mapM_branch?_eq_some_iff.mpr ⟨h, rfl⟩]
  rfl

end Lint
end GossipGames
