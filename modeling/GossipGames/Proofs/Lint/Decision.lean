import GossipGames.Proofs.Lint.Rules

/-!
# The check decides the rules

Each part of the check finds nothing exactly when its rule is kept, from the names of a goal up to
the whole instance.
-/

namespace GossipGames
namespace Lint

@[simp]
theorem findingsAt_eq_nil_iff {location : String} {defects : List Defect} :
    findingsAt location defects = [] ↔ defects = [] := by
  simp [findingsAt]

theorem repeated_eq_nil_iff {seen xs : List String} :
    repeated seen xs = [] ↔ xs.Nodup ∧ ∀ x ∈ xs, x ∉ seen := by
  induction xs generalizing seen with
  | nil =>
      simp [repeated]
  | cons x xs ih =>
      by_cases hseen : x ∈ seen
      · simp [repeated, hseen]
      · rw [repeated, if_neg hseen, ih, List.nodup_cons, List.forall_mem_cons]
        simp only [List.mem_cons, not_or]
        constructor
        · intro h
          rcases h with ⟨hdistinct, hrest⟩
          exact ⟨⟨fun hx => (hrest x hx).1 rfl, hdistinct⟩, hseen, fun y hy => (hrest y hy).2⟩
        · intro h
          rcases h with ⟨⟨hx, hdistinct⟩, _, hrest⟩
          exact ⟨hdistinct, fun y hy => ⟨fun heq => hx (heq ▸ hy), hrest y hy⟩⟩

theorem mem_names_iff {name text : String} :
    name ∈ names text ↔
      Guard.Lexeme.token (Guard.Token.name name) ∈ (Guard.lex text).map Guard.Piece.lexeme := by
  rw [names, List.mem_filterMap, List.mem_map]
  refine exists_congr fun p => and_congr_right fun _ => ?_
  constructor
  · intro h
    split at h
    · next hlexeme =>
      cases h
      exact hlexeme
    · cases h
  · intro h
    rw [h]

theorem goalDefects_eq_nil_iff {declared : List String} {goal : String} :
    goalDefects declared goal = [] ↔ GoalSound declared goal := by
  rw [goalDefects, List.map_eq_nil_iff, List.eq_nil_iff_forall_not_mem]
  refine forall_congr' fun name => ?_
  rw [Sorted.mem_ofList, List.mem_filter, mem_names_iff]
  simp only [temporalOperators, Bool.and_eq_true, Bool.not_eq_true', List.contains_eq_mem,
    decide_eq_false_iff_not, not_and, not_not]
  constructor
  · intro h hname
    by_cases htemporal : name ∈ ["F", "G", "X", "U", "R", "W", "M"]
    · exact Or.inr htemporal
    · exact Or.inl (h hname htemporal)
  · intro h hname htemporal
    exact (h hname).resolve_right htemporal

theorem hasState_iff {m : Module} {name : String} :
    m.hasState name = true ↔ ∃ s, (name, s) ∈ m.states := by
  simp [Module.hasState, Module.state?]

theorem hasAction_iff {m : Module} {action : String} :
    m.hasAction action = true ↔ action ∈ m.actions := by
  simp [Module.hasAction]

theorem transitionDefects_eq_nil_iff {declared : List String} {m : Module} {t : Transition} :
    transitionDefects declared m t = [] ↔ TransitionSound declared m t := by
  rw [transitionDefects, List.append_eq_nil_iff, List.append_eq_nil_iff, guardDefects_eq_nil_iff]
  simp only [ite_eq_left_iff, imp_false, not_not, reduceCtorEq, hasState_iff, hasAction_iff,
    wildcard]
  constructor
  · intro h
    exact ⟨h.1.1, h.1.2, h.2⟩
  · intro h
    exact ⟨⟨h.action, h.target⟩, h.guard⟩

theorem checkTransitions_eq_nil_iff {declared : List String} {m : Module} {location : String}
    {index : Nat} {ts : List Transition} :
    checkTransitions declared m location index ts = [] ↔
      ∀ t ∈ ts, TransitionSound declared m t := by
  induction ts generalizing index with
  | nil =>
      simp [checkTransitions]
  | cons t ts ih =>
      rw [checkTransitions, List.append_eq_nil_iff, findingsAt_eq_nil_iff,
        transitionDefects_eq_nil_iff, ih, List.forall_mem_cons]

theorem gap?_branchesOf_eq_none_iff {s : State} :
    gap? (branchesOf s) = none ↔ ∀ truth, ∃ t ∈ s.transitions, t.Enabled truth := by
  simp [gap?_eq_none_iff, noneEnabled_branchesOf_iff, State.Stuck]

theorem overlapping_branchesOf_eq_nil_iff {s : State} {m : Module} :
    overlapping m (branchesOf s) = [] ↔ ∀ truth action, ¬ s.Overlaps m truth action := by
  rw [List.eq_nil_iff_forall_not_mem]
  simp only [mem_overlapping_branchesOf, not_exists]
  exact forall_comm

theorem coverage_branchesOf_eq_nil_iff {limit : Nat} {m : Module} {s : State} :
    coverage limit m (branchesOf s) = [] ↔
      (s.mentioned.ncard ≤ limit → s.mentioned.ncard < 64 →
        (∀ truth, ∃ t ∈ s.transitions, t.Enabled truth) ∧
          ∀ truth action, ¬ s.Overlaps m truth action) := by
  rw [coverage, length_mentioned_branchesOf, wordSize]
  split
  · next hskipped =>
    constructor
    · intro _ hlimit hword
      omega
    · intro _
      rfl
  · next hexamined =>
    rw [List.append_eq_nil_iff, List.map_eq_nil_iff, List.map_eq_nil_iff, Option.toList_eq_nil_iff,
      gap?_branchesOf_eq_none_iff, overlapping_branchesOf_eq_nil_iff]
    constructor
    · intro h _ _
      exact h
    · intro h
      exact h (by omega) (by omega)

theorem labelDefects_eq_nil_iff {m : Module} {s : State} :
    labelDefects m s = [] ↔ ∀ l ∈ s.labels, l ∈ m.labels := by
  simp [labelDefects]

theorem checkState_eq_nil_iff {declared : List String} {limit : Nat} {m : Module}
    {location : String} {s : State} :
    checkState declared limit m location s = [] ↔ StateSound declared limit m s := by
  rw [checkState, List.append_eq_nil_iff, List.append_eq_nil_iff, findingsAt_eq_nil_iff,
    findingsAt_eq_nil_iff, labelDefects_eq_nil_iff, checkTransitions_eq_nil_iff]
  constructor
  · intro h
    rcases h with ⟨⟨hlabels, htransitions⟩, hcoverage⟩
    rw [coverageDefects_of_sound fun t ht => (htransitions t ht).guard,
      coverage_branchesOf_eq_nil_iff] at hcoverage
    exact ⟨hlabels, htransitions, fun hlimit hword => (hcoverage hlimit hword).1,
      fun hlimit hword => (hcoverage hlimit hword).2⟩
  · intro h
    refine ⟨⟨h.labels, h.transitions⟩, ?_⟩
    rw [coverageDefects_of_sound fun t ht => (h.transitions t ht).guard,
      coverage_branchesOf_eq_nil_iff]
    intro hlimit hword
    exact ⟨h.complete hlimit hword, h.deterministic hlimit hword⟩

theorem moduleDefects_eq_nil_iff {declared : List String} {m : Module} :
    moduleDefects declared m = [] ↔
      GoalSound declared m.goal ∧ m.payoff ∈ ["1", "true", "0", "false", "?"] ∧
        (∀ l ∈ m.labels, l ∈ declared) ∧ ∃ s, (m.initial, s) ∈ m.states := by
  rw [moduleDefects, List.append_eq_nil_iff, List.append_eq_nil_iff, List.append_eq_nil_iff,
    goalDefects_eq_nil_iff, List.map_eq_nil_iff, List.filter_eq_nil_iff, and_assoc, and_assoc]
  simp only [ite_eq_left_iff, imp_false, not_not, reduceCtorEq, hasState_iff, payoffs,
    List.contains_iff_mem, Bool.not_eq_true', Bool.not_eq_false]

theorem checkModule_eq_nil_iff {declared : List String} {limit : Nat} {name : String}
    {m : Module} :
    checkModule declared limit name m = [] ↔ ModuleSound declared limit m := by
  rw [checkModule, List.append_eq_nil_iff, findingsAt_eq_nil_iff, moduleDefects_eq_nil_iff,
    List.flatMap_eq_nil_iff]
  simp only [checkState_eq_nil_iff]
  constructor
  · intro h
    exact ⟨h.1.1, h.1.2.1, h.1.2.2.1, h.1.2.2.2, h.2⟩
  · intro h
    exact ⟨⟨h.goal, h.payoff, h.labels, h.initial⟩, h.states⟩

/-- Nothing is found exactly when the instance keeps every rule, whatever else the options say. -/
theorem check_eq_nil_iff_sound (o : Options) (g : Instance) :
    check o g = [] ↔ InstanceSound o.maxEnumerated g := by
  rw [check, List.append_eq_nil_iff, List.append_eq_nil_iff, findingsAt_eq_nil_iff,
    findingsAt_eq_nil_iff, List.map_eq_nil_iff, repeated_eq_nil_iff, goalDefects_eq_nil_iff,
    List.flatMap_eq_nil_iff]
  simp only [checkModule_eq_nil_iff, List.not_mem_nil, not_false_eq_true, implies_true, and_true]
  constructor
  · intro h
    exact ⟨h.1.1, h.1.2, h.2⟩
  · intro h
    exact ⟨⟨h.propositions, h.goal⟩, h.modules⟩

end Lint
end GossipGames
