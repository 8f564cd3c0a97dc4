import GossipGames.Proofs.Lint.Agreement
import GossipGames.Proofs.Rearranged

/-!
# The order of lists

The check finds the same in an instance whose lists are taken in another order.  Only the order of
the transitions of a state matters, since it stands in their locations.
-/

namespace GossipGames

structure State.Reordered (s s' : State) : Prop where
  labels : s.labels.Perm s'.labels
  transitions : s.transitions = s'.transitions

structure Module.Reordered (m m' : Module) : Prop where
  goal : m.goal = m'.goal
  payoff : m.payoff = m'.payoff
  actions : m.actions.Perm m'.actions
  labels : m.labels.Perm m'.labels
  initial : m.initial = m'.initial
  states : Rearranged (Entrywise State.Reordered) m.states m'.states

structure Instance.Reordered (g g' : Instance) : Prop where
  name : g.name = g'.name
  propositions : g.propositions.Perm g'.propositions
  kind : g.kind = g'.kind
  goal : g.goal = g'.goal
  modules : Rearranged (Entrywise Module.Reordered) g.modules g'.modules

namespace Lint

variable {declared declared' : List String} {m m' : Module}

theorem count_repeated (x : String) (seen xs : List String) :
    (repeated seen xs).count x = xs.count x - if x ∈ seen then 0 else 1 := by
  induction xs generalizing seen with
  | nil =>
      simp [repeated]
  | cons y xs ih =>
      by_cases hy : y ∈ seen
      · rw [repeated, if_pos hy, List.count_cons, List.count_cons, ih]
        by_cases hx : y = x
        · subst hx
          simp [hy]
        · simp [hx]
      · rw [repeated, if_neg hy, List.count_cons, ih]
        by_cases hx : y = x
        · subst hx
          simp [hy]
        · simp [hx, Ne.symm hx]

theorem repeated_perm {xs ys : List String} (h : xs.Perm ys) :
    (repeated [] xs).Perm (repeated [] ys) := by
  rw [List.perm_iff_count]
  intro x
  rw [count_repeated, count_repeated, h.count_eq]

theorem findingsAt_perm {location : String} {ds ds' : List Defect} (h : ds.Perm ds') :
    (findingsAt location ds).Perm (findingsAt location ds') :=
  h.map _

theorem agree_of_reordered (h : m.Reordered m') : Agree m m' where
  actions _ := h.actions.mem_iff
  names _ := h.states.names_perm.mem_iff

theorem labelDefects_perm {s s' : State} (hm : m.Reordered m') (hs : s.Reordered s') :
    (labelDefects m s).Perm (labelDefects m' s') := by
  simp only [labelDefects, hm.labels.contains_eq]
  exact (hs.labels.filter _).map _

theorem checkState_perm {s s' : State} (hdeclared : declared.Perm declared')
    (hm : m.Reordered m') (hs : s.Reordered s') (limit : Nat) (location : String) :
    (checkState declared limit m location s).Perm (checkState declared' limit m' location s') := by
  have hagree := agree_of_reordered hm
  rw [checkState, checkState, checkTransitions_congr hdeclared hagree,
    coverageDefects_congr hdeclared hagree hs.transitions, hs.transitions]
  exact ((findingsAt_perm (labelDefects_perm hm hs)).append_right _).append_right _

theorem moduleDefects_perm (hdeclared : declared.Perm declared') (hm : m.Reordered m') :
    (moduleDefects declared m).Perm (moduleDefects declared' m') := by
  have hlabels : (m.labels.filter fun l => !declared'.contains l).Perm
      (m'.labels.filter fun l => !declared'.contains l) :=
    hm.labels.filter _
  simp only [moduleDefects, goalDefects_congr hdeclared, hdeclared.contains_eq, hm.goal, hm.payoff,
    hm.initial, hasState_congr (agree_of_reordered hm)]
  exact ((hlabels.map _).append_left _).append_right _

theorem checkModule_perm (hdeclared : declared.Perm declared') (hm : m.Reordered m') (limit : Nat)
    (name : String) :
    (checkModule declared limit name m).Perm (checkModule declared' limit name m') := by
  refine (findingsAt_perm (moduleDefects_perm hdeclared hm)).append ?_
  refine hm.states.flatMap_perm fun e e' he => ?_
  rw [he.1]
  exact checkState_perm hdeclared hm he.2 limit _

/-- The findings of a reordered instance are the same ones, each as often as before.  A finding is
its location and its defect, and its category, message and diagnostic are those of the defect. -/
theorem check_perm_of_reordered {g g' : Instance} (o : Options) (h : g.Reordered g') :
    (check o g).Perm (check o g') := by
  have hrepeated := (repeated_perm h.propositions).map Defect.repeatedProposition
  rw [check, check, goalDefects_congr h.propositions, h.goal]
  refine ((findingsAt_perm hrepeated).append_right _).append ?_
  refine h.modules.flatMap_perm fun e e' he => ?_
  rw [he.1]
  exact checkModule_perm h.propositions he.2 o.maxEnumerated _

theorem check_perm_of_swapped :
    let s : State := ⟨["p", "r"], [⟨"*", "p", "s2"⟩, ⟨"a", "p & q", "s1"⟩]⟩
    let s' : State := ⟨["r", "p"], [⟨"*", "p", "s2"⟩, ⟨"a", "p & q", "s1"⟩]⟩
    let t : State := ⟨[], []⟩
    let m : Module := ⟨"F p", "2", ["a", "b"], ["p", "q"], "s3", [("s1", s), ("s2", t)]⟩
    let m' : Module := ⟨"F p", "2", ["b", "a"], ["q", "p"], "s3", [("s2", t), ("s1", s')]⟩
    let n : Module := ⟨"", "?", [], [], "s1", []⟩
    let g : Instance := ⟨"two", ["p", "q"], "module", "G r", [("A", m), ("A", n)]⟩
    let g' : Instance := ⟨"two", ["q", "p"], "module", "G r", [("A", n), ("A", m')]⟩
    g.Reordered g' ∧ (check {} g).Perm (check {} g') := by
  intro s s' t m m' n g g'
  have hs : s.Reordered s' := ⟨List.Perm.swap _ _ _, rfl⟩
  have ht : t.Reordered t := ⟨List.Perm.refl _, rfl⟩
  have hm : m.Reordered m' :=
    ⟨rfl, rfl, List.Perm.swap _ _ _, List.Perm.swap _ _ _, rfl, [("s1", s'), ("s2", t)],
      .cons ⟨rfl, hs⟩ (.cons ⟨rfl, ht⟩ .nil), List.Perm.swap _ _ _⟩
  have hn : n.Reordered n :=
    ⟨rfl, rfl, List.Perm.refl _, List.Perm.refl _, rfl, [], .nil, List.Perm.refl _⟩
  have hg : g.Reordered g' :=
    ⟨rfl, List.Perm.swap _ _ _, rfl, rfl, [("A", m'), ("A", n)],
      .cons ⟨rfl, hm⟩ (.cons ⟨rfl, hn⟩ .nil), List.Perm.swap _ _ _⟩
  exact ⟨hg, check_perm_of_reordered {} hg⟩

end Lint
end GossipGames
