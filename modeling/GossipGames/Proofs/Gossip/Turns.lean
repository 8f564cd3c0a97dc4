import GossipGames.Proofs.Gossip.Names
import GossipGames.Proofs.Lint.Rules

/-!
# Taking turns

In its second state an agent waits as long as no other agent signals and goes back as soon as one
does.  Whatever propositions hold, exactly one of the two transitions is enabled, in games of any
number of agents.
-/

namespace GossipGames
namespace Gossip

def IsOther (n : AgentCount) (i : Nat) (p : String) : Prop :=
  ∃ j, (1 ≤ j ∧ j ≤ n.size) ∧ j ≠ i ∧ p = "g" ++ toString j

def OtherSignals (n : AgentCount) (i : Nat) (truth : String → Bool) : Prop :=
  ∃ p, IsOther n i p ∧ truth p = true

/-- What the guards say of a state in which agent `i` waits for the others. -/
structure TakesTurns (n : AgentCount) (i : Nat) (s : State) (wait back : Guard) : Prop where
  guards : s.transitions.map (fun t => (t.action, Guard.parse t.guard)) =
    [("w", .ok wait), ("g", .ok back)]
  wait_mentions : ∀ p, p ∈ wait.propositions ↔ IsOther n i p
  back_mentions : ∀ p, p ∈ back.propositions ↔ IsOther n i p
  wait_iff : ∀ truth, wait.eval truth = true ↔ ¬ OtherSignals n i truth
  back_iff : ∀ truth, back.eval truth = true ↔ OtherSignals n i truth
  exactly_one : ∀ truth, ∃! t, t ∈ s.transitions ∧ t.Enabled truth

variable {n : AgentCount} {i : Nat}

theorem state?_agent (n : AgentCount) (i : Nat) :
    (agent n i).state? signalState = some (signal n i) :=
  rfl

theorem mem_map_others_iff {p : String} : p ∈ (n.others i).map proposition ↔ IsOther n i p := by
  simp only [List.mem_map, AgentCount.mem_others, IsOther, proposition, and_assoc, eq_comm]

theorem mem_propositions_iff {g : Guard} (h : g.leaves = (n.others i).map proposition)
    (p : String) : p ∈ g.propositions ↔ IsOther n i p := by
  rw [Guard.propositions, Sorted.mem_ofList, h, mem_map_others_iff]

theorem any_others_iff {truth : String → Bool} :
    ((n.others i).any fun j => truth (proposition j)) = true ↔ OtherSignals n i truth := by
  simp only [OtherSignals, ← mem_map_others_iff, List.any_eq_true, List.mem_map]
  constructor
  · intro h
    rcases h with ⟨j, hj, htruth⟩
    exact ⟨_, ⟨j, hj, rfl⟩, htruth⟩
  · intro h
    rcases h with ⟨_, ⟨j, hj, rfl⟩, htruth⟩
    exact ⟨j, hj, htruth⟩

theorem all_others_iff {truth : String → Bool} :
    ((n.others i).all fun j => !truth (proposition j)) = true ↔ ¬ OtherSignals n i truth := by
  rw [← any_others_iff, List.any_eq_not_all_not, Bool.not_eq_true', Bool.not_eq_false]

theorem enabled_iff (t : Transition) {g : Guard} {truth : String → Bool}
    (h : Guard.parse t.guard = .ok g) : t.Enabled truth ↔ g.eval truth = true := by
  constructor
  · intro henabled
    rcases henabled with ⟨g', hparse, heval⟩
    rw [h] at hparse
    cases hparse
    exact heval
  · intro heval
    exact ⟨g, h, heval⟩

theorem existsUnique_enabled {t u : Transition} {truth : String → Bool}
    (h : t.Enabled truth ↔ ¬ u.Enabled truth) :
    ∃! v, v ∈ [t, u] ∧ v.Enabled truth := by
  by_cases hu : u.Enabled truth
  · refine ⟨u, ⟨by simp, hu⟩, ?_⟩
    intro v hv
    rcases hv with ⟨hmem, henabled⟩
    rcases List.mem_pair.mp hmem with rfl | rfl
    · exact absurd hu (h.mp henabled)
    · rfl
  · refine ⟨t, ⟨by simp, h.mpr hu⟩, ?_⟩
    intro v hv
    rcases hv with ⟨hmem, henabled⟩
    rcases List.mem_pair.mp hmem with rfl | rfl
    · rfl
    · exact absurd henabled hu

theorem takesTurns_signal (hothers : n.others i ≠ []) :
    ∃ wait back, TakesTurns n i (signal n i) wait back := by
  rcases parse_nobodyElse hothers with ⟨wait, hwait, hwaitLeaves, hwaitEval⟩
  rcases parse_somebodyElse hothers with ⟨back, hback, hbackLeaves, hbackEval⟩
  have hwaitIff : ∀ truth, wait.eval truth = true ↔ ¬ OtherSignals n i truth := by
    intro truth
    rw [hwaitEval, all_others_iff]
  have hbackIff : ∀ truth, back.eval truth = true ↔ OtherSignals n i truth := by
    intro truth
    rw [hbackEval, any_others_iff]
  refine ⟨wait, back, ?_, mem_propositions_iff hwaitLeaves, mem_propositions_iff hbackLeaves,
    hwaitIff, hbackIff, ?_⟩
  · simp [signal, hwait, hback]
  · intro truth
    apply existsUnique_enabled
    rw [enabled_iff ⟨"w", nobodyElse n i, signalState⟩ hwait,
      enabled_iff ⟨"g", somebodyElse n i, idleState⟩ hback, hwaitIff, hbackIff]

theorem exists_takesTurns_of_agent (hn : 2 ≤ n.size) (hi : 1 ≤ i ∧ i ≤ n.size) :
    ∃ m s wait back, (build n).module? ("A" ++ toString i) = some m ∧ m.state? "s2" = some s ∧
      TakesTurns n i s wait back := by
  have hmem : i ∈ n.indices := AgentCount.mem_indices.mpr hi
  have hothers : n.others i ≠ [] := by
    intro hnil
    have hone := (AgentCount.others_eq_nil_iff hmem).mp hnil
    omega
  rcases takesTurns_signal hothers with ⟨wait, back, h⟩
  exact ⟨agent n i, signal n i, wait, back, module?_build hmem, state?_agent n i, h⟩

/-- The last of seventy agents, with more propositions than any state is examined for. -/
theorem exists_takesTurns_of_seventy :
    let n : AgentCount := ⟨70, by decide, by decide⟩
    (2 ≤ n.size ∧ 1 ≤ 70 ∧ 70 ≤ n.size) ∧
      ∃ m s wait back, (build n).module? "A70" = some m ∧ m.state? "s2" = some s ∧
        TakesTurns n 70 s wait back := by
  intro n
  have hn : 2 ≤ n.size := by decide
  have hi : 1 ≤ 70 ∧ 70 ≤ n.size := by decide
  have hagent := exists_takesTurns_of_agent hn hi
  have hname : "A" ++ toString 70 = "A70" := by decide
  rw [hname] at hagent
  exact ⟨⟨hn, hi⟩, hagent⟩

end Gossip
end GossipGames
