import GossipGames.Proofs.Gossip.Guards
import Mathlib.Data.List.Nodup

/-!
# The names in a gossip game

Propositions and modules are numbered like the agents.  Different numbers have different digits, so
no name occurs twice, and a look-up finds every entry under its own name.
-/

namespace GossipGames

theorem lookup_eq_some_iff_mem {β : Type} {entries : List (String × β)}
    (h : (entries.map Prod.fst).Nodup) {name : String} {value : β} :
    entries.lookup name = some value ↔ (name, value) ∈ entries := by
  induction entries with
  | nil =>
      simp
  | cons e entries ih =>
      rcases e with ⟨key, v⟩
      rcases List.nodup_cons.mp h with ⟨hkey, hrest⟩
      by_cases hname : name = key
      · have habsent : (key, value) ∉ entries := by
          intro hmem
          exact hkey (List.mem_map.mpr ⟨(key, value), hmem, rfl⟩)
        rw [hname, List.lookup_cons_self, Option.some.injEq, List.mem_cons, Prod.mk.injEq]
        simp only [true_and, habsent, or_false]
        exact eq_comm
      · have hne : (name == key) = false := beq_false_of_ne hname
        rw [List.lookup_cons, hne, List.mem_cons, Prod.mk.injEq]
        simp only [hname, false_and, false_or]
        exact ih hrest

theorem AgentCount.size_injective : Function.Injective AgentCount.size := by
  intro n k h
  cases n
  cases k
  cases h
  rfl

namespace Gossip

/-- The names are a stem with the numbers from one to `n`, ascending, and no name occurs twice. -/
structure Numbered (stem : String) (n : Nat) (names : List String) : Prop where
  at_place : ∀ k, names[k]? = if k < n then some (stem ++ toString (k + 1)) else none
  nodup : names.Nodup

/-- A module as agent `i` owns it. -/
structure OwnedBy (i : Nat) (m : Module) : Prop where
  labels : m.labels = ["g" ++ toString i]
  goal : m.goal = "G F g" ++ toString i
  names : m.states.map Prod.fst = ["s1", "s2"]
  state?_iff : ∀ name s, m.state? name = some s ↔ (name, s) ∈ m.states
  first : (m.state? "s1").map State.labels = some []
  second : (m.state? "s2").map State.labels = some ["g" ++ toString i]
  actions : ∀ e ∈ m.states, ∀ t ∈ e.2.transitions, m.hasAction t.action = true
  targets : ∀ e ∈ m.states, ∀ t ∈ e.2.transitions, (m.state? t.target).isSome = true

variable {n : AgentCount} {i : Nat}

theorem numbered_map_indices (stem : String) (n : AgentCount) :
    Numbered stem n.size (n.indices.map fun i => stem ++ toString i) where
  at_place := by
    -- Places are counted from zero, agents from one.
    intro k
    rw [List.getElem?_map, AgentCount.indices]
    split
    · next hlt =>
      rw [List.getElem?_range' hlt, Nat.one_mul, Nat.add_comm 1 k]
      rfl
    · next hge =>
      rw [List.getElem?_eq_none (by simpa using hge)]
      rfl
  nodup := List.Nodup.map (append_toString_injective stem) List.nodup_range'

theorem map_fst_modules (n : AgentCount) :
    (build n).modules.map Prod.fst = n.indices.map fun i => "A" ++ toString i :=
  List.map_map

theorem nodup_propositions (n : AgentCount) : (build n).propositions.Nodup :=
  (numbered_map_indices "g" n).nodup

theorem nodup_modules (n : AgentCount) : ((build n).modules.map Prod.fst).Nodup :=
  map_fst_modules n ▸ (numbered_map_indices "A" n).nodup

theorem module?_build_iff {name : String} {m : Module} :
    (build n).module? name = some m ↔ (name, m) ∈ (build n).modules :=
  lookup_eq_some_iff_mem (nodup_modules n)

theorem mem_modules_iff {name : String} {m : Module} :
    (name, m) ∈ (build n).modules ↔
      ∃ i, (1 ≤ i ∧ i ≤ n.size) ∧ name = "A" ++ toString i ∧ m = agent n i := by
  simp only [build, List.mem_map, AgentCount.mem_indices, Prod.mk.injEq, moduleName, eq_comm]

theorem module?_build (hi : i ∈ n.indices) :
    (build n).module? (moduleName i) = some (agent n i) :=
  module?_build_iff.mpr (mem_modules_iff.mpr ⟨i, AgentCount.mem_indices.mp hi, rfl, rfl⟩)

theorem mem_states_agent {e : String × State} :
    e ∈ (agent n i).states ↔ e = (idleState, idle) ∨ e = (signalState, signal n i) :=
  List.mem_pair

theorem of_mem_transitions_agent {e : String × State} {t : Transition}
    (he : e ∈ (agent n i).states) (ht : t ∈ e.2.transitions) :
    t.action ∈ actions ∧ (t.target = idleState ∨ t.target = signalState) := by
  rcases mem_states_agent.mp he with rfl | rfl
  · rcases List.mem_pair.mp ht with rfl | rfl
    · exact ⟨by simp [actions], Or.inl rfl⟩
    · exact ⟨by simp [actions], Or.inr rfl⟩
  · rcases List.mem_pair.mp ht with rfl | rfl
    · exact ⟨by simp [actions], Or.inr rfl⟩
    · exact ⟨by simp [actions], Or.inl rfl⟩

theorem ownedBy_agent (n : AgentCount) (i : Nat) : OwnedBy i (agent n i) where
  labels := rfl
  goal := by
    show "G F " ++ ("g" ++ toString i) = _
    rw [← String.append_assoc]
    rfl
  names := rfl
  state?_iff := by
    have hnames : ((agent n i).states.map Prod.fst).Nodup := by
      show ["s1", "s2"].Nodup
      decide
    intro name s
    exact lookup_eq_some_iff_mem hnames
  first := rfl
  second := rfl
  actions := by
    intro e he t ht
    exact List.contains_iff_mem.mpr (of_mem_transitions_agent he ht).1
  targets := by
    intro e he t ht
    rcases (of_mem_transitions_agent he ht).2 with htarget | htarget
    · rw [htarget]
      rfl
    · rw [htarget]
      rfl

theorem build_injective : Function.Injective build := by
  intro n k h
  have hname : "gossip" ++ toString n.size = "gossip" ++ toString k.size :=
    congrArg Instance.name h
  exact AgentCount.size_injective (append_toString_injective "gossip" hname)

theorem names_of_build (n : AgentCount) :
    Numbered "g" n.size (build n).propositions ∧
      Numbered "A" n.size ((build n).modules.map Prod.fst) ∧
      (∀ name m, (build n).module? name = some m ↔ (name, m) ∈ (build n).modules) ∧
      (∀ name m, (build n).module? name = some m ↔
        ∃ i, (1 ≤ i ∧ i ≤ n.size) ∧ name = "A" ++ toString i ∧ m = agent n i) ∧
      (∀ i, OwnedBy i (agent n i)) ∧
      ∀ k, build k = build n ↔ k = n := by
  refine ⟨numbered_map_indices "g" n, ?_, ?_, ?_, ownedBy_agent n, ?_⟩
  · rw [map_fst_modules]
    exact numbered_map_indices "A" n
  · intro name m
    exact module?_build_iff
  · intro name m
    rw [module?_build_iff, mem_modules_iff]
  · intro k
    exact build_injective.eq_iff

end Gossip
end GossipGames
