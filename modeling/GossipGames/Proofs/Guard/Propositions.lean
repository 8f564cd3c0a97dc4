import GossipGames.Proofs.Guard.Choices
import GossipGames.Proofs.Text.ByteOrder
import GossipGames.Proofs.Text.Sorted

/-!
# What a guard depends on

The propositions of a guard are the names at the nodes of its tree, in byte order and each once.
The value of a guard depends on these names only, so the truth of all other names can be dropped.
-/

namespace GossipGames
namespace Guard

/-- A guard stands at some place in the tree of another one. -/
inductive NodeOf (h : Guard) : Guard → Prop where
  | root : NodeOf h h
  | not {g : Guard} : NodeOf h g → NodeOf h (not g)
  | and {g : Guard} {gs : List Guard} : g ∈ gs → NodeOf h g → NodeOf h (and gs)
  | or {g : Guard} {gs : List Guard} : g ∈ gs → NodeOf h g → NodeOf h (or gs)
  | xorLeft {a b : Guard} : NodeOf h a → NodeOf h (xor a b)
  | xorRight {a b : Guard} : NodeOf h b → NodeOf h (xor a b)
  | impliesLeft {a b : Guard} : NodeOf h a → NodeOf h (implies a b)
  | impliesRight {a b : Guard} : NodeOf h b → NodeOf h (implies a b)
  | iffLeft {a b : Guard} : NodeOf h a → NodeOf h (iff a b)
  | iffRight {a b : Guard} : NodeOf h b → NodeOf h (iff a b)

/-- A truth function within a set of names.  Names outside the set do not hold. -/
def restrict (known truth : String → Bool) (p : String) : Bool :=
  known p && truth p

theorem leaves_subset_of_nodeOf {h g : Guard} (hnode : NodeOf h g) : h.leaves ⊆ g.leaves := by
  induction hnode with
  | root =>
      exact List.Subset.refl _
  | not _ ih =>
      exact ih
  | and hmem _ ih | or hmem _ ih =>
      intro p hp
      rw [leaves, leavesOf_eq_flatMap]
      exact List.mem_flatMap.mpr ⟨_, hmem, ih hp⟩
  | xorLeft _ ih | impliesLeft _ ih | iffLeft _ ih =>
      exact fun p hp => List.mem_append_left _ (ih hp)
  | xorRight _ ih | impliesRight _ ih | iffRight _ ih =>
      exact fun p hp => List.mem_append_right _ (ih hp)

mutual

theorem nodeOf_of_mem_leaves {p : String} :
    (g : Guard) → p ∈ g.leaves → NodeOf (var p) g
  | const _, hp => by
      cases hp
  | var name, hp => by
      cases List.mem_singleton.mp hp
      exact NodeOf.root
  | not g, hp => NodeOf.not (nodeOf_of_mem_leaves g hp)
  | and gs, hp => by
      rcases exists_nodeOf_of_mem_leavesOf gs hp with ⟨g, hg, hnode⟩
      exact NodeOf.and hg hnode
  | or gs, hp => by
      rcases exists_nodeOf_of_mem_leavesOf gs hp with ⟨g, hg, hnode⟩
      exact NodeOf.or hg hnode
  | xor a b, hp => by
      rcases List.mem_append.mp hp with hleft | hright
      · exact NodeOf.xorLeft (nodeOf_of_mem_leaves a hleft)
      · exact NodeOf.xorRight (nodeOf_of_mem_leaves b hright)
  | implies a b, hp => by
      rcases List.mem_append.mp hp with hleft | hright
      · exact NodeOf.impliesLeft (nodeOf_of_mem_leaves a hleft)
      · exact NodeOf.impliesRight (nodeOf_of_mem_leaves b hright)
  | iff a b, hp => by
      rcases List.mem_append.mp hp with hleft | hright
      · exact NodeOf.iffLeft (nodeOf_of_mem_leaves a hleft)
      · exact NodeOf.iffRight (nodeOf_of_mem_leaves b hright)

theorem exists_nodeOf_of_mem_leavesOf {p : String} :
    (gs : List Guard) → p ∈ leavesOf gs → ∃ g ∈ gs, NodeOf (var p) g
  | [], hp => by
      cases hp
  | g :: gs, hp => by
      rcases List.mem_append.mp hp with hfirst | hrest
      · exact ⟨g, List.mem_cons_self, nodeOf_of_mem_leaves g hfirst⟩
      · rcases exists_nodeOf_of_mem_leavesOf gs hrest with ⟨k, hk, hnode⟩
        exact ⟨k, List.mem_cons_of_mem g hk, hnode⟩

end

theorem mem_propositions_iff_nodeOf {g : Guard} {p : String} :
    p ∈ g.propositions ↔ NodeOf (var p) g := by
  rw [propositions, Sorted.mem_ofList]
  constructor
  · exact nodeOf_of_mem_leaves g
  · intro hnode
    exact leaves_subset_of_nodeOf hnode List.mem_cons_self

/-!
# Restricted truth functions

A truth function that is restricted to some listed names is the one of a choice for these names.
-/

theorem eval_congr_propositions {g : Guard} {t u : String → Bool}
    (h : ∀ p ∈ g.propositions, t p = u p) : eval t g = eval u g :=
  eval_congr g fun p hp => h p (Sorted.mem_ofList.mpr hp)

theorem eval_restrict {g : Guard} {known : String → Bool}
    (h : ∀ p ∈ g.propositions, known p = true) (truth : String → Bool) :
    eval (restrict known truth) g = eval truth g := by
  apply eval_congr_propositions
  intro p hp
  rw [restrict, h p hp, Bool.true_and]

theorem truthUnder_of_not_mem {names : List String} {p : String} (h : p ∉ names) (choice : Nat) :
    truthUnder names choice p = false := by
  induction names with
  | nil =>
      rfl
  | cons q names ih =>
      rw [List.mem_cons, not_or] at h
      rw [truthUnder, if_neg h.1]
      exact ih h.2

theorem exists_choice_eq_restrict (names : List String) (truth : String → Bool) :
    ∃ choice, choice < choices names ∧
      truthUnder names choice = restrict names.contains truth := by
  rcases exists_choice truth names with ⟨choice, hlt, hagree⟩
  refine ⟨choice, hlt, ?_⟩
  funext p
  by_cases hp : p ∈ names
  · rw [hagree p hp, restrict, List.contains_iff_mem.mpr hp, Bool.true_and]
  · simp [truthUnder_of_not_mem hp, restrict, hp]

/-- The propositions of a guard, and what other names have no bearing on. -/
theorem eval_depends_on_propositions (g : Guard) :
    (g.propositions.Pairwise fun p q => bytes p < bytes q) ∧
      (∀ p, p ∈ g.propositions ↔ NodeOf (var p) g) ∧
      (∀ t u, (∀ p ∈ g.propositions, t p = u p) → eval t g = eval u g) ∧
      (∀ known truth, (∀ p ∈ g.propositions, known p = true) →
        eval (restrict known truth) g = eval truth g) ∧
      ∀ names truth, (∀ p ∈ g.propositions, p ∈ names) →
        ∃ choice, choice < choices names ∧
          truthUnder names choice = restrict names.contains truth ∧
          eval (truthUnder names choice) g = eval truth g := by
  refine ⟨(Sorted.pairwise_ofList _).imp lt_iff_bytes_lt.mp,
    fun _ => mem_propositions_iff_nodeOf, fun _ _ => eval_congr_propositions,
    fun _ truth h => eval_restrict h truth, ?_⟩
  intro names truth h
  have hknown : ∀ p ∈ g.propositions, names.contains p = true := by
    intro p hp
    exact List.contains_iff_mem.mpr (h p hp)
  rcases exists_choice_eq_restrict names truth with ⟨choice, hlt, hchoice⟩
  refine ⟨choice, hlt, hchoice, ?_⟩
  rw [hchoice]
  exact eval_restrict hknown truth

theorem eval_depends_on_propositions_of_two_names :
    let g := xor (and [var "q", not (var "p")]) (implies (or []) (iff (var "p") (and [])))
    let names := ["s", "q", "p"]
    let t : String → Bool := fun p => p == "q" || p == "r"
    let u : String → Bool := fun p => p == "q"
    ((∀ p ∈ g.propositions, t p = u p) ∧ ∀ p ∈ g.propositions, p ∈ names) ∧
      eval t g = eval u g ∧
      eval (restrict names.contains t) g = eval t g ∧
      ∃ choice, choice < choices names ∧
        truthUnder names choice = restrict names.contains t ∧
        eval (truthUnder names choice) g = eval t g := by
  intro g names t u
  rcases eval_depends_on_propositions g with ⟨_, _, hcongr, hrestrict, hchoice⟩
  have hagree : ∀ p ∈ g.propositions, t p = u p := by
    decide +kernel
  have hmem : ∀ p ∈ g.propositions, p ∈ names := by
    decide +kernel
  have hcontains : ∀ p ∈ g.propositions, names.contains p = true := by
    decide +kernel
  exact ⟨⟨hagree, hmem⟩, hcongr t u hagree, hrestrict _ t hcontains, hchoice names t hmem⟩

end Guard
end GossipGames
