import GossipGames.Lint.Coverage
import GossipGames.Proofs.Guard.LeastModel
import GossipGames.Proofs.Text.Sorted

/-!
# What the coverage check decides

The check works on the branches of a state.  It finds a gap exactly when some truth function enables
no branch, and an overlapping action exactly when some truth function enables two branches to
different targets that both stand for it.
-/

namespace GossipGames
namespace Lint

def NoneEnabled (branches : List Branch) (truth : String → Bool) : Prop :=
  ∀ b ∈ branches, b.guard.eval truth = false

def Conflict (b c : Branch) : Prop :=
  b.target ≠ c.target ∧ ∃ truth, b.guard.eval truth = true ∧ c.guard.eval truth = true

theorem mem_mentioned {p : String} {branches : List Branch} :
    p ∈ mentioned branches ↔ ∃ b ∈ branches, p ∈ b.guard.leaves := by
  simp [mentioned]

theorem nodup_mentioned (branches : List Branch) : (mentioned branches).Nodup :=
  Sorted.nodup_ofList _

/-!
# Gaps

The guard that is searched for a model is the conjunction of the negated guards.
-/

def gapGuard (branches : List Branch) : Guard :=
  Guard.and (branches.map fun b => Guard.not b.guard)

theorem eval_gapGuard_iff {branches : List Branch} {truth : String → Bool} :
    (gapGuard branches).eval truth = true ↔ NoneEnabled branches truth := by
  simp [gapGuard, Guard.eval, NoneEnabled]

theorem mem_leaves_gapGuard {p : String} {branches : List Branch} :
    p ∈ (gapGuard branches).leaves ↔ p ∈ mentioned branches := by
  simp [gapGuard, Guard.leaves, mem_mentioned]

theorem gap?_eq (branches : List Branch) :
    gap? branches =
      (Guard.firstChoice? (mentioned branches) fun mask =>
        (gapGuard branches).eval (Guard.maskTruth (mentioned branches) mask)).map
          (Guard.maskValuation (mentioned branches)) :=
  Guard.leastModel?_eq (nodup_mentioned branches) (gapGuard branches)

theorem gap?_eq_none_iff {branches : List Branch} :
    gap? branches = none ↔ ∀ truth, ¬ NoneEnabled branches truth := by
  have hmasks := Guard.exists_mask_iff (nodup_mentioned branches)
    fun p (hp : p ∈ (gapGuard branches).leaves) => mem_leaves_gapGuard.mp hp
  rw [gap?_eq, Option.map_eq_none_iff, Guard.firstChoice?_eq_none_iff]
  constructor
  · intro h truth hnone
    rcases hmasks.mpr ⟨truth, eval_gapGuard_iff.mpr hnone⟩ with ⟨mask, hlt, heval⟩
    rw [h mask hlt] at heval
    cases heval
  · intro h mask _
    rw [← Bool.not_eq_true, eval_gapGuard_iff]
    exact h _

theorem mem_of_mem_pairs {l : List α} {p : α × α} (h : p ∈ pairs l) : p.1 ∈ l ∧ p.2 ∈ l := by
  induction l with
  | nil =>
      cases h
  | cons x l ih =>
      rcases List.mem_append.mp h with hfirst | hrest
      · rcases List.mem_map.mp hfirst with ⟨y, hy, rfl⟩
        exact ⟨List.mem_cons_self, List.mem_cons_of_mem x hy⟩
      · exact ⟨List.mem_cons_of_mem x (ih hrest).1, List.mem_cons_of_mem x (ih hrest).2⟩

theorem mem_pairs_or {l : List α} {x y : α} (hx : x ∈ l) (hy : y ∈ l) (hne : x ≠ y) :
    (x, y) ∈ pairs l ∨ (y, x) ∈ pairs l := by
  induction l with
  | nil =>
      cases hx
  | cons z l ih =>
      cases hx with
      | head =>
          cases hy with
          | head =>
              exact absurd rfl hne
          | tail _ hy =>
              exact Or.inl (List.mem_append_left _ (List.mem_map_of_mem hy))
      | tail _ hx =>
          cases hy with
          | head =>
              exact Or.inr (List.mem_append_left _ (List.mem_map_of_mem hx))
          | tail _ hy =>
              exact (ih hx hy).imp (List.mem_append_right _) (List.mem_append_right _)

theorem pairs_map (f : α → β) (l : List α) :
    pairs (l.map f) = (pairs l).map fun p => (f p.1, f p.2) := by
  induction l with
  | nil =>
      rfl
  | cons x l ih =>
      simp [pairs, ih, Function.comp_def]

theorem conflicts_iff {b c : Branch} : b.conflicts c = true ↔ Conflict b c := by
  simp [Branch.conflicts, Conflict, Guard.isSatisfiable_iff, Guard.eval]

theorem table_and_ne_zero_iff {names : List String} {g h : Guard} :
    g.table names &&& h.table names ≠ 0 ↔
      ∃ choice, choice < Guard.choices names ∧
        g.eval (Guard.truthUnder names choice) = true ∧
          h.eval (Guard.truthUnder names choice) = true := by
  constructor
  · intro hne
    rcases Nat.exists_testBit_of_ne_zero hne with ⟨choice, hbit⟩
    have hlt : choice < Guard.choices names := by
      apply Nat.lt_of_not_le
      intro hge
      have hbelow : (g.table names &&& h.table names) < 2 ^ choice :=
        Nat.and_lt_two_pow _ (Nat.lt_of_lt_of_le (Guard.table_lt names h)
          (Nat.pow_le_pow_right (by omega) hge))
      rw [Nat.testBit_lt_two_pow hbelow] at hbit
      cases hbit
    rw [Nat.testBit_and, Guard.testBit_table hlt, Guard.testBit_table hlt, Bool.and_eq_true] at hbit
    exact ⟨choice, hlt, hbit⟩
  · intro hchoice hzero
    rcases hchoice with ⟨choice, hlt, hg, hh⟩
    have hbit : (g.table names &&& h.table names).testBit choice = true := by
      rw [Nat.testBit_and, Guard.testBit_table hlt, Guard.testBit_table hlt, hg, hh, Bool.and_self]
    rw [hzero, Nat.zero_testBit] at hbit
    cases hbit

theorem conflict_iff_tables {b c : Branch} {names : List String}
    (hb : ∀ p ∈ b.guard.leaves, p ∈ names) (hc : ∀ p ∈ c.guard.leaves, p ∈ names) :
    Conflict b c ↔
      b.target ≠ c.target ∧ b.guard.table names &&& c.guard.table names ≠ 0 := by
  have hleaves : ∀ p ∈ (Guard.and [b.guard, c.guard]).leaves, p ∈ names := by
    intro p hp
    simp only [Guard.leaves, Guard.leavesOf, List.append_nil, List.mem_append] at hp
    exact hp.elim (hb p) (hc p)
  have hchoices := Guard.exists_choice_iff hleaves
  simp only [Guard.eval, Guard.evalAll, Bool.and_true, Bool.and_eq_true] at hchoices
  rw [Conflict, table_and_ne_zero_iff, hchoices]

theorem mem_conflicting {branches : List Branch} {p : Branch × Branch} :
    p ∈ conflicting branches ↔ p ∈ pairs branches ∧ Conflict p.1 p.2 := by
  simp only [conflicting]
  split
  · rw [pairs_map]
    have hnames : ∀ b ∈ branches, ∀ q ∈ b.guard.leaves, q ∈ (mentioned branches).reverse := by
      intro b hb q hq
      exact List.mem_reverse.mpr (mem_mentioned.mpr ⟨b, hb, hq⟩)
    have htables : ∀ p ∈ pairs branches, (Conflict p.1 p.2 ↔ p.1.target ≠ p.2.target ∧
        p.1.guard.table (mentioned branches).reverse &&&
          p.2.guard.table (mentioned branches).reverse ≠ 0) := by
      intro p hp
      have hmem := mem_of_mem_pairs hp
      exact conflict_iff_tables (hnames p.1 hmem.1) (hnames p.2 hmem.2)
    constructor
    · intro h
      rcases List.mem_map.mp h with ⟨_, hfiltered, rfl⟩
      rcases List.mem_filter.mp hfiltered with ⟨hmapped, htest⟩
      rcases List.mem_map.mp hmapped with ⟨q, hq, rfl⟩
      exact ⟨hq, (htables q hq).mpr (by simpa using htest)⟩
    · intro h
      refine List.mem_map.mpr ⟨_, List.mem_filter.mpr
        ⟨List.mem_map.mpr ⟨p, h.1, rfl⟩, ?_⟩, rfl⟩
      simpa using (htables p h.1).mp h.2
  · rw [List.mem_filter, conflicts_iff]

theorem mem_overlapping {m : Module} {branches : List Branch} {action : String} :
    action ∈ overlapping m branches ↔
      ∃ b ∈ branches, ∃ c ∈ branches, Conflict b c ∧
        action ∈ b.actions m ∧ action ∈ c.actions m := by
  simp only [overlapping, List.mem_filter, Sorted.mem_ofList, List.mem_flatMap, List.any_eq_true,
    Bool.and_eq_true, List.contains_iff_mem, mem_conflicting]
  constructor
  · intro h
    rcases h with ⟨_, p, ⟨hpair, hconflict⟩, hb, hc⟩
    have hmem := mem_of_mem_pairs hpair
    exact ⟨p.1, hmem.1, p.2, hmem.2, hconflict, hb, hc⟩
  · intro h
    rcases h with ⟨b, hb, c, hc, hconflict, hactb, hactc⟩
    refine ⟨⟨b, hb, hactb⟩, ?_⟩
    have hne : b ≠ c := fun heq => hconflict.1 (congrArg Branch.target heq)
    rcases mem_pairs_or hb hc hne with hpair | hpair
    · exact ⟨(b, c), ⟨hpair, hconflict⟩, hactb, hactc⟩
    · rcases hconflict with ⟨htarget, truth, hbt, hct⟩
      exact ⟨(c, b), ⟨hpair, htarget.symm, truth, hct, hbt⟩, hactc, hactb⟩

theorem pairwise_overlapping (m : Module) (branches : List Branch) :
    (overlapping m branches).Pairwise (· < ·) :=
  (Sorted.pairwise_ofList _).filter _

end Lint
end GossipGames
