import GossipGames.Proofs.Lint.CoverageReport

/-!
# The limit on propositions

A greater limit lets the check examine the coverage of more states.  What is found under the smaller
limit is found again, in the same order, and every other finding is about the coverage of a state
that was not examined before.  A limit of 63 or more leaves out no state that can be examined at
all.
-/

namespace GossipGames
namespace Lint

/-- The second list has the members of the first in their order, and between them others with a
property. -/
inductive Extends (P : α → Prop) : List α → List α → Prop where
  | nil : Extends P [] []
  | keep {x : α} {xs ys : List α} : Extends P xs ys → Extends P (x :: xs) (x :: ys)
  | add {y : α} {xs ys : List α} : P y → Extends P xs ys → Extends P xs (y :: ys)

namespace Extends

variable {P : α → Prop} {xs ys xs' ys' : List α}

theorem refl (xs : List α) : Extends P xs xs := by
  induction xs with
  | nil =>
      exact nil
  | cons x xs ih =>
      exact keep ih

theorem of_nil (h : ∀ y ∈ ys, P y) : Extends P [] ys := by
  induction ys with
  | nil =>
      exact nil
  | cons y ys ih =>
      exact add (h y List.mem_cons_self) (ih fun z hz => h z (List.mem_cons_of_mem y hz))

theorem sublist (h : Extends P xs ys) : xs.Sublist ys := by
  induction h with
  | nil =>
      exact List.Sublist.slnil
  | keep _ ih =>
      exact ih.cons_cons _
  | add _ _ ih =>
      exact ih.cons _

theorem append (h : Extends P xs ys) (h' : Extends P xs' ys') :
    Extends P (xs ++ xs') (ys ++ ys') := by
  induction h with
  | nil =>
      exact h'
  | keep _ ih =>
      exact keep ih
  | add hy _ ih =>
      exact add hy ih

theorem flatMap {f g : β → List α} {bs : List β} (h : ∀ b ∈ bs, Extends P (f b) (g b)) :
    Extends P (bs.flatMap f) (bs.flatMap g) := by
  induction bs with
  | nil =>
      exact nil
  | cons b bs ih =>
      rw [List.flatMap_cons, List.flatMap_cons]
      exact (h b List.mem_cons_self).append (ih fun c hc => h c (List.mem_cons_of_mem b hc))

theorem eq_of_forall_not (h : Extends P xs ys) (hP : ∀ y, ¬ P y) : xs = ys := by
  induction h with
  | nil =>
      rfl
  | keep _ ih =>
      rw [ih]
  | add hy _ _ =>
      exact absurd hy (hP _)

end Extends

variable {declared : List String} {limit limit' : Nat} {m : Module} {s : State}

theorem coverage_of_skipped {branches : List Branch}
    (h : limit < (mentioned branches).length ∨ 64 ≤ (mentioned branches).length) :
    coverage limit m branches = [] := by
  rw [coverage, wordSize, if_pos h]

theorem coverage_of_examined {branches : List Branch} (hlimit : (mentioned branches).length ≤ limit)
    (hword : (mentioned branches).length < 64) :
    coverage limit m branches = (gap? branches).toList.map Defect.uncovered ++
      (overlapping m branches).map Defect.overlapping := by
  rw [coverage, wordSize, if_neg (by omega)]

theorem coverageDefects_cases (declared : List String) (m : Module) (s : State) :
    (∀ limit, coverageDefects declared limit m s = []) ∨
      ∀ limit, coverageDefects declared limit m s = coverage limit m (branchesOf s) := by
  by_cases h : ∀ t ∈ s.transitions, GuardSound declared t.guard
  · exact Or.inr fun limit => coverageDefects_of_sound h
  · refine Or.inl fun limit => ?_
    rw [coverageDefects]
    split
    · next hbranches =>
      exact absurd (mapM_branch?_eq_some_iff.mp hbranches).1 h
    · rfl

theorem coverageDefects_eq_or (declared : List String) (m : Module) (s : State)
    (h : limit ≤ limit') :
    coverageDefects declared limit m s = coverageDefects declared limit' m s ∨
      (coverageDefects declared limit m s = [] ∧ limit < s.mentioned.ncard) := by
  rcases coverageDefects_cases declared m s with hnone | hcoverage
  · exact Or.inl ((hnone limit).trans (hnone limit').symm)
  · rw [hcoverage, hcoverage, ← length_mentioned_branchesOf]
    by_cases hword : 64 ≤ (mentioned (branchesOf s)).length
    · exact Or.inl (by rw [coverage_of_skipped (Or.inr hword), coverage_of_skipped (Or.inr hword)])
    · by_cases hlimit : limit < (mentioned (branchesOf s)).length
      · exact Or.inr ⟨coverage_of_skipped (Or.inl hlimit), hlimit⟩
      · exact Or.inl (by
          rw [coverage_of_examined (by omega) (by omega),
            coverage_of_examined (by omega) (by omega)])

theorem lt_of_mem_coverageDefects {d : Defect} (h : d ∈ coverageDefects declared limit m s) :
    s.mentioned.ncard < 64 := by
  rcases coverageDefects_cases declared m s with hnone | hcoverage
  · rw [hnone] at h
    cases h
  · rw [← length_mentioned_branchesOf]
    by_contra hword
    rw [hcoverage, coverage_of_skipped (Or.inr (by omega))] at h
    cases h

/-- The finding is about the coverage of a state that is examined under the second limit and whose
guards mention more propositions than the first. -/
def IsBeyond (limit limit' : Nat) (g : Instance) (f : Finding) : Prop :=
  ∃ e ∈ g.modules, ∃ s ∈ e.2.states, limit < s.2.mentioned.ncard ∧
    f ∈ coverageFindings (checkState g.propositions limit' e.2 (e.1 ++ "/" ++ s.1) s.2)

theorem extends_checkState {P : Finding → Prop} {location : String} (h : limit ≤ limit')
    (hP : limit < s.mentioned.ncard →
      ∀ f ∈ coverageFindings (checkState declared limit' m location s), P f) :
    Extends P (checkState declared limit m location s)
      (checkState declared limit' m location s) := by
  rw [checkState, checkState]
  refine (Extends.refl _).append ?_
  rcases coverageDefects_eq_or declared m s h with heq | ⟨hnone, hbeyond⟩
  · rw [heq]
    exact Extends.refl _
  · rw [hnone]
    refine Extends.of_nil fun f hf => hP hbeyond f ?_
    rw [coverageFindings_checkState]
    exact hf

theorem extends_check (g : Instance) {o o' : Options} (h : o.maxEnumerated ≤ o'.maxEnumerated) :
    Extends (IsBeyond o.maxEnumerated o'.maxEnumerated g) (check o g) (check o' g) := by
  refine (Extends.refl _).append (Extends.flatMap fun e he => ?_)
  refine (Extends.refl _).append (Extends.flatMap fun s hs => ?_)
  exact extends_checkState h fun hbeyond f hf => ⟨e, he, s, hs, hbeyond, hf⟩

theorem not_isBeyond (h : 63 ≤ limit) (g : Instance) (f : Finding) :
    ¬ IsBeyond limit limit' g f := by
  rintro ⟨e, -, s, -, hbeyond, hf⟩
  rw [coverageFindings_checkState] at hf
  rcases List.mem_map.mp hf with ⟨d, hd, -⟩
  have hword := lt_of_mem_coverageDefects hd
  omega

/-- A greater limit only adds findings about the coverage of states beyond the smaller one, and all
limits from 63 on give the same findings, whatever else the options say. -/
theorem check_of_limits (g : Instance) (o o' : Options) :
    (o.maxEnumerated ≤ o'.maxEnumerated →
      (check o g).Sublist (check o' g) ∧
        Extends (IsBeyond o.maxEnumerated o'.maxEnumerated g) (check o g) (check o' g)) ∧
    (63 ≤ o.maxEnumerated → 63 ≤ o'.maxEnumerated → check o g = check o' g) := by
  constructor
  · intro h
    exact ⟨(extends_check g h).sublist, extends_check g h⟩
  · intro h h'
    rcases Nat.le_total o.maxEnumerated o'.maxEnumerated with hle | hle
    · exact (extends_check g hle).eq_of_forall_not (not_isBeyond h g)
    · exact ((extends_check g hle).eq_of_forall_not (not_isBeyond h' g)).symm

theorem check_of_limits_stuck :
    let s : State := ⟨["p"], [⟨"a", "p", "s1"⟩]⟩
    let g : Instance := ⟨"one", ["p"], "module", "G p", [("A", ⟨"q", "?", ["a"], ["p"], "s1",
      [("s1", s)]⟩)]⟩
    let stuck : Finding := ⟨"A/s1", Defect.uncovered [("p", false)]⟩
    stuck ∉ check { maxEnumerated := 0 } g ∧ stuck ∈ check { maxEnumerated := 63 } g ∧
      Extends (IsBeyond 0 63 g) (check { maxEnumerated := 0 } g) (check { maxEnumerated := 63 } g) ∧
      check { maxEnumerated := 63 } g = check { maxEnumerated := 1000 } g := by
  intro s g stuck
  have hskipped : stuck ∉ check { maxEnumerated := 0 } g := by
    decide +kernel
  have hexamined : stuck ∈ check { maxEnumerated := 63 } g := by
    decide +kernel
  have hbeyond := ((check_of_limits g { maxEnumerated := 0 } { maxEnumerated := 63 }).1
    (by decide)).2
  have hsame := (check_of_limits g { maxEnumerated := 63 } { maxEnumerated := 1000 }).2
    (by decide) (by decide)
  exact ⟨hskipped, hexamined, hbeyond, hsame⟩

end Lint
end GossipGames
