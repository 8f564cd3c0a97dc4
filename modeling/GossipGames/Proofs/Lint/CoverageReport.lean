import GossipGames.Proofs.Lint.Rules
import GossipGames.Proofs.Text.ByteOrder

/-!
# The report on the coverage of a state

Of a state whose guards are all sound, the findings about coverage are a gap, if some truth function
enables no transition, and one overlap for each action for which two transitions to different
targets can be enabled together.  The gap is described by the least mask.
-/

namespace GossipGames
namespace Lint

def coverageFindings (findings : List Finding) : List Finding :=
  findings.filter fun f =>
    f.category = Category.completeness ∨ f.category = Category.overlap

theorem coverageFindings_append (fs gs : List Finding) :
    coverageFindings (fs ++ gs) = coverageFindings fs ++ coverageFindings gs :=
  List.filter_append fs gs

theorem coverageFindings_findingsAt_of_not {location : String} {defects : List Defect}
    (h : ∀ d ∈ defects, d.category ≠ Category.completeness ∧ d.category ≠ Category.overlap) :
    coverageFindings (findingsAt location defects) = [] := by
  apply List.filter_eq_nil_iff.mpr
  intro f hf hcoverage
  rcases List.mem_map.mp hf with ⟨d, hd, rfl⟩
  rcases of_decide_eq_true hcoverage with hcompleteness | hoverlap
  · exact (h d hd).1 hcompleteness
  · exact (h d hd).2 hoverlap

theorem category_of_judge {declared : List String} {text : String} {d : Defect}
    (h : judge declared text = .error d) : d.category = Category.guard := by
  unfold judge at h
  split at h
  · cases h
    rfl
  · split at h
    · cases h
      rfl
    · split at h
      · cases h
      · cases h
        rfl

theorem category_of_mem_guardDefects {declared : List String} {text : String} {d : Defect}
    (h : d ∈ guardDefects declared text) : d.category = Category.guard := by
  unfold guardDefects at h
  split at h
  · next d' hjudge =>
    cases List.mem_singleton.mp h
    exact category_of_judge hjudge
  · cases h

theorem category_of_mem_transitionDefects {declared : List String} {m : Module} {t : Transition}
    {d : Defect} (h : d ∈ transitionDefects declared m t) :
    d.category = Category.action ∨ d.category = Category.state ∨ d.category = Category.guard := by
  rcases List.mem_append.mp h with hitem | hguard
  · rcases List.mem_append.mp hitem with haction | htarget
    · split at haction
      · cases haction
      · cases List.mem_singleton.mp haction
        exact Or.inl rfl
    · split at htarget
      · cases htarget
      · cases List.mem_singleton.mp htarget
        exact Or.inr (Or.inl rfl)
  · exact Or.inr (Or.inr (category_of_mem_guardDefects hguard))

theorem coverageFindings_checkTransitions (declared : List String) (m : Module)
    (location : String) (index : Nat) (ts : List Transition) :
    coverageFindings (checkTransitions declared m location index ts) = [] := by
  induction ts generalizing index with
  | nil =>
      rfl
  | cons t ts ih =>
      have hfirst : ∀ d ∈ transitionDefects declared m t,
          d.category ≠ Category.completeness ∧ d.category ≠ Category.overlap := by
        intro d hd
        rcases category_of_mem_transitionDefects hd with h | h | h <;> simp [h]
      rw [checkTransitions, coverageFindings_append, coverageFindings_findingsAt_of_not hfirst, ih,
        List.append_nil]

theorem coverageFindings_labelDefects (m : Module) (location : String) (s : State) :
    coverageFindings (findingsAt location (labelDefects m s)) = [] := by
  apply coverageFindings_findingsAt_of_not
  intro d hd
  rcases List.mem_map.mp hd with ⟨l, _, rfl⟩
  simp [Defect.category]

theorem coverageFindings_coverage (limit : Nat) (m : Module) (location : String)
    (branches : List Branch) :
    coverageFindings (findingsAt location (coverage limit m branches)) =
      findingsAt location (coverage limit m branches) := by
  apply List.filter_eq_self.mpr
  intro f hf
  rcases List.mem_map.mp hf with ⟨d, hd, rfl⟩
  simp only [coverage] at hd
  split at hd
  · cases hd
  · rcases List.mem_append.mp hd with hgap | hoverlap
    · rcases List.mem_map.mp hgap with ⟨v, _, rfl⟩
      rfl
    · rcases List.mem_map.mp hoverlap with ⟨action, _, rfl⟩
      rfl

theorem coverageFindings_coverageDefects (declared : List String) (limit : Nat) (m : Module)
    (location : String) (s : State) :
    coverageFindings (findingsAt location (coverageDefects declared limit m s)) =
      findingsAt location (coverageDefects declared limit m s) := by
  unfold coverageDefects
  split
  · exact coverageFindings_coverage limit m location _
  · rfl

theorem coverageFindings_checkState (declared : List String) (limit : Nat) (m : Module)
    (location : String) (s : State) :
    coverageFindings (checkState declared limit m location s) =
      findingsAt location (coverageDefects declared limit m s) := by
  rw [checkState, coverageFindings_append, coverageFindings_append, coverageFindings_labelDefects,
    coverageFindings_checkTransitions, coverageFindings_coverageDefects, List.nil_append,
    List.nil_append]

end Lint
end GossipGames
