import GossipGames.Lint.Check
import GossipGames.Proofs.Guard.Places

/-!
# Diagnostics of findings

A finding with a diagnostic is about a guard that the parser refused, and the diagnostic is the
parser's own.  Whether it can be shown is a matter of how that guard ends.
-/

namespace GossipGames
namespace Lint

/-- What a defect says about a malformed guard is what the parser says about it. -/
def Defect.Faithful (d : Defect) : Prop :=
  ∀ text r, d = malformedGuard text r → Guard.parse text = .error r

theorem faithful_of_forall_ne {d : Defect} (h : ∀ text r, d ≠ Defect.malformedGuard text r) :
    d.Faithful := by
  intro text r heq
  exact absurd heq (h text r)

/-!
# Guards

Only the judgement of a guard makes a defect that speaks of the parser.
-/

theorem faithful_of_judge {declared : List String} {text : String} {d : Defect}
    (h : judge declared text = .error d) : d.Faithful := by
  unfold judge at h
  split at h
  · cases h
    exact faithful_of_forall_ne (by simp)
  · split at h
    · next r hparse =>
      cases h
      intro text' r' heq
      cases heq
      exact hparse
    · split at h
      · cases h
      · cases h
        exact faithful_of_forall_ne (by simp)

theorem faithful_of_mem_guardDefects {declared : List String} {text : String} {d : Defect}
    (h : d ∈ guardDefects declared text) : d.Faithful := by
  unfold guardDefects at h
  split at h
  · next d' hjudge =>
    cases List.mem_singleton.mp h
    exact faithful_of_judge hjudge
  · cases h

theorem faithful_of_mem_transitionDefects {declared : List String} {m : Module} {t : Transition}
    {d : Defect} (h : d ∈ transitionDefects declared m t) : d.Faithful := by
  rcases List.mem_append.mp h with hitem | hguard
  · apply faithful_of_forall_ne
    rintro text r rfl
    rcases List.mem_append.mp hitem with haction | htarget
    · split at haction <;> simp at haction
    · split at htarget <;> simp at htarget
  · exact faithful_of_mem_guardDefects hguard

theorem faithful_of_mem_map {α : Type} {make : α → Defect} {xs : List α}
    (hmake : ∀ x text r, make x ≠ Defect.malformedGuard text r) {d : Defect}
    (h : d ∈ xs.map make) : d.Faithful := by
  rcases List.mem_map.mp h with ⟨x, _, rfl⟩
  exact faithful_of_forall_ne (hmake x)

theorem faithful_of_mem_goalDefects {declared : List String} {goal : String} {d : Defect}
    (h : d ∈ goalDefects declared goal) : d.Faithful :=
  faithful_of_mem_map (by simp) h

theorem faithful_of_mem_moduleDefects {declared : List String} {m : Module} {d : Defect}
    (h : d ∈ moduleDefects declared m) : d.Faithful := by
  simp only [moduleDefects, List.mem_append] at h
  rcases h with ((hgoal | hpayoff) | hlabel) | hinitial
  · exact faithful_of_mem_goalDefects hgoal
  · apply faithful_of_forall_ne
    rintro text r rfl
    split at hpayoff <;> simp at hpayoff
  · exact faithful_of_mem_map (by simp) hlabel
  · apply faithful_of_forall_ne
    rintro text r rfl
    split at hinitial <;> simp at hinitial

theorem faithful_of_mem_coverageDefects {declared : List String} {limit : Nat} {m : Module}
    {s : State} {d : Defect} (h : d ∈ coverageDefects declared limit m s) : d.Faithful := by
  unfold coverageDefects at h
  split at h
  · simp only [coverage] at h
    split at h
    · cases h
    · rcases List.mem_append.mp h with hgap | hoverlap
      · exact faithful_of_mem_map (by simp) hgap
      · exact faithful_of_mem_map (by simp) hoverlap
  · cases h

theorem faithful_of_mem_findingsAt {location : String} {defects : List Defect}
    (h : ∀ d ∈ defects, d.Faithful) : ∀ f ∈ findingsAt location defects, f.defect.Faithful := by
  intro f hf
  rcases List.mem_map.mp hf with ⟨d, hd, rfl⟩
  exact h d hd

theorem faithful_of_mem_checkTransitions {declared : List String} {m : Module} {location : String}
    {index : Nat} {ts : List Transition} :
    ∀ f ∈ checkTransitions declared m location index ts, f.defect.Faithful := by
  induction ts generalizing index with
  | nil =>
      intro f hf
      cases hf
  | cons t ts ih =>
      intro f hf
      rcases List.mem_append.mp hf with hfirst | hrest
      · exact faithful_of_mem_findingsAt (fun _ => faithful_of_mem_transitionDefects) f hfirst
      · exact ih f hrest

theorem faithful_of_mem_checkState {declared : List String} {limit : Nat} {m : Module}
    {location : String} {s : State} :
    ∀ f ∈ checkState declared limit m location s, f.defect.Faithful := by
  intro f hf
  rcases List.mem_append.mp hf with hf | hcoverage
  · rcases List.mem_append.mp hf with hlabels | htransitions
    · exact faithful_of_mem_findingsAt (fun _ => faithful_of_mem_map (by simp)) f hlabels
    · exact faithful_of_mem_checkTransitions f htransitions
  · exact faithful_of_mem_findingsAt (fun _ => faithful_of_mem_coverageDefects) f hcoverage

theorem faithful_of_mem_checkModule {declared : List String} {limit : Nat} {name : String}
    {m : Module} : ∀ f ∈ checkModule declared limit name m, f.defect.Faithful := by
  intro f hf
  rcases List.mem_append.mp hf with hmodule | hstates
  · exact faithful_of_mem_findingsAt (fun _ => faithful_of_mem_moduleDefects) f hmodule
  · rcases List.mem_flatMap.mp hstates with ⟨e, _, he⟩
    exact faithful_of_mem_checkState f he

theorem faithful_of_mem_check {o : Options} {g : Instance} :
    ∀ f ∈ check o g, f.defect.Faithful := by
  intro f hf
  rcases List.mem_append.mp hf with hf | hmodules
  · rcases List.mem_append.mp hf with hdeclarations | hgoal
    · exact faithful_of_mem_findingsAt (fun _ => faithful_of_mem_map (by simp)) f hdeclarations
    · exact faithful_of_mem_findingsAt (fun _ => faithful_of_mem_goalDefects) f hgoal
  · rcases List.mem_flatMap.mp hmodules with ⟨e, _, he⟩
    exact faithful_of_mem_checkModule f he

theorem exists_parse_of_report? {o : Options} {g : Instance} {f : Finding} (hf : f ∈ check o g)
    {report : Report} (h : f.report? = some report) :
    ∃ r, Guard.parse report.source = .error r ∧
      report = r.diagnostic.report f.location report.source := by
  rcases Option.map_eq_some_iff.mp h with ⟨⟨text, diagnostic⟩, hdiagnostic, rfl⟩
  unfold Defect.diagnostic? at hdiagnostic
  split at hdiagnostic
  · next text' r hdefect =>
    cases hdiagnostic
    exact ⟨r, faithful_of_mem_check f hf _ r hdefect, rfl⟩
  · cases hdiagnostic

/-- Every rejection has its place in the text, and it can be shown, as can the diagnostic of every
finding, unless the text breaks off before blanks. -/
theorem rejections_placed_and_shown (text : String) (o : Options) (g : Instance) :
    (∀ r, Guard.parse text = .error r → Guard.Placed text r ∧
      ∀ name, (r.diagnostic.report name text).render = none ↔ Guard.BreaksOff text) ∧
    ∀ f ∈ check o g, ∀ report, f.report? = some report →
      (report.render = none ↔ Guard.BreaksOff report.source) := by
  constructor
  · intro r hparse
    exact ⟨Guard.placed_of_parse hparse, Guard.render_eq_none_iff hparse⟩
  · intro f hf report hreport
    rcases exists_parse_of_report? hf hreport with ⟨r, hparse, hr⟩
    rw [hr]
    exact Guard.render_eq_none_iff hparse f.location

theorem rejections_placed_and_shown_unclosed :
    let s : State := ⟨[], [⟨"w", "(p", "s"⟩]⟩
    let m : Module := ⟨"p", "?", ["w"], [], "s", [("s", s)]⟩
    let g : Instance := ⟨"one", ["p"], "module", "p", [("A", m)]⟩
    (∃ r, Guard.parse "(p" = .error r ∧ r.diagnostic.span = ⟨2, 2⟩ ∧ Guard.Placed "(p" r) ∧
      ∃ f ∈ check {} g, ∃ report, f.report? = some report ∧ report.render ≠ none := by
  intro s m g
  let r : Guard.Rejection :=
    Guard.Rejection.unfinished ⟨2, 2⟩ (Guard.Awaiting.continuation 1).expected
  let f : Finding := ⟨"A/s/w#0", Defect.malformedGuard "(p" r⟩
  have hparse : Guard.parse "(p" = .error r := by
    decide +kernel
  have hcheck : check {} g = [f] := by
    decide +kernel
  have hf : f ∈ check {} g := by
    rw [hcheck]
    exact List.mem_singleton.mpr rfl
  have hends : ¬ Guard.BreaksOff "(p" := by
    intro h
    rcases h.blank with ⟨c, hc, hblank⟩
    cases Option.some.inj hc
    cases hblank
  rcases rejections_placed_and_shown "(p" {} g with ⟨hplaced, hshown⟩
  refine ⟨⟨r, hparse, rfl, (hplaced r hparse).1⟩, f, hf, _, rfl, ?_⟩
  intro hnone
  exact hends ((hshown f hf _ rfl).mp hnone)

/-- After `a -> ` the place would start at byte 5 and end at byte 4, and it is never shown. -/
theorem dangling_arrow_not_shown :
    ∃ r, Guard.parse "a -> " = .error r ∧ r.diagnostic.span = ⟨5, 4⟩ ∧
      ∀ name, (r.diagnostic.report name "a -> ").render = none := by
  have hparse : Guard.parse "a -> " = .error (Guard.Rejection.unfinished ⟨5, 4⟩
      (Guard.Awaiting.operand 0).expected) := by
    decide +kernel
  exact ⟨_, hparse, rfl, fun _ => rfl⟩

end Lint
end GossipGames
