import GossipGames.Proofs.Lint.CoverageReport

/-!
# The findings about guards

Each transition whose guard is at fault has one finding about it, and there are no other findings
about guards.  They come in the order of the transitions, whatever names occur twice.  Of a state
with such a transition nothing is said about its coverage.
-/

namespace GossipGames

structure Site where
  moduleName : String
  stateName : String
  index : Nat
  transition : Transition

def Site.location (x : Site) : String :=
  x.moduleName ++ "/" ++ x.stateName ++ "/" ++ x.transition.action ++ "#" ++ toString x.index

def Instance.sites (g : Instance) : List Site :=
  g.modules.flatMap fun e => e.2.states.flatMap fun s =>
    s.2.transitions.mapIdx fun index t => ⟨e.1, s.1, index, t⟩

namespace Lint

/-- The text is blank, it cannot be read, or it mentions a name that is not declared. -/
def GuardFaulty (declared : List String) (text : String) : Prop :=
  (∀ c ∈ text.toList, isBlank c = true) ∨ (∃ r, Guard.parse text = .error r) ∨
    ∃ g, Guard.parse text = .ok g ∧ ∃ p ∈ g.leaves, p ∉ declared

/-- The message and the diagnostic of a finding about a guard.  Only a text that is not blank and
cannot be read has a diagnostic: the text and the rejection of the parser.  A text with undeclared
names has them all listed, each once and in byte order. -/
inductive GuardReport (declared : List String) (text : String) :
    String → Option (String × Diagnostic) → Prop where
  | blank : (∀ c ∈ text.toList, isBlank c = true) →
      GuardReport declared text "guard is empty; readers expect a formula such as 'true'" none
  | malformed {c : Char} {r : Guard.Rejection} : c ∈ text.toList → isBlank c = false →
      Guard.parse text = .error r →
        GuardReport declared text
          ("guard '" ++ text ++ "' does not parse: " ++ r.diagnostic.display)
          (some (text, r.diagnostic))
  | undeclared {g : Guard} {names : List String} : Guard.parse text = .ok g → names ≠ [] →
      (names.Pairwise fun p q => bytes p < bytes q) →
      (∀ p, p ∈ names ↔ p ∈ g.leaves ∧ p ∉ declared) →
        GuardReport declared text
          ("guard references undeclared propositions: " ++ ", ".intercalate names) none

def guardFindings (findings : List Finding) : List Finding :=
  findings.filter fun f => f.category = Category.guard

variable {declared : List String} {text : String}

/-!
# Faults of guards

A guard has no defect or one, and it has one exactly when it is at fault.
-/

theorem guardFaulty_iff_not_guardSound :
    GuardFaulty declared text ↔ ¬ GuardSound declared text := by
  unfold GuardFaulty GuardSound
  cases hparse : Guard.parse text with
  | error r =>
      simp
  | ok g =>
      have hnotBlank : ¬ ∀ c ∈ text.toList, isBlank c = true :=
        fun hblank => Guard.trim_ne_nil_of_parse hparse (trim_eq_nil_iff.mpr hblank)
      simp [hnotBlank]

theorem guardDefects_eq_nil_iff_not_guardFaulty :
    guardDefects declared text = [] ↔ ¬ GuardFaulty declared text := by
  rw [guardFaulty_iff_not_guardSound, not_not, guardDefects_eq_nil_iff]

instance : Decidable (GuardFaulty declared text) :=
  decidable_of_iff (guardDefects declared text ≠ [])
    (not_congr guardDefects_eq_nil_iff_not_guardFaulty |>.trans not_not)

theorem guardReport_of_judge {d : Defect} (h : judge declared text = .error d) :
    GuardReport declared text d.message d.diagnostic? := by
  unfold judge at h
  split at h
  · next hblank =>
    cases h
    exact GuardReport.blank (trim_eq_nil_iff.mp hblank)
  · next hnotBlank =>
    split at h
    · next r hparse =>
      cases h
      have hvisible : ∃ c ∈ text.toList, isBlank c = false := by
        by_contra hnone
        refine hnotBlank (trim_eq_nil_iff.mpr fun c hc => ?_)
        rw [← Bool.not_eq_false]
        exact fun hvisible => hnone ⟨c, hc, hvisible⟩
      rcases hvisible with ⟨c, hc, hvisible⟩
      exact GuardReport.malformed hc hvisible hparse
    · next g hparse =>
      split at h
      · cases h
      · next hmissing =>
        cases h
        refine GuardReport.undeclared hparse hmissing ?_ fun p => ?_
        · exact ((Sorted.pairwise_ofList _).filter _).imp lt_iff_bytes_lt.mp
        · simp [Guard.propositions]

theorem guardDefects_cases (declared : List String) (text : String) :
    (guardDefects declared text = [] ∧ ¬ GuardFaulty declared text) ∨
      ∃ d, guardDefects declared text = [d] ∧ GuardFaulty declared text ∧
        GuardReport declared text d.message d.diagnostic? := by
  rw [← guardDefects_eq_nil_iff_not_guardFaulty]
  unfold guardDefects
  cases hjudge : judge declared text with
  | ok g =>
      exact Or.inl ⟨rfl, rfl⟩
  | error d =>
      have hfaulty : GuardFaulty declared text := by
        rw [guardFaulty_iff_not_guardSound, ← exists_judge_iff, hjudge]
        simp
      exact Or.inr ⟨d, rfl, hfaulty, guardReport_of_judge hjudge⟩

/-!
# Structural defects

A defect that is about neither a guard nor the coverage of a state is about names only.
-/

def Defect.IsStructural (d : Defect) : Prop :=
  d.category ∉ [Category.guard, Category.completeness, Category.overlap]

theorem isStructural_of_mem_map {α : Type} {make : α → Defect} {xs : List α}
    (h : ∀ x, (make x).IsStructural) : ∀ d ∈ xs.map make, d.IsStructural := by
  intro d hd
  rcases List.mem_map.mp hd with ⟨x, _, rfl⟩
  exact h x

theorem isStructural_of_mem_ite {d : Defect} {condition : Prop} [Decidable condition]
    (h : d.IsStructural) : ∀ e ∈ if condition then [] else [d], e.IsStructural := by
  intro e he
  split at he
  · cases he
  · cases List.mem_singleton.mp he
    exact h

theorem isStructural_of_mem_goalDefects {goal : String} :
    ∀ d ∈ goalDefects declared goal, d.IsStructural :=
  isStructural_of_mem_map fun _ => by simp [Defect.IsStructural, Defect.category]

theorem isStructural_of_mem_labelDefects {m : Module} {s : State} :
    ∀ d ∈ labelDefects m s, d.IsStructural :=
  isStructural_of_mem_map fun _ => by simp [Defect.IsStructural, Defect.category]

theorem isStructural_of_mem_moduleDefects {m : Module} :
    ∀ d ∈ moduleDefects declared m, d.IsStructural := by
  intro d hd
  simp only [moduleDefects, List.mem_append] at hd
  rcases hd with ((hgoal | hpayoff) | hlabel) | hinitial
  · exact isStructural_of_mem_goalDefects d hgoal
  · exact isStructural_of_mem_ite (by simp [Defect.IsStructural, Defect.category]) d hpayoff
  · refine isStructural_of_mem_map (fun _ => ?_) d hlabel
    simp [Defect.IsStructural, Defect.category]
  · exact isStructural_of_mem_ite (by simp [Defect.IsStructural, Defect.category]) d hinitial

/-!
# Filters of findings

A filter that takes no structural findings leaves what the states have.
-/

def SkipsStructural (p : Finding → Bool) : Prop :=
  ∀ location d, d.IsStructural → p ⟨location, d⟩ = false

theorem skipsStructural_guard : SkipsStructural fun f => f.category = Category.guard := by
  intro location d hd
  refine decide_eq_false fun hguard => hd ?_
  rw [show d.category = Category.guard from hguard]
  exact List.mem_cons_self

theorem skipsStructural_coverage : SkipsStructural fun f =>
    f.category = Category.completeness ∨ f.category = Category.overlap := by
  intro location d hd
  refine decide_eq_false fun hcoverage => hd ?_
  have hcategory : d.category = Category.completeness ∨ d.category = Category.overlap := hcoverage
  rcases hcategory with h | h <;> simp [h]

theorem findingsAt_append (location : String) (ds ds' : List Defect) :
    findingsAt location (ds ++ ds') = findingsAt location ds ++ findingsAt location ds' :=
  List.map_append

theorem filter_findingsAt_eq_self {location : String} {defects : List Defect} {p : Finding → Bool}
    (h : ∀ d ∈ defects, p ⟨location, d⟩ = true) :
    (findingsAt location defects).filter p = findingsAt location defects := by
  apply List.filter_eq_self.mpr
  intro f hf
  rcases List.mem_map.mp hf with ⟨d, hd, rfl⟩
  exact h d hd

section Filter

variable {p : Finding → Bool} (hp : SkipsStructural p)

include hp

theorem filter_findingsAt_eq_nil {location : String} {defects : List Defect}
    (h : ∀ d ∈ defects, d.IsStructural) : (findingsAt location defects).filter p = [] := by
  apply List.filter_eq_nil_iff.mpr
  intro f hf
  rcases List.mem_map.mp hf with ⟨d, hd, rfl⟩
  rw [hp location d (h d hd)]
  exact Bool.false_ne_true

theorem filter_checkModule (limit : Nat) (name : String) (m : Module) :
    (checkModule declared limit name m).filter p = m.states.flatMap fun s =>
      (checkState declared limit m (name ++ "/" ++ s.1) s.2).filter p := by
  rw [checkModule, List.filter_append, List.filter_flatMap,
    filter_findingsAt_eq_nil hp isStructural_of_mem_moduleDefects, List.nil_append]

theorem filter_check (o : Options) (g : Instance) :
    (check o g).filter p = g.modules.flatMap fun e => e.2.states.flatMap fun s =>
      (checkState g.propositions o.maxEnumerated e.2 (e.1 ++ "/" ++ s.1) s.2).filter p := by
  have hrepeated : ∀ d ∈ (repeated [] g.propositions).map Defect.repeatedProposition,
      d.IsStructural :=
    isStructural_of_mem_map fun _ => by simp [Defect.IsStructural, Defect.category]
  simp only [check, List.filter_append, List.filter_flatMap, filter_checkModule hp,
    filter_findingsAt_eq_nil hp hrepeated,
    filter_findingsAt_eq_nil hp isStructural_of_mem_goalDefects, List.nil_append]

end Filter

theorem guardFindings_transition (m : Module) (location : String) (t : Transition) :
    guardFindings (findingsAt location (transitionDefects declared m t)) =
      findingsAt location (guardDefects declared t.guard) := by
  have haction : ∀ d ∈ if t.action = wildcard ∨ m.hasAction t.action then []
      else [Defect.undeclaredAction t.action], d.IsStructural :=
    isStructural_of_mem_ite (by simp [Defect.IsStructural, Defect.category])
  have htarget : ∀ d ∈ if m.hasState t.target then [] else [Defect.undefinedTarget t.target],
      d.IsStructural :=
    isStructural_of_mem_ite (by simp [Defect.IsStructural, Defect.category])
  rw [guardFindings, transitionDefects, findingsAt_append, findingsAt_append, List.filter_append,
    List.filter_append, filter_findingsAt_eq_nil skipsStructural_guard haction,
    filter_findingsAt_eq_nil skipsStructural_guard htarget]
  exact filter_findingsAt_eq_self fun d hd => decide_eq_true (category_of_mem_guardDefects hd)

theorem guardFindings_checkTransitions (declared : List String) (m : Module) (location : String)
    (index : Nat) (ts : List Transition) :
    guardFindings (checkTransitions declared m location index ts) =
      (ts.zipIdx index).flatMap fun p =>
        findingsAt (transitionLocation location p.2 p.1) (guardDefects declared p.1.guard) := by
  induction ts generalizing index with
  | nil =>
      rfl
  | cons t ts ih =>
      have hrest := ih (index + 1)
      rw [guardFindings] at hrest
      rw [checkTransitions, guardFindings, List.filter_append, hrest, List.zipIdx_cons,
        List.flatMap_cons]
      exact congrArg (· ++ _) (guardFindings_transition m _ t)

theorem guardFindings_coverageDefects (declared : List String) (limit : Nat) (m : Module)
    (location : String) (s : State) :
    guardFindings (findingsAt location (coverageDefects declared limit m s)) = [] := by
  rw [← coverageFindings_coverageDefects, guardFindings, coverageFindings, List.filter_filter,
    List.filter_eq_nil_iff]
  intro f _
  cases f.category <;> simp

theorem guardFindings_checkState (declared : List String) (limit : Nat) (m : Module)
    (location : String) (s : State) :
    guardFindings (checkState declared limit m location s) =
      s.transitions.zipIdx.flatMap fun p =>
        findingsAt (transitionLocation location p.2 p.1) (guardDefects declared p.1.guard) := by
  have htransitions := guardFindings_checkTransitions declared m location 0 s.transitions
  have hcoverage := guardFindings_coverageDefects declared limit m location s
  rw [guardFindings] at htransitions hcoverage
  rw [guardFindings, checkState, List.filter_append, List.filter_append,
    filter_findingsAt_eq_nil skipsStructural_guard isStructural_of_mem_labelDefects, htransitions,
    hcoverage, List.nil_append, List.append_nil]

theorem coverageFindings_checkState_of_guardFaulty {limit : Nat} {m : Module} {location : String}
    {s : State} (h : ∃ t ∈ s.transitions, GuardFaulty declared t.guard) :
    coverageFindings (checkState declared limit m location s) = [] := by
  rcases h with ⟨t, ht, hfaulty⟩
  rw [coverageFindings_checkState, coverageDefects]
  split
  · next branches hbranches =>
    have hsound := (mapM_branch?_eq_some_iff.mp hbranches).1 t ht
    exact absurd hsound (guardFaulty_iff_not_guardSound.mp hfaulty)
  · rfl

theorem forall₂_filter_flatMap {R : α → β → Prop} {p : α → Bool} {f : α → List β} {xs : List α}
    (h : ∀ x ∈ xs, (f x = [] ∧ p x = false) ∨ ∃ y, f x = [y] ∧ p x = true ∧ R x y) :
    List.Forall₂ R (xs.filter p) (xs.flatMap f) := by
  induction xs with
  | nil =>
      exact List.Forall₂.nil
  | cons x xs ih =>
      have hrest := ih fun y hy => h y (List.mem_cons_of_mem x hy)
      rw [List.filter_cons, List.flatMap_cons]
      rcases h x List.mem_cons_self with ⟨hnil, hp⟩ | ⟨y, hone, hp, hy⟩
      · rw [hnil, hp]
        exact hrest
      · rw [hone, hp]
        exact List.Forall₂.cons hy hrest

theorem guardFindings_check (o : Options) (g : Instance) :
    guardFindings (check o g) = g.sites.flatMap fun x =>
      findingsAt x.location (guardDefects g.propositions x.transition.guard) := by
  have hstates := filter_check skipsStructural_guard o g
  have hstate := guardFindings_checkState g.propositions o.maxEnumerated
  simp only [guardFindings] at hstate ⊢
  simp only [hstates, hstate, Instance.sites, List.flatMap_assoc, List.mapIdx_eq_zipIdx_map,
    List.flatMap_map]
  rfl

/-- The findings about guards are, in order, one for each transition whose guard is at fault, at its
location.  The findings about coverage are those of the states all of whose guards are sound. -/
theorem findings_of_guards (o : Options) (g : Instance) :
    List.Forall₂
      (fun x f => f.location = x.location ∧
        GuardReport g.propositions x.transition.guard f.message f.defect.diagnostic?)
      (g.sites.filter fun x => GuardFaulty g.propositions x.transition.guard)
      (guardFindings (check o g)) ∧
    coverageFindings (check o g) = g.modules.flatMap fun e => e.2.states.flatMap fun s =>
      if ∃ t ∈ s.2.transitions, GuardFaulty g.propositions t.guard then []
      else coverageFindings
        (checkState g.propositions o.maxEnumerated e.2 (e.1 ++ "/" ++ s.1) s.2) := by
  constructor
  · rw [guardFindings_check]
    refine forall₂_filter_flatMap fun x _ => ?_
    rcases guardDefects_cases g.propositions x.transition.guard with
      ⟨hnone, hsound⟩ | ⟨d, hone, hfaulty, hreport⟩
    · exact Or.inl ⟨by rw [hnone]; rfl, decide_eq_false hsound⟩
    · exact Or.inr ⟨⟨x.location, d⟩, by rw [hone]; rfl, decide_eq_true hfaulty, rfl, hreport⟩
  · rw [coverageFindings, filter_check skipsStructural_coverage]
    congr 1
    funext e
    congr 1
    funext s
    split
    · next hfaulty =>
      exact coverageFindings_checkState_of_guardFaulty hfaulty
    · rfl

end Lint
end GossipGames
