import GossipGames.Proofs.Lint.Agreement

/-!
# Editing the transitions of a state

A state is checked against its module, of which the transitions of its states are no concern.  So
other transitions for one state change the findings of this state and nothing else.
-/

namespace GossipGames

/-!
# The edit

The state is given by its place, since names may occur twice.
-/

def State.withTransitions (ts : List Transition) (s : State) : State :=
  { s with transitions := ts }

def Module.withTransitions (j : Nat) (ts : List Transition) (m : Module) : Module :=
  { m with states := m.states.modify j fun e => (e.1, e.2.withTransitions ts) }

def Instance.withTransitions (i j : Nat) (ts : List Transition) (g : Instance) : Instance :=
  { g with modules := g.modules.modify i fun e => (e.1, e.2.withTransitions j ts) }

namespace Lint

/-- The finding is located at a place or below it. -/
def IsAtOrBelow (location : String) (f : Finding) : Prop :=
  f.location = location ∨ ∃ rest, f.location = location ++ "/" ++ rest

variable {declared : List String} {limit i j : Nat} {m m' : Module} {s : State}

theorem exists_modify {l : List α} {x : α} (h : l[i]? = some x) :
    ∃ before after, l = before ++ x :: after ∧
      ∀ f : α → α, l.modify i f = before ++ f x :: after := by
  rcases List.getElem?_eq_some_iff.mp h with ⟨hi, rfl⟩
  refine ⟨l.take i, l.drop (i + 1), ?_, fun f => ?_⟩
  · rw [List.getElem_cons_drop, List.take_append_drop]
  · exact List.modify_eq_take_cons_drop hi

theorem names_modify (j : Nat) (f : α → α) (l : List (String × α)) :
    (l.modify j fun e => (e.1, f e.2)).map Prod.fst = l.map Prod.fst := by
  induction l generalizing j with
  | nil =>
      cases j <;> rfl
  | cons e l ih =>
      cases j with
      | zero =>
          rfl
      | succ j =>
          rw [List.modify_succ_cons, List.map_cons, List.map_cons, ih]

theorem agree_withTransitions (j : Nat) (ts : List Transition) (m : Module) :
    Agree m (m.withTransitions j ts) where
  actions _ := Iff.rfl
  names _ := by rw [Module.withTransitions, names_modify]

theorem checkState_congr (h : Agree m m') (hlabels : m.labels = m'.labels) (location : String)
    (s : State) :
    checkState declared limit m location s = checkState declared limit m' location s := by
  rw [checkState, checkState, checkTransitions_congr (List.Perm.refl _) h,
    coverageDefects_congr (List.Perm.refl _) h rfl, labelDefects, labelDefects, hlabels]

theorem moduleDefects_withTransitions (j : Nat) (ts : List Transition) (m : Module) :
    moduleDefects declared (m.withTransitions j ts) = moduleDefects declared m := by
  rw [moduleDefects, moduleDefects, ← hasState_congr (agree_withTransitions j ts m)]
  rfl

theorem checkModule_withTransitions {stateName : String} (hs : m.states[j]? = some (stateName, s))
    (declared : List String) (limit : Nat) (name : String) :
    ∃ before after,
      checkModule declared limit name m =
        before ++ checkState declared limit m (name ++ "/" ++ stateName) s ++ after ∧
      ∀ ts, checkModule declared limit name (m.withTransitions j ts) =
        before ++ checkState declared limit (m.withTransitions j ts) (name ++ "/" ++ stateName)
          (s.withTransitions ts) ++ after := by
  rcases exists_modify hs with ⟨front, back, hstates, hmodify⟩
  let found (e : String × State) := checkState declared limit m (name ++ "/" ++ e.1) e.2
  refine ⟨findingsAt name (moduleDefects declared m) ++ front.flatMap found, back.flatMap found,
    ?_, fun ts => ?_⟩
  · rw [checkModule, hstates, List.flatMap_append, List.flatMap_cons]
    simp only [List.append_assoc, found]
  · have hfound : (fun e : String × State =>
        checkState declared limit (m.withTransitions j ts) (name ++ "/" ++ e.1) e.2) = found :=
      funext fun e => (checkState_congr (agree_withTransitions j ts m) rfl _ _).symm
    have hown : found (stateName, s.withTransitions ts) = checkState declared limit
        (m.withTransitions j ts) (name ++ "/" ++ stateName) (s.withTransitions ts) :=
      congrFun hfound.symm _
    have hedited : (m.withTransitions j ts).states =
        front ++ (stateName, s.withTransitions ts) :: back := hmodify _
    rw [checkModule, moduleDefects_withTransitions, hfound, hedited, List.flatMap_append,
      List.flatMap_cons, hown]
    simp only [List.append_assoc]

theorem isAtOrBelow_of_mem_checkTransitions {location : String} {index : Nat}
    {ts : List Transition} :
    ∀ f ∈ checkTransitions declared m location index ts, IsAtOrBelow location f := by
  induction ts generalizing index with
  | nil =>
      intro f hf
      cases hf
  | cons t ts ih =>
      intro f hf
      rcases List.mem_append.mp hf with hfirst | hrest
      · rcases List.mem_map.mp hfirst with ⟨d, _, rfl⟩
        refine Or.inr ⟨t.action ++ "#" ++ toString index, ?_⟩
        simp only [transitionLocation, String.append_assoc]
      · exact ih f hrest

theorem isAtOrBelow_of_mem_checkState {location : String} :
    ∀ f ∈ checkState declared limit m location s, IsAtOrBelow location f := by
  intro f hf
  rcases List.mem_append.mp hf with hf | hcoverage
  · rcases List.mem_append.mp hf with hlabel | htransition
    · rcases List.mem_map.mp hlabel with ⟨d, _, rfl⟩
      exact Or.inl rfl
    · exact isAtOrBelow_of_mem_checkTransitions f htransition
  · rcases List.mem_map.mp hcoverage with ⟨d, _, rfl⟩
    exact Or.inl rfl

/-- Other transitions for a state change its own findings, which are located at the state or below
it, and leave all other findings as they are. -/
theorem check_withTransitions (o : Options) {g : Instance} {name stateName : String}
    (hm : g.modules[i]? = some (name, m)) (hs : m.states[j]? = some (stateName, s)) :
    let location := name ++ "/" ++ stateName
    let own (m : Module) (s : State) := checkState g.propositions o.maxEnumerated m location s
    ∃ before after,
      (check o g = before ++ own m s ++ after ∧ ∀ f ∈ own m s, IsAtOrBelow location f) ∧
      ∀ ts,
        check o (g.withTransitions i j ts) =
          before ++ own (m.withTransitions j ts) (s.withTransitions ts) ++ after ∧
        ∀ f ∈ own (m.withTransitions j ts) (s.withTransitions ts), IsAtOrBelow location f := by
  intro location own
  rcases exists_modify hm with ⟨front, back, hmodules, hmodify⟩
  rcases checkModule_withTransitions hs g.propositions o.maxEnumerated name with
    ⟨before, after, hbefore, hafter⟩
  let found (e : String × Module) := checkModule g.propositions o.maxEnumerated e.1 e.2
  let general := findingsAt "ap" ((repeated [] g.propositions).map Defect.repeatedProposition) ++
    findingsAt "instance" (goalDefects g.propositions g.goal)
  refine ⟨general ++ front.flatMap found ++ before, after ++ back.flatMap found,
    ⟨?_, isAtOrBelow_of_mem_checkState⟩, fun ts => ⟨?_, isAtOrBelow_of_mem_checkState⟩⟩
  · rw [check, hmodules, List.flatMap_append, List.flatMap_cons, hbefore]
    simp only [List.append_assoc, general, found, own, location]
  · have hedited : (g.withTransitions i j ts).modules =
        front ++ (name, m.withTransitions j ts) :: back := hmodify _
    rw [check, hedited, List.flatMap_append, List.flatMap_cons]
    simp only [Instance.withTransitions, hafter, List.append_assoc, general, found, own, location]

/-- The second state of two with one name is edited; a look-up finds the first one. -/
theorem check_withTransitions_of_twins :
    let s : State := ⟨[], [⟨"a", "p", "s1"⟩]⟩
    let t : State := ⟨[], []⟩
    let m : Module := ⟨"p", "?", ["a"], ["p"], "s1", [("s1", s), ("s1", t)]⟩
    let g : Instance := ⟨"twins", ["p"], "module", "p", [("A", m)]⟩
    let own (m : Module) (s : State) := checkState ["p"] 16 m "A/s1" s
    let ts : List Transition := [⟨"a", "q", "s2"⟩]
    g.modules[0]? = some ("A", m) ∧ m.states[1]? = some ("s1", t) ∧
      ∃ before after, check {} g = before ++ own m t ++ after ∧
        check {} (g.withTransitions 0 1 ts) =
          before ++ own (m.withTransitions 1 ts) (t.withTransitions ts) ++ after := by
  intro s t m g own ts
  rcases check_withTransitions {} (show g.modules[0]? = some ("A", m) from rfl)
    (show m.states[1]? = some ("s1", t) from rfl) with ⟨before, after, hbefore, hafter⟩
  exact ⟨rfl, rfl, before, after, hbefore.1, (hafter ts).1⟩

end Lint
end GossipGames
