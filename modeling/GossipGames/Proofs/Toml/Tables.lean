import GossipGames.Proofs.Toml.Data

/-!
# Tables in the making

A statement adds to what the tables of a file give and changes nothing else.
-/

namespace GossipGames
namespace Toml

namespace Table

variable {t u : Table Value} {k : Key} {v : Value} {name : String}

theorem data_append (t : Table Value) (k : Key) (v : Value) :
    (t.append k v).data = t.data ++ [(k.name, v.datum)] := by
  rw [data, append, List.map_append, List.map_singleton, ← data]

theorem entries_extendTo (t : Table Value) (v : Value) :
    (t.extendTo v).entries = t.entries := by
  unfold extendTo
  split <;> rfl

theorem origin_extendTo (t : Table Value) (v : Value) : (t.extendTo v).origin = t.origin := by
  unfold extendTo
  split <;> rfl

theorem mem_keyNames_iff : name ∈ t.keyNames ↔ ∃ d, (name, d) ∈ t.data := by
  have hnames : t.keyNames = t.data.map Prod.fst := by
    rw [data, List.map_map]
    rfl
  rw [hnames, List.mem_map]
  constructor
  · rintro ⟨p, hp, rfl⟩
    exact ⟨p.2, hp⟩
  · rintro ⟨d, hd⟩
    exact ⟨_, hd, rfl⟩

theorem get?_eq_none_iff : t.get? name = none ↔ name ∉ t.keyNames := by
  constructor
  · exact not_mem_keyNames_of_get?
  · intro hname
    rw [get?, Option.map_eq_none_iff, List.find?_eq_none]
    intro e he heq
    exact hname (List.mem_map.mpr ⟨e, he, beq_iff_eq.mp heq⟩)

theorem mem_of_get? (h : t.get? name = some v) : ∃ k, (k, v) ∈ t.entries ∧ k.name = name := by
  rcases Option.map_eq_some_iff.mp h with ⟨e, hfind, rfl⟩
  have hname : e.1.name = name := by
    simpa using List.find?_some hfind
  exact ⟨e.1, List.mem_of_find?_eq_some hfind, hname⟩

theorem assign_nil (v : Value) (h : k.name ∉ t.keyNames) :
    t.assign [] k v = some (t.append k v) := by
  rw [assign, alter, if_pos ⟨Or.inl rfl, Option.isNone_iff_eq_none.mpr (get?_eq_none_iff.mpr h)⟩]

def entryData (p : (List Key × Key) × Value) : String × Datum :=
  (p.1.2.name, p.2.datum)

theorem exists_ofPairs? (extent : Extent) {pairs : List ((List Key × Key) × Value)}
    (hpath : ∀ p ∈ pairs, p.1.1 = []) (hnames : ((pairs.map entryData).map Prod.fst).Nodup) :
    ∃ t, ofPairs? extent pairs = some t ∧ t.data = pairs.map entryData := by
  have hrun : ∀ t : Table Value, (∀ p ∈ pairs, p.1.2.name ∉ t.keyNames) →
      ∃ t', pairs.foldlM (fun t p => t.assign p.1.1 p.1.2 p.2) t = some t' ∧
        t'.data = t.data ++ pairs.map entryData := by
    induction pairs with
    | nil =>
        intro t _
        exact ⟨t, rfl, (List.append_nil _).symm⟩
    | cons p pairs ih =>
        intro t hfresh
        rw [List.forall_mem_cons] at hpath hfresh
        rw [List.map_cons, List.map_cons, List.nodup_cons, List.map_map] at hnames
        have hlater : ∀ q ∈ pairs, q.1.2.name ∉ (t.append p.1.2 p.2).keyNames := by
          intro q hq hmem
          rw [keyNames_append, List.mem_append, List.mem_singleton] at hmem
          rcases hmem with hmem | heq
          · exact hfresh.2 q hq hmem
          · exact hnames.1 (List.mem_map.mpr ⟨q, hq, heq⟩)
        rcases ih hpath.2 (by rw [List.map_map]; exact hnames.2) _ hlater with ⟨t', ht', hdata⟩
        refine ⟨t', ?_, ?_⟩
        · rw [List.foldlM_cons, hpath.1, assign_nil p.2 hfresh.1]
          exact ht'
        · rw [hdata, data_append, List.append_assoc, List.map_cons, List.singleton_append]
          rfl
  rcases hrun (empty (some extent) .braces) fun _ _ => List.not_mem_nil with ⟨t, ht, hdata⟩
  exact ⟨t, ht, hdata⟩

end Table

/-!
# Tables of tables

What is given is listed with the name of the table that gives it.
-/

/-- The entries are tables of some names, and together they give exactly what is listed. -/
structure Sectioned (allowed : Origin → Prop) (names : List String)
    (given : List (String × String × Datum)) (t : Table Value) : Prop where
  tables : ∀ e ∈ t.entries, ∃ u, e.2 = .table u ∧ allowed u.origin ∧
    ∀ p, p ∈ u.data ↔ (e.1.name, p) ∈ given
  keyNames_subset : t.keyNames ⊆ names
  mem_keyNames : ∀ g ∈ given, g.1 ∈ t.keyNames

namespace Sectioned

variable {allowed : Origin → Prop} {names : List String} {given : List (String × String × Datum)}
variable {t u : Table Value} {k : Key}

theorem empty (allowed : Origin → Prop) (extent : Option Extent) (origin : Origin) :
    Sectioned allowed [] [] (Table.empty extent origin) where
  tables _ he := absurd he List.not_mem_nil
  keyNames_subset _ hn := hn
  mem_keyNames _ hg := absurd hg List.not_mem_nil

theorem mono {names' : List String} (ht : Sectioned allowed names given t) (h : names ⊆ names') :
    Sectioned allowed names' given t :=
  { ht with keyNames_subset := fun _ hn => h (ht.keyNames_subset hn) }

theorem extendTo (ht : Sectioned allowed names given t) (v : Value) :
    Sectioned allowed names given (t.extendTo v) := by
  have hentries := Table.entries_extendTo t v
  constructor
  · rw [hentries]
    exact ht.tables
  · rw [Table.keyNames, hentries]
    exact ht.keyNames_subset
  · rw [Table.keyNames, hentries]
    exact ht.mem_keyNames

theorem mem_append_iff {name : String} {ps : List (String × Datum)} (hname : k.name ≠ name)
    (p : String × Datum) :
    (k.name, p) ∈ given ++ ps.map (fun q => (name, q)) ↔ (k.name, p) ∈ given := by
  rw [List.mem_append, List.mem_map]
  constructor
  · rintro (hgiven | ⟨q, -, heq⟩)
    · exact hgiven
    · exact absurd (congrArg Prod.fst heq).symm hname
  · exact Or.inl

theorem append (ht : Sectioned allowed names given t) (hk : k.name ∉ t.keyNames)
    (hu : allowed u.origin) :
    Sectioned allowed (names ++ [k.name]) (given ++ u.data.map fun p => (k.name, p))
      (t.append k (.table u)) where
  tables e he := by
    rcases List.mem_append.mp he with he | he
    · rcases ht.tables e he with ⟨w, hw, horigin, hdata⟩
      have hname : e.1.name ≠ k.name := by
        intro heq
        exact hk (heq ▸ List.mem_map_of_mem he)
      exact ⟨w, hw, horigin, fun p => (hdata p).trans (mem_append_iff hname p).symm⟩
    · rw [List.mem_singleton.mp he]
      refine ⟨u, rfl, hu, fun p => ?_⟩
      rw [List.mem_append, List.mem_map]
      constructor
      · intro hp
        exact Or.inr ⟨p, hp, rfl⟩
      · rintro (hgiven | ⟨q, hq, heq⟩)
        · exact absurd (ht.mem_keyNames _ hgiven) hk
        · cases heq
          exact hq
  keyNames_subset := by
    rw [Table.keyNames_append]
    exact List.append_subset.mpr ⟨fun _ hn => List.mem_append_left _ (ht.keyNames_subset hn),
      List.subset_append_right _ _⟩
  mem_keyNames g hg := by
    rw [Table.keyNames_append, List.mem_append]
    rcases List.mem_append.mp hg with hg | hg
    · exact Or.inl (ht.mem_keyNames g hg)
    · rcases List.mem_map.mp hg with ⟨p, -, rfl⟩
      exact Or.inr List.mem_cons_self

theorem replace {w : Table Value} {ps : List (String × Datum)}
    (ht : Sectioned allowed names given t) (hget : t.get? k.name = some (.table u))
    (hw : allowed w.origin) (hdata : w.data = u.data ++ ps) :
    Sectioned allowed names (given ++ ps.map fun p => (k.name, p))
      (t.replace k.name (.table w)) := by
  have hnames := Table.keyNames_replace t k.name (.table w)
  rcases Table.mem_of_get? hget with ⟨k', hmem, hk'⟩
  refine ⟨fun e he => ?_, hnames ▸ ht.keyNames_subset, fun g hg => ?_⟩
  · rcases List.mem_map.mp he with ⟨old, hold, rfl⟩
    by_cases hname : old.1.name = k.name
    · rw [if_pos hname]
      refine ⟨w, rfl, hw, fun p => ?_⟩
      rcases ht.tables _ hmem with ⟨u', hu', -, hgiven⟩
      cases hu'
      rw [hdata, List.mem_append, hgiven, hk', hname, List.mem_append, List.mem_map]
      simp
    · rw [if_neg hname]
      rcases ht.tables old hold with ⟨u', hu', horigin, hgiven⟩
      exact ⟨u', hu', horigin, fun p => (hgiven p).trans (mem_append_iff hname p).symm⟩
  · rw [hnames]
    rcases List.mem_append.mp hg with hg | hg
    · exact ht.mem_keyNames g hg
    · rcases List.mem_map.mp hg with ⟨p, -, rfl⟩
      exact List.mem_map.mpr ⟨_, hmem, hk'⟩

/-- A change that adds an entry to a table of the right kind adds it to the table of a name, which
is made if it is missing. -/
theorem alter {dotted : Bool} {f : Table Value → Option (Table Value)} {p : String × Datum}
    (ht : Sectioned allowed names given t) (hk : k.name ∈ names)
    (hmade : allowed (if dotted then .dotted else .implied))
    (hopen : ∀ o, allowed o → ¬ (o = .braces ∨ (dotted = true ∧ o = .header)))
    (hf : ∀ u, allowed u.origin → p.1 ∉ u.keyNames →
      ∃ w, f u = some w ∧ w.origin = u.origin ∧ w.data = u.data ++ [p])
    (hnew : ∀ d, (k.name, p.1, d) ∉ given) :
    ∃ t', t.alter dotted f [k] = some t' ∧
      Sectioned allowed names (given ++ [(k.name, p)]) t' := by
  cases hget : t.get? k.name with
  | none =>
      -- The table is made without entries, so that the new name cannot be taken.
      have hempty : p.1 ∉ (Table.empty none (if dotted then .dotted else .implied)).keyNames :=
        List.not_mem_nil
      rcases hf _ hmade hempty with ⟨w, hw, horigin, hdata⟩
      have hallowed : allowed w.origin := by
        rw [horigin]
        exact hmade
      have happended := ht.append (Table.get?_eq_none_iff.mp hget) hallowed
      rw [hdata] at happended
      refine ⟨t.append k (.table w), by simp [Table.alter, hget, hw], ?_⟩
      exact happended.mono (List.append_subset.mpr
        ⟨List.Subset.refl names, List.cons_subset.mpr ⟨hk, List.nil_subset _⟩⟩)
  | some v =>
      rcases Table.mem_of_get? hget with ⟨k', hmem, hk'⟩
      rcases ht.tables _ hmem with ⟨u, rfl, hu, hgiven⟩
      -- A name that is taken would be listed with the name of the table.
      have hfresh : p.1 ∉ u.keyNames := by
        intro hname
        rcases Table.mem_keyNames_iff.mp hname with ⟨d, hd⟩
        exact hnew d (hk' ▸ (hgiven _).mp hd)
      rcases hf u hu hfresh with ⟨w, hw, horigin, hdata⟩
      refine ⟨t.replace k.name (.table w), ?_, ht.replace hget (horigin ▸ hu) hdata⟩
      simp [Table.alter, hget, hw, if_neg (hopen _ hu)]

theorem datum_of_mem_data {e : String × Datum} (ht : Sectioned allowed names given t)
    (he : e ∈ t.data) :
    e.1 ∈ names ∧ ∃ ps, e.2 = .table ps ∧ ∀ p, p ∈ ps ↔ (e.1, p) ∈ given := by
  have hname : e.1 ∈ t.keyNames := Table.mem_keyNames_iff.mpr ⟨e.2, he⟩
  rcases List.mem_map.mp he with ⟨entry, hentry, rfl⟩
  rcases ht.tables entry hentry with ⟨u, hu, -, hdata⟩
  exact ⟨ht.keyNames_subset hname, u.data, by rw [hu, datum_table], hdata⟩

theorem exists_of_mem_given {g : String × String × Datum} (ht : Sectioned allowed names given t)
    (hg : g ∈ given) : ∃ ps, (g.1, .table ps) ∈ t.data ∧ g.2 ∈ ps := by
  rcases Table.mem_keyNames_iff.mp (ht.mem_keyNames g hg) with ⟨d, hd⟩
  rcases ht.datum_of_mem_data hd with ⟨-, ps, rfl, hps⟩
  exact ⟨ps, hd, (hps g.2).mpr hg⟩

end Sectioned

/-!
# Single statements
-/

def pathNames (path : List Key) (k : Key) : List String :=
  path.map Key.name ++ [k.name]

/-- What a statement says, apart from where it stands. -/
inductive Note where
  | assignment (names : List String) (datum : Datum)
  | header (names : List String)
  | itemHeader (names : List String)

def Statement.note : Statement → Note
  | assignment path k v => .assignment (pathNames path k) v.datum
  | header _ path k => .header (pathNames path k)
  | itemHeader _ path k => .itemHeader (pathNames path k)

theorem pathNames_eq_singleton {path : List Key} {k : Key} {n : String}
    (h : pathNames path k = [n]) : path = [] ∧ k.name = n := by
  rcases List.append_eq_singleton_iff.mp h with ⟨hpath, hname⟩ | ⟨-, hname⟩
  · exact ⟨List.map_eq_nil_iff.mp hpath, List.cons.inj hname |>.1⟩
  · cases hname

theorem pathNames_eq_pair {path : List Key} {k : Key} {s n : String}
    (h : pathNames path k = [s, n]) : ∃ j, path = [j] ∧ j.name = s ∧ k.name = n := by
  have hsplit : path.map Key.name = [s] ∧ [k.name] = [n] := List.append_inj' h rfl
  rcases List.map_eq_singleton_iff.mp hsplit.1 with ⟨j, rfl, hj⟩
  exact ⟨j, rfl, hj, (List.cons.inj hsplit.2).1⟩

section Steps

variable {allowed : Origin → Prop} {names : List String} {given : List (String × String × Datum)}
variable {p : Progress} {st : Statement} {s n : String} {d : Datum}

theorem exists_step_header (hst : st.note = .header [s])
    (hp : Sectioned allowed names given p.root) (hs : s ∉ names) (hheader : allowed .header) :
    ∃ p', p.step st = some p' ∧ p'.current.map Key.name = [s] ∧
      Sectioned allowed (names ++ [s]) given p'.root := by
  cases st with
  | header extent path k =>
      rcases pathNames_eq_singleton (Note.header.inj hst) with ⟨rfl, rfl⟩
      have hk : k.name ∉ p.root.keyNames := fun hmem => hs (hp.keyNames_subset hmem)
      have hget := Table.get?_eq_none_iff.mpr hk
      have happended := hp.append (u := Table.empty (some extent) .header) hk hheader
      rw [show (Table.empty (some extent) .header : Table Value).data = [] from rfl, List.map_nil,
        List.append_nil] at happended
      refine ⟨⟨p.root.append k _, [k]⟩, ?_, rfl, happended⟩
      simp [Progress.step, Table.openTable, Table.alter, hget]
  | assignment _ _ _ | itemHeader _ _ _ =>
      cases hst

theorem exists_step_assignment (hst : st.note = .assignment [n] d)
    (hcurrent : p.current.map Key.name = [s])
    (hp : Sectioned (fun o => o ≠ .braces) names given p.root) (hs : s ∈ names)
    (hnew : ∀ d, (s, n, d) ∉ given) :
    ∃ p', p.step st = some p' ∧ p'.current.map Key.name = [s] ∧
      Sectioned (fun o => o ≠ .braces) names (given ++ [(s, n, d)]) p'.root := by
  cases st with
  | assignment path k v =>
      rcases pathNames_eq_singleton (Note.assignment.inj hst).1 with ⟨rfl, rfl⟩
      rcases List.map_eq_singleton_iff.mp hcurrent with ⟨j, hj, rfl⟩
      cases (Note.assignment.inj hst).2
      have hadd : ∀ u : Table Value, u.origin ≠ .braces → k.name ∉ u.keyNames →
          ∃ w, (u.assign [] k v).map (Table.extendTo v) = some w ∧ w.origin = u.origin ∧
            w.data = u.data ++ [(k.name, v.datum)] := by
        intro u _ hk
        refine ⟨(u.append k v).extendTo v, by rw [Table.assign_nil v hk, Option.map_some], ?_, ?_⟩
        · exact Table.origin_extendTo _ v
        · rw [Table.data, Table.entries_extendTo, ← Table.data, Table.data_append]
      have hopen : ∀ o : Origin, o ≠ .braces → ¬ (o = .braces ∨ (false = true ∧ o = .header)) := by
        intro o
        cases o <;> decide
      rcases hp.alter (p := (k.name, v.datum)) hs (by decide) hopen hadd hnew with
        ⟨t, ht, hsectioned⟩
      refine ⟨⟨t, p.current⟩, ?_, hcurrent, hsectioned⟩
      rw [Progress.step, hj, ht, Option.map_some, ← hj]
  | header _ _ _ | itemHeader _ _ _ =>
      cases hst

theorem exists_step_dotted (hst : st.note = .assignment [s, n] d) (hcurrent : p.current = [])
    (hp : Sectioned (fun o => o = .dotted) names given p.root) (hs : s ∈ names)
    (hnew : ∀ d, (s, n, d) ∉ given) :
    ∃ p', p.step st = some p' ∧ p'.current = [] ∧
      Sectioned (fun o => o = .dotted) names (given ++ [(s, n, d)]) p'.root := by
  cases st with
  | assignment path k v =>
      rcases pathNames_eq_pair (Note.assignment.inj hst).1 with ⟨j, rfl, rfl, rfl⟩
      cases (Note.assignment.inj hst).2
      have hadd : ∀ u : Table Value, u.origin = .dotted → k.name ∉ u.keyNames →
          ∃ w, (if ([j] = [] ∨ u.origin = .dotted) ∧ (u.get? k.name).isNone then
              some (u.append k v) else none) = some w ∧ w.origin = u.origin ∧
            w.data = u.data ++ [(k.name, v.datum)] := by
        intro u hu hk
        refine ⟨u.append k v, if_pos ⟨Or.inr hu, ?_⟩, rfl, Table.data_append u k v⟩
        exact Option.isNone_iff_eq_none.mpr (Table.get?_eq_none_iff.mpr hk)
      have hopen : ∀ o : Origin, o = .dotted → ¬ (o = .braces ∨ (true = true ∧ o = .header)) := by
        intro o
        cases o <;> decide
      rcases hp.alter (p := (k.name, v.datum)) hs (by decide) hopen hadd hnew with
        ⟨t, ht, hsectioned⟩
      refine ⟨⟨t.extendTo v, []⟩, ?_, rfl, hsectioned.extendTo v⟩
      rw [Progress.step, hcurrent, Table.alter, Table.assign, ht]
      rfl
  | header _ _ _ | itemHeader _ _ _ =>
      cases hst

theorem exists_step_inline {ps : List (String × Datum)}
    (hst : st.note = .assignment [s] (.table ps)) (hcurrent : p.current = [])
    (hp : Sectioned (fun _ => True) names given p.root) (hs : s ∉ names) :
    ∃ p', p.step st = some p' ∧ p'.current = [] ∧
      Sectioned (fun _ => True) (names ++ [s]) (given ++ ps.map fun q => (s, q)) p'.root := by
  cases st with
  | assignment path k v =>
      rcases pathNames_eq_singleton (Note.assignment.inj hst).1 with ⟨rfl, rfl⟩
      have hv : v.datum = .table ps := (Note.assignment.inj hst).2
      have hk : k.name ∉ p.root.keyNames := fun hmem => hs (hp.keyNames_subset hmem)
      cases v with
      | table u =>
          rw [datum_table] at hv
          cases hv
          refine ⟨⟨(p.root.append k (.table u)).extendTo (.table u), []⟩, ?_, rfl,
            (hp.append hk trivial).extendTo (.table u)⟩
          rw [Progress.step, hcurrent, Table.alter, Table.assign_nil _ hk]
          rfl
      | text _ _ | boolean _ _ | integer _ _ | float _ _ | moment _ | array _ _ | tables _ =>
          cases hv
  | header _ _ _ | itemHeader _ _ _ =>
      cases hst

end Steps

/-!
# Whole files

A file gives what its statements give one after the other.
-/

theorem exists_foldlM_of_map_eq {step : σ → β → Option σ} {f : β → δ} {g : γ → δ}
    (Inv : List γ → σ → Prop) {xs : List β} {ys : List γ} (hxs : xs.map f = ys.map g)
    (hstep : ∀ done y rest x s, done ++ y :: rest = ys → f x = g y → Inv done s →
      ∃ s', step s x = some s' ∧ Inv (done ++ [y]) s') (s : σ) (hs : Inv [] s) :
    ∃ s', xs.foldlM step s = some s' ∧ Inv ys s' := by
  have hrun : ∀ todo done (xs : List β) s, done ++ todo = ys → xs.map f = todo.map g →
      Inv done s → ∃ s', xs.foldlM step s = some s' ∧ Inv ys s' := by
    intro todo
    induction todo with
    | nil =>
        intro done xs s hall hxs hs
        rw [List.append_nil] at hall
        rw [List.map_eq_nil_iff.mp hxs]
        exact ⟨s, rfl, hall ▸ hs⟩
    | cons y rest ih =>
        intro done xs s hall hxs hs
        rcases List.map_eq_cons_iff.mp hxs with ⟨x, xs, rfl, hx, hrest⟩
        rcases hstep done y rest x s hall hx hs with ⟨m, hm, hdone⟩
        rcases ih (done ++ [y]) xs m (by rw [List.append_assoc]; exact hall) hrest hdone with
          ⟨s', hrun, hInv⟩
        exact ⟨s', by rw [List.foldlM_cons, hm]; exact hrun, hInv⟩
  exact hrun ys [] xs s rfl hxs hs

theorem not_mem_of_nodup {done rest : List γ} {y : γ} {f : γ → δ}
    (h : ((done ++ y :: rest).map f).Nodup) : f y ∉ done.map f := by
  rw [List.map_append, List.map_cons, List.nodup_middle, List.nodup_cons] at h
  exact fun hmem => h.1 (List.mem_append_left _ hmem)

def listing (sections : List (String × List (String × Datum))) :
    List (String × String × Datum) :=
  sections.flatMap fun sec => sec.2.map fun p => (sec.1, p)

def sectionNotes (sec : String × List (String × Datum)) : List Note :=
  .header [sec.1] :: sec.2.map fun p => .assignment [p.1] p.2

section Runs

variable {sts : List Statement} {names : List String} {given : List (String × String × Datum)}
variable {sections : List (String × List (String × Datum))}

theorem exists_assemble_of_dotted
    (hsts : sts.map Statement.note = given.map fun g => .assignment [g.1, g.2.1] g.2.2)
    (hnames : ∀ g ∈ given, g.1 ∈ names) (hgiven : (given.map fun g => (g.1, g.2.1)).Nodup) :
    ∃ t, assemble sts = some t ∧ Sectioned (fun o => o = .dotted) names given t := by
  have hempty := (Sectioned.empty (fun o => o = .dotted) none .header).mono (List.nil_subset names)
  obtain ⟨p, hrun, -, hp⟩ : ∃ p, sts.foldlM Progress.step ⟨Table.empty none .header, []⟩ = some p ∧
      p.current = [] ∧ Sectioned (fun o => o = .dotted) names given p.root := by
    refine exists_foldlM_of_map_eq (fun done (p : Progress) => p.current = [] ∧
      Sectioned (fun o => o = .dotted) names done p.root) hsts ?_ _ ⟨rfl, hempty⟩
    rintro done g rest st p hall hst ⟨hcurrent, hp⟩
    have hmem : g ∈ given := hall ▸ List.mem_append_right done List.mem_cons_self
    refine exists_step_dotted hst hcurrent hp (hnames g hmem) fun d hd => ?_
    rw [← hall] at hgiven
    exact not_mem_of_nodup hgiven (List.mem_map.mpr ⟨_, hd, rfl⟩)
  exact ⟨p.root, by rw [assemble, hrun, Option.map_some], hp⟩

theorem exists_assemble_of_inline
    (hsts : sts.map Statement.note =
      sections.map fun sec => .assignment [sec.1] (.table sec.2))
    (hnames : (sections.map Prod.fst).Nodup) :
    ∃ t, assemble sts = some t ∧
      Sectioned (fun _ => True) (sections.map Prod.fst) (listing sections) t := by
  have hempty := Sectioned.empty (fun _ => True) none .header
  obtain ⟨p, hrun, -, hp⟩ : ∃ p, sts.foldlM Progress.step ⟨Table.empty none .header, []⟩ = some p ∧
      p.current = [] ∧
        Sectioned (fun _ => True) (sections.map Prod.fst) (listing sections) p.root := by
    refine exists_foldlM_of_map_eq (fun done (p : Progress) => p.current = [] ∧
      Sectioned (fun _ => True) (done.map Prod.fst) (listing done) p.root) hsts ?_ _ ⟨rfl, hempty⟩
    rintro done sec rest st p hall hst ⟨hcurrent, hp⟩
    rw [← hall] at hnames
    rw [List.map_append, listing, List.flatMap_append, List.flatMap_singleton]
    exact exists_step_inline hst hcurrent hp (not_mem_of_nodup hnames)
  exact ⟨p.root, by rw [assemble, hrun, Option.map_some], hp⟩

theorem exists_run_section {sec : String × List (String × Datum)} {p : Progress}
    (hsts : sts.map Statement.note = sectionNotes sec)
    (hp : Sectioned (fun o => o ≠ .braces) names given p.root) (hsec : sec.1 ∉ names)
    (hkeys : (sec.2.map Prod.fst).Nodup) :
    ∃ p', sts.foldlM Progress.step p = some p' ∧
      Sectioned (fun o => o ≠ .braces) (names ++ [sec.1])
        (given ++ sec.2.map fun q => (sec.1, q)) p'.root := by
  rcases List.map_eq_cons_iff.mp hsts with ⟨st, sts, rfl, hst, hsts⟩
  rcases exists_step_header hst hp hsec (by decide) with ⟨m, hm, hcurrent, hopened⟩
  have hgiven : ∀ q, (sec.1, q) ∉ given :=
    fun q hq => hsec (hp.keyNames_subset (hp.mem_keyNames _ hq))
  obtain ⟨p', hrun, -, hp'⟩ : ∃ p', sts.foldlM Progress.step m = some p' ∧
      p'.current.map Key.name = [sec.1] ∧
        Sectioned (fun o => o ≠ .braces) (names ++ [sec.1])
          (given ++ sec.2.map fun q => (sec.1, q)) p'.root := by
    refine exists_foldlM_of_map_eq (fun done (p : Progress) => p.current.map Key.name = [sec.1] ∧
      Sectioned (fun o => o ≠ .braces) (names ++ [sec.1])
        (given ++ done.map fun q => (sec.1, q)) p.root) hsts ?_ m
      ⟨hcurrent, by simpa using hopened⟩
    rintro done q rest st p hall hst ⟨hcurrent, hp⟩
    rw [← hall] at hkeys
    rw [List.map_append, List.map_singleton, ← List.append_assoc]
    refine exists_step_assignment hst hcurrent hp
      (List.mem_append_right names List.mem_cons_self) fun d hd => ?_
    rcases List.mem_append.mp hd with hd | hd
    · exact hgiven _ hd
    · rcases List.mem_map.mp hd with ⟨q', hq', heq⟩
      cases heq
      exact not_mem_of_nodup hkeys (List.mem_map.mpr ⟨_, hq', rfl⟩)
  exact ⟨p', by rw [List.foldlM_cons, hm]; exact hrun, hp'⟩

theorem exists_run_sections {p : Progress}
    (hsts : sts.map Statement.note = sections.flatMap sectionNotes)
    (hp : Sectioned (fun o => o ≠ .braces) names given p.root)
    (hnames : (names ++ sections.map Prod.fst).Nodup)
    (hkeys : ∀ sec ∈ sections, (sec.2.map Prod.fst).Nodup) :
    ∃ p', sts.foldlM Progress.step p = some p' ∧
      Sectioned (fun o => o ≠ .braces) (names ++ sections.map Prod.fst)
        (given ++ listing sections) p'.root := by
  induction sections generalizing sts names given p with
  | nil =>
      rw [List.map_eq_nil_iff.mp hsts, List.map_nil, List.append_nil, listing, List.flatMap_nil,
        List.append_nil]
      exact ⟨p, rfl, hp⟩
  | cons sec sections ih =>
      rcases List.map_eq_append_iff.mp hsts with ⟨here, later, rfl, hhere, hlater⟩
      rw [List.forall_mem_cons] at hkeys
      have hsec : sec.1 ∉ names := by
        rw [List.map_cons, List.nodup_middle, List.nodup_cons] at hnames
        exact fun hmem => hnames.1 (List.mem_append_left _ hmem)
      rcases exists_run_section hhere hp hsec hkeys.1 with ⟨m, hm, hsectioned⟩
      rcases ih hlater hsectioned (by simpa using hnames) hkeys.2 with ⟨p', hrun, hp'⟩
      refine ⟨p', by rw [List.foldlM_append, hm]; exact hrun, ?_⟩
      simpa [listing] using hp'

theorem exists_assemble_of_headers
    (hsts : sts.map Statement.note = sections.flatMap sectionNotes)
    (hnames : (sections.map Prod.fst).Nodup)
    (hkeys : ∀ sec ∈ sections, (sec.2.map Prod.fst).Nodup) :
    ∃ t, assemble sts = some t ∧
      Sectioned (fun o => o ≠ .braces) (sections.map Prod.fst) (listing sections) t := by
  have hempty := Sectioned.empty (fun o => o ≠ .braces) none .header
  rcases exists_run_sections (p := ⟨Table.empty none .header, []⟩) hsts hempty hnames hkeys with
    ⟨p, hrun, hp⟩
  exact ⟨p.root, by rw [assemble, hrun, Option.map_some], hp⟩

end Runs
end Toml
end GossipGames
