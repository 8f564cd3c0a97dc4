import GossipGames.Proofs.Toml.Data
import GossipGames.Settings.Decode
import Mathlib.Data.List.Basic

/-!
# Fields of a record

Setting the fields of a record from a value succeeds when each part of the value that is looked at
is accepted.  It leaves each field at what the value gives for it, or as it was.
-/

namespace GossipGames
namespace Settings

open Toml

/-- `a` is what is given, or `usual` where nothing is given. -/
structure Chosen (R : Datum → α → Prop) (given : Datum → Prop) (usual a : α) : Prop where
  of_given : ∀ d, given d → R d a
  of_none : (∀ d, ¬ given d) → a = usual

theorem chosen_congr {R : Datum → α → Prop} {given given' : Datum → Prop} {usual a : α}
    (h : ∀ d, given d ↔ given' d) : Chosen R given usual a ↔ Chosen R given' usual a := by
  have heq : given = given' := funext fun d => propext (h d)
  rw [heq]

theorem Chosen.unique {R : Datum → α → Prop} {given : Datum → Prop} {usual a b : α}
    (ha : Chosen R given usual a) (hb : Chosen R given usual b)
    (hR : ∀ d, R d a → R d b → a = b) : a = b := by
  by_cases h : ∃ d, given d
  · rcases h with ⟨d, hd⟩
    exact hR d (ha.of_given d hd) (hb.of_given d hd)
  · have hnone : ∀ d, ¬ given d := not_exists.mp h
    rw [ha.of_none hnone, hb.of_none hnone]

/-- The fields that a section assigns and the data that it assigns to them.  A list assigns its
items to the first fields in their order. -/
def assignments? (names : List String) : Datum → Option (List (String × Datum))
  | .table es => some es
  | .list ds => some (names.zip ds)
  | _ => none

theorem names_zip_sublist (names : List String) (ds : List Datum) :
    ((names.zip ds).map Prod.fst).Sublist names := by
  rw [List.zip_eq_zip_take_min, List.map_fst_zip (by simp)]
  exact List.take_sublist _ names

section Steps

variable {step : σ → β → Except ε σ} {xs : List β} {s s' : σ}

theorem foldlM_cons_eq_ok_iff {x : β} :
    (x :: xs).foldlM step s = .ok s' ↔ ∃ m, step s x = .ok m ∧ xs.foldlM step m = .ok s' := by
  rw [List.foldlM_cons]
  cases step s x with
  | error e =>
      constructor
      · intro h
        cases h
      · rintro ⟨m, hm, -⟩
        cases hm
  | ok m =>
      constructor
      · intro h
        exact ⟨m, rfl, h⟩
      · rintro ⟨m', hm, h⟩
        cases hm
        exact h

theorem exists_foldlM_eq_ok_iff {P : β → Prop}
    (hstep : ∀ x ∈ xs, ∀ s, (∃ s', step s x = .ok s') ↔ P x) (s : σ) :
    (∃ s', xs.foldlM step s = .ok s') ↔ ∀ x ∈ xs, P x := by
  induction xs generalizing s with
  | nil =>
      exact ⟨fun _ _ hx => absurd hx List.not_mem_nil, fun _ => ⟨s, rfl⟩⟩
  | cons x xs ih =>
      have hrest := ih fun y hy => hstep y (List.mem_cons_of_mem x hy)
      rw [List.forall_mem_cons, ← hstep x List.mem_cons_self s]
      constructor
      · rintro ⟨s', h⟩
        rcases foldlM_cons_eq_ok_iff.mp h with ⟨m, hm, h⟩
        exact ⟨⟨m, hm⟩, (hrest m).mp ⟨s', h⟩⟩
      · rintro ⟨⟨m, hm⟩, h⟩
        rcases (hrest m).mpr h with ⟨s', h⟩
        exact ⟨s', foldlM_cons_eq_ok_iff.mpr ⟨m, hm, h⟩⟩

theorem chosen_of_foldlM {R : Datum → α → Prop} {get : σ → α} {field : String}
    (pair : β → String × Datum)
    (hstep : ∀ x ∈ xs, ∀ s s', step s x = .ok s' →
      ((pair x).1 = field → R (pair x).2 (get s')) ∧ ((pair x).1 ≠ field → get s' = get s))
    (hnames : ((xs.map pair).map Prod.fst).Nodup) (h : xs.foldlM step s = .ok s') :
    Chosen R (fun d => (field, d) ∈ xs.map pair) (get s) (get s') := by
  induction xs generalizing s with
  | nil =>
      cases h
      exact ⟨fun _ hd => absurd hd List.not_mem_nil, fun _ => rfl⟩
  | cons x xs ih =>
      rcases foldlM_cons_eq_ok_iff.mp h with ⟨m, hm, h⟩
      rw [List.map_cons, List.map_cons, List.nodup_cons] at hnames
      have hfirst := hstep x List.mem_cons_self s m hm
      have hrest := ih (fun y hy => hstep y (List.mem_cons_of_mem x hy)) hnames.2 h
      by_cases hname : (pair x).1 = field
      · -- No later element has this name again, so what the first one sets stays.
        have hlater : ∀ d, (field, d) ∉ xs.map pair := by
          intro d hd
          exact hnames.1 (hname ▸ List.mem_map_of_mem hd)
        refine ⟨fun d hd => ?_, fun hnone => ?_⟩
        · rcases List.mem_cons.mp hd with heq | hd
          · rw [hrest.of_none hlater]
            have hset := hfirst.1 hname
            rwa [← heq] at hset
          · exact absurd hd (hlater d)
        · exact absurd (hname ▸ List.mem_cons_self) (hnone (pair x).2)
      · rw [← hfirst.2 hname]
        refine (chosen_congr fun d => ?_).mp hrest
        refine ⟨List.mem_cons_of_mem _, fun hd => ?_⟩
        rcases List.mem_cons.mp hd with heq | hd
        · exact absurd (congrArg Prod.fst heq).symm hname
        · exact hd

end Steps

variable {f : Field σ} {fields : List (Field σ)} {v : Value} {s s' : σ}

theorem mapError_eq_ok_iff {g : ε → ε'} {r : Except ε α} {a : α} :
    r.mapError g = .ok a ↔ r = .ok a := by
  cases r <;> simp [Except.mapError]

theorem map_eq_ok_iff {g : α → β} {r : Except ε α} {b : β} :
    r.map g = .ok b ↔ ∃ a, r = .ok a ∧ g a = b := by
  cases r <;> simp [Except.map]

theorem assign_eq_ok_iff : f.assign v s = .ok s' ↔ f.set v s = .ok s' :=
  mapError_eq_ok_iff

theorem setNamed_eq_ok_iff {e : Key × Value} :
    setNamed fields s e = .ok s' ↔
      ∃ f, fields.find? (fun f => f.name == e.1.name) = some f ∧ f.set e.2 s = .ok s' := by
  unfold setNamed
  split
  · next f hfind =>
    rw [mapError_eq_ok_iff, assign_eq_ok_iff, hfind]
    constructor
    · intro h
      exact ⟨f, rfl, h⟩
    · rintro ⟨f', hf', h⟩
      cases hf'
      exact h
  · next hfind =>
    simp [hfind]

theorem mem_of_setNamed {e : Key × Value} (h : setNamed fields s e = .ok s') :
    ∃ f ∈ fields, f.name = e.1.name ∧ f.set e.2 s = .ok s' := by
  rcases setNamed_eq_ok_iff.mp h with ⟨f, hfind, hset⟩
  exact ⟨f, List.mem_of_find?_eq_some hfind, by simpa using List.find?_some hfind, hset⟩

/-!
# What a record accepts
-/

/-- Each field takes the data that `P` allows under its name, and `P` allows no other names. -/
structure Accepts (fields : List (Field σ)) (P : String × Datum → Prop) : Prop where
  known : ∀ p, P p → p.1 ∈ fields.map Field.name
  takes : ∀ f ∈ fields, ∀ v s, (∃ s', f.set v s = .ok s') ↔ P (f.name, v.datum)

theorem exists_set_of_iff {name : String} {decode : Value → Except Fault α} {put : α → σ → σ} :
    (∃ s', (Field.of name decode put).set v s = .ok s') ↔ ∃ a, decode v = .ok a := by
  constructor
  · rintro ⟨s', h⟩
    rcases map_eq_ok_iff.mp h with ⟨a, ha, -⟩
    exact ⟨a, ha⟩
  · rintro ⟨a, ha⟩
    exact ⟨put a s, map_eq_ok_iff.mpr ⟨a, ha, rfl⟩⟩

variable {P : String × Datum → Prop}

theorem Accepts.exists_setNamed_iff (h : Accepts fields P) (e : Key × Value) (s : σ) :
    (∃ s', setNamed fields s e = .ok s') ↔ P (e.1.name, e.2.datum) := by
  constructor
  · rintro ⟨s', hset⟩
    rcases mem_of_setNamed hset with ⟨f, hf, hname, hset⟩
    rw [← hname]
    exact (h.takes f hf e.2 s).mp ⟨s', hset⟩
  · intro hP
    rcases List.mem_map.mp (h.known _ hP) with ⟨g, hg, hgname⟩
    have hfound : (fields.find? fun f => f.name == e.1.name).isSome :=
      List.find?_isSome.mpr ⟨g, hg, beq_iff_eq.mpr hgname⟩
    rcases Option.isSome_iff_exists.mp hfound with ⟨f, hfind⟩
    have hname : f.name = e.1.name := by
      simpa using List.find?_some hfind
    rw [← hname] at hP
    rcases (h.takes f (List.mem_of_find?_eq_some hfind) e.2 s).mpr hP with ⟨s', hset⟩
    exact ⟨s', setNamed_eq_ok_iff.mpr ⟨f, hfind, hset⟩⟩

theorem Accepts.exists_setEach_iff (h : Accepts fields P) (t : Table Value) (s : σ) :
    (∃ s', t.entries.foldlM (setNamed fields) s = .ok s') ↔ ∀ p ∈ t.data, P p := by
  rw [Table.data, List.forall_mem_map]
  exact exists_foldlM_eq_ok_iff (fun e _ s => h.exists_setNamed_iff e s) s

theorem map_zip_data (fields : List (Field σ)) (vs : List Value) :
    (fields.zip vs).map (Prod.map Field.name Value.datum) =
      (fields.map Field.name).zip (vs.map Value.datum) :=
  (List.zip_map ..).symm

theorem Accepts.exists_setInOrder_iff (h : Accepts fields P) (vs : List Value) (s : σ) :
    (∃ s', setInOrder fields vs s = .ok s') ↔
      ∀ p ∈ (fields.map Field.name).zip (vs.map Value.datum), P p := by
  rw [← map_zip_data, List.forall_mem_map]
  refine exists_foldlM_eq_ok_iff (fun p hp s => ?_) s
  simp only [assign_eq_ok_iff]
  exact h.takes p.1 (List.of_mem_zip hp).1 p.2 s

theorem datum_tables_eq (ts : List (Table Value)) :
    (Value.tables ts).datum = .list ((ts.map Value.table).map Value.datum) := by
  rw [datum_tables, List.map_map]
  congr 1
  exact List.map_congr_left fun t _ => (datum_table t).symm

theorem Accepts.exists_record_iff (h : Accepts fields P) (expected : String) (v : Value) (s : σ) :
    (∃ s', record expected fields s v = .ok s') ↔
      ∃ ps, assignments? (fields.map Field.name) v.datum = some ps ∧ ∀ p ∈ ps, P p := by
  have hsome : ∀ qs : List (String × Datum),
      (∃ ps, some qs = some ps ∧ ∀ p ∈ ps, P p) ↔ ∀ p ∈ qs, P p := by
    intro qs
    simp only [Option.some.injEq, exists_eq_left']
  cases v with
  | table t =>
      rw [datum_table, assignments?, hsome]
      exact h.exists_setEach_iff t s
  | array _ vs =>
      rw [datum_array, assignments?, hsome]
      exact h.exists_setInOrder_iff vs s
  | tables ts =>
      rw [datum_tables_eq, assignments?, hsome]
      exact h.exists_setInOrder_iff (ts.map Value.table) s
  | text _ _ | boolean _ _ | integer _ _ | float _ _ | moment _ =>
      simp [record, Value.datum, assignments?]

/-- The field of one name sets what `get` reads to what the datum stands for, and the others leave
it as it is. -/
def Sets (fields : List (Field σ)) (field : String) (R : Datum → α → Prop) (get : σ → α) : Prop :=
  ∀ f ∈ fields, ∀ v s s', v.Distinct → f.set v s = .ok s' →
    (f.name = field → R v.datum (get s')) ∧ (f.name ≠ field → get s' = get s)

variable {R : Datum → α → Prop} {get : σ → α} {field : String}

theorem Sets.nil : Sets ([] : List (Field σ)) field R get :=
  fun _ hf => absurd hf List.not_mem_nil

theorem Sets.own {decode : Value → Except Fault γ} {put : γ → σ → σ}
    (hset : ∀ v c s, v.Distinct → decode v = .ok c → R v.datum (get (put c s)))
    (hrest : Sets fields field R get) : Sets (Field.of field decode put :: fields) field R get := by
  refine List.forall_mem_cons.mpr ⟨fun v s s' hv h => ?_, hrest⟩
  rcases map_eq_ok_iff.mp h with ⟨c, hc, rfl⟩
  exact ⟨fun _ => hset v c s hv hc, fun hname => absurd rfl hname⟩

theorem Sets.other {name : String} {decode : Value → Except Fault γ} {put : γ → σ → σ}
    (hname : name ≠ field) (hkeep : ∀ c s, get (put c s) = get s)
    (hrest : Sets fields field R get) : Sets (Field.of name decode put :: fields) field R get := by
  refine List.forall_mem_cons.mpr ⟨fun v s s' _ h => ?_, hrest⟩
  rcases map_eq_ok_iff.mp h with ⟨c, -, rfl⟩
  exact ⟨fun heq => absurd heq hname, fun _ => hkeep c s⟩

def Within (names : List String) (field : String) (R : Datum → α → Prop) (usual : α) (c : Datum)
    (a : α) : Prop :=
  Chosen R (fun d => ∃ ps, assignments? names c = some ps ∧ (field, d) ∈ ps) usual a

theorem Sets.chosen_setInOrder (h : Sets fields field R get)
    (hnames : (fields.map Field.name).Nodup) {vs : List Value} (hvs : ∀ v ∈ vs, v.Distinct)
    (hset : setInOrder fields vs s = .ok s') :
    Chosen R (fun d => (field, d) ∈ (fields.map Field.name).zip (vs.map Value.datum))
      (get s) (get s') := by
  rw [← map_zip_data]
  refine chosen_of_foldlM (Prod.map Field.name Value.datum) (fun p hp s s' hassign => ?_) ?_ hset
  · have hmem := List.of_mem_zip hp
    exact h p.1 hmem.1 p.2 s s' (hvs p.2 hmem.2) (assign_eq_ok_iff.mp hassign)
  · rw [map_zip_data]
    exact hnames.sublist (names_zip_sublist _ _)

theorem Sets.chosen_setNamed (h : Sets fields field R get) {t : Table Value} (ht : t.Distinct)
    (hset : t.entries.foldlM (setNamed fields) s = .ok s') :
    Chosen R (fun d => (field, d) ∈ t.data) (get s) (get s') := by
  refine chosen_of_foldlM _ (fun e he s s' hnamed => ?_) (nodup_names_data ht) hset
  rcases mem_of_setNamed hnamed with ⟨f, hf, hname, hone⟩
  rw [← hname]
  exact h f hf e.2 s s' (ht.values e he) hone

theorem Sets.within_record (h : Sets fields field R get) (hnames : (fields.map Field.name).Nodup)
    (hv : v.Distinct) {expected : String} (hset : record expected fields s v = .ok s') :
    Within (fields.map Field.name) field R (get s) v.datum (get s') := by
  have hsome : ∀ {c : Datum} {qs : List (String × Datum)},
      assignments? (fields.map Field.name) c = some qs →
      Chosen R (fun d => (field, d) ∈ qs) (get s) (get s') →
      Within (fields.map Field.name) field R (get s) c (get s') := by
    intro c qs hc hchosen
    refine (chosen_congr fun d => ?_).mp hchosen
    simp only [hc, Option.some.injEq, exists_eq_left']
  cases hv with
  | table htnames htvalues =>
      exact hsome (datum_table _ ▸ rfl) (h.chosen_setNamed ⟨htnames, htvalues⟩ hset)
  | array _ hvs =>
      exact hsome (datum_array _ _ ▸ rfl) (h.chosen_setInOrder hnames hvs hset)
  | tables hts =>
      refine hsome (datum_tables_eq _ ▸ rfl) (h.chosen_setInOrder hnames ?_ hset)
      exact List.forall_mem_map.mpr hts
  | text _ _ | boolean _ _ | integer _ _ | float _ _ | moment _ =>
      cases hset

end Settings
end GossipGames
