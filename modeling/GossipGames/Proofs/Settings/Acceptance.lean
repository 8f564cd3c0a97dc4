import GossipGames.Proofs.Rearranged
import GossipGames.Proofs.Settings.Fields
import GossipGames.Settings.Load
import Mathlib

/-!
# Which configurations are accepted

A well-formed file is accepted if its data has the right keys with the right values under them.
Each setting is then what the data gives for it, in whatever order it comes.
-/

namespace GossipGames
namespace Settings

open Toml

/-!
# Acceptable data
-/

def Hollow (d : Datum) : Prop :=
  d = .table [] ∨ d = .list []

inductive IsStyle : Datum → Json.Style → Prop where
  | name (s : Json.Style) : IsStyle (.text s.name) s
  | key (s : Json.Style) {d : Datum} : Hollow d → IsStyle (.table [(s.name, d)]) s

def IsBoolean (d : Datum) (b : Bool) : Prop :=
  d = .boolean b

def IsNatural (d : Datum) (n : Nat) : Prop :=
  d = .integer n

def outputNames : List String :=
  ["style", "trailing_newline"]

def lintNames : List String :=
  ["enabled", "deny_warnings", "max_enumerated_propositions"]

def OutputEntry : String × Datum → Prop
  | ("style", d) => ∃ s, IsStyle d s
  | ("trailing_newline", d) => ∃ b, IsBoolean d b
  | _ => False

def LintEntry : String × Datum → Prop
  | ("enabled", d) => ∃ b, IsBoolean d b
  | ("deny_warnings", d) => ∃ b, IsBoolean d b
  | ("max_enumerated_propositions", d) => ∃ n, IsNatural d n
  | _ => False

def SectionEntry : String × Datum → Prop
  | ("output", d) => ∃ ps, assignments? outputNames d = some ps ∧ ∀ p ∈ ps, OutputEntry p
  | ("lint", d) => ∃ ps, assignments? lintNames d = some ps ∧ ∀ p ∈ ps, LintEntry p
  | _ => False

/-- Only sections are given, and in them only their fields with values of the right kind. -/
def Acceptable (data : List (String × Datum)) : Prop :=
  ∀ e ∈ data, SectionEntry e

def Gives (data : List (String × Datum)) (name : String) (names : List String) (field : String)
    (d : Datum) : Prop :=
  ∃ c ps, (name, c) ∈ data ∧ assignments? names c = some ps ∧ (field, d) ∈ ps

/-- Each setting is what the data gives for it, or its default. -/
structure Configures (data : List (String × Datum)) (s : Settings) : Prop where
  style : Chosen IsStyle (Gives data "output" outputNames "style") .compact s.output.style
  trailingNewline : Chosen IsBoolean (Gives data "output" outputNames "trailing_newline") false
    s.output.trailingNewline
  enabled : Chosen IsBoolean (Gives data "lint" lintNames "enabled") false s.lint.enabled
  denyWarnings : Chosen IsBoolean (Gives data "lint" lintNames "deny_warnings") false
    s.lint.denyWarnings
  maxEnumerated : Chosen IsNatural (Gives data "lint" lintNames "max_enumerated_propositions") 16
    s.lint.maxEnumerated

theorem boolean_eq_ok_iff {v : Value} {b : Bool} : boolean v = .ok b ↔ IsBoolean v.datum b := by
  cases v with
  | boolean _ c =>
      rw [boolean, IsBoolean, Value.datum, Except.ok.injEq, Datum.boolean.injEq]
  | table t =>
      rw [IsBoolean, datum_table]
      constructor <;> intro h <;> cases h
  | text _ _ | integer _ _ | float _ _ | moment _ | array _ _ | tables _ =>
      constructor <;> intro h <;> cases h

theorem natural_eq_ok_iff {v : Value} {n : Nat} : natural v = .ok n ↔ IsNatural v.datum n := by
  cases v with
  | integer _ m =>
      rw [natural, IsNatural, Value.datum, Datum.integer.injEq]
      split
      · rw [Except.ok.injEq]
        omega
      · next hneg =>
        constructor
        · intro h
          cases h
        · rintro rfl
          exact absurd (Int.natCast_nonneg n) hneg
  | table t =>
      rw [IsNatural, datum_table]
      constructor <;> intro h <;> cases h
  | text _ _ | boolean _ _ | float _ _ | moment _ | array _ _ | tables _ =>
      constructor <;> intro h <;> cases h

theorem style_name_injective {s s' : Json.Style} (h : s.name = s'.name) : s = s' := by
  cases s <;> cases s' <;> first | rfl | exact absurd h (by decide)

theorem styleOfName_eq_ok_iff {name : String} {extent : Option Extent} {s : Json.Style} :
    styleOfName name extent = .ok s ↔ name = s.name := by
  unfold styleOfName
  split
  · next s' hfound =>
    have hname : s'.name = name := by
      simpa using List.find?_some hfound
    rw [Except.ok.injEq, ← hname]
    exact ⟨congrArg Json.Style.name, style_name_injective⟩
  · next hnone =>
    constructor
    · intro h
      cases h
    · rintro rfl
      cases s <;> exact absurd hnone (by decide)

theorem refuseUnless_eq_ok_iff {condition : Bool} {complaint : Complaint} {v : Value} {u : Unit} :
    refuseUnless condition complaint v = .ok u ↔ condition = true := by
  cases condition <;> simp [refuseUnless]

theorem nothing_eq_ok_iff {v : Value} {u : Unit} : nothing v = .ok u ↔ Hollow v.datum := by
  cases v with
  | table t =>
      rw [nothing, refuseUnless_eq_ok_iff, datum_table]
      simp [Hollow, Table.data]
  | array _ vs =>
      rw [nothing, refuseUnless_eq_ok_iff, datum_array]
      simp [Hollow]
  | tables ts =>
      rw [nothing, refuseUnless_eq_ok_iff, datum_tables]
      simp [Hollow]
  | text _ _ | boolean _ _ | integer _ _ | float _ _ | moment _ =>
      constructor
      · intro h
        cases h
      · rintro (h | h) <;> cases h

theorem isStyle_text_iff {name : String} {s : Json.Style} :
    IsStyle (.text name) s ↔ name = s.name := by
  constructor
  · intro h
    cases h
    rfl
  · rintro rfl
    exact IsStyle.name s

theorem isStyle_table_iff {es : List (String × Datum)} {s : Json.Style} :
    IsStyle (.table es) s ↔ ∃ d, es = [(s.name, d)] ∧ Hollow d := by
  constructor
  · intro h
    cases h with
    | key _ hd =>
        exact ⟨_, rfl, hd⟩
  · rintro ⟨d, rfl, hd⟩
    exact IsStyle.key s hd

theorem IsStyle.unique {d : Datum} {s s' : Json.Style} (h : IsStyle d s) (h' : IsStyle d s') :
    s = s' := by
  cases h with
  | name s =>
      exact style_name_injective (isStyle_text_iff.mp h')
  | key s _ =>
      rcases isStyle_table_iff.mp h' with ⟨d', heq, -⟩
      rw [List.cons.injEq, Prod.mk.injEq] at heq
      exact style_name_injective heq.1.1

theorem style_eq_ok_iff {v : Value} {s : Json.Style} : style v = .ok s ↔ IsStyle v.datum s := by
  cases v with
  | text e name =>
      rw [style, styleOfName_eq_ok_iff]
      exact isStyle_text_iff.symm
  | table t =>
      rw [datum_table, isStyle_table_iff, Table.data, style]
      split
      · next hnil =>
        simp [hnil]
      · next k w hone =>
        have hentry : (∃ d, [(k.name, w.datum)] = [(s.name, d)] ∧ Hollow d) ↔
            k.name = s.name ∧ Hollow w.datum := by
          simp
        rw [hone, List.map_singleton, hentry, ← styleOfName_eq_ok_iff]
        cases styleOfName k.name (some k.extent) with
        | error f =>
            simp
        | ok s' =>
            simp [map_eq_ok_iff, nothing_eq_ok_iff, and_comm]
      · next hmany =>
        constructor
        · intro h
          cases h
        · rintro ⟨d, hmap, -⟩
          rcases List.map_eq_singleton_iff.mp hmap with ⟨e, he, -⟩
          exact absurd he (hmany e.1 e.2)
  | boolean _ _ | integer _ _ | float _ _ | moment _ | array _ _ | tables _ =>
      constructor <;> intro h <;> cases h

theorem accepts_output : Accepts outputFields OutputEntry where
  known p hp := by
    unfold OutputEntry at hp
    split at hp
    · exact .head _
    · exact .tail _ (.head _)
    · cases hp
  takes := by
    simp only [outputFields, List.forall_mem_cons]
    refine ⟨fun v s => ?_, fun v s => ?_, fun _ hf => absurd hf List.not_mem_nil⟩
    · exact exists_set_of_iff.trans (exists_congr fun _ => style_eq_ok_iff)
    · exact exists_set_of_iff.trans (exists_congr fun _ => boolean_eq_ok_iff)

theorem accepts_lint : Accepts lintFields LintEntry where
  known p hp := by
    unfold LintEntry at hp
    split at hp
    · exact .head _
    · exact .tail _ (.head _)
    · exact .tail _ (.tail _ (.head _))
    · cases hp
  takes := by
    simp only [lintFields, List.forall_mem_cons]
    refine ⟨fun v s => ?_, fun v s => ?_, fun v s => ?_, fun _ hf => absurd hf List.not_mem_nil⟩
    · exact exists_set_of_iff.trans (exists_congr fun _ => boolean_eq_ok_iff)
    · exact exists_set_of_iff.trans (exists_congr fun _ => boolean_eq_ok_iff)
    · exact exists_set_of_iff.trans (exists_congr fun _ => natural_eq_ok_iff)

theorem accepts_sections : Accepts sections SectionEntry where
  known p hp := by
    unfold SectionEntry at hp
    split at hp
    · exact .head _
    · exact .tail _ (.head _)
    · cases hp
  takes := by
    simp only [sections, List.forall_mem_cons]
    refine ⟨fun v s => ?_, fun v s => ?_, fun _ hf => absurd hf List.not_mem_nil⟩
    · exact exists_set_of_iff.trans (accepts_output.exists_record_iff _ v _)
    · exact exists_set_of_iff.trans (accepts_lint.exists_record_iff _ v _)

theorem sets_style : Sets outputFields "style" IsStyle Json.Output.style :=
  .own (fun _ _ _ _ h => style_eq_ok_iff.mp h) (.other (by decide) (fun _ _ => rfl) .nil)

theorem sets_trailingNewline :
    Sets outputFields "trailing_newline" IsBoolean Json.Output.trailingNewline :=
  .other (by decide) (fun _ _ => rfl) (.own (fun _ _ _ _ h => boolean_eq_ok_iff.mp h) .nil)

theorem sets_enabled : Sets lintFields "enabled" IsBoolean Lint.Options.enabled :=
  .own (fun _ _ _ _ h => boolean_eq_ok_iff.mp h)
    (.other (by decide) (fun _ _ => rfl) (.other (by decide) (fun _ _ => rfl) .nil))

theorem sets_denyWarnings : Sets lintFields "deny_warnings" IsBoolean Lint.Options.denyWarnings :=
  .other (by decide) (fun _ _ => rfl)
    (.own (fun _ _ _ _ h => boolean_eq_ok_iff.mp h) (.other (by decide) (fun _ _ => rfl) .nil))

theorem sets_maxEnumerated :
    Sets lintFields "max_enumerated_propositions" IsNatural Lint.Options.maxEnumerated :=
  .other (by decide) (fun _ _ => rfl)
    (.other (by decide) (fun _ _ => rfl) (.own (fun _ _ _ _ h => natural_eq_ok_iff.mp h) .nil))

theorem sets_output {R : Datum → α → Prop} {get : Json.Output → α} {field : String}
    (h : Sets outputFields field R get) :
    Sets sections "output" (Within outputNames field R (get {})) fun s => get s.output :=
  .own (fun _ _ _ hv hrecord => h.within_record (by decide) hv hrecord)
    (.other (by decide) (fun _ _ => rfl) .nil)

theorem sets_lint {R : Datum → α → Prop} {get : Lint.Options → α} {field : String}
    (h : Sets lintFields field R get) :
    Sets sections "lint" (Within lintNames field R (get {})) fun s => get s.lint :=
  .other (by decide) (fun _ _ => rfl)
    (.own (fun _ _ _ hv hrecord => h.within_record (by decide) hv hrecord) .nil)

variable {t : Table Value} {s : Settings}

theorem exists_ofTable_eq_ok_iff : (∃ s, ofTable t = .ok s) ↔ Acceptable t.data :=
  accepts_sections.exists_setEach_iff t {}

theorem chosen_gives {data : List (String × Datum)} {R : Datum → α → Prop} {name field : String}
    {names : List String} {usual a : α}
    (h : Chosen (Within names field R usual) (fun c => (name, c) ∈ data) usual a) :
    Chosen R (Gives data name names field) usual a := by
  refine ⟨?_, fun hnone => ?_⟩
  · rintro d ⟨c, ps, hc, hps, hd⟩
    exact (h.of_given c hc).of_given d ⟨ps, hps, hd⟩
  · by_cases hsection : ∃ c, (name, c) ∈ data
    · rcases hsection with ⟨c, hc⟩
      refine (h.of_given c hc).of_none ?_
      rintro d ⟨ps, hps, hd⟩
      exact hnone d ⟨c, ps, hc, hps, hd⟩
    · exact h.of_none (not_exists.mp hsection)

theorem configures_of_ofTable (ht : t.Distinct) (h : ofTable t = .ok s) :
    Configures t.data s where
  style := chosen_gives ((sets_output sets_style).chosen_setNamed ht h)
  trailingNewline := chosen_gives ((sets_output sets_trailingNewline).chosen_setNamed ht h)
  enabled := chosen_gives ((sets_lint sets_enabled).chosen_setNamed ht h)
  denyWarnings := chosen_gives ((sets_lint sets_denyWarnings).chosen_setNamed ht h)
  maxEnumerated := chosen_gives ((sets_lint sets_maxEnumerated).chosen_setNamed ht h)

theorem IsBoolean.unique {d : Datum} {b b' : Bool} (h : IsBoolean d b) (h' : IsBoolean d b') :
    b = b' :=
  Datum.boolean.inj (h.symm.trans h')

theorem IsNatural.unique {d : Datum} {n n' : Nat} (h : IsNatural d n) (h' : IsNatural d n') :
    n = n' :=
  Int.ofNat.inj (Datum.integer.inj (h.symm.trans h'))

theorem Configures.unique {data : List (String × Datum)} {s s' : Settings}
    (h : Configures data s) (h' : Configures data s') : s = s' := by
  have hstyle := h.style.unique h'.style fun _ => IsStyle.unique
  have hnewline := h.trailingNewline.unique h'.trailingNewline fun _ => IsBoolean.unique
  have henabled := h.enabled.unique h'.enabled fun _ => IsBoolean.unique
  have hdeny := h.denyWarnings.unique h'.denyWarnings fun _ => IsBoolean.unique
  have hmax := h.maxEnumerated.unique h'.maxEnumerated fun _ => IsNatural.unique
  rcases s with ⟨⟨_, _⟩, ⟨_, _, _⟩⟩
  rcases s' with ⟨⟨_, _⟩, ⟨_, _, _⟩⟩
  cases hstyle
  cases hnewline
  cases henabled
  cases hdeny
  cases hmax
  rfl

theorem ofTable_eq_ok_iff (ht : t.Distinct) :
    ofTable t = .ok s ↔ Acceptable t.data ∧ Configures t.data s := by
  constructor
  · intro h
    exact ⟨exists_ofTable_eq_ok_iff.mp ⟨s, h⟩, configures_of_ofTable ht h⟩
  · rintro ⟨hacceptable, hs⟩
    rcases exists_ofTable_eq_ok_iff.mpr hacceptable with ⟨s', h⟩
    rw [hs.unique (configures_of_ofTable ht h)]
    exact h

/-!
# The order of sections and keys
-/

/-- The same section, where the keys of a table may come in another order. -/
inductive SameSection : Datum → Datum → Prop where
  | same (d : Datum) : SameSection d d
  | table {es es' : List (String × Datum)} : es.Perm es' → SameSection (.table es) (.table es')

variable {data data' : List (String × Datum)}

theorem SameSection.symm {d d' : Datum} (h : SameSection d d') : SameSection d' d := by
  cases h with
  | same d =>
      exact same d
  | table hperm =>
      exact table hperm.symm

theorem SameSection.exists_assignments {d d' : Datum} {names : List String}
    {ps : List (String × Datum)} (h : SameSection d d') (hps : assignments? names d = some ps) :
    ∃ ps', assignments? names d' = some ps' ∧ ps.Perm ps' := by
  cases h with
  | same d =>
      exact ⟨ps, hps, List.Perm.refl ps⟩
  | table hperm =>
      cases hps
      exact ⟨_, rfl, hperm⟩

theorem symm_of_sameSection (h : Rearranged (Entrywise SameSection) data data') :
    Rearranged (Entrywise SameSection) data' data :=
  h.symm.imp fun _ _ he => ⟨he.1.symm, he.2.symm⟩

theorem SectionEntry.of_sameSection {name : String} {d d' : Datum} (h : SameSection d d')
    (hd : SectionEntry (name, d)) : SectionEntry (name, d') := by
  have hall : ∀ {names : List String} {P : String × Datum → Prop},
      (∃ ps, assignments? names d = some ps ∧ ∀ p ∈ ps, P p) →
        ∃ ps, assignments? names d' = some ps ∧ ∀ p ∈ ps, P p := by
    rintro names P ⟨ps, hps, hP⟩
    rcases h.exists_assignments hps with ⟨ps', hps', hperm⟩
    exact ⟨ps', hps', fun p hp => hP p (hperm.mem_iff.mpr hp)⟩
  unfold SectionEntry at hd
  split at hd
  · next heq =>
    cases heq
    exact hall hd
  · next heq =>
    cases heq
    exact hall hd
  · cases hd

theorem Acceptable.of_rearranged (h : Rearranged (Entrywise SameSection) data data')
    (hdata : Acceptable data) : Acceptable data' := by
  rintro ⟨name, d'⟩ he'
  rcases (symm_of_sameSection h).exists_related he' with ⟨⟨_, d⟩, he, rfl, hsame⟩
  exact (hdata _ he).of_sameSection hsame.symm

theorem Gives.of_rearranged {name field : String} {names : List String} {d : Datum}
    (h : Rearranged (Entrywise SameSection) data data') (hd : Gives data name names field d) :
    Gives data' name names field d := by
  rcases hd with ⟨c, ps, hc, hps, hmem⟩
  rcases h.exists_related hc with ⟨⟨_, c'⟩, hc', rfl, hsame⟩
  rcases hsame.exists_assignments hps with ⟨ps', hps', hperm⟩
  exact ⟨c', ps', hc', hps', hperm.mem_iff.mp hmem⟩

theorem Configures.of_rearranged (h : Rearranged (Entrywise SameSection) data data')
    (hs : Configures data s) : Configures data' s := by
  have hgives : ∀ name names field d,
      Gives data name names field d ↔ Gives data' name names field d :=
    fun _ _ _ _ => ⟨.of_rearranged h, .of_rearranged (symm_of_sameSection h)⟩
  exact {
    style := (chosen_congr (hgives _ _ _)).mp hs.style
    trailingNewline := (chosen_congr (hgives _ _ _)).mp hs.trailingNewline
    enabled := (chosen_congr (hgives _ _ _)).mp hs.enabled
    denyWarnings := (chosen_congr (hgives _ _ _)).mp hs.denyWarnings
    maxEnumerated := (chosen_congr (hgives _ _ _)).mp hs.maxEnumerated }

/-!
# Files

A well-formed file is either accepted or refused with a fault about its data.
-/

variable {file : String}

theorem ofText_eq_mapError (h : Toml.read file = some t) :
    ofText file = (ofTable t).mapError (LoadError.refused file) := by
  rw [ofText, h]

theorem ofText_eq_ok_iff (h : Toml.read file = some t) :
    ofText file = .ok s ↔ Acceptable t.data ∧ Configures t.data s := by
  rw [← ofTable_eq_ok_iff (distinct_read h), ofText_eq_mapError h, mapError_eq_ok_iff]

theorem ofText_eq_ok_congr {file' : String} {t' : Table Value} (h : Toml.read file = some t)
    (h' : Toml.read file' = some t') (hdata : Rearranged (Entrywise SameSection) t.data t'.data) :
    ofText file = .ok s ↔ ofText file' = .ok s := by
  have hdata' := symm_of_sameSection hdata
  rw [ofText_eq_ok_iff h, ofText_eq_ok_iff h']
  exact ⟨fun hs => ⟨hs.1.of_rearranged hdata, hs.2.of_rearranged hdata⟩,
    fun hs => ⟨hs.1.of_rearranged hdata', hs.2.of_rearranged hdata'⟩⟩

theorem exists_ofText_eq_ok_iff (h : Toml.read file = some t) :
    (∃ s, ofText file = .ok s) ↔ Acceptable t.data := by
  rw [← exists_ofTable_eq_ok_iff, ofText_eq_mapError h]
  exact exists_congr fun _ => mapError_eq_ok_iff

theorem ofText_eq_refused (h : Toml.read file = some t) (hdata : ¬ Acceptable t.data) :
    ∃ fault, ofText file = .error (.refused file fault) := by
  rw [ofText_eq_mapError h]
  cases hsettings : ofTable t with
  | error fault =>
      exact ⟨fault, rfl⟩
  | ok s =>
      exact absurd (exists_ofTable_eq_ok_iff.mp ⟨s, hsettings⟩) hdata

/-- A well-formed file is accepted exactly if its data is acceptable, and then each setting is what
the data gives for it or its default, whatever the order of sections and keys. -/
theorem ofText_of_read (h : Toml.read file = some t) :
    ((∃ s, ofText file = .ok s) ↔ Acceptable t.data) ∧
    (∀ s, ofText file = .ok s → Configures t.data s) ∧
    (¬ Acceptable t.data → ∃ fault, ofText file = .error (.refused file fault)) ∧
    ∀ file' t', Toml.read file' = some t' →
      Rearranged (Entrywise SameSection) t.data t'.data →
        ∀ s, ofText file = .ok s ↔ ofText file' = .ok s :=
  ⟨exists_ofText_eq_ok_iff h, fun _ hs => ((ofText_eq_ok_iff h).mp hs).2, ofText_eq_refused h,
    fun _ _ h' hdata _ => ofText_eq_ok_congr h h' hdata⟩

theorem ofText_of_read_of_two_sections :
    ∃ t, Toml.read "[output]\nstyle=\"pretty\"\n[lint]" = some t ∧
      ∃ s, ofText "[output]\nstyle=\"pretty\"\n[lint]" = .ok s ∧ Configures t.data s ∧
        ofText "[lint]\n[output]\nstyle=\"pretty\"" = .ok s := by
  have hdata : (Toml.read "[output]\nstyle=\"pretty\"\n[lint]").map Table.data =
        some [("output", .table [("style", .text "pretty")]), ("lint", .table [])] ∧
      (Toml.read "[lint]\n[output]\nstyle=\"pretty\"").map Table.data =
        some [("lint", .table []), ("output", .table [("style", .text "pretty")])] := by
    constructor
    · cbv
    · cbv
  rcases Option.map_eq_some_iff.mp hdata.1 with ⟨t, ht, htdata⟩
  rcases Option.map_eq_some_iff.mp hdata.2 with ⟨t', ht', htdata'⟩
  rcases ofText_of_read ht with ⟨haccepted, hconfigures, -, hswapped⟩
  have hacceptable : Acceptable t.data := by
    rw [htdata, Acceptable, List.forall_mem_cons, List.forall_mem_singleton]
    refine ⟨⟨_, rfl, ?_⟩, _, rfl, fun _ hp => absurd hp List.not_mem_nil⟩
    exact List.forall_mem_singleton.mpr ⟨.pretty, IsStyle.name .pretty⟩
  have hrearranged : Rearranged (Entrywise SameSection) t.data t'.data := by
    rw [htdata, htdata']
    refine ⟨_, ?_, List.Perm.swap _ _ []⟩
    exact .cons ⟨rfl, .same _⟩ (.cons ⟨rfl, .same _⟩ .nil)
  rcases haccepted.mpr hacceptable with ⟨s, hs⟩
  exact ⟨t, ht, s, hs, hconfigures s hs, (hswapped _ t' ht' hrearranged s).mp hs⟩

end Settings
end GossipGames
