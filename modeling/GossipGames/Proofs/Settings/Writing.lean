import GossipGames.Proofs.Settings.Acceptance
import GossipGames.Proofs.Toml.Lines

/-!
# Settings written and read back

Some of the settings are written to a file, under the headers of their sections, in a table in
braces for each section, or with dotted keys.  Each of these files is read as the settings that were
written, with the defaults for the others.
-/

namespace GossipGames
namespace Settings

open Toml

inductive Section where
  | output
  | lint
deriving DecidableEq

inductive Setting where
  | style
  | trailingNewline
  | enabled
  | denyWarnings
  | maxEnumerated
deriving DecidableEq

def Section.name : Section → String
  | output => "output"
  | lint => "lint"

def sectionNames : List String :=
  [Section.output.name, Section.lint.name]

namespace Setting

def place : Setting → Section
  | style => .output
  | trailingNewline => .output
  | enabled => .lint
  | denyWarnings => .lint
  | maxEnumerated => .lint

def name : Setting → String
  | style => "style"
  | trailingNewline => "trailing_newline"
  | enabled => "enabled"
  | denyWarnings => "deny_warnings"
  | maxEnumerated => "max_enumerated_propositions"

def text (s : Settings) : Setting → String
  | style => "\"" ++ s.output.style.name ++ "\""
  | trailingNewline => toString s.output.trailingNewline
  | enabled => toString s.lint.enabled
  | denyWarnings => toString s.lint.denyWarnings
  | maxEnumerated => toString s.lint.maxEnumerated

def datum (s : Settings) : Setting → Datum
  | style => .text s.output.style.name
  | trailingNewline => .boolean s.output.trailingNewline
  | enabled => .boolean s.lint.enabled
  | denyWarnings => .boolean s.lint.denyWarnings
  | maxEnumerated => .integer s.lint.maxEnumerated

end Setting

theorem mem_sectionNames (c : Section) : c.name ∈ sectionNames := by
  cases c <;> decide

theorem exists_section {n : String} (h : n ∈ sectionNames) : ∃ c : Section, c.name = n := by
  rcases List.mem_pair.mp h with rfl | rfl
  · exact ⟨.output, rfl⟩
  · exact ⟨.lint, rfl⟩

theorem sectionName_injective : Function.Injective Section.name := by
  intro c c' h
  cases c <;> cases c' <;> first | rfl | exact absurd h (by decide)

theorem name_injective : Function.Injective Setting.name := by
  intro k k' h
  cases k <;> cases k' <;> first | rfl | exact absurd h (by decide)

theorem isBare_sectionName (c : Section) : IsBare c.name.toList := by
  cases c <;> exact ⟨by decide, List.all_eq_true.mp (by decide)⟩

theorem isBare_name (k : Setting) : IsBare k.name.toList := by
  cases k <;> exact ⟨by decide, List.all_eq_true.mp (by decide)⟩

/-- Some sections in some order, and in each some of its settings in some order. -/
structure Plan where
  sections : List (Section × List Setting)
  nodup_sections : (sections.map Prod.fst).Nodup
  nodup_settings : ∀ p ∈ sections, p.2.Nodup
  place_eq : ∀ p ∈ sections, ∀ k ∈ p.2, k.place = p.1

def Plan.chosen (plan : Plan) : List Setting :=
  plan.sections.flatMap Prod.snd

/-- The chosen settings, and the defaults for the others. -/
def keeping (chosen : List Setting) (s : Settings) : Settings where
  output :=
    { style := if .style ∈ chosen then s.output.style else .compact
      trailingNewline := if .trailingNewline ∈ chosen then s.output.trailingNewline else false }
  lint :=
    { enabled := if .enabled ∈ chosen then s.lint.enabled else false
      denyWarnings := if .denyWarnings ∈ chosen then s.lint.denyWarnings else false
      maxEnumerated := if .maxEnumerated ∈ chosen then s.lint.maxEnumerated else 16 }

theorem keeping_congr {ks ks' : List Setting} (h : ∀ k, k ∈ ks ↔ k ∈ ks') (s : Settings) :
    keeping ks s = keeping ks' s := by
  simp only [keeping, h]

theorem Plan.nodup_chosen (plan : Plan) : plan.chosen.Nodup := by
  rw [chosen, List.nodup_flatMap]
  refine ⟨plan.nodup_settings, ?_⟩
  have hdistinct := List.pairwise_map.mp plan.nodup_sections
  refine hdistinct.imp_of_mem fun {p q} hp hq hne => ?_
  intro k hkp hkq
  exact hne ((plan.place_eq p hp k hkp).symm.trans (plan.place_eq q hq k hkq))

theorem exists_plan {ks : List Setting} (hks : ks.Nodup) :
    ∃ plan : Plan, plan.chosen.Perm ks := by
  let plan : Plan :=
    { sections := [(.output, ks.filter (·.place = .output)), (.lint, ks.filter (·.place = .lint))]
      nodup_sections := by simp
      nodup_settings := by simp [hks.filter]
      place_eq := by simp }
  refine ⟨plan, ?_⟩
  have hrest : ks.filter (·.place = .lint) = ks.filter fun k => !decide (k.place = .output) := by
    refine List.filter_congr fun k _ => ?_
    cases k.place <;> rfl
  have hchosen : plan.chosen = ks.filter (·.place = .output) ++ ks.filter (·.place = .lint) := by
    simp [plan, Plan.chosen]
  rw [hchosen, hrest]
  exact List.filter_append_perm _ ks

/-!
# The three notations
-/

namespace Setting

def pairText (s : Settings) (k : Setting) : String :=
  k.name ++ " = " ++ k.text s

def dottedText (s : Settings) (k : Setting) : String :=
  k.place.name ++ "." ++ k.pairText s

end Setting

namespace Section

def headerText (c : Section) : String :=
  "[" ++ c.name ++ "]"

def bracesText (s : Settings) (c : Section) (ks : List Setting) : String :=
  c.name ++ " = \x7b " ++ ", ".intercalate (ks.map (Setting.pairText s)) ++ " \x7d"

end Section

def underHeaders (s : Settings) (plan : Plan) : String :=
  fileOf (plan.sections.flatMap fun p => p.1.headerText :: p.2.map (Setting.pairText s))

def inBraces (s : Settings) (plan : Plan) : String :=
  fileOf (plan.sections.map fun p => p.1.bracesText s p.2)

def withDots (s : Settings) (ks : List Setting) : String :=
  fileOf (ks.map (Setting.dottedText s))

theorem literal_styleName (style : Json.Style) :
    Literal ("\"" ++ style.name ++ "\"").toList (.text style.name) := by
  have hname : style.name.toList ≠ [] ∧ ∀ c ∈ style.name.toList, isUnescaped c = true := by
    cases style <;> exact ⟨by decide, List.all_eq_true.mp (by decide)⟩
  have hliteral := Literal.text hname.1 hname.2
  rw [String.ofList_toList] at hliteral
  rw [String.toList_append, String.toList_append]
  exact hliteral

theorem lineText_header (c : Section) : LineText c.headerText.toList (.header [c.name]) := by
  have hline := LineText.opens (KeyText.one (isBare_sectionName c))
  rw [String.ofList_toList] at hline
  rw [Section.headerText, String.toList_append, String.toList_append]
  exact hline

section Lines

variable {s : Settings} (hmax : s.lint.maxEnumerated ≤ 2 ^ 63 - 1)

include hmax

theorem literal_text (k : Setting) : Literal (k.text s).toList (k.datum s) := by
  cases k with
  | style =>
      exact literal_styleName s.output.style
  | trailingNewline | enabled | denyWarnings =>
      exact Literal.boolean _
  | maxEnumerated =>
      refine Literal.natural ?_
      unfold integerBound
      omega

theorem pairText_text (k : Setting) : PairText (k.pairText s).toList (k.name, k.datum s) := by
  have hpair := PairText.mk (isBare_name k) (literal_text hmax k)
  rw [String.ofList_toList] at hpair
  rw [Setting.pairText, String.toList_append, String.toList_append, List.append_assoc]
  exact hpair

theorem lineText_dotted (k : Setting) :
    LineText (k.dottedText s).toList (.assignment [k.place.name, k.name] (k.datum s)) := by
  have hline := LineText.assigns (KeyText.two (isBare_sectionName k.place) (isBare_name k))
    (.literal (literal_text hmax k))
  rw [String.ofList_toList, String.ofList_toList] at hline
  have htext : (k.dottedText s).toList =
      k.place.name.toList ++ '.' :: k.name.toList ++ ' ' :: '=' :: ' ' :: (k.text s).toList := by
    simp [Setting.dottedText, Setting.pairText]
  rw [htext]
  exact hline

theorem lineText_braces (c : Section) {ks : List Setting} (hks : ks.Nodup) :
    LineText (c.bracesText s ks).toList
      (.assignment [c.name] (.table (ks.map fun k => (k.name, k.datum s)))) := by
  let qs := ks.map fun k => ((k.pairText s).toList, k.name, k.datum s)
  have hqs : ∀ q ∈ qs, PairText q.1 q.2 :=
    List.forall_mem_map.mpr fun k _ => pairText_text hmax k
  have hnames : ((qs.map Prod.snd).map Prod.fst).Nodup := by
    rw [List.map_map, List.map_map]
    exact hks.map name_injective
  have hline := LineText.assigns (KeyText.one (isBare_sectionName c)) (ValueText.table hqs hnames)
  have hdata : qs.map Prod.snd = ks.map fun k => (k.name, k.datum s) := List.map_map
  rw [String.ofList_toList, hdata] at hline
  have htext : (c.bracesText s ks).toList = c.name.toList ++ ' ' :: '=' :: ' ' ::
      ('\x7b' :: ' ' :: [',', ' '].intercalate (qs.map Prod.fst) ++ [' ', '\x7d']) := by
    simp [Section.bracesText, String.toList_intercalate, Function.comp_def, qs]
  rw [htext]
  exact hline

end Lines

/-!
# Files

All three notations make a table of sections that give what is written for the settings.
-/

def entry (s : Settings) (k : Setting) : String × String × Datum :=
  (k.place.name, k.name, k.datum s)

def Plan.data (s : Settings) (plan : Plan) : List (String × List (String × Datum)) :=
  plan.sections.map fun p => (p.1.name, p.2.map fun k => (k.name, k.datum s))

/-- The file is a table of sections that give what is written for some settings. -/
def Gathers (s : Settings) (ks : List Setting) (file : String) : Prop :=
  ∃ t allowed, Toml.read file = some t ∧ Sectioned allowed sectionNames (ks.map (entry s)) t

namespace Plan

variable (plan : Plan) (s : Settings)

theorem listing_data : listing (plan.data s) = plan.chosen.map (entry s) := by
  rw [listing, data, List.flatMap_map, chosen, List.map_flatMap]
  refine List.flatMap_congr fun p hp => ?_
  rw [List.map_map]
  refine List.map_congr_left fun k hk => ?_
  rw [entry, plan.place_eq p hp k hk]
  rfl

theorem map_fst_data :
    (plan.data s).map Prod.fst = (plan.sections.map Prod.fst).map Section.name := by
  rw [data, List.map_map, List.map_map]
  rfl

theorem nodup_map_fst_data : ((plan.data s).map Prod.fst).Nodup := by
  rw [map_fst_data]
  exact plan.nodup_sections.map sectionName_injective

theorem map_fst_data_subset : (plan.data s).map Prod.fst ⊆ sectionNames := by
  rw [map_fst_data]
  intro n hn
  rcases List.mem_map.mp hn with ⟨c, -, rfl⟩
  exact mem_sectionNames c

end Plan

theorem forall₂_map_map {R : α → β → Prop} {f : γ → α} {g : γ → β} {xs : List γ}
    (h : ∀ x ∈ xs, R (f x) (g x)) : List.Forall₂ R (xs.map f) (xs.map g) := by
  rw [List.forall₂_map_left_iff, List.forall₂_map_right_iff, List.forall₂_same]
  exact h

section Files

variable {s : Settings} (hmax : s.lint.maxEnumerated ≤ 2 ^ 63 - 1)

include hmax

theorem gathers_underHeaders (plan : Plan) : Gathers s plan.chosen (underHeaders s plan) := by
  have hlines : List.Forall₂ (fun l note => LineText l.toList note)
      (plan.sections.flatMap fun p => p.1.headerText :: p.2.map (Setting.pairText s))
      (plan.sections.flatMap fun p =>
        .header [p.1.name] :: p.2.map fun k => .assignment [k.name] (k.datum s)) := by
    refine List.rel_flatMap (List.forall₂_eq_eq_eq ▸ rfl) ?_
    rintro p _ rfl
    exact .cons (lineText_header p.1) (forall₂_map_map fun k _ => (pairText_text hmax k).lineText)
  rcases exists_read hlines with ⟨sts, hsts, hread⟩
  have hnotes : sts.map Statement.note = (plan.data s).flatMap sectionNotes := by
    rw [hsts, Plan.data, List.flatMap_map]
    refine List.flatMap_congr fun p _ => ?_
    rw [sectionNotes, List.map_map]
    rfl
  have hkeys : ∀ sec ∈ plan.data s, (sec.2.map Prod.fst).Nodup := by
    rw [Plan.data, List.forall_mem_map]
    intro p hp
    rw [List.map_map]
    exact (plan.nodup_settings p hp).map name_injective
  rcases exists_assemble_of_headers hnotes (plan.nodup_map_fst_data s) hkeys with
    ⟨t, ht, hsectioned⟩
  rw [plan.listing_data] at hsectioned
  exact ⟨t, _, hread.trans ht, hsectioned.mono (plan.map_fst_data_subset s)⟩

theorem gathers_inBraces (plan : Plan) : Gathers s plan.chosen (inBraces s plan) := by
  have hlines : List.Forall₂ (fun l note => LineText l.toList note)
      (plan.sections.map fun p => p.1.bracesText s p.2)
      (plan.sections.map fun p =>
        .assignment [p.1.name] (.table (p.2.map fun k => (k.name, k.datum s)))) :=
    forall₂_map_map fun p hp => lineText_braces hmax p.1 (plan.nodup_settings p hp)
  rcases exists_read hlines with ⟨sts, hsts, hread⟩
  have hnotes : sts.map Statement.note =
      (plan.data s).map fun sec => .assignment [sec.1] (.table sec.2) := by
    rw [hsts, Plan.data, List.map_map]
    rfl
  rcases exists_assemble_of_inline hnotes (plan.nodup_map_fst_data s) with ⟨t, ht, hsectioned⟩
  rw [plan.listing_data] at hsectioned
  exact ⟨t, _, hread.trans ht, hsectioned.mono (plan.map_fst_data_subset s)⟩

theorem gathers_withDots {ks : List Setting} (hks : ks.Nodup) :
    Gathers s ks (withDots s ks) := by
  have hlines : List.Forall₂ (fun l note => LineText l.toList note) (ks.map (Setting.dottedText s))
      (ks.map fun k => .assignment [k.place.name, k.name] (k.datum s)) :=
    forall₂_map_map fun k _ => lineText_dotted hmax k
  rcases exists_read hlines with ⟨sts, hsts, hread⟩
  have hnotes : sts.map Statement.note =
      (ks.map (entry s)).map fun g => .assignment [g.1, g.2.1] g.2.2 := by
    rw [hsts, List.map_map]
    rfl
  have hnames : ∀ g ∈ ks.map (entry s), g.1 ∈ sectionNames :=
    List.forall_mem_map.mpr fun k _ => mem_sectionNames k.place
  have hplaces : ((ks.map (entry s)).map fun g => (g.1, g.2.1)).Nodup := by
    rw [List.map_map]
    exact hks.map fun k k' h => name_injective (congrArg Prod.snd h)
  rcases exists_assemble_of_dotted hnotes hnames hplaces with ⟨t, ht, hsectioned⟩
  exact ⟨t, _, hread.trans ht, hsectioned⟩

end Files

variable {s : Settings}

theorem outputEntry {k : Setting} (h : k.place = .output) : OutputEntry (k.name, k.datum s) := by
  cases k with
  | style =>
      exact ⟨_, IsStyle.name _⟩
  | trailingNewline =>
      exact ⟨_, rfl⟩
  | enabled | denyWarnings | maxEnumerated =>
      cases h

theorem lintEntry {k : Setting} (h : k.place = .lint) : LintEntry (k.name, k.datum s) := by
  cases k with
  | style | trailingNewline =>
      cases h
  | enabled | denyWarnings | maxEnumerated =>
      exact ⟨_, rfl⟩

section Gathered

variable {ks : List Setting} {allowed : Origin → Prop} {t : Table Value}

theorem mem_entries_iff {k : Setting} {d : Datum} :
    (k.place.name, k.name, d) ∈ ks.map (entry s) ↔ k ∈ ks ∧ d = k.datum s := by
  rw [List.mem_map]
  constructor
  · rintro ⟨k', hk', heq⟩
    have hname : k'.name = k.name := congrArg (fun g => g.2.1) heq
    cases name_injective hname
    exact ⟨hk', (congrArg (fun g => g.2.2) heq).symm⟩
  · rintro ⟨hk, rfl⟩
    exact ⟨k, hk, rfl⟩

variable (ht : Sectioned allowed sectionNames (ks.map (entry s)) t)

include ht

theorem gives_iff {name field : String} {names : List String} {d : Datum} :
    Gives t.data name names field d ↔ (name, field, d) ∈ ks.map (entry s) := by
  constructor
  · rintro ⟨c, ps, hc, hps, hd⟩
    rcases ht.datum_of_mem_data hc with ⟨-, qs, rfl, hqs⟩
    cases hps
    exact (hqs _).mp hd
  · intro hmem
    rcases ht.exists_of_mem_given hmem with ⟨ps, hps, hd⟩
    exact ⟨_, ps, hps, rfl, hd⟩

theorem chosen_setting {R : Datum → α → Prop} (k : Setting) {names : List String} {a usual : α}
    (hR : R (k.datum s) a) :
    Chosen R (Gives t.data k.place.name names k.name) usual (if k ∈ ks then a else usual) := by
  rw [chosen_congr fun d => (gives_iff ht).trans mem_entries_iff]
  split
  · next hk =>
    refine ⟨?_, fun hnone => absurd ⟨hk, rfl⟩ (hnone (k.datum s))⟩
    rintro d ⟨-, rfl⟩
    exact hR
  · next hk =>
    exact ⟨fun d hd => absurd hd.1 hk, fun _ => rfl⟩

theorem configures_keeping : Configures t.data (keeping ks s) where
  style := chosen_setting ht .style (IsStyle.name _)
  trailingNewline := chosen_setting ht .trailingNewline rfl
  enabled := chosen_setting ht .enabled rfl
  denyWarnings := chosen_setting ht .denyWarnings rfl
  maxEnumerated := chosen_setting ht .maxEnumerated rfl

theorem acceptable_gathered : Acceptable t.data := by
  rintro ⟨n, c⟩ he
  rcases ht.datum_of_mem_data he with ⟨hname, ps, rfl, hps⟩
  have hentry : ∀ p ∈ ps, ∃ k : Setting, k.place.name = n ∧ p = (k.name, k.datum s) := by
    intro p hp
    rcases List.mem_map.mp ((hps p).mp hp) with ⟨k, -, heq⟩
    exact ⟨k, congrArg Prod.fst heq, (congrArg Prod.snd heq).symm⟩
  rcases exists_section hname with ⟨c, rfl⟩
  cases c with
  | output =>
      refine ⟨ps, rfl, fun p hp => ?_⟩
      rcases hentry p hp with ⟨k, hk, rfl⟩
      exact outputEntry (sectionName_injective hk)
  | lint =>
      refine ⟨ps, rfl, fun p hp => ?_⟩
      rcases hentry p hp with ⟨k, hk, rfl⟩
      exact lintEntry (sectionName_injective hk)

end Gathered

theorem ofText_of_gathers {file : String} {ks : List Setting} (h : Gathers s ks file) :
    ofText file = .ok (keeping ks s) := by
  rcases h with ⟨t, allowed, hread, ht⟩
  exact (ofText_eq_ok_iff hread).mpr ⟨acceptable_gathered ht, configures_keeping ht⟩

/-- Settings that are written under headers, in braces or with dotted keys, in whatever order, are
read back, and the others are read as their defaults. -/
theorem ofText_of_written (s : Settings) (hmax : s.lint.maxEnumerated ≤ 2 ^ 63 - 1) (plan : Plan) :
    ofText (underHeaders s plan) = .ok (keeping plan.chosen s) ∧
    ofText (inBraces s plan) = .ok (keeping plan.chosen s) ∧
    ∀ ks, ks.Perm plan.chosen → ofText (withDots s ks) = .ok (keeping plan.chosen s) := by
  refine ⟨ofText_of_gathers (gathers_underHeaders hmax plan),
    ofText_of_gathers (gathers_inBraces hmax plan), fun ks hks => ?_⟩
  rw [← keeping_congr (fun _ => hks.mem_iff) s]
  exact ofText_of_gathers (gathers_withDots hmax (hks.nodup_iff.mpr plan.nodup_chosen))

def greatest : Settings where
  output := { style := .pretty, trailingNewline := true }
  lint := { maxEnumerated := 9223372036854775807 }

def lintFirst : Plan where
  sections := [(.lint, [.maxEnumerated, .enabled]), (.output, [.style])]
  nodup_sections := by decide
  nodup_settings := by decide
  place_eq := by decide

theorem ofText_of_written_greatest :
    ofText ("[lint]\nmax_enumerated_propositions = 9223372036854775807\nenabled = false\n" ++
      "[output]\nstyle = \"pretty\"\n") =
        .ok { greatest with output := { style := .pretty } } ∧
    ofText ("lint = \x7b max_enumerated_propositions = 9223372036854775807, " ++
      "enabled = false \x7d\noutput = \x7b style = \"pretty\" \x7d\n") =
        .ok { greatest with output := { style := .pretty } } ∧
    ofText ("lint.enabled = false\noutput.style = \"pretty\"\n" ++
      "lint.max_enumerated_propositions = 9223372036854775807\n") =
        .ok { greatest with output := { style := .pretty } } := by
  have hkept : keeping lintFirst.chosen greatest =
      { greatest with output := { style := .pretty } } := by
    decide
  have hread := ofText_of_written greatest (by decide) lintFirst
  rw [hkept] at hread
  rcases hread with ⟨hheaders, hbraces, hdots⟩
  refine ⟨(congrArg ofText ?_).trans hheaders, (congrArg ofText ?_).trans hbraces,
    (congrArg ofText ?_).trans (hdots [.enabled, .style, .maxEnumerated] (by decide))⟩
  all_goals decide +kernel

end Settings
end GossipGames
