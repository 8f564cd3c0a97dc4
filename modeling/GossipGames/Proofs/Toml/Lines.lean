import GossipGames.Proofs.Toml.Scalars
import GossipGames.Proofs.Toml.Tables

/-!
# Statements on one line

A header or an assignment that stands alone on its line is read for what it says, and a file of such
lines is read as what they say one after the other.
-/

namespace GossipGames
namespace Toml

/-!
# Keys

A plain key is a name without quotation marks, or two with a point between them.
-/

structure IsBare (w : List Char) : Prop where
  ne_nil : w ≠ []
  bare : ∀ c ∈ w, isBareChar c = true

inductive KeyText : List Char → List String → Prop where
  | one {w : List Char} : IsBare w → KeyText w [String.ofList w]
  | two {w w' : List Char} : IsBare w → IsBare w' →
      KeyText (w ++ '.' :: w') [String.ofList w, String.ofList w']

theorem IsBare.head?_ne {w : List Char} (h : IsBare w) {c : Char} (hc : isBareChar c = false)
    (rest : List Char) : (w ++ rest).head? ≠ some c := by
  intro hhead
  rw [List.head?_append_of_ne_nil _ h.ne_nil] at hhead
  rw [h.bare c (List.mem_of_mem_head? hhead)] at hc
  cases hc

theorem makes_name {w : List Char} (hw : IsBare w) :
    name.Makes w (fun k => k.name = String.ofList w) (Scanner.Avoids isBareChar) := by
  refine makes_measured (Scanner.makes_orElse_right ?_ fun rest _ => ?_)
  · intro rest hrest
    rcases Scanner.exists_cons_of_avoids hw.ne_nil hw.bare hrest with
      ⟨c, v, rfl, hc, htake, hdrop, hlt⟩
    refine ⟨String.ofList (c :: v), ⟨hlt, ?_⟩, fun _ => rfl⟩
    simp only [List.cons_append, bareName, hc, if_true, htake, hdrop]
  · exact lineText_eq_none (hw.head?_ne (by decide) rest) (hw.head?_ne (by decide) rest)

def AreSpaces (us : List Char) : Prop :=
  ∀ c ∈ us, isSpace c = true

theorem areSpaces_nil : AreSpaces [] :=
  fun _ hc => absurd hc List.not_mem_nil

theorem areSpaces_one : AreSpaces [' '] :=
  List.forall_mem_singleton.mpr rfl

/-- What may follow a name and the spaces after it. -/
structure EndsName (rest : List Char) : Prop where
  noBareChar : Scanner.Avoids isBareChar rest
  noSpace : Scanner.Avoids isSpace rest

theorem skipSpaces_append {us s : List Char} (hus : AreSpaces us)
    (hs : Scanner.Avoids isSpace s) : skipSpaces.apply (us ++ s) = s :=
  (Scanner.takeWhile_append_of_avoids hus hs).2

theorem eq_space_or_tab {c : Char} (h : isSpace c = true) : c = ' ' ∨ c = '\t' := by
  simpa [isSpace] using h

theorem AreSpaces.not_isBareChar {us : List Char} (h : AreSpaces us) :
    ∀ c ∈ us, isBareChar c = false := by
  intro c hc
  rcases eq_space_or_tab (h c hc) with rfl | rfl <;> decide

theorem not_isSpace_of_isBareChar {c : Char} (h : isBareChar c = true) : isSpace c = false := by
  rw [← Bool.not_eq_true]
  intro hspace
  rcases eq_space_or_tab hspace with rfl | rfl <;> cases h

theorem IsBare.avoids_isSpace {w : List Char} (h : IsBare w) (rest : List Char) :
    Scanner.Avoids isSpace (w ++ rest) := by
  intro c hc
  rw [Option.mem_def, List.head?_append_of_ne_nil _ h.ne_nil] at hc
  exact not_isSpace_of_isBareChar (h.bare c (List.mem_of_mem_head? hc))

theorem makes_spaced_name {us w vs : List Char} (hus : AreSpaces us) (hw : IsBare w)
    (hvs : AreSpaces vs) :
    (Scanner.surroundedBy skipSpaces name).Makes (us ++ w ++ vs)
      (fun k => k.name = String.ofList w) EndsName := by
  refine Scanner.makes_skippingAfter (Scanner.makes_skippingBefore (makes_name hw) ?_) ?_ ?_
  · intro rest _
    exact skipSpaces_append hus (hw.avoids_isSpace rest)
  · intro rest hrest
    exact Scanner.avoids_append hvs.not_isBareChar hrest.noBareChar
  · intro rest hrest
    exact skipSpaces_append hvs hrest.noSpace

theorem pathNames_separateLast (k : Key) (ks : List Key) :
    pathNames (separateLast k ks).1 (separateLast k ks).2 = (k :: ks).map Key.name := by
  induction ks generalizing k with
  | nil =>
      rfl
  | cons l ks ih =>
      rw [List.map_cons, ← ih l]
      rfl

structure EndsKey (rest : List Char) : Prop extends EndsName rest where
  noPoint : rest.head? ≠ some '.'

theorem endsKey_cons {c : Char} (h : c = '=' ∨ c = ']') (rest : List Char) :
    EndsKey (c :: rest) := by
  rcases h with rfl | rfl
  · exact ⟨⟨Scanner.avoids_cons (by decide) rest, Scanner.avoids_cons (by decide) rest⟩, by simp⟩
  · exact ⟨⟨Scanner.avoids_cons (by decide) rest, Scanner.avoids_cons (by decide) rest⟩, by simp⟩

theorem makes_key {us ts vs : List Char} {names : List String} (hus : AreSpaces us)
    (hts : KeyText ts names) (hvs : AreSpaces vs) :
    key.Makes (us ++ ts ++ vs) (fun k => pathNames k.1 k.2 = names) EndsKey := by
  have hchain : Scanner.Makes
      (Scanner.chain (Scanner.symbol '.') (Scanner.surroundedBy skipSpaces name)) (us ++ ts ++ vs)
      (fun q => (q.1 :: q.2).map Key.name = names ∧ q.2.length ≤ 1) EndsKey := by
    cases hts with
    | one hw =>
        refine (Scanner.makes_chain_one (makes_spaced_name hus hw hvs) fun rest hrest =>
          ⟨hrest.toEndsName, hrest.noPoint⟩).imp ?_ fun _ h => h
        rintro ⟨k, ks⟩ ⟨hk, rfl⟩
        exact ⟨by rw [List.map_singleton, hk], Nat.zero_le 1⟩
    | @two w w' hw hw' =>
        have hpoint : ∀ rest, EndsName ('.' :: rest) := fun rest =>
          ⟨Scanner.avoids_cons (by decide) rest, Scanner.avoids_cons (by decide) rest⟩
        have hboth := Scanner.makes_chain_cons (makes_spaced_name hus hw areSpaces_nil) hpoint
          (Scanner.makes_chain_one (makes_spaced_name areSpaces_nil hw' hvs)
            fun rest (hrest : EndsKey rest) => ⟨hrest.toEndsName, hrest.noPoint⟩)
        have htext : us ++ w ++ [] ++ '.' :: ([] ++ w' ++ vs) = us ++ (w ++ '.' :: w') ++ vs := by
          simp
        rw [htext] at hboth
        refine hboth.imp ?_ fun _ h => h
        rintro ⟨k, ks⟩ ⟨l, ls, hk, rfl, hl, rfl⟩
        exact ⟨by rw [List.map_cons, List.map_singleton, hk, hl], Nat.le_refl 1⟩
  refine Scanner.makes_mapSome (hchain.imp ?_ fun _ h => h)
  rintro ⟨k, ks⟩ ⟨hnames, hlength⟩
  refine ⟨separateLast k ks, if_pos ?_, (pathNames_separateLast k ks).trans hnames⟩
  exact Nat.lt_of_le_of_lt (Nat.add_le_add_right hlength 1) (by decide)

theorem makes_pair {item : Scanner Char Value} {us ts vs : List Char} {names : List String}
    {d : Datum} {stop : List Char → Prop} (hus : AreSpaces us) (hts : KeyText ts names)
    (hvs : ∀ rest, Scanner.Avoids isSpace (vs ++ rest))
    (hitem : item.Makes vs (fun v => v.datum = d) stop) :
    (pair item).Makes (us ++ ts ++ ' ' :: '=' :: ' ' :: vs)
      (fun p => pathNames p.1.1 p.1.2 = names ∧ p.2.datum = d) stop := by
  have hkey : (Scanner.followedBy key (Scanner.symbol '=')).Makes (us ++ ts ++ [' '] ++ ['='])
      (fun k => pathNames k.1 k.2 = names) fun _ => True :=
    Scanner.makes_followedBy_symbol (makes_key hus hts areSpaces_one)
      fun rest => endsKey_cons (Or.inl rfl) rest
  have hvalue : (item.skippingBefore skipSpaces).Makes ([' '] ++ vs) (fun v => v.datum = d) stop :=
    Scanner.makes_skippingBefore hitem fun rest _ => skipSpaces_append areSpaces_one (hvs rest)
  have htext : us ++ ts ++ [' '] ++ ['='] ++ ([' '] ++ vs) =
      us ++ ts ++ ' ' :: '=' :: ' ' :: vs := by
    simp
  rw [← htext]
  refine Scanner.makes_andThen hkey (fun k hk => Scanner.makes_map ?_) fun _ => trivial
  exact hvalue.imp (fun v hv => ⟨hk, hv⟩) fun _ h => h

/-!
# Tables in braces
-/

/-- A name and a value with a sign of equality between them. -/
inductive PairText : List Char → String × Datum → Prop where
  | mk {w vs : List Char} {d : Datum} : IsBare w → Literal vs d →
      PairText (w ++ ' ' :: '=' :: ' ' :: vs) (String.ofList w, d)

theorem PairText.exists_cons {ts : List Char} {p : String × Datum} (h : PairText ts p) :
    ∃ c s, ts = c :: s ∧ isBareChar c = true := by
  cases h with
  | mk hw _ =>
      rcases List.exists_cons_of_ne_nil hw.ne_nil with ⟨c, s, rfl⟩
      exact ⟨c, _, rfl, hw.bare c List.mem_cons_self⟩

theorem Literal.avoids_isSpace {vs : List Char} {d : Datum} (h : Literal vs d)
    (rest : List Char) : Scanner.Avoids isSpace (vs ++ rest) := by
  cases h with
  | boolean b =>
      cases b <;> exact Scanner.avoids_cons (by decide) _
  | @natural n _ =>
      rcases exists_digits n with ⟨c, w, hdigits, hall, -⟩
      rw [hdigits]
      refine Scanner.avoids_cons ?_ _
      rw [← Bool.not_eq_true]
      intro hspace
      have hc := hall c List.mem_cons_self
      rcases eq_space_or_tab hspace with rfl | rfl <;> cases hc
  | text _ _ =>
      exact Scanner.avoids_cons (by decide) _

structure EndsPair (rest : List Char) : Prop where
  noWordChar : Scanner.Avoids isWordChar rest
  noSpace : Scanner.Avoids isSpace rest

theorem makes_spaced_pair {ts vs : List Char} {p : String × Datum} (hts : PairText ts p)
    (hvs : AreSpaces vs) (depth : Nat) :
    (Scanner.skippingAfter skipSpaces (pair (value depth))).Makes (' ' :: ts ++ vs)
      (fun q => q.1.1 = [] ∧ Table.entryData q = p) EndsPair := by
  have hword : ∀ c ∈ vs, isWordChar c = false := by
    intro c hc
    rcases eq_space_or_tab (hvs c hc) with rfl | rfl <;> decide
  cases hts with
  | mk hw hd =>
      have hpair := makes_pair areSpaces_one (KeyText.one hw) hd.avoids_isSpace (hd.makes depth)
      refine Scanner.makes_skippingAfter (hpair.imp ?_ fun _ h => h) ?_ ?_
      · rintro q ⟨hnames, rfl⟩
        rcases pathNames_eq_singleton hnames with ⟨hpath, hname⟩
        exact ⟨hpath, by rw [Table.entryData, hname]⟩
      · intro rest hrest
        exact Scanner.avoids_append hword hrest.noWordChar
      · intro rest hrest
        exact skipSpaces_append hvs hrest.noSpace

theorem makes_pairs_chain {first : List Char × String × Datum}
    {more : List (List Char × String × Datum)} (h : ∀ q ∈ first :: more, PairText q.1 q.2)
    (depth : Nat) :
    Scanner.Makes
      (Scanner.chain (Scanner.symbol ',') (Scanner.skippingAfter skipSpaces (pair (value depth))))
      (' ' :: [',', ' '].intercalate ((first :: more).map Prod.fst) ++ [' '])
      (fun r => (∀ p ∈ r.1 :: r.2, p.1.1 = []) ∧
        (r.1 :: r.2).map Table.entryData = (first :: more).map Prod.snd)
      fun rest => rest.head? = some '\x7d' := by
  rw [List.forall_mem_cons] at h
  induction more generalizing first with
  | nil =>
      have hbrace : ∀ rest : List Char, rest.head? = some '\x7d' →
          EndsPair rest ∧ rest.head? ≠ some ',' := by
        intro rest hrest
        rcases List.head?_eq_some_iff.mp hrest with ⟨s, rfl⟩
        exact ⟨⟨Scanner.avoids_cons (by decide) s, Scanner.avoids_cons (by decide) s⟩, by simp⟩
      have htext : ' ' :: [',', ' '].intercalate ([first].map Prod.fst) ++ [' '] =
          ' ' :: first.1 ++ [' '] := by
        simp [List.intercalate]
      rw [htext]
      refine (Scanner.makes_chain_one (makes_spaced_pair h.1 areSpaces_one depth) hbrace).imp ?_
        fun _ h => h
      rintro ⟨p, ps⟩ ⟨⟨hpath, hp⟩, rfl⟩
      exact ⟨List.forall_mem_singleton.mpr hpath, by
        rw [List.map_singleton, List.map_singleton, hp]⟩
  | cons second more ih =>
      have hcomma : ∀ rest, EndsPair (',' :: rest) := fun rest =>
        ⟨Scanner.avoids_cons (by decide) rest, Scanner.avoids_cons (by decide) rest⟩
      have hboth := Scanner.makes_chain_cons (makes_spaced_pair h.1 areSpaces_nil depth) hcomma
        (ih (List.forall_mem_cons.mp h.2))
      have htext : ' ' :: first.1 ++ [] ++
            ',' :: (' ' :: [',', ' '].intercalate ((second :: more).map Prod.fst) ++ [' ']) =
          ' ' :: [',', ' '].intercalate ((first :: second :: more).map Prod.fst) ++ [' '] := by
        simp [List.intercalate]
      rw [htext] at hboth
      refine hboth.imp ?_ fun _ h => h
      rintro ⟨p, ps⟩ ⟨q, qs, ⟨hpath, hp⟩, rfl, hpaths, hqs⟩
      refine ⟨List.forall_mem_cons.mpr ⟨hpath, hpaths⟩, ?_⟩
      rw [List.map_cons, List.map_cons, hp]
      exact congrArg (first.2 :: ·) hqs

theorem exists_intercalate_cons (sep first : List α) (more : List (List α)) :
    ∃ s, sep.intercalate (first :: more) = first ++ s := by
  cases more with
  | nil =>
      exact ⟨[], by rw [List.intercalate_singleton, List.append_nil]⟩
  | cons second more =>
      exact ⟨_, by rw [List.intercalate_cons_cons, List.append_assoc]⟩

theorem makes_pairs {qs : List (List Char × String × Datum)} (h : ∀ q ∈ qs, PairText q.1 q.2)
    (depth : Nat) :
    (pairs (value depth)).Makes (' ' :: [',', ' '].intercalate (qs.map Prod.fst) ++ [' ', '\x7d'])
      (fun ps => (∀ p ∈ ps, p.1.1 = []) ∧ ps.map Table.entryData = qs.map Prod.snd)
      fun _ => True := by
  cases qs with
  | nil =>
      have hclose : (Scanner.skippingBefore skipSpaces (Scanner.symbol '\x7d')).Makes
          ([' ', ' '] ++ ['\x7d']) (fun _ => True) fun _ => True :=
        Scanner.makes_skippingBefore (Scanner.makes_symbol '\x7d') fun _ _ => rfl
      refine Scanner.makes_orElse_left (Scanner.makes_map (hclose.imp ?_ fun _ h => h))
      intro _ _
      exact ⟨fun _ hp => absurd hp List.not_mem_nil, rfl⟩
  | cons first more =>
      refine Scanner.makes_orElse_right ?_ fun rest _ => ?_
      · rw [List.append_cons]
        exact Scanner.makes_followedBy_symbol (Scanner.makes_map (makes_pairs_chain h depth))
          fun _ => rfl
      · -- After the space stands a name and no closing brace.
        rcases exists_intercalate_cons [',', ' '] first.1 (more.map Prod.fst) with ⟨s, hs⟩
        rcases (h first List.mem_cons_self).exists_cons with ⟨c, t, hfirst, hc⟩
        refine Scanner.map_eq_none (Scanner.skippingBefore_eq_none
          (Scanner.symbol_eq_none_iff.mpr ?_))
        have htext : ' ' :: [',', ' '].intercalate ((first :: more).map Prod.fst) ++
            [' ', '\x7d'] ++ rest = [' '] ++ c :: (t ++ s ++ [' ', '\x7d'] ++ rest) := by
          rw [List.map_cons, hs, hfirst]
          simp
        rw [htext, skipSpaces_append areSpaces_one
          (Scanner.avoids_cons (not_isSpace_of_isBareChar hc) _)]
        intro hhead
        cases Option.some.inj hhead
        cases hc

/-- A literal, or a table in braces. -/
inductive ValueText : List Char → Datum → Prop where
  | literal {ts : List Char} {d : Datum} : Literal ts d → ValueText ts d
  | table {qs : List (List Char × String × Datum)} : (∀ q ∈ qs, PairText q.1 q.2) →
      ((qs.map Prod.snd).map Prod.fst).Nodup →
      ValueText ('\x7b' :: ' ' :: [',', ' '].intercalate (qs.map Prod.fst) ++ [' ', '\x7d'])
        (.table (qs.map Prod.snd))

theorem ValueText.makes {ts : List Char} {d : Datum} (h : ValueText ts d) (depth : Nat) :
    (value (depth + 1)).Makes ts (fun v => v.datum = d) (Scanner.Avoids isWordChar) := by
  cases h with
  | literal h =>
      exact h.makes (depth + 1)
  | @table qs hqs hnames =>
      have hbraces : (braces (value depth)).Makes
          ('\x7b' :: (' ' :: [',', ' '].intercalate (qs.map Prod.fst) ++ [' ', '\x7d']))
          (fun v => v.datum = .table (qs.map Prod.snd)) fun _ => True := by
        refine Scanner.makes_mapSome (makes_measured (Scanner.makes_precededBy_symbol
          ((makes_pairs hqs depth).imp ?_ fun _ h => h)))
        rintro ps ⟨hpath, hdata⟩ e
        rcases Table.exists_ofPairs? e hpath (by rw [hdata]; exact hnames) with ⟨t, ht, htdata⟩
        exact ⟨Value.table t, by rw [id, ht, Option.map_some], by rw [datum_table, htdata, hdata]⟩
      refine Scanner.makes_orElse_right (Scanner.makes_orElse_left
        (hbraces.imp (fun _ h => h) fun _ _ => trivial)) fun rest _ => ?_
      exact measured_eq_none (Scanner.precededBy_symbol_eq_none (by simp))

theorem ValueText.avoids_isSpace {ts : List Char} {d : Datum} (h : ValueText ts d)
    (rest : List Char) : Scanner.Avoids isSpace (ts ++ rest) := by
  cases h with
  | literal h =>
      exact h.avoids_isSpace rest
  | table _ _ =>
      exact Scanner.avoids_cons (by decide) _

/-!
# Lines
-/

inductive LineText : List Char → Note → Prop where
  | opens {ts : List Char} {names : List String} : KeyText ts names →
      LineText ('[' :: (ts ++ [']'])) (.header names)
  | assigns {ts vs : List Char} {names : List String} {d : Datum} : KeyText ts names →
      ValueText vs d → LineText (ts ++ ' ' :: '=' :: ' ' :: vs) (.assignment names d)

theorem PairText.lineText {ts : List Char} {p : String × Datum} (h : PairText ts p) :
    LineText ts (.assignment [p.1] p.2) := by
  cases h with
  | mk hw hd =>
      exact LineText.assigns (KeyText.one hw) (ValueText.literal hd)

theorem KeyText.exists_cons {ts : List Char} {names : List String} (h : KeyText ts names) :
    ∃ c s, ts = c :: s ∧ isBareChar c = true := by
  cases h with
  | one hw =>
      rcases List.exists_cons_of_ne_nil hw.ne_nil with ⟨c, s, rfl⟩
      exact ⟨c, s, rfl, hw.bare c List.mem_cons_self⟩
  | two hw _ =>
      rcases List.exists_cons_of_ne_nil hw.ne_nil with ⟨c, s, rfl⟩
      exact ⟨c, _, rfl, hw.bare c List.mem_cons_self⟩

theorem KeyText.head?_ne {ts : List Char} {names : List String} (h : KeyText ts names)
    (rest : List Char) : (ts ++ rest).head? ≠ some '[' := by
  rcases h.exists_cons with ⟨c, s, rfl, hc⟩
  intro hhead
  cases Option.some.inj hhead
  cases hc

theorem LineText.exists_cons {ts : List Char} {note : Note} (h : LineText ts note) :
    ∃ c s, ts = c :: s ∧ (c = '[' ∨ isBareChar c = true) := by
  cases h with
  | opens _ =>
      exact ⟨'[', _, rfl, Or.inl rfl⟩
  | assigns h _ =>
      rcases h.exists_cons with ⟨c, s, rfl, hc⟩
      exact ⟨c, _, rfl, Or.inr hc⟩

theorem LineText.makes {ts : List Char} {note : Note} (h : LineText ts note) :
    (Scanner.orElse itemHeader (Scanner.orElse header assignment)).Makes ts
      (fun st => st.note = note) fun rest => rest.head? = some '\n' := by
  cases h with
  | @opens ts names hkey =>
      have hheader : header.Makes ('[' :: (ts ++ [']'])) (fun st => st.note = .header names)
          fun _ => True := by
        have hname := makes_key areSpaces_nil hkey areSpaces_nil
        rw [List.nil_append, List.append_nil] at hname
        refine makes_measured (Scanner.makes_precededBy_symbol ?_)
        refine (Scanner.makes_followedBy_symbol hname fun rest =>
          endsKey_cons (Or.inr rfl) rest).imp ?_ fun _ h => h
        rintro k hk e
        rw [Statement.note, hk]
      refine Scanner.makes_orElse_right (Scanner.makes_orElse_left
        (hheader.imp (fun _ h => h) fun _ _ => trivial)) fun rest _ => ?_
      refine measured_eq_none (Scanner.precededBy_symbol_cons_eq_none
        (Scanner.precededBy_symbol_eq_none ?_))
      rw [List.append_eq, List.append_assoc]
      exact hkey.head?_ne _
  | @assigns ts vs names d hkey hvalue =>
      have hpair := makes_pair areSpaces_nil hkey hvalue.avoids_isSpace
        (hvalue.makes (depthLimit - 2))
      rw [List.nil_append] at hpair
      have hnone : ∀ rest, (ts ++ ' ' :: '=' :: ' ' :: vs ++ rest).head? ≠ some '[' := by
        intro rest
        rw [List.append_assoc]
        exact hkey.head?_ne _
      refine Scanner.makes_orElse_right (Scanner.makes_orElse_right (Scanner.makes_map
        (hpair.imp ?_ ?_)) fun rest _ => ?_) fun rest _ => ?_
      · rintro p ⟨hnames, hdatum⟩
        rw [Statement.note, hnames, hdatum]
      · intro rest hrest
        rcases List.head?_eq_some_iff.mp hrest with ⟨s, rfl⟩
        exact Scanner.avoids_cons (by decide) s
      · exact measured_eq_none (Scanner.precededBy_symbol_eq_none (hnone rest))
      · exact measured_eq_none (Scanner.precededBy_symbol_eq_none (hnone rest))

theorem LineText.exists_reads {ts : List Char} {note : Note} (h : LineText ts note)
    (rest : List Char) :
    ∃ st, statement.Reads (ts ++ '\n' :: rest) st ('\n' :: rest) ∧ st.note = note := by
  rcases h.makes ('\n' :: rest) rfl with ⟨st, ⟨hlt, hread⟩, hst⟩
  refine ⟨st, ⟨hlt, ?_⟩, hst⟩
  have hends : endsLine ('\n' :: rest) = true := rfl
  rw [statement, hread, Option.filter_some, if_pos hends]

/-!
# Files of lines
-/

theorem statements_eq_some_iff {s : List Char} {sts : List Statement} :
    statements s = some sts ↔ (skipFiller s = [] ∧ sts = []) ∨
      ∃ st rest later, statement.Reads (skipFiller s) st rest ∧ statements rest = some later ∧
        sts = st :: later := by
  rw [statements]
  split
  · next hnil =>
    constructor
    · intro h
      exact Or.inl ⟨hnil, (Option.some.inj h).symm⟩
    · rintro (⟨-, rfl⟩ | ⟨st, rest, later, ⟨hlt, -⟩, -⟩)
      · rfl
      · rw [hnil] at hlt
        exact absurd hlt (Nat.not_lt_zero _)
  · next hne =>
    split
    · next hnone =>
      constructor
      · intro h
        cases h
      · rintro (⟨hnil, -⟩ | ⟨st, rest, later, ⟨hlt, hread⟩, -⟩)
        · exact absurd hnil hne
        · rw [hnone] at hread
          cases hread
    · next st t hsome =>
      rw [Option.map_eq_some_iff]
      constructor
      · rintro ⟨later, hlater, rfl⟩
        exact Or.inr ⟨st, t.val, later, Scanner.reads_of_eq_some hsome, hlater, rfl⟩
      · rintro (⟨hnil, -⟩ | ⟨st', rest, later, ⟨hlt, hread⟩, hlater, rfl⟩)
        · exact absurd hnil hne
        · rw [hsome] at hread
          cases hread
          exact ⟨later, hlater, rfl⟩

theorem statements_newline {s : List Char} {sts : List Statement} (h : statements s = some sts) :
    statements ('\n' :: s) = some sts := by
  have hskip : skipFiller ('\n' :: s) = skipFiller s := rfl
  rw [statements_eq_some_iff, hskip]
  exact statements_eq_some_iff.mp h

theorem skipFiller_cons {c : Char} (h : c = '[' ∨ isBareChar c = true) (s : List Char) :
    skipFiller (c :: s) = c :: s := by
  unfold skipFiller
  split
  case h_6 => rfl
  all_goals
    next heq =>
    cases heq
    exact absurd h (by decide)

/-- Lines of which each ends with a line feed are read one after the other. -/
theorem exists_statements {lines : List (List Char)} {notes : List Note}
    (h : List.Forall₂ LineText lines notes) :
    ∃ sts, statements (lines.flatMap fun ts => ts ++ ['\n']) = some sts ∧
      sts.map Statement.note = notes := by
  induction h with
  | nil =>
      exact ⟨[], statements_eq_some_iff.mpr (Or.inl ⟨rfl, rfl⟩), rfl⟩
  | @cons ts note lines notes hts _ ih =>
      rcases ih with ⟨sts, hrest, hnotes⟩
      rcases hts.exists_reads (lines.flatMap fun ts => ts ++ ['\n']) with ⟨st, hread, hst⟩
      refine ⟨st :: sts, ?_, by rw [List.map_cons, hst, hnotes]⟩
      rw [List.flatMap_cons, List.append_assoc, List.singleton_append]
      have hskip : ∀ rest, skipFiller (ts ++ rest) = ts ++ rest := by
        rcases hts.exists_cons with ⟨c, s, rfl, hc⟩
        exact fun _ => skipFiller_cons hc _
      rw [← hskip] at hread
      exact statements_eq_some_iff.mpr
        (Or.inr ⟨st, _, sts, hread, statements_newline hrest, rfl⟩)

theorem dropMark_lines {lines : List (List Char)} {notes : List Note}
    (h : List.Forall₂ LineText lines notes) :
    dropMark (lines.flatMap fun ts => ts ++ ['\n']) = lines.flatMap fun ts => ts ++ ['\n'] := by
  cases h with
  | nil =>
      rfl
  | cons hts _ =>
      rcases hts.exists_cons with ⟨c, s, rfl, hc⟩
      rw [List.flatMap_cons, List.cons_append, List.cons_append]
      unfold dropMark
      split
      · next heq =>
        cases heq
        exact absurd hc (by decide)
      · rfl

def fileOf (lines : List String) : String :=
  String.join (lines.map fun l => l ++ "\n")

theorem exists_read {lines : List String} {notes : List Note}
    (h : List.Forall₂ (fun l note => LineText l.toList note) lines notes) :
    ∃ sts, sts.map Statement.note = notes ∧ read (fileOf lines) = assemble sts := by
  have htext : (fileOf lines).toList =
      (lines.map String.toList).flatMap fun ts => ts ++ ['\n'] := by
    rw [fileOf, String.toList_join, List.flatMap_map, List.flatMap_map]
    exact List.flatMap_congr fun l _ => String.toList_append
  have hlines : List.Forall₂ LineText (lines.map String.toList) notes :=
    List.forall₂_map_left_iff.mpr h
  rcases exists_statements hlines with ⟨sts, hsts, hnotes⟩
  refine ⟨sts, hnotes, ?_⟩
  rw [read, htext, dropMark_lines hlines, hsts, Option.bind_some]

end Toml
end GossipGames
