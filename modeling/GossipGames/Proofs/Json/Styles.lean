import GossipGames.Proofs.Json.Escapes
import GossipGames.Proofs.Text.Digits
import GossipGames.Text.Blank

/-!
# The styles compared

The texts of a value in two styles are made of the same pieces in the same order.  They differ in
what stands after commas and colons and at the ends of lines, and this is seen by a scan that knows
which characters belong to string literals.
-/

namespace GossipGames
namespace Json

/-!
# Pieces

The pieces that all styles share are single characters and string literals.
-/

def isSymbol (c : Char) : Bool :=
  c.isAlphanum || c == '-' || c == '[' || c == ']' || c == '\x7b' || c == '\x7d'

/-- A relation between texts that holds of the pieces of two styles and of the texts put together
from related ones. -/
structure Pieces (R : List Char → List Char → Prop) (s t : Style) : Prop where
  nil : R [] []
  append : ∀ {u u' w w'}, R u w → R u' w' → R (u ++ u') (w ++ w')
  symbol : ∀ c, isSymbol c = true → R [c] [c]
  quote : ∀ text, R (quote text) (quote text)
  comma : R s.comma t.comma
  colon : R s.colon t.colon
  lineStart : ∀ depth, R (s.lineStart depth) (t.lineStart depth)

theorem isSymbol_of_mem_integer {n : Int} : ∀ c ∈ (toString n).toList, isSymbol c = true := by
  have hdigits : ∀ m : Nat, ∀ c ∈ m.repr.toList, isSymbol c = true := by
    intro m c hc
    simp [isSymbol, Char.isAlphanum, isDigit_of_mem_repr hc]
  cases n with
  | ofNat m =>
      exact hdigits m
  | negSucc m =>
      intro c hc
      rw [toList_toString_negSucc, List.mem_cons] at hc
      rcases hc with rfl | hc
      · rfl
      · exact hdigits (m + 1) c hc

namespace Pieces

variable {R : List Char → List Char → Prop} {s t : Style}

theorem symbols (h : Pieces R s t) {u : List Char} (hu : ∀ c ∈ u, isSymbol c = true) : R u u := by
  induction u with
  | nil =>
      exact h.nil
  | cons c u ih =>
      have hrest := ih fun d hd => hu d (List.mem_cons_of_mem c hd)
      exact h.append (h.symbol c (hu c List.mem_cons_self)) hrest

mutual

theorem layout (h : Pieces R s t) (depth : Nat) :
    (v : Json) → R (layout s depth v) (layout t depth v)
  | null => by
      rw [Json.layout, Json.layout]
      exact h.symbols (List.all_eq_true.mp rfl)
  | bool true => by
      rw [Json.layout, Json.layout]
      exact h.symbols (List.all_eq_true.mp rfl)
  | bool false => by
      rw [Json.layout, Json.layout]
      exact h.symbols (List.all_eq_true.mp rfl)
  | integer n => by
      rw [Json.layout, Json.layout]
      exact h.symbols isSymbol_of_mem_integer
  | text x => by
      rw [Json.layout, Json.layout]
      exact h.quote x
  | list [] => by
      rw [Json.layout, Json.layout]
      exact h.symbols (List.all_eq_true.mp rfl)
  | list (v :: vs) => by
      rw [Json.layout, Json.layout]
      exact h.append (h.symbol '[' rfl) <|
        h.append (h.append (h.append (h.append (h.lineStart (depth + 1)) (h.layout (depth + 1) v))
          (h.layoutItems (depth + 1) vs)) (h.lineStart depth)) (h.symbol ']' rfl)
  | object [] => by
      rw [Json.layout, Json.layout]
      exact h.symbols (List.all_eq_true.mp rfl)
  | object ((k, v) :: ms) => by
      rw [Json.layout, Json.layout]
      exact h.append (h.symbol '\x7b' rfl) <|
        h.append (h.append (h.append (h.append (h.append (h.append (h.lineStart (depth + 1))
          (h.quote k)) h.colon) (h.layout (depth + 1) v)) (h.layoutMembers (depth + 1) ms))
          (h.lineStart depth)) (h.symbol '\x7d' rfl)

theorem layoutItems (h : Pieces R s t) (depth : Nat) :
    (vs : List Json) → R (layoutItems s depth vs) (layoutItems t depth vs)
  | [] => by
      rw [Json.layoutItems, Json.layoutItems]
      exact h.nil
  | v :: vs => by
      rw [Json.layoutItems, Json.layoutItems]
      exact h.append (h.append (h.append h.comma (h.lineStart depth)) (h.layout depth v))
        (h.layoutItems depth vs)

theorem layoutMembers (h : Pieces R s t) (depth : Nat) :
    (ms : List (String × Json)) → R (layoutMembers s depth ms) (layoutMembers t depth ms)
  | [] => by
      rw [Json.layoutMembers, Json.layoutMembers]
      exact h.nil
  | (k, v) :: ms => by
      rw [Json.layoutMembers, Json.layoutMembers]
      exact h.append (h.append (h.append (h.append (h.append h.comma (h.lineStart depth))
        (h.quote k)) h.colon) (h.layout depth v)) (h.layoutMembers depth ms)

end

end Pieces

theorem toNat_of_isSymbol {c : Char} (h : isSymbol c = true) :
    0x21 ≤ c.toNat ∧ c.toNat ≤ 0x7D := by
  have hclasses : ((((((decide (65 ≤ c.val ∧ c.val ≤ 90) ||
      (decide (97 ≤ c.val) && decide (c.val ≤ 122))) || (decide (48 ≤ c.val) &&
      decide (c.val ≤ 57))) || c == '-') || c == '[') || c == ']') || c == '\x7b' ||
      c == '\x7d') = true := h
  simp only [Bool.or_eq_true, Bool.and_eq_true, decide_eq_true_eq, beq_iff_eq,
    UInt32.le_iff_toNat_le] at hclasses
  have hcode : c.toNat = c.val.toNat := rfl
  rcases hclasses with ((((((hupper | hlower) | hdigit) | rfl) | rfl) | rfl) | rfl) | rfl
  · have hbounds : 65 ≤ c.val.toNat ∧ c.val.toNat ≤ 90 := hupper
    omega
  · have hbounds : 97 ≤ c.val.toNat ∧ c.val.toNat ≤ 122 := hlower
    omega
  · have hbounds : 48 ≤ c.val.toNat ∧ c.val.toNat ≤ 57 := hdigit
    omega
  · decide
  · decide
  · decide
  · decide
  · decide

theorem isBlank_of_isSymbol {c : Char} (h : isSymbol c = true) : isBlank c = false := by
  have hrange := toNat_of_isSymbol h
  rw [← Bool.not_eq_true]
  intro hblank
  simp only [isBlank, Bool.or_eq_true, decide_eq_true_eq, beq_iff_eq] at hblank
  omega

/-!
# Scanning a text

A quotation mark starts a string literal, and the next one that no backslash escapes ends it.
-/

/-- Where a character stands: outside the string literals, in one of them, or in one of them right
after a backslash that escapes it. -/
inductive Place where
  | outside
  | inside
  | escaped
deriving DecidableEq

def Place.next : Place → Char → Place
  | outside, c => if c = '"' then inside else outside
  | inside, c => if c = '"' then outside else if c = '\\' then escaped else inside
  | escaped, _ => inside

/-- A text with each character replaced, in one way outside the string literals and in another way
in them.  The quotation marks belong to the literals. -/
def scan (other literal : Char → List Char) : Place → List Char → List Char
  | _, [] => []
  | p, c :: s =>
      (if p = Place.outside ∧ c ≠ '"' then other c else literal c) ++
        scan other literal (p.next c) s

def outsideLiterals (s : List Char) : List Char :=
  scan (fun c => [c]) (fun _ => []) Place.outside s

def replaceOutside (f : Char → List Char) (s : List Char) : List Char :=
  scan f (fun c => [c]) Place.outside s

/-- What the scan makes of a text in front of others, from outside to outside. -/
def Scans (other literal : Char → List Char) (u w : List Char) : Prop :=
  ∀ s, scan other literal Place.outside (u ++ s) = w ++ scan other literal Place.outside s

variable {other literal : Char → List Char}

theorem scan_of_scans {u w : List Char} (h : Scans other literal u w) :
    scan other literal Place.outside u = w := by
  simpa [scan] using h []

theorem scans_append {u u' w w' : List Char} (h : Scans other literal u w)
    (h' : Scans other literal u' w') : Scans other literal (u ++ u') (w ++ w') := by
  intro s
  rw [List.append_assoc, h (u' ++ s), h' s, List.append_assoc]

theorem scans_of_no_quote {u : List Char} (h : '"' ∉ u) :
    Scans other literal u (u.flatMap other) := by
  intro s
  induction u with
  | nil =>
      rfl
  | cons c u ih =>
      have hc : c ≠ '"' := fun heq => h (heq ▸ List.mem_cons_self)
      have hrest := ih fun hmem => h (List.mem_cons_of_mem c hmem)
      simp [scan, Place.next, hc, hrest]

theorem scan_escape (c : Char) (s : List Char) :
    scan other literal Place.inside (escape c ++ s) =
      (escape c).flatMap literal ++ scan other literal Place.inside s := by
  rcases escape_cases c with ⟨l, _, _, hescape⟩ | ⟨hcontrol, hescape⟩ | ⟨hquote, hback, _, hescape⟩
  · simp [hescape, scan, Place.next]
  · have hhigh := hexDigit_plain (n := c.toNat / 16) (by omega)
    have hlow := hexDigit_plain (n := c.toNat % 16) (by omega)
    simp [hescape, scan, Place.next, hhigh.1, hhigh.2.1, hlow.1, hlow.2.1]
  · simp [hescape, scan, Place.next, hquote, hback]

theorem scan_escapes (text : List Char) (s : List Char) :
    scan other literal Place.inside (text.flatMap escape ++ s) =
      (text.flatMap escape).flatMap literal ++ scan other literal Place.inside s := by
  induction text with
  | nil =>
      rfl
  | cons c text ih =>
      rw [List.flatMap_cons, List.append_assoc, scan_escape, ih, List.flatMap_append,
        List.append_assoc]

theorem scans_quote (text : String) :
    Scans other literal (quote text) ((quote text).flatMap literal) := by
  intro s
  simp [quote, scan, Place.next, scan_escapes]

/-!
# Replacing blanks
-/

theorem ne_of_isSymbol {c d : Char} (h : isSymbol c = true) (hd : isSymbol d = false) : c ≠ d := by
  intro heq
  rw [heq, hd] at h
  cases h

theorem quote_not_mem_symbol {c : Char} (h : isSymbol c = true) : '"' ∉ [c] := by
  rw [List.mem_singleton]
  exact (ne_of_isSymbol h rfl).symm

theorem quote_not_mem_comma (s : Style) : '"' ∉ s.comma := by
  cases s <;> decide

theorem quote_not_mem_colon (s : Style) : '"' ∉ s.colon := by
  cases s <;> decide

theorem quote_not_mem_lineStart (s : Style) (depth : Nat) : '"' ∉ s.lineStart depth := by
  cases s <;> simp [Style.lineStart]

theorem pieces_scans {f : Char → List Char} {s t : Style}
    (hsymbol : ∀ c, isSymbol c = true → f c = [c]) (hcomma : s.comma.flatMap f = t.comma)
    (hcolon : s.colon.flatMap f = t.colon)
    (hlineStart : ∀ depth, (s.lineStart depth).flatMap f = t.lineStart depth) :
    Pieces (Scans f fun c => [c]) s t where
  nil := fun _ => rfl
  append := scans_append
  symbol := by
    intro c hc
    have hscans : Scans f (fun c => [c]) [c] ([c].flatMap f) :=
      scans_of_no_quote (quote_not_mem_symbol hc)
    simpa [hsymbol c hc] using hscans
  quote := by
    intro text
    have hscans : Scans f (fun c => [c]) (Json.quote text)
        ((Json.quote text).flatMap fun c => [c]) := scans_quote text
    simpa using hscans
  comma := hcomma ▸ scans_of_no_quote (quote_not_mem_comma s)
  colon := hcolon ▸ scans_of_no_quote (quote_not_mem_colon s)
  lineStart := fun depth => hlineStart depth ▸ scans_of_no_quote (quote_not_mem_lineStart s depth)

def spaced (c : Char) : List Char :=
  if c = ',' ∨ c = ':' then [c, ' '] else [c]

def unblanked (c : Char) : List Char :=
  if c = ' ' ∨ c = '\n' then [] else [c]

theorem pieces_spaced : Pieces (Scans spaced fun c => [c]) Style.minified Style.compact := by
  refine pieces_scans ?_ rfl rfl fun _ => rfl
  intro c hc
  have hcomma : c ≠ ',' := ne_of_isSymbol hc rfl
  have hcolon : c ≠ ':' := ne_of_isSymbol hc rfl
  simp [spaced, hcomma, hcolon]

theorem pieces_unblanked : Pieces (Scans unblanked fun c => [c]) Style.pretty Style.minified := by
  refine pieces_scans ?_ rfl rfl ?_
  · intro c hc
    have hspace : c ≠ ' ' := ne_of_isSymbol hc rfl
    have hline : c ≠ '\n' := ne_of_isSymbol hc rfl
    simp [unblanked, hspace, hline]
  · intro depth
    simp [Style.lineStart, unblanked]

theorem pieces_without_blanks :
    Pieces (fun u _ => ∃ w, Scans (fun c => [c]) (fun _ => []) u w ∧ ∀ c ∈ w, isBlank c = false)
      Style.minified Style.minified where
  nil := ⟨[], fun _ => rfl, by simp⟩
  append := by
    intro u u' w w' h h'
    rcases h with ⟨x, hx, hplain⟩
    rcases h' with ⟨x', hx', hplain'⟩
    refine ⟨x ++ x', scans_append hx hx', ?_⟩
    intro c hc
    rcases List.mem_append.mp hc with hc | hc
    · exact hplain c hc
    · exact hplain' c hc
  symbol := by
    intro c hc
    exact ⟨_, scans_of_no_quote (quote_not_mem_symbol hc), by simpa using isBlank_of_isSymbol hc⟩
  quote := fun text => ⟨_, scans_quote text, by simp⟩
  comma := ⟨_, scans_of_no_quote (quote_not_mem_comma _), by simp [Style.comma, isBlank]⟩
  colon := ⟨_, scans_of_no_quote (quote_not_mem_colon _), by simp [Style.colon, isBlank]⟩
  lineStart := fun depth => ⟨_, scans_of_no_quote (quote_not_mem_lineStart _ depth), by
    simp [Style.lineStart]⟩

theorem pieces_without_controls {s : Style} (h : ∀ depth, s.lineStart depth = []) :
    Pieces (fun u _ => ∀ c ∈ u, 0x20 ≤ c.toNat) s s where
  nil := by simp
  append := by
    intro u u' _ _ hu hu' c hc
    rcases List.mem_append.mp hc with hc | hc
    · exact hu c hc
    · exact hu' c hc
  symbol := by
    intro c hc d hd
    rw [List.mem_singleton.mp hd]
    exact Nat.le_of_succ_le (toNat_of_isSymbol hc).1
  quote := by
    intro text c hc
    have hmark : 0x20 ≤ '"'.toNat := by decide
    simp only [Json.quote, List.mem_cons, List.mem_append, List.mem_flatMap, List.not_mem_nil,
      or_false] at hc
    rcases hc with rfl | ⟨d, _, hd⟩ | rfl
    · exact hmark
    · exact toNat_of_mem_escape hd
    · exact hmark
  comma := by
    cases s <;> simp [Style.comma]
  colon := by
    cases s <;> simp [Style.colon]
  lineStart := by
    intro depth
    simp [h depth]

theorem toList_document (s : Style) (v : Json) :
    (document ⟨s, false⟩ v).toList = layout s 0 v := by
  simp [document]

/-- The three styles differ in blanks outside the string literals only.  A line feed may follow the
document. -/
theorem styles_differ_in_blanks (v : Json) :
    (∀ c ∈ outsideLiterals (document ⟨Style.minified, false⟩ v).toList, isBlank c = false) ∧
    (document ⟨Style.compact, false⟩ v).toList =
      replaceOutside spaced (document ⟨Style.minified, false⟩ v).toList ∧
    replaceOutside unblanked (document ⟨Style.pretty, false⟩ v).toList =
      (document ⟨Style.minified, false⟩ v).toList ∧
    (∀ s, s = Style.compact ∨ s = Style.minified →
      ∀ c ∈ (document ⟨s, false⟩ v).toList, 0x20 ≤ c.toNat) ∧
    ∀ s, document ⟨s, true⟩ v = document ⟨s, false⟩ v ++ "\n" := by
  simp only [toList_document]
  refine ⟨?_, ?_, ?_, ?_, ?_⟩
  · rcases pieces_without_blanks.layout 0 v with ⟨w, hscans, hplain⟩
    rw [outsideLiterals, scan_of_scans hscans]
    exact hplain
  · exact (scan_of_scans (pieces_spaced.layout 0 v)).symm
  · exact scan_of_scans (pieces_unblanked.layout 0 v)
  · intro s hs
    have hlines : ∀ depth, s.lineStart depth = [] := by
      rcases hs with rfl | rfl
      · exact fun _ => rfl
      · exact fun _ => rfl
    exact (pieces_without_controls hlines).layout 0 v
  · intro s
    simp [document, String.ofList_append]

def punctuated : Json :=
  object [("a, b", list [text ": \"", text "\\\n"]), ("", object [])]

theorem styles_of_punctuated :
    document ⟨Style.minified, false⟩ punctuated =
        "\x7b\"a, b\":[\": \\\"\",\"\\\\\\n\"],\"\":\x7b\x7d\x7d" ∧
      String.ofList (replaceOutside spaced (document ⟨Style.minified, false⟩ punctuated).toList) =
        "\x7b\"a, b\": [\": \\\"\", \"\\\\\\n\"], \"\": \x7b\x7d\x7d" ∧
      (',' ∈ outsideLiterals (document ⟨Style.minified, false⟩ punctuated).toList ∧
        isBlank ',' = false) ∧
      ('\\' ∈ (document ⟨Style.compact, false⟩ punctuated).toList ∧ 0x20 ≤ '\\'.toNat) := by
  rcases styles_differ_in_blanks punctuated with ⟨hblanks, hcompact, _, hcontrols, _⟩
  have hcomma : ',' ∈ outsideLiterals (document ⟨Style.minified, false⟩ punctuated).toList := by
    decide
  have hbackslash : '\\' ∈ (document ⟨Style.compact, false⟩ punctuated).toList := by
    decide
  refine ⟨rfl, ?_, ⟨hcomma, hblanks ',' hcomma⟩, ⟨hbackslash, ?_⟩⟩
  · rw [← hcompact]
    rfl
  · exact hcontrols Style.compact (Or.inl rfl) '\\' hbackslash

end Json
end GossipGames
