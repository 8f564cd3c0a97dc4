import GossipGames.Proofs.Json.Escapes
import GossipGames.Proofs.Json.Grammar
import GossipGames.Proofs.Text.Digits
import Mathlib.Data.List.Basic

/-!
# What is written

Every layout of a value is a text of the grammar that has this value.
-/

namespace GossipGames
namespace Json

open Scanner (Row)

theorem blank_nil : Blank [] := by
  intro c hc
  cases hc

theorem blank_append {u w : List Char} (hu : Blank u) (hw : Blank w) : Blank (u ++ w) := by
  intro c hc
  rcases List.mem_append.mp hc with hc | hc
  · exact hu c hc
  · exact hw c hc

theorem blank_lineStart (s : Style) (depth : Nat) : Blank (s.lineStart depth) := by
  cases s with
  | compact | minified =>
      exact blank_nil
  | pretty =>
      intro c hc
      rcases List.mem_cons.mp hc with rfl | hc
      · rfl
      · rw [List.eq_of_mem_replicate hc]
        rfl

theorem exists_comma (s : Style) : ∃ w, Blank w ∧ s.comma = ',' :: w := by
  cases s with
  | compact =>
      exact ⟨[' '], by simp [Blank, isSpace], rfl⟩
  | pretty | minified =>
      exact ⟨[], blank_nil, rfl⟩

theorem exists_colon (s : Style) : ∃ w, Blank w ∧ s.colon = ':' :: w := by
  cases s with
  | compact | pretty =>
      exact ⟨[' '], by simp [Blank, isSpace], rfl⟩
  | minified =>
      exact ⟨[], blank_nil, rfl⟩

theorem character_escape (c : Char) : Character (escape c) c := by
  rcases escape_cases c with
    ⟨l, _, hl, hescape⟩ | ⟨hcontrol, hescape⟩ | ⟨hquote, hback, hc, hescape⟩
  · rw [hescape]
    exact Character.letter hl
  · rw [hescape]
    exact Character.number (hexNumber?_of_lt hcontrol) (character?_toNat c)
  · rw [hescape]
    exact Character.plain hquote hback hc

theorem characters_escape (cs : List Char) : Characters (cs.flatMap escape ++ ['"']) cs := by
  induction cs with
  | nil =>
      exact Characters.nil
  | cons c cs ih =>
      rw [List.flatMap_cons, List.append_assoc]
      exact Characters.cons (character_escape c) ih

theorem literal_quote (t : String) : Literal (quote t) t := by
  have hmarks := Literal.marks (characters_escape t.toList)
  rwa [String.ofList_toList] at hmarks

theorem natural_repr (n : Nat) : Natural n.repr.toList n := by
  rcases exists_digits n with ⟨c, w, hdigits, hall, hzero, hvalue⟩
  rw [hdigits]
  exact hvalue ▸ Natural.digits hall hzero

theorem number_toString (n : Int) : Number (toString n).toList n := by
  cases n with
  | ofNat m =>
      exact Number.plain (natural_repr m)
  | negSucc m =>
      rw [toList_toString_negSucc]
      exact Number.negative (natural_repr (m + 1))

/-!
# Values

The rest of a list or an object is written after its first part `u`.  Blanks may follow the first
part, and the blanks `after` stand before the closing bracket.
-/

theorem denotes_element {before u : List Char} {v : Json} (hbefore : Blank before)
    (hu : Denotes Phrase.value u v) :
    ∀ w, Blank w → Denotes Phrase.element (before ++ u ++ w) v := by
  intro w hw
  rw [List.append_assoc]
  exact Denotes.element (Surrounded.blanks hbefore hu hw)

theorem denotes_member {before u : List Char} {v : Json} (s : Style) (k : String)
    (hbefore : Blank before) (hu : Denotes Phrase.value u v) :
    ∀ w, Blank w → Member (before ++ quote k ++ s.colon ++ u ++ w) (k, v) := by
  intro w hw
  obtain ⟨x, hx, hcolon⟩ := exists_colon s
  have hname := Surrounded.blanks hbefore (literal_quote k) blank_nil
  have hmember := Denotes.member hname (Denotes.element (Surrounded.blanks hx hu hw))
  simpa [Member, hcolon] using hmember

mutual

theorem denotes_layout (s : Style) (depth : Nat) :
    (v : Json) → Denotes Phrase.value (layout s depth v) v
  | null => by
      rw [layout]
      exact Denotes.word Word.null
  | bool true => by
      rw [layout]
      exact Denotes.word Word.true
  | bool false => by
      rw [layout]
      exact Denotes.word Word.false
  | integer n => by
      rw [layout]
      exact Denotes.integer (number_toString n)
  | text t => by
      rw [layout]
      exact Denotes.text (literal_quote t)
  | list [] => by
      rw [layout]
      exact Denotes.list (Parts.none blank_nil)
  | list (v :: vs) => by
      have hrow := row_layoutItems s (depth + 1)
        (denotes_element (blank_lineStart s (depth + 1)) (denotes_layout s (depth + 1) v))
        (blank_lineStart s depth) vs
      simpa [layout] using Denotes.list (Parts.some hrow)
  | object [] => by
      rw [layout]
      exact Denotes.object (Parts.none blank_nil)
  | object ((k, v) :: ms) => by
      have hrow := row_layoutMembers s (depth + 1)
        (denotes_member s k (blank_lineStart s (depth + 1)) (denotes_layout s (depth + 1) v))
        (blank_lineStart s depth) ms
      simpa [layout] using Denotes.object (Parts.some hrow)

theorem row_layoutItems {u after : List Char} {v : Json} (s : Style) (depth : Nat)
    (hfirst : ∀ w, Blank w → Denotes Phrase.element (u ++ w) v) (hafter : Blank after) :
    (vs : List Json) →
      Row ',' (Denotes Phrase.element) (u ++ (layoutItems s depth vs ++ after)) (v, vs)
  | [] => by
      rw [layoutItems]
      exact Row.one (hfirst after hafter)
  | v' :: vs => by
      obtain ⟨x, hx, hcomma⟩ := exists_comma s
      have hrest := row_layoutItems s depth
        (denotes_element (blank_append hx (blank_lineStart s depth)) (denotes_layout s depth v'))
        hafter vs
      simpa [layoutItems, hcomma] using Row.more (hfirst [] blank_nil) hrest

theorem row_layoutMembers {u after : List Char} {m : String × Json} (s : Style) (depth : Nat)
    (hfirst : ∀ w, Blank w → Member (u ++ w) m) (hafter : Blank after) :
    (ms : List (String × Json)) →
      Row ',' Member (u ++ (layoutMembers s depth ms ++ after)) (m, ms)
  | [] => by
      rw [layoutMembers]
      exact Row.one (hfirst after hafter)
  | (k, v) :: ms => by
      obtain ⟨x, hx, hcomma⟩ := exists_comma s
      have hrest := row_layoutMembers s depth
        (denotes_member s k (blank_append hx (blank_lineStart s depth)) (denotes_layout s depth v))
        hafter ms
      simpa [layoutMembers, hcomma] using Row.more (hfirst [] blank_nil) hrest

end

theorem denotes_document (o : Output) (v : Json) :
    Denotes Phrase.element (document o v).toList v := by
  have hend : Blank (if o.trailingNewline then ['\n'] else []) := by
    cases o.trailingNewline with
    | false =>
        exact blank_nil
    | true =>
        simp [Blank, isSpace]
  rw [document, String.toList_ofList]
  exact Denotes.element (Surrounded.blanks blank_nil (denotes_layout o.style 0 v) hend)

end Json
end GossipGames
