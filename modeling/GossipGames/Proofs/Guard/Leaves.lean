import GossipGames.Proofs.Guard.Parsing
import Mathlib.Data.List.Basic

/-!
# The leaves of what is read

The grammar neither drops a name nor takes one twice, and it keeps their order: the leaves of a
guard that is read are the names among the tokens of its text.
-/

namespace GossipGames
namespace Guard

def Token.name? : Token → Option String
  | name text => some text
  | _ => none

def Lexeme.name? : Lexeme → Option String
  | token t => t.name?
  | unknown _ => none

theorem filterMap_intercalate {α β : Type} {f : α → Option β} {sep : List α}
    (hsep : sep.filterMap f = []) (parts : List (List α)) :
    (sep.intercalate parts).filterMap f = parts.flatMap (List.filterMap f) := by
  induction parts with
  | nil =>
      rfl
  | cons first parts ih =>
      cases parts with
      | nil =>
          simp
      | cons second parts =>
          rw [List.intercalate_cons_cons, List.filterMap_append, List.filterMap_append, hsep, ih,
            List.append_nil]
          rfl

theorem leaves_of_parts {c : Connective} {parts : List (List Token × Guard)}
    (h : ∀ q ∈ parts, q.2.leaves = q.1.filterMap Token.name?) :
    (parts.map Prod.snd).flatMap leaves =
      ([Token.connective c].intercalate (parts.map Prod.fst)).filterMap Token.name? := by
  rw [filterMap_intercalate rfl, List.flatMap_map, List.flatMap_map]
  exact List.flatMap_congr h

theorem leaves_of_derives {ph : Phrase} {ts : List Token} {g : Guard} (h : Derives ph ts g) :
    g.leaves = ts.filterMap Token.name? := by
  induction h with
  | iffOne _ ih | impliesOne _ ih | xorOne _ ih | orOne _ ih | andOne _ ih | unaryAtom _ ih =>
      exact ih
  | iffMore _ _ ihg ihh | impliesMore _ _ ihg ihh | xorMore _ _ ihg ihh =>
      rw [leaves, ihg, ihh, List.filterMap_append]
      rfl
  | orMany _ _ ih | andMany _ _ ih =>
      rw [leaves, leavesOf_eq_flatMap]
      exact leaves_of_parts ih
  | unaryNot _ ih =>
      exact ih
  | atomConst value =>
      rfl
  | atomName name =>
      rfl
  | atomParen _ ih =>
      rw [ih, List.filterMap_cons_none rfl, List.filterMap_append]
      exact (List.append_nil _).symm

theorem leaves_of_parse {text : String} {g : Guard} (h : parse text = .ok g) :
    g.leaves = ((lex text).map Piece.lexeme).filterMap Lexeme.name? := by
  rcases parse_eq_ok_iff.mp h with ⟨ts, hlexemes, hderives⟩
  rw [hlexemes, List.filterMap_map, leaves_of_derives hderives]
  rfl

end Guard
end GossipGames
