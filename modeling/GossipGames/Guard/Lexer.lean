import GossipGames.Guard.Token
import GossipGames.Text.Span

/-!
# From text to tokens

The text is cut from left to right.  Blanks are dropped; at any other place the longest token that
starts there is taken, and a character at which no token starts is kept as unknown.
-/

namespace GossipGames
namespace Guard

inductive Lexeme where
  | token (t : Token)
  | unknown (c : Char)
deriving DecidableEq

def Lexeme.size : Lexeme → Nat
  | token t => t.spelling.utf8ByteSize
  | unknown c => c.utf8Size

/-- A lexeme and the bytes of the text that it covers. -/
structure Piece where
  lexeme : Lexeme
  span : Span
deriving DecidableEq

namespace Lexer

def isSkipped (c : Char) : Bool :=
  c == ' ' || c == '\t' || c == '\n' || c == '\r'

def isNameStart (c : Char) : Bool :=
  c.isAlpha || c == '_'

def isNameChar (c : Char) : Bool :=
  c.isAlphanum || c == '_'

/-!
# One lexeme

A word is a constant only as a whole: `truest` is a name.
-/

def word (cs : List Char) : Token :=
  if cs = ['t', 'r', 'u', 'e'] then Token.const true
  else if cs = ['f', 'a', 'l', 's', 'e'] then Token.const false
  else Token.name (String.ofList cs)

/-- The lexeme that starts with `c` when `s` follows, and what is left of `s` after it. -/
def cut (c : Char) (s : List Char) : Lexeme × List Char :=
  match c, s with
  | '!', s => (Lexeme.token Token.negation, s)
  | '&', s => (Lexeme.token (Token.connective Connective.and), s)
  | '|', s => (Lexeme.token (Token.connective Connective.or), s)
  | '^', s => (Lexeme.token (Token.connective Connective.xor), s)
  | '-', '>' :: s => (Lexeme.token (Token.connective Connective.implies), s)
  | '<', '-' :: '>' :: s => (Lexeme.token (Token.connective Connective.iff), s)
  | '(', s => (Lexeme.token Token.openParen, s)
  | ')', s => (Lexeme.token Token.closeParen, s)
  | c, s =>
      if isNameStart c then
        (Lexeme.token (word (c :: s.takeWhile isNameChar)), s.dropWhile isNameChar)
      else
        (Lexeme.unknown c, s)

theorem length_cut_le (c : Char) (s : List Char) :
    (cut c s).2.length ≤ s.length := by
  unfold cut
  split
  all_goals try exact Nat.le_refl _
  · simp
  · simp
    omega
  · split
    · exact (List.dropWhile_sublist _).length_le
    · exact Nat.le_refl _

/-!
# The whole text

`pieces offset s` cuts a text `s` that stands `offset` bytes after the start of the whole.
-/

def pieces (offset : Nat) : List Char → List Piece
  | [] => []
  | c :: s =>
      if isSkipped c then pieces (offset + 1) s
      else
        ⟨(cut c s).1, ⟨offset, offset + (cut c s).1.size⟩⟩ ::
          pieces (offset + (cut c s).1.size) (cut c s).2
termination_by s => s.length
decreasing_by
  · exact Nat.lt_succ_self _
  · exact Nat.lt_succ_of_le (length_cut_le c s)

end Lexer

def lex (text : String) : List Piece :=
  Lexer.pieces 0 text.toList

end Guard
end GossipGames
