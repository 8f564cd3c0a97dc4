import GossipGames.Attempt
import GossipGames.Guard.Basic
import GossipGames.Guard.Lexer

/-!
# From tokens to guards

Each connective binds more loosely than the one after it in `Connective.looseToTight`.  A formula of
one level is a chain of formulas of the next level; below the last level stand negations, constants,
names and parenthesised guards.  A text is refused at its first unknown character; without one it is
refused where its tokens were read the furthest, at a token or at its end.
-/

namespace GossipGames
namespace Guard

namespace Connective

/-- Conjunctions and disjunctions are flat.  Implication groups to the right, the other two to the
left.  A chain of one operand is that operand. -/
def join : Connective → Guard → List Guard → Guard
  | iff, g, gs => gs.foldl Guard.iff g
  | implies, g, [] => g
  | implies, g, h :: gs => Guard.implies g (join implies h gs)
  | xor, g, gs => gs.foldl Guard.xor g
  | or, g, [] => g
  | or, g, h :: gs => Guard.or (g :: h :: gs)
  | and, g, [] => g
  | and, g, h :: gs => Guard.and (g :: h :: gs)

end Connective

/-!
# The grammar

What begins an operand other than a negation is expected under one name.  The bound of `upTo` is the
number of parentheses that may be open at once, so a bound that counts all opening parentheses of
the tokens leaves nothing out.
-/

inductive Expectation where
  | token (t : Token)
  | proposition
  | ending
deriving DecidableEq

def sign (t : Token) : Attempt Token Expectation Unit :=
  Attempt.symbol t (Expectation.token t)

def constant (value : Bool) : Attempt Token Expectation Guard :=
  (sign (Token.const value)).map fun _ => Guard.const value

def named : Attempt Token Expectation Guard :=
  Attempt.take (fun t => match t with
    | Token.name text => some (Guard.var text)
    | _ => none) []

def parenthesised (inner : Attempt Token Expectation Guard) : Attempt Token Expectation Guard :=
  ((sign Token.openParen).precededBy inner).followedBy (sign Token.closeParen)

def atom (inner : Attempt Token Expectation Guard) : Attempt Token Expectation Guard :=
  Attempt.labelled Expectation.proposition <|
    (constant true).orElse <| (constant false).orElse <| named.orElse <| parenthesised inner

def operand (inner : Attempt Token Expectation Guard) : Attempt Token Expectation Guard :=
  Attempt.prefixed (sign Token.negation) Guard.not (atom inner)

def level (operand : Attempt Token Expectation Guard) :
    List Connective → Attempt Token Expectation Guard
  | [] => operand
  | c :: tighter =>
      Attempt.map (fun q => c.join q.1 q.2)
        (Attempt.chain (sign (Token.connective c)) (level operand tighter))

def upTo : Nat → Attempt Token Expectation Guard
  | 0 => level (operand fun s => .refused ⟨s.left, []⟩) Connective.looseToTight
  | depth + 1 => level (operand (upTo depth)) Connective.looseToTight

def ofTokens (ts : List Token) : Except (Failure Expectation) Guard :=
  Attempt.run Expectation.ending (upTo (ts.count Token.openParen)) ts

inductive Rejection where
  | unknown (c : Char) (span : Span)
  | unexpected (t : Token) (span : Span) (expected : List Expectation)
  | unfinished (span : Span) (expected : List Expectation)
deriving DecidableEq

def tokens : List Piece → Except Rejection (List (Token × Span))
  | [] => .ok []
  | ⟨.unknown c, span⟩ :: _ => .error (.unknown c span)
  | ⟨.token t, span⟩ :: ps => (tokens ps).map ((t, span) :: ·)

/-- The rejection for a failure among the tokens of a text of `size` bytes.  The end of a text is
said to reach back to where the last token ends. -/
def refusal (size : Nat) (ts : List (Token × Span)) (f : Failure Expectation) : Rejection :=
  match ts.drop (ts.length - f.left) with
  | [] => .unfinished ⟨size, (ts.getLast?.map fun q => q.2.stop).getD size⟩ f.expected
  | (t, span) :: _ => .unexpected t span f.expected

def parse (text : String) : Except Rejection Guard :=
  match tokens (lex text) with
  | .error r => .error r
  | .ok ts => (ofTokens (ts.map Prod.fst)).mapError (refusal text.utf8ByteSize ts)

end Guard
end GossipGames
