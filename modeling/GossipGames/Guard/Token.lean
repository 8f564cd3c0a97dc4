/-!
# Tokens of guard formulas

A guard is written with names, two constants, a negation sign, five binary connectives and
parentheses.  Every token has exactly one spelling.
-/

namespace GossipGames
namespace Guard

/-- The binary connectives, from the one that binds most loosely to the one that binds most
tightly. -/
inductive Connective where
  | iff
  | implies
  | xor
  | or
  | and
deriving DecidableEq

namespace Connective

def looseToTight : List Connective :=
  [iff, implies, xor, or, and]

def spelling : Connective → String
  | iff => "<->"
  | implies => "->"
  | xor => "^"
  | or => "|"
  | and => "&"

end Connective

inductive Token where
  | const (value : Bool)
  | name (text : String)
  | negation
  | connective (c : Connective)
  | openParen
  | closeParen
deriving DecidableEq

namespace Token

def spelling : Token → String
  | const true => "true"
  | const false => "false"
  | name text => text
  | negation => "!"
  | connective c => c.spelling
  | openParen => "("
  | closeParen => ")"

def wording : Token → String
  | name text => "proposition '" ++ text ++ "'"
  | t => "'" ++ t.spelling ++ "'"

end Token
end Guard
end GossipGames
