/-!
# Inks

A report is written for a terminal; an ink is a colour together with the text that switches it on
and off.
-/

namespace GossipGames

inductive Ink where
  | plain
  | alarm
  | margin
  | faintMargin
  | source
deriving DecidableEq

namespace Ink

def parameters : Ink → Option String
  | plain => none
  | alarm => some "31"
  | margin => some "38;5;246"
  | faintMargin => some "38;5;240"
  | source => some "38;5;249"

def paint (ink : Ink) (text : String) : String :=
  match ink.parameters with
  | none => text
  | some p => "\x1b[" ++ p ++ "m" ++ text ++ "\x1b[0m"

end Ink
end GossipGames
