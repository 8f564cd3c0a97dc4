import GossipGames.Report.Basic

/-!
# Diagnostics

A diagnostic says what is wrong at a span of a text and what could have stood there instead.
-/

namespace GossipGames

structure Diagnostic where
  span : Span
  message : String
  expected : List String
deriving DecidableEq

namespace Diagnostic

def display (d : Diagnostic) : String :=
  "Parse error at " ++ d.span.text ++ ": " ++ d.message

def note (d : Diagnostic) : String :=
  if d.expected.isEmpty then d.message
  else d.message ++ "\nExpected: " ++ ", ".intercalate d.expected

def report (d : Diagnostic) (name source : String) : Report where
  message := d.message
  note := d.note
  name := name
  source := source
  span := d.span

end Diagnostic
end GossipGames
