import GossipGames.Text.Spaces
import GossipGames.Toml.Value

/-!
# Pointing into a configuration file

A complaint about a stretch of a file shows the line on which it starts, with a row of signs below:
one for each byte of the stretch, at least one, and none beyond the end of the line.
-/

namespace GossipGames
namespace Toml
namespace Excerpt

def sinceNewline (s : List Char) : List Char :=
  (s.reverse.takeWhile (· != '\n')).reverse

def byteSize (s : List Char) : Nat :=
  (String.ofList s).utf8ByteSize

def pointer (file : String) (e : Extent) : String :=
  let s := file.toList
  let before := s.take (s.length - e.before)
  let covered := (s.drop (s.length - e.before)).take (e.before - e.after)
  let number := toString (before.count '\n' + 1)
  let column := (sinceNewline before).length
  let line := sinceNewline before ++
    (s.drop (s.length - e.before)).takeWhile (· != '\n')
  let signs := max 1 (min (byteSize covered) (byteSize line - column))
  let gutter := spaces (number.length + 1) ++ "|"
  "TOML parse error at line " ++ number ++ ", column " ++ toString (column + 1) ++ "\n" ++
    gutter ++ "\n" ++
    number ++ " | " ++ String.ofList line ++ "\n" ++
    gutter ++ spaces (column + 1) ++ String.ofList (List.replicate signs '^') ++ "\n"

end Excerpt
end Toml
end GossipGames
