/-!
# Spans

A span marks a stretch of a text by the offsets of its two ends.
-/

namespace GossipGames

structure Span where
  start : Nat
  stop : Nat
deriving DecidableEq, Inhabited

namespace Span

def text (s : Span) : String :=
  toString s.start ++ ".." ++ toString s.stop

end Span
end GossipGames
