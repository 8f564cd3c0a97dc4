/-!
# Ranges of code points

A class of characters is given by closed ranges of code points.  The ranges ascend and lie apart, so
that a search ends at the first one beyond the code point.
-/

namespace GossipGames

def inRanges (n : Nat) : List (Nat × Nat) → Bool
  | [] => false
  | (low, high) :: rest =>
      if n < low then false
      else if n ≤ high then true
      else inRanges n rest

end GossipGames
