import GossipGames.Json.Layout
import GossipGames.Lint.Check

/-!
# Settings

The settings say how an instance is written and whether it is checked.
-/

namespace GossipGames

structure Settings where
  output : Json.Output := {}
  lint : Lint.Options := {}
deriving DecidableEq, Inhabited

end GossipGames
