import GossipGames.Gossip.Basic
import GossipGames.Instance.Document
import GossipGames.Settings.Basic

/-!
# Writing gossip games

The document of a game depends on how it is to be written, never on how it is checked.
-/

namespace GossipGames
namespace Gossip

def document (settings : Settings) (n : AgentCount) : String :=
  (build n).document settings.output

def findings (settings : Settings) (n : AgentCount) : List Lint.Finding :=
  if settings.lint.enabled then Lint.check settings.lint (build n) else []

end Gossip
end GossipGames
