import GossipGames.Gossip.AgentCount
import GossipGames.Instance.Basic

/-!
# Gossip games

Every agent owns one proposition and a module of two states.  In the first state the agent stays
idle or signals.  In the second its proposition holds; it waits there while nobody else signals and
goes back once somebody does.  The agents together want all propositions to hold from some point on.
-/

namespace GossipGames
namespace Gossip

def proposition (i : Nat) : String :=
  "g" ++ toString i

def moduleName (i : Nat) : String :=
  "A" ++ toString i

def actions : List String :=
  ["a", "g", "w"]

def idleState : String :=
  "s1"

def signalState : String :=
  "s2"

def nobodyElse (n : AgentCount) (i : Nat) : String :=
  " & ".intercalate ((n.others i).map fun j => "!" ++ proposition j)

def somebodyElse (n : AgentCount) (i : Nat) : String :=
  " | ".intercalate ((n.others i).map proposition)

def idle : State where
  labels := []
  transitions := [⟨"a", "true", idleState⟩, ⟨"g", "true", signalState⟩]

def signal (n : AgentCount) (i : Nat) : State where
  labels := [proposition i]
  transitions := [⟨"w", nobodyElse n i, signalState⟩, ⟨"g", somebodyElse n i, idleState⟩]

def agent (n : AgentCount) (i : Nat) : Module where
  goal := "G F " ++ proposition i
  payoff := "?"
  actions := actions
  labels := [proposition i]
  initial := idleState
  states := [(idleState, idle), (signalState, signal n i)]

def build (n : AgentCount) : Instance where
  name := "gossip" ++ n.text
  propositions := n.indices.map proposition
  kind := "module"
  goal := "F G (" ++ " & ".intercalate (n.indices.map proposition) ++ ")"
  modules := n.indices.map fun i => (moduleName i, agent n i)

end Gossip
end GossipGames
