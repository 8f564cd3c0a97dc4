/-!
# Game instances

An instance describes a game between modules.  A module is an automaton with named states; each
state lists the transitions that leave it, and a transition has a guard that is kept as text.

Modules and states stand in lists of named entries.  A name may occur more than once, and a look-up
finds its first entry.
-/

namespace GossipGames

structure Transition where
  action : String
  guard : String
  target : String
deriving DecidableEq, Inhabited

structure State where
  labels : List String
  transitions : List Transition
deriving DecidableEq, Inhabited

structure Module where
  goal : String
  payoff : String
  actions : List String
  labels : List String
  initial : String
  states : List (String × State)
deriving DecidableEq, Inhabited

structure Instance where
  name : String
  propositions : List String
  kind : String
  goal : String
  modules : List (String × Module)
deriving DecidableEq, Inhabited

namespace State

def transitionsFor (s : State) (action : String) : List Transition :=
  s.transitions.filter fun t => t.action == action

end State

namespace Module

def state? (m : Module) (name : String) : Option State :=
  m.states.lookup name

def hasState (m : Module) (name : String) : Bool :=
  (m.state? name).isSome

def hasAction (m : Module) (action : String) : Bool :=
  m.actions.contains action

end Module

namespace Instance

def module? (g : Instance) (name : String) : Option Module :=
  g.modules.lookup name

end Instance
end GossipGames
