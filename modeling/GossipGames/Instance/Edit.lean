import GossipGames.Instance.Basic

/-!
# Edits of an instance

An edit of a named entry changes the first entry of that name and fails when there is none.
-/

namespace GossipGames

def editFirst (name : String) (f : α → Option α) :
    List (String × α) → Option (List (String × α))
  | [] => none
  | (key, value) :: entries =>
      if key = name then (f value).map fun v => (key, v) :: entries
      else (editFirst name f entries).map ((key, value) :: ·)

def removeAll (name : String) (entries : List (String × α)) : List (String × α) :=
  entries.filter fun e => e.1 != name

namespace State

def addTransition (t : Transition) (s : State) : State :=
  { s with transitions := s.transitions ++ [t] }

def setTransition (index : Nat) (t : Transition) (s : State) : Option State :=
  if index < s.transitions.length then
    some { s with transitions := s.transitions.set index t }
  else none

def dropTransition (index : Nat) (s : State) : Option State :=
  if index < s.transitions.length then
    some { s with transitions := s.transitions.eraseIdx index }
  else none

end State

namespace Module

def addState (name : String) (s : State) (m : Module) : Module :=
  { m with states := m.states ++ [(name, s)] }

def removeState (name : String) (m : Module) : Module :=
  { m with states := removeAll name m.states }

def editState (name : String) (f : State → Option State) (m : Module) : Option Module :=
  (editFirst name f m.states).map fun states => { m with states := states }

end Module

namespace Instance

def addModule (name : String) (m : Module) (g : Instance) : Instance :=
  { g with modules := g.modules ++ [(name, m)] }

def removeModule (name : String) (g : Instance) : Instance :=
  { g with modules := removeAll name g.modules }

def reverseModules (g : Instance) : Instance :=
  { g with modules := g.modules.reverse }

def editModule (name : String) (f : Module → Option Module) (g : Instance) : Option Instance :=
  (editFirst name f g.modules).map fun modules => { g with modules := modules }

end Instance
end GossipGames
