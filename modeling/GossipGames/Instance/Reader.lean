import GossipGames.Instance.Basic
import GossipGames.Json.Reader

/-!
# Instances from documents

A document is read as an instance when each of its objects has exactly the members that are written,
in their order.  The modules and the states may be any members, also several of one name.
-/

namespace GossipGames
namespace Json

def text? : Json → Option String
  | text t => some t
  | _ => none

def items? (read : Json → Option α) : Json → Option (List α)
  | list vs => vs.mapM read
  | _ => none

def entries? (read : Json → Option α) : Json → Option (List (String × α))
  | object ms => ms.mapM fun m => (read m.2).map fun a => (m.1, a)
  | _ => none

def field (name : String) (read : Json → Option α) : Scanner (String × Json) α :=
  Scanner.take fun m => if m.1 = name then read m.2 else none

def record? (fields : Scanner (String × Json) α) : Json → Option α
  | object ms =>
      match fields ms with
      | some (a, ⟨[], _⟩) => some a
      | _ => none
  | _ => none

end Json

open Json Scanner

def Transition.ofJson? : Json → Option Transition :=
  record? <|
    andThen (field "action" text?) fun action =>
      andThen (field "guard" text?) fun guard =>
        Scanner.map (fun target => ⟨action, guard, target⟩) (field "to" text?)

def State.ofJson? : Json → Option State :=
  record? <|
    andThen (field "labels" (items? text?)) fun labels =>
      Scanner.map (fun transitions => ⟨labels, transitions⟩)
        (field "transitions" (items? Transition.ofJson?))

def Module.ofJson? : Json → Option Module :=
  record? <|
    andThen (field "goal" text?) fun goal =>
      andThen (field "payoff" text?) fun payoff =>
        andThen (field "actions" (items? text?)) fun actions =>
          andThen (field "labels" (items? text?)) fun labels =>
            andThen (field "initial" text?) fun initial =>
              Scanner.map (fun states => ⟨goal, payoff, actions, labels, initial, states⟩)
                (field "states" (entries? State.ofJson?))

namespace Instance

def ofJson? : Json → Option Instance :=
  record? <|
    andThen (field "name" text?) fun name =>
      andThen (field "ap" (items? text?)) fun propositions =>
        andThen (field "type" text?) fun kind =>
          andThen (field "goal" text?) fun goal =>
            Scanner.map (fun modules => ⟨name, propositions, kind, goal, modules⟩)
              (field "modules" (entries? Module.ofJson?))

def read? (document : String) : Option Instance :=
  (Json.read? document).bind ofJson?

end Instance
end GossipGames
