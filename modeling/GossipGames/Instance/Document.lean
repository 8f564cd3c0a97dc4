import GossipGames.Instance.Basic
import GossipGames.Json.Layout

/-!
# Instances as documents

The members of each object stand in a fixed order; modules and states are members under their names,
in list order.
-/

namespace GossipGames

def Transition.toJson (t : Transition) : Json :=
  Json.object [("action", Json.text t.action), ("guard", Json.text t.guard),
    ("to", Json.text t.target)]

def State.toJson (s : State) : Json :=
  Json.object [("labels", Json.texts s.labels),
    ("transitions", Json.list (s.transitions.map Transition.toJson))]

def Module.toJson (m : Module) : Json :=
  Json.object [("goal", Json.text m.goal), ("payoff", Json.text m.payoff),
    ("actions", Json.texts m.actions), ("labels", Json.texts m.labels),
    ("initial", Json.text m.initial),
    ("states", Json.object (m.states.map fun e => (e.1, e.2.toJson)))]

namespace Instance

def toJson (g : Instance) : Json :=
  Json.object [("name", Json.text g.name), ("ap", Json.texts g.propositions),
    ("type", Json.text g.kind), ("goal", Json.text g.goal),
    ("modules", Json.object (g.modules.map fun e => (e.1, e.2.toJson)))]

def document (o : Json.Output) (g : Instance) : String :=
  g.toJson.document o

end Instance
end GossipGames
