/-!
# Document values

A document is a value of null, truth values, integers, texts, lists and objects.  The members of an
object keep their order, and a name may occur more than once.
-/

namespace GossipGames

inductive Json where
  | null
  | bool (value : Bool)
  | integer (value : Int)
  | text (value : String)
  | list (items : List Json)
  | object (members : List (String × Json))
deriving Inhabited

namespace Json

def texts (values : List String) : Json :=
  list (values.map text)

end Json
end GossipGames
