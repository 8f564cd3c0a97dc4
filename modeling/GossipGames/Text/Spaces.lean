/-!
# Spaces
-/

namespace GossipGames

def spaces (n : Nat) : String :=
  String.ofList (List.replicate n ' ')

end GossipGames
