import GossipGames.Guard.Parser
import GossipGames.Report.Diagnostic

/-!
# Rejections in words
-/

namespace GossipGames
namespace Guard

def Expectation.wording : Expectation → String
  | token t => t.wording
  | proposition => "proposition"
  | ending => "end of guard"

namespace Rejection

def diagnostic : Rejection → Diagnostic
  | unknown c span =>
      ⟨span, "Unexpected character '" ++ String.singleton c ++ "'", []⟩
  | unexpected t span expected =>
      ⟨span, "Unexpected " ++ t.wording, expected.map Expectation.wording⟩
  | unfinished span expected =>
      ⟨span, "Unexpected end of guard", expected.map Expectation.wording⟩

end Rejection
end Guard
end GossipGames
