import GossipGames.CommandLine.Help
import GossipGames.CommandLine.Request
import GossipGames.Gossip.Generate
import GossipGames.Settings.Load

/-!
# Outcomes of the command

A run writes the document and reports what the check found.  When findings are denied and there are
some, nothing is written.
-/

namespace GossipGames
namespace CommandLine

structure Outcome where
  exitCode : Nat
  stdout : String
  stderr : String
deriving DecidableEq

namespace Outcome

def success (stdout : String) : Outcome :=
  ⟨0, stdout, ""⟩

def failure (stderr : String) : Outcome :=
  ⟨1, "", stderr⟩

end Outcome

abbrev Files :=
  String → Except Settings.FileError ByteArray

namespace Run

def configured (files : Files) (r : Run) : Except String Settings :=
  match r.config with
  | none => .ok {}
  | some path =>
      (Settings.ofFile (files path)).mapError fun e =>
        "Error loading config '" ++ path ++ "': " ++ e.message ++ "\n"

/-- The settings of a run, with those of its options in place of the configured ones. -/
def settings (r : Run) (s : Settings) : Settings where
  output := { s.output with style := r.style.getD s.output.style }
  lint :=
    { s.lint with
      enabled := s.lint.enabled || r.lint || r.strict
      denyWarnings := s.lint.denyWarnings || r.strict }

def warnings (findings : List Lint.Finding) : String :=
  String.join (findings.map fun f =>
    f.display ++ "\n" ++ ((f.report?.bind Report.render).getD ""))

def refusal (n : AgentCount) (findings : List Lint.Finding) : String :=
  "Error: refusing to write gossip" ++ n.text ++ " with " ++ toString findings.length ++
    " lint warning(s)\n"

def write (s : Settings) (n : AgentCount) : Outcome :=
  let findings := Gossip.findings s n
  if s.lint.denyWarnings && !findings.isEmpty then
    Outcome.failure (warnings findings ++ refusal n findings)
  else ⟨0, Gossip.document s n, warnings findings⟩

def outcome (files : Files) (r : Run) : Outcome :=
  match AgentCount.read r.count with
  | .error e => Outcome.failure ("Error: " ++ e.message ++ "\n")
  | .ok n =>
      match r.configured files with
      | .error message => Outcome.failure message
      | .ok s => write (r.settings s) n

end Run

def UsageError.text (e : UsageError) : String :=
  "error: " ++ e.message ++ "\n\n" ++ usage ++ "\nFor more information, try '--help'.\n"

def outcome (files : Files) (arguments : List String) : Outcome :=
  match Request.ofArguments arguments with
  | .error e => ⟨2, "", e.text⟩
  | .ok Request.summary => Outcome.success summaryText
  | .ok Request.help => Outcome.success helpText
  | .ok Request.version => Outcome.success versionText
  | .ok (Request.run r) => r.outcome files

end CommandLine
end GossipGames
