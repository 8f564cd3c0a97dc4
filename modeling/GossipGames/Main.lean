import GossipGames.CommandLine.Outcome

/-!
# The command

The configuration file, if one is named, is read before the outcome is worked out.
-/

namespace GossipGames
namespace CommandLine

def fileError : IO.Error → Settings.FileError
  | .noFileOrDirectory _ _ _ => .notFound
  | .permissionDenied _ _ _ => .denied
  | .invalidArgument _ code details => if code = 36 then .nameTooLong else .other details
  | .inappropriateType _ code details =>
      if code = 20 then .notDirectory
      else if code = 21 then .isDirectory
      else .other details
  | e => .other e.toString

def readFile (path : String) : IO (Except Settings.FileError ByteArray) := do
  match ← (IO.FS.readBinFile path).toBaseIO with
  | .ok bytes => return .ok bytes
  | .error e => return .error (fileError e)

def filesFor (arguments : List String) : IO Files := do
  match Request.ofArguments arguments with
  | .ok (.run ⟨_, _, some path, _, _⟩) =>
      let contents ← readFile path
      return fun _ => contents
  | _ => return fun _ => .error .notFound

end CommandLine
end GossipGames

def main (arguments : List String) : IO UInt32 := do
  let files ← GossipGames.CommandLine.filesFor arguments
  let outcome := GossipGames.CommandLine.outcome files arguments
  IO.eprint outcome.stderr
  IO.print outcome.stdout
  return UInt32.ofNat outcome.exitCode
