import GossipGames.Settings.Decode
import GossipGames.Toml.Reader

/-!
# Loading settings from a file
-/

namespace GossipGames
namespace Settings

inductive FileError where
  | notFound
  | denied
  | notDirectory
  | isDirectory
  | nameTooLong
  | notText
  | other (description : String)
deriving DecidableEq

def FileError.message : FileError → String
  | notFound => "No such file or directory (os error 2)"
  | denied => "Permission denied (os error 13)"
  | notDirectory => "Not a directory (os error 20)"
  | isDirectory => "Is a directory (os error 21)"
  | nameTooLong => "File name too long (os error 36)"
  | notText => "stream did not contain valid UTF-8"
  | other description => description

inductive LoadError where
  | unreadable (cause : FileError)
  /-- The file is no configuration at all.  Where it goes wrong and why is left out here, so the
  message stops before the line, the column and the cause. -/
  | malformed
  | refused (file : String) (fault : Fault)

def LoadError.message : LoadError → String
  | unreadable cause => "Failed to read config file: " ++ cause.message
  | malformed => "Failed to parse config TOML: TOML parse error\n"
  | refused file fault => "Failed to parse config TOML: " ++ fault.message file

def ofText (file : String) : Except LoadError Settings :=
  match Toml.read file with
  | none => .error .malformed
  | some t => (ofTable t).mapError (LoadError.refused file)

def ofBytes (bytes : ByteArray) : Except LoadError Settings :=
  match String.fromUTF8? bytes with
  | none => .error (.unreadable .notText)
  | some file => ofText file

def ofFile (contents : Except FileError ByteArray) : Except LoadError Settings :=
  match contents with
  | .error cause => .error (.unreadable cause)
  | .ok bytes => ofBytes bytes

end Settings
end GossipGames
