import GossipGames.Text.Quoted
import GossipGames.Toml.Excerpt

/-!
# Faults of a configuration

A fault is a complaint about the contents of a well-formed configuration file and the stretch of the
file that it is about.
-/

namespace GossipGames
namespace Settings

open Toml

inductive Complaint where
  | unknownField (name : String) (known : List String)
  | unknownVariant (name : String) (known : List String)
  | wrongType (found : Value) (expected : String)
  | negative (value : Int) (expected : String)
  | noVariant (found : Value)
  | noEntry
  | severalEntries
  | notEmpty (kind : String)
  | notTable (found : Value)

namespace Complaint

def ticked (name : String) : String :=
  "`" ++ name ++ "`"

def choices : List String → String
  | [] => "nothing"
  | [a] => ticked a
  | [a, b] => ticked a ++ " or " ++ ticked b
  | names => "one of " ++ ", ".intercalate (names.map ticked)

def description : Value → String
  | Value.text _ s => "string " ++ Quoted.text s
  | Value.boolean _ b => "boolean " ++ ticked (if b then "true" else "false")
  | Value.integer _ n => "integer " ++ ticked (toString n)
  | Value.float _ x => "floating point " ++ ticked x.text
  | Value.moment _ => "map"
  | Value.array _ _ => "sequence"
  | Value.table _ => "map"
  | Value.tables _ => "sequence"

def typeName : Value → String
  | Value.text _ _ => "string"
  | Value.boolean _ _ => "boolean"
  | Value.integer _ _ => "integer"
  | Value.float _ _ => "float"
  | Value.moment _ => "datetime"
  | Value.array _ _ => "array"
  | Value.table _ => "table"
  | Value.tables _ => "array of tables"

def message : Complaint → String
  | unknownField name known => "unknown field " ++ ticked name ++ ", expected " ++ choices known
  | unknownVariant name known =>
      "unknown variant " ++ ticked name ++ ", expected " ++ choices known
  | wrongType found expected =>
      "invalid type: " ++ description found ++ ", expected " ++ expected
  | negative value expected =>
      "invalid value: integer " ++ ticked (toString value) ++ ", expected " ++ expected
  | noVariant _ => "wanted string or table"
  | noEntry => "wanted exactly 1 element, found 0 elements"
  | severalEntries => "wanted exactly 1 element, more than 1 element"
  | notEmpty kind => "expected empty " ++ kind
  | notTable found => "expected table, found " ++ typeName found

end Complaint

structure Fault where
  complaint : Complaint
  extent : Option Extent

namespace Fault

/-- A fault without a place of its own is put where what contains it stands. -/
def within (extent : Option Extent) (f : Fault) : Fault :=
  { f with extent := f.extent.or extent }

def message (file : String) (f : Fault) : String :=
  (match f.extent with
    | some e => Excerpt.pointer file e
    | none => "") ++ f.complaint.message ++ "\n"

end Fault
end Settings
end GossipGames
