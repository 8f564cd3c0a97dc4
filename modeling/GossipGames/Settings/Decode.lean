import GossipGames.Settings.Basic
import GossipGames.Settings.Fault

/-!
# Settings from a configuration

The configuration has two sections of named fields.  A section may be written as a table, or as a
list of the values of its first fields in their order.  A field that is not given keeps its value.
-/

namespace GossipGames
namespace Settings

open Toml

def boolean : Value → Except Fault Bool
  | Value.boolean _ b => .ok b
  | v => .error ⟨.wrongType v "a boolean", v.extent?⟩

def natural : Value → Except Fault Nat
  | Value.integer e n =>
      if 0 ≤ n then .ok n.toNat else .error ⟨.negative n "usize", some e⟩
  | v => .error ⟨.wrongType v "usize", v.extent?⟩

def styleOfName (name : String) (extent : Option Extent) : Except Fault Json.Style :=
  match Json.Style.ofName? name with
  | some s => .ok s
  | none => .error ⟨.unknownVariant name (Json.Style.all.map Json.Style.name), extent⟩

def refuseUnless (condition : Bool) (complaint : Complaint) (v : Value) : Except Fault Unit :=
  if condition then .ok () else .error ⟨complaint, v.extent?⟩

def nothing (v : Value) : Except Fault Unit :=
  match v with
  | Value.table t => refuseUnless t.entries.isEmpty (.notEmpty "table") v
  | Value.array _ vs => refuseUnless vs.isEmpty (.notEmpty "table") v
  | Value.tables ts => refuseUnless ts.isEmpty (.notEmpty "array") v
  | v => .error ⟨.notTable v, v.extent?⟩

/-- A style is its name, or a table whose only key is its name and holds nothing. -/
def style : Value → Except Fault Json.Style
  | Value.text e name => styleOfName name (some e)
  | Value.table t =>
      match t.entries with
      | [] => .error ⟨.noEntry, t.extent⟩
      | [(k, v)] =>
          match styleOfName k.name (some k.extent) with
          | .error f => .error f
          | .ok s => (nothing v).map fun _ => s
      | _ => .error ⟨.severalEntries, t.extent⟩
  | v => .error ⟨.noVariant v, v.extent?⟩

structure Field (σ : Type) where
  name : String
  set : Value → σ → Except Fault σ

def Field.of (name : String) (decode : Value → Except Fault α) (put : α → σ → σ) : Field σ :=
  ⟨name, fun v s => (decode v).map fun a => put a s⟩

/-- Sets a field to a value.  A fault without a place of its own is put where the value stands. -/
def Field.assign (f : Field σ) (v : Value) (s : σ) : Except Fault σ :=
  (f.set v s).mapError (Fault.within v.extent?)

/-- Sets the field that an entry of a table names.  Where the value has no place, its key has. -/
def setNamed (fields : List (Field σ)) (s : σ) (entry : Key × Value) : Except Fault σ :=
  match fields.find? fun f => f.name == entry.1.name with
  | some f =>
      (f.assign entry.2 s).mapError (Fault.within (some entry.1.extent))
  | none =>
      .error ⟨.unknownField entry.1.name (fields.map Field.name), some entry.1.extent⟩

/-- Sets the first fields to the values of a list; what is left of the list is ignored. -/
def setInOrder (fields : List (Field σ)) (values : List Value) (s : σ) : Except Fault σ :=
  (fields.zip values).foldlM (fun s p => p.1.assign p.2 s) s

/-- The key under which a date or time is looked at as if it were a table. -/
def momentKey : String :=
  "$__toml_private_datetime"

def record (expected : String) (fields : List (Field σ)) (s : σ) (v : Value) : Except Fault σ :=
  match v with
  | Value.table t => t.entries.foldlM (setNamed fields) s
  | Value.array _ vs => setInOrder fields vs s
  | Value.tables ts => setInOrder fields (ts.map Value.table) s
  | Value.moment e => .error ⟨.unknownField momentKey (fields.map Field.name), some e⟩
  | v => .error ⟨.wrongType v expected, v.extent?⟩

def outputFields : List (Field Json.Output) :=
  [Field.of "style" style fun a s => { s with style := a },
   Field.of "trailing_newline" boolean fun a s => { s with trailingNewline := a }]

def lintFields : List (Field Lint.Options) :=
  [Field.of "enabled" boolean fun a s => { s with enabled := a },
   Field.of "deny_warnings" boolean fun a s => { s with denyWarnings := a },
   Field.of "max_enumerated_propositions" natural fun a s => { s with maxEnumerated := a }]

def sections : List (Field Settings) :=
  [Field.of "output" (record "struct TomlOutput" outputFields {}) fun a s =>
     { s with output := a },
   Field.of "lint" (record "struct LintConfig" lintFields {}) fun a s => { s with lint := a }]

def ofTable (t : Table Value) : Except Fault Settings :=
  t.entries.foldlM (setNamed sections) {}

end Settings
end GossipGames
