import GossipGames.Decimal.Binary64

/-!
# Values of a configuration file

A value remembers where it stands.  Places are given by how much of the file is left there, so that
a value can be read without knowing what stands before it.
-/

namespace GossipGames
namespace Toml

/-- A stretch of a file: the numbers of characters that are left where it starts and where it
ends. -/
structure Extent where
  before : Nat
  after : Nat
deriving DecidableEq

def Extent.through (first last : Extent) : Extent :=
  ⟨first.before, last.after⟩

structure Key where
  name : String
  extent : Extent
deriving DecidableEq

/-- How a table came to be: written in braces, named by a header, implied by the header of a table
inside it, or made by a dotted key. -/
inductive Origin where
  | braces
  | header
  | implied
  | dotted
deriving DecidableEq

/-- Named entries in order.  A table that no text of its own stands for has no extent. -/
structure Table (α : Type) where
  extent : Option Extent
  origin : Origin
  entries : List (Key × α)

inductive Value where
  | text (extent : Extent) (value : String)
  | boolean (extent : Extent) (value : Bool)
  | integer (extent : Extent) (value : Int)
  | float (extent : Extent) (value : Binary64)
  | moment (extent : Extent)
  | array (extent : Extent) (items : List Value)
  | table (t : Table Value)
  | tables (ts : List (Table Value))

namespace Value

def extentOfTables (ts : List (Table Value)) : Option Extent :=
  match ts.head?.bind Table.extent, ts.getLast?.bind Table.extent with
  | some first, some last => some (first.through last)
  | _, _ => none

def extent? : Value → Option Extent
  | text e _ => some e
  | boolean e _ => some e
  | integer e _ => some e
  | float e _ => some e
  | moment e => some e
  | array e _ => some e
  | table t => t.extent
  | tables ts => extentOfTables ts

end Value
end Toml
end GossipGames
