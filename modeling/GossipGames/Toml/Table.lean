import GossipGames.Toml.Value

/-!
# Building tables

A header or a dotted key leads through tables to the place of an entry and makes the tables that are
missing on its way.  A table that was written in braces is closed, a table is defined by one header
at most, and dotted keys lead only through tables that no header names.
-/

namespace GossipGames
namespace Toml
namespace Table

def empty (extent : Option Extent) (origin : Origin) : Table α :=
  ⟨extent, origin, []⟩

def get? (t : Table α) (name : String) : Option α :=
  (t.entries.find? fun e => e.1.name == name).map Prod.snd

def append (k : Key) (v : α) (t : Table α) : Table α :=
  { t with entries := t.entries ++ [(k, v)] }

def replace (name : String) (v : α) (t : Table α) : Table α :=
  { t with entries := t.entries.map fun e => if e.1.name = name then (e.1, v) else e }

def remove (name : String) (t : Table α) : Table α :=
  { t with entries := t.entries.filter fun e => e.1.name != name }

/-!
# Following a path

The function is applied to the table at the end of the path.  The path leads into the last of the
tables of one name.
-/

def alter (dotted : Bool) (f : Table Value → Option (Table Value)) :
    List Key → Table Value → Option (Table Value)
  | [], t => f t
  | k :: path, t =>
      match t.get? k.name with
      | none =>
          let made := empty none (if dotted then Origin.dotted else Origin.implied)
          (alter dotted f path made).map fun u => t.append k (Value.table u)
      | some (Value.table u) =>
          if u.origin = Origin.braces ∨ (dotted = true ∧ u.origin = Origin.header) then none
          else (alter dotted f path u).map fun u => t.replace k.name (Value.table u)
      | some (Value.tables us) =>
          match us.getLast? with
          | none => none
          | some u =>
              (alter dotted f path u).map fun u =>
                t.replace k.name (Value.tables (us.dropLast ++ [u]))
      | some _ => none

/-- Adds a value under a key that may be dotted.  A dotted key adds to a table of dotted keys
only. -/
def assign (path : List Key) (k : Key) (v : Value) (t : Table Value) : Option (Table Value) :=
  t.alter true (fun u =>
    if (path = [] ∨ u.origin = Origin.dotted) ∧ (u.get? k.name).isNone then some (u.append k v)
    else none) path

def ofPairs? (extent : Extent) (pairs : List ((List Key × Key) × Value)) : Option (Table Value) :=
  pairs.foldlM (fun t p => t.assign p.1.1 p.1.2 p.2) (empty (some extent) Origin.braces)

/-- Opens the table that a header names.  A table that was only implied is moved to the end. -/
def openTable (extent : Extent) (path : List Key) (k : Key) (t : Table Value) :
    Option (Table Value) :=
  t.alter false (fun u =>
    match u.get? k.name with
    | none => some (u.append k (Value.table (empty (some extent) Origin.header)))
    | some (Value.table w) =>
        if w.origin = Origin.implied then
          some ((u.remove k.name).append k
            (Value.table { w with extent := some extent, origin := Origin.header }))
        else none
    | some _ => none) path

def openItem (extent : Extent) (path : List Key) (k : Key) (t : Table Value) :
    Option (Table Value) :=
  let item := empty (some extent) Origin.header
  t.alter false (fun u =>
    match u.get? k.name with
    | none => some (u.append k (Value.tables [item]))
    | some (Value.tables ws) => some (u.replace k.name (Value.tables (ws ++ [item])))
    | some _ => none) path

def extendTo (v : Value) (t : Table α) : Table α :=
  match t.extent, v.extent? with
  | some first, some last => { t with extent := some (first.through last) }
  | _, _ => t

end Table
end Toml
end GossipGames
