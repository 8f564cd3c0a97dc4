import GossipGames.Proofs.Toml.Keys

/-!
# The data of a configuration

The data of a value is what it says, apart from where it stands and how its tables came to be.  An
array and the tables of one name are both lists.
-/

namespace GossipGames
namespace Toml

inductive Datum where
  | text (value : String)
  | boolean (value : Bool)
  | integer (value : Int)
  | float (value : Binary64)
  | moment
  | list (items : List Datum)
  | table (entries : List (String × Datum))

mutual

def Value.datum : Value → Datum
  | .text _ s => .text s
  | .boolean _ b => .boolean b
  | .integer _ n => .integer n
  | .float _ x => .float x
  | .moment _ => .moment
  | .array _ vs => .list (datumEach vs)
  | .table ⟨_, _, es⟩ => .table (datumEntries es)
  | .tables ts => .list (datumTables ts)

def datumEach : List Value → List Datum
  | [] => []
  | v :: vs => v.datum :: datumEach vs

def datumEntries : List (Key × Value) → List (String × Datum)
  | [] => []
  | (k, v) :: es => (k.name, v.datum) :: datumEntries es

def datumTables : List (Table Value) → List Datum
  | [] => []
  | ⟨_, _, es⟩ :: ts => .table (datumEntries es) :: datumTables ts

end

def Table.data (t : Table Value) : List (String × Datum) :=
  t.entries.map fun e => (e.1.name, e.2.datum)

theorem datumEach_eq_map (vs : List Value) : datumEach vs = vs.map Value.datum := by
  induction vs with
  | nil =>
      rfl
  | cons v vs ih =>
      rw [datumEach, ih, List.map_cons]

theorem datumEntries_eq_map (es : List (Key × Value)) :
    datumEntries es = es.map fun e => (e.1.name, e.2.datum) := by
  induction es with
  | nil =>
      rfl
  | cons e es ih =>
      rw [datumEntries, ih, List.map_cons]

theorem datumTables_eq_map (ts : List (Table Value)) :
    datumTables ts = ts.map fun t => Datum.table t.data := by
  induction ts with
  | nil =>
      rfl
  | cons t ts ih =>
      rw [datumTables, ih, datumEntries_eq_map, List.map_cons, Table.data]

@[simp]
theorem datum_array (e : Extent) (vs : List Value) :
    (Value.array e vs).datum = .list (vs.map Value.datum) := by
  rw [Value.datum, datumEach_eq_map]

@[simp]
theorem datum_table (t : Table Value) : (Value.table t).datum = .table t.data := by
  rw [Value.datum, datumEntries_eq_map, Table.data]

@[simp]
theorem datum_tables (ts : List (Table Value)) :
    (Value.tables ts).datum = .list (ts.map fun t => .table t.data) := by
  rw [Value.datum, datumTables_eq_map]

theorem nodup_names_data {t : Table Value} (h : t.Distinct) : (t.data.map Prod.fst).Nodup := by
  have hnames : t.data.map Prod.fst = t.keyNames := by
    rw [Table.data, List.map_map]
    rfl
  rw [hnames]
  exact h.names

end Toml
end GossipGames
