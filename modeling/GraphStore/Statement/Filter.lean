import GraphStore.Predicate.Compile
import GraphStore.Statement.Basic

/-!
# Filters

The conditions that statements are built from: equality of a column with a value, the key of a
record, and the absence of the mark of deletion.
-/

set_option autoImplicit false

namespace GraphStore

/-- An assignment under the next free parameter name. -/
def assign (column : ColumnDef) (v : Value) (context : Context) : Assignment × Context :=
  let (name, context) := context.paramName column.name
  (⟨column.name, ⟨name, v⟩⟩, context)

/-- `table.column = parameter`. -/
def equalTest (table : String) (column : ColumnDef) (v : Value) (context : Context) :
    Fragment × Context :=
  let (param, context) := bindParam column.name v context
  (.ofColumn ⟨none, table, column.name⟩ ++ .ofText " = " ++ param, context)

/-- The row of `table` is not marked as deleted: the mark is null or false. There is no such
condition on tables without a mark. -/
def notDeleted (map : EntityMap) (table : String) (context : Context) :
    Option Fragment × Context :=
  match map.softDeleteColumn? with
  | none => (none, context)
  | some column =>
      let token : ColumnToken := ⟨none, table, column.name⟩
      let (param, context) := bindParam column.name (.boolean (some false)) context
      (some (.ofText "(" ++ .ofColumn token ++ .ofText " IS NULL OR " ++ .ofColumn token ++
        .ofText " = " ++ param ++ .ofText ")"), context)

namespace EntityMap

/-- One equality for every column, with the value of the record. -/
def keyTests (map : EntityMap) (record : Record) :
    List ColumnDef → Context → Except Error (List Fragment × Context)
  | [], context => .ok ([], context)
  | column :: rest, context => do
      let v ← map.read record column.property
      let (test, context) := equalTest map.table.name column v context
      let (tests, context) ← keyTests map record rest context
      return (test :: tests, context)

/-- The row of a record, by its key. -/
def keyFilter (map : EntityMap) (record : Record) (context : Context) :
    Except Error (Fragment × Context) := do
  map.requireKeys
  let (tests, context) ← map.keyTests record map.keyColumns context
  return (Fragment.joined " AND " tests, context)

/-- The predicate for the row with the key `id`: the generated key when there is one, otherwise
the only key. -/
def byId (map : EntityMap) (id : Value) : Except Error Predicate := do
  map.requireKeys
  match map.generatedKeyColumn?, map.keyColumns with
  | some column, _ => return .compare .equal column.property id
  | none, [column] => return .compare .equal column.property id
  | none, _ => fail (.compositeKeyLookup map.table.name)

end EntityMap

end GraphStore
