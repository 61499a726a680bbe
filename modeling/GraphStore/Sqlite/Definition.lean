import GraphStore.Sqlite.Command

/-!
# Defining tables

A table is put together column by column and rule by rule, in the order in which its definition
is read; each step says when it is refused.
-/

set_option autoImplicit false

namespace GraphStore.Sqlite

namespace Table

def addColumn (t : Table) (c : ColumnSpec) : Except Fault Table :=
  if (t.columnPlace? c.name).isSome then .error (.duplicateColumn c.name)
  else .ok { t with columns := t.columns ++ [c] }

/-- Changes the column read last. -/
def mapLastColumn (t : Table) (f : ColumnSpec → ColumnSpec) : Table :=
  { t with columns := t.columns.modify (t.columns.length - 1) f }

/-- The places of named columns. -/
def places (t : Table) (names : List String) : Except Fault (List Nat) :=
  names.mapM fun n =>
    match t.columnPlace? n with
    | some i => .ok i
    | none => .error (.noColumn n)

/-- Adds a key, unless the table has one on the same columns. -/
def addKey (t : Table) (columns : List Nat) (onConflict : Option Conflict) : Table :=
  if t.keys.any (·.columns == columns) then t
  else { t with keys := { columns, onConflict } :: t.keys }

/-- Whether the declared type is exactly the one that can stand for the rowid. -/
def isRowidType (type : String) : Bool := sameName type "integer"

/-- Makes columns the primary key. A single column of integers stands for the rowid. -/
def addPrimary (t : Table) (columns : List Nat) (descending counted : Bool)
    (onConflict : Option Conflict) : Except Fault Table :=
  if !t.primary.isEmpty then .error (.severalPrimaryKeys t.name)
  else
    let t := { t with primary := columns }
    match columns with
    | [i] =>
        if isRowidType (t.column i).type && !descending then
          .ok { t with rowidColumn := some i, counted, rowidConflict := onConflict }
        else if counted then .error .misplacedAutoincrement
        else .ok (t.addKey columns onConflict)
    | _ => if counted then .error .misplacedAutoincrement else .ok (t.addKey columns onConflict)

end Table

/-- Names that belong to the database itself. -/
def isReserved (name : String) : Bool := (name.map Char.toLower).startsWith "sqlite_"

def isSchemaTable (name : String) : Bool :=
  sameName name "sqlite_master" || sameName name "sqlite_schema"

/-- The table that keeps the last rowid of every table that counts them up. -/
def sequenceTable : Table :=
  { name := "sqlite_sequence", columns := [{ name := "name" }, { name := "seq" }],
    written := "CREATE TABLE sqlite_sequence(name,seq)" }

namespace Database

/-- What has a name that a new table or view could take, if anything. -/
def taken? (d : Database) (name : String) : Option EntryKind :=
  if (d.table? name).isSome then some .table
  else if (d.view? name).isSome then some .view
  else none

/-- The names of the indexes that come with a table. -/
def keyIndexes (t : Table) : List Entry :=
  (t.keys.reverse.zipIdx 1).map fun (_, n) =>
    .index { name := "sqlite_autoindex_" ++ t.name ++ "_" ++ toString n, table := t.name }

/-- The database with a new table, its indexes, and where it is needed the table of sequences. -/
def createTable (d : Database) (t : Table) : Database :=
  let d : Database := { entries := d.entries ++ .table t :: keyIndexes t }
  if t.counted && (d.table? sequenceTable.name).isNone then d.add (.table sequenceTable) else d

end Database

end GraphStore.Sqlite
