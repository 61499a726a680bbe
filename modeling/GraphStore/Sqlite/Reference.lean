import GraphStore.Sqlite.Fault
import GraphStore.Sqlite.Table

/-!
# References between tables

A row whose referring columns hold no null must find its parent. A reference is checked at the end
of a statement, or at the end of the transaction when it is deferred, and all that is asked then
is whether some row is an orphan.
-/

set_option autoImplicit false

namespace GraphStore.Sqlite

/-- The parent table of a reference with the columns referred to, when there are as many of these
as of referring columns, and they are a key of the parent. -/
def Database.parent? (d : Database) (r : Reference) : Option (Table × List Nat) := do
  let parent ← d.table? r.parent
  let columns ←
    if r.parentColumns.isEmpty then some parent.primary
    else r.parentColumns.mapM parent.columnPlace?
  let isKey := columns == parent.primary || parent.keys.any fun k => k.columns.isPerm columns
  if columns.length == r.columns.length && isKey then some (parent, columns) else none

/-- Whether a parent row has the cells that a row refers to, each stored as the parent does. -/
def Table.isReferred (parent : Table) (columns : List Nat) (cells : List Cell)
    (row : List Cell) : Bool :=
  (columns.zip cells).all fun (i, c) =>
    ((parent.affinity i).store c).sameAs (parent.column i).collation (row[i]?.getD .null)

namespace Database

/-- Whether a row refers to a parent that is not there. -/
def isOrphan (d : Database) (r : Reference) (row : StoredRow) : Bool :=
  let cells := Table.keyCells r.columns row.cells
  if cells.any Cell.isNull then false
  else
    match d.parent? r with
    | none => true
    | some (parent, columns) => !parent.rows.any fun p => parent.isReferred columns cells p.cells

/-- Whether a row is an orphan by a reference that is deferred, or by one that is not. -/
def hasOrphan (d : Database) (deferred : Bool) : Bool :=
  d.tables.any fun t => t.references.any fun r =>
    r.deferred == deferred && t.rows.any (d.isOrphan r)

/-- The references to a table, with the tables that refer. -/
def referring (d : Database) (name : String) : List (Table × Reference) :=
  d.tables.flatMap fun t => (t.references.filter fun r => sameName r.parent name).map (t, ·)

/-- The rows that refer to a row of the parent table. -/
def childrenOf (d : Database) (child : Table) (r : Reference) (row : List Cell) :
    List StoredRow :=
  match d.parent? r with
  | none => []
  | some (parent, columns) =>
      child.rows.filter fun c =>
        let cells := Table.keyCells r.columns c.cells
        !cells.any Cell.isNull && parent.isReferred columns cells row

/-- Refuses a reference that has no parent table, or one without a key to refer to. -/
def checkReference (d : Database) (child : Table) (r : Reference) : Except Fault Unit := do
  if (d.table? r.parent).isNone then throw (.missing .table ("main." ++ r.parent))
  if (d.parent? r).isNone then throw (.referenceMismatch child.name r.parent)

end Database

end GraphStore.Sqlite
