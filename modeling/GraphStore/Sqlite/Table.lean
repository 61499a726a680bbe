import GraphStore.Sqlite.Affinity
import GraphStore.Sqlite.Expr

/-!
# Tables

A table has columns and rows, and rules about its rows. Every row has a number, its rowid, and the
rows are kept in the order of these numbers. A column can stand for the rowid itself.
-/

set_option autoImplicit false

namespace GraphStore.Sqlite

/-- Names are compared without regard to the case of ASCII letters. -/
def sameName (a b : String) : Bool := a.map Char.toLower == b.map Char.toLower

/-- What is done with a row that breaks a rule. -/
inductive Conflict where
  | abort | fail | ignore | replace | rollback
deriving DecidableEq, Inhabited, Repr

structure ColumnSpec where
  name : String
  type : String := ""
  collation : Collation := .binary
  notNull : Option Conflict := none
  default : Option Expr := none
deriving Inhabited

def ColumnSpec.affinity (c : ColumnSpec) : Affinity := Affinity.ofType c.type

/-- Columns whose cells together differ from row to row, unless one of them is null. -/
structure Key where
  columns : List Nat
  onConflict : Option Conflict := none
  /-- The index that was made for it on its own, rather than with its table. -/
  index : Option String := none
deriving Inhabited

/-- A condition on every row, and the name it is reported by. -/
structure Check where
  name : String
  condition : Expr

/-- What happens to the rows that refer to a row that goes away or changes. -/
inductive ReferenceAction where
  | none | restrict | setNull | setDefault | cascade
deriving DecidableEq, Inhabited, Repr

/-- Columns that refer to a row of another table. Without `parentColumns` they refer to its primary
key. -/
structure Reference where
  columns : List Nat
  parent : String
  parentColumns : List String
  onDelete : ReferenceAction := .none
  onUpdate : ReferenceAction := .none
  deferred : Bool := false

structure StoredRow where
  rowid : Int64
  cells : List Cell
deriving DecidableEq, Inhabited, Repr

structure Table where
  name : String
  columns : List ColumnSpec := []
  /-- The columns of the primary key. -/
  primary : List Nat := []
  /-- The column that stands for the rowid. -/
  rowidColumn : Option Nat := none
  /-- Rowids are counted up and never used again. -/
  counted : Bool := false
  rowidConflict : Option Conflict := none
  /-- The newest first, which is the order in which they are checked. -/
  keys : List Key := []
  checks : List Check := []
  references : List Reference := []
  rows : List StoredRow := []
  /-- The text of the definition. -/
  written : String := ""
deriving Inhabited

namespace Table

def columnPlace? (t : Table) (name : String) : Option Nat :=
  t.columns.findIdx? fun c => sameName c.name name

def column (t : Table) (i : Nat) : ColumnSpec := t.columns[i]?.getD default

/-- The affinity of a column; the one that stands for the rowid holds integers. -/
def affinity (t : Table) (i : Nat) : Affinity :=
  if t.rowidColumn = some i then .integer else (t.column i).affinity

/-! ## Rows -/

/-- The row put at its place in the order of rowids. -/
def insertRow (r : StoredRow) : List StoredRow → List StoredRow
  | [] => [r]
  | s :: rest => if r.rowid < s.rowid then r :: s :: rest else s :: insertRow r rest

def insert (t : Table) (r : StoredRow) : Table := { t with rows := insertRow r t.rows }

def erase (t : Table) (rowid : Int64) : Table :=
  { t with rows := t.rows.filter (·.rowid != rowid) }

def row? (t : Table) (rowid : Int64) : Option StoredRow := t.rows.find? (·.rowid == rowid)

/-- The largest rowid in use. -/
def lastRowid? (t : Table) : Option Int64 := t.rows.getLast?.map (·.rowid)

/-- The cells of a row at the columns of a key. -/
def keyCells (columns : List Nat) (cells : List Cell) : List Cell :=
  columns.map fun i => cells[i]?.getD .null

/-- Whether two rows have the same key: no null in it, and equal cells. -/
def sameKey (t : Table) (k : Key) (a b : List Cell) : Bool :=
  k.columns.all fun i =>
    let c := a[i]?.getD .null
    !c.isNull && c.sameAs (t.column i).collation (b[i]?.getD .null)

/-- A row with the same key, other than the row that is being changed. -/
def clash? (t : Table) (k : Key) (self : Option Int64) (cells : List Cell) : Option StoredRow :=
  t.rows.find? fun r => some r.rowid != self && t.sameKey k cells r.cells

end Table

/-- A stored selection. -/
structure View where
  name : String
  columns : List String := []
  selection : Selection
  written : String := ""

/-- An index as the schema lists it; it has no text when it comes with its table. -/
structure Index where
  name : String
  table : String
  written : Option String := none
deriving DecidableEq, Repr

inductive Entry where
  | table (t : Table)
  | view (v : View)
  | index (i : Index)

namespace Entry

def name : Entry → String
  | table t => t.name
  | view v => v.name
  | index i => i.name

end Entry

/-- The entries of the schema in the order in which they were made. -/
structure Database where
  entries : List Entry := []

namespace Database

def table? (d : Database) (name : String) : Option Table :=
  d.entries.findSome? fun
    | .table t => if sameName t.name name then some t else none
    | _ => none

def view? (d : Database) (name : String) : Option View :=
  d.entries.findSome? fun
    | .view v => if sameName v.name name then some v else none
    | _ => none

def index? (d : Database) (name : String) : Option Index :=
  d.entries.findSome? fun
    | .index i => if sameName i.name name then some i else none
    | _ => none

def tables (d : Database) : List Table :=
  d.entries.filterMap fun
    | .table t => some t
    | _ => none

/-- The database with a table in the place of the one of that name. -/
def setTable (d : Database) (t : Table) : Database :=
  { entries := d.entries.map fun
      | .table old => if sameName old.name t.name then .table t else .table old
      | e => e }

def add (d : Database) (e : Entry) : Database := { entries := d.entries ++ [e] }

/-- The database without a table and its indexes. -/
def dropTable (d : Database) (name : String) : Database :=
  { entries := d.entries.filter fun
      | .table t => !sameName t.name name
      | .index i => !sameName i.table name
      | .view _ => true }

def dropView (d : Database) (name : String) : Database :=
  { entries := d.entries.filter fun
      | .view v => !sameName v.name name
      | _ => true }

/-- The database without an index and the key it was made for. -/
def dropIndex (d : Database) (name : String) : Database :=
  { entries := d.entries.filterMap fun
      | .index i => if sameName i.name name then none else some (.index i)
      | .table t => some (.table { t with
          keys := t.keys.filter fun k => !k.index.any (sameName name) })
      | e => some e }

end Database

end GraphStore.Sqlite
