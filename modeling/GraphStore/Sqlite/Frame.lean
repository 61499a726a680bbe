import GraphStore.Sqlite.Definition
import GraphStore.Sqlite.Flow
import GraphStore.Sqlite.Operator

/-!
# What a running statement sees

Looking up the names of an expression gives a term: a function of the frame it is evaluated in,
with the affinity and collation by which it takes part in comparisons. A frame holds the database,
the parameters, and one row of every source for the selection that is running and for those
around it.
-/

set_option autoImplicit false

namespace GraphStore.Sqlite

/-- The database with what statements can ask about those before them. -/
structure World where
  database : Database := {}
  lastRowid : Int64 := 0
  /-- The rows changed by the last change. -/
  changes : Nat := 0
  /-- The rows changed by all changes. -/
  totalChanges : Nat := 0
  /-- The rows changed so far by the change that is running. -/
  ongoing : Nat := 0

/-- A row of a source; it has no rowid when it comes from a selection. -/
structure RowView where
  rowid : Cell
  cells : List Cell
deriving Inhabited

def StoredRow.view (r : StoredRow) : RowView := ⟨.integer r.rowid, r.cells⟩

/-- The row of a source without a partner. -/
def RowView.nulls (width : Nat) : RowView := ⟨.null, List.replicate width .null⟩

/-- The rows of the sources of a selection, and the values of its aggregates. -/
structure Level where
  rows : List RowView
  aggregates : List Cell := []

structure Frame where
  world : World
  params : List Cell
  /-- The running selection first, then those around it. -/
  levels : List Level := []

def Frame.enter (f : Frame) (rows : List RowView) (aggregates : List Cell) : Frame :=
  { f with levels := ⟨rows, aggregates⟩ :: f.levels }

/-- The cell of a parameter; one that is not bound is null. -/
def Frame.param (f : Frame) (place : Nat) : Cell := f.params[place - 1]?.getD .null

def Frame.level (f : Frame) (depth : Nat) : Level := f.levels[depth]?.getD ⟨[], []⟩

def Frame.row (f : Frame) (depth source : Nat) : RowView := (f.level depth).rows[source]?.getD default

/-- A column by its place: the selection, counted outwards, the source, and the column, or the
rowid. -/
structure ColumnPlace where
  depth : Nat
  source : Nat
  column : Option Nat
deriving DecidableEq, Repr

def ColumnPlace.cell (p : ColumnPlace) (frame : Frame) : Cell :=
  let row := frame.row p.depth p.source
  match p.column with
  | none => row.rowid
  | some i => row.cells[i]?.getD .null

structure Term where
  eval : Frame → Except Fault Cell
  affinity : Option Affinity := none
  collation : Option Collation := none
  /-- The collation was asked for, and wins over that of a column. -/
  explicit : Bool := false
  /-- The name and the place of the column that the term is, if it is one. -/
  column : Option (String × ColumnPlace) := none

instance : Inhabited Term := ⟨{ eval := fun _ => .ok .null }⟩

namespace Term

def constant (c : Cell) : Term := { eval := fun _ => .ok c }

/-- A term that applies a function to a cell. -/
def map (f : Cell → Cell) (t : Term) : Term := { eval := fun frame => do return f (← t.eval frame) }

def map₂ (f : Cell → Cell → Cell) (s t : Term) : Term :=
  { eval := fun frame => do
      let a ← s.eval frame
      return f a (← t.eval frame) }

/-- The collation of a comparison: one asked for, the left first, otherwise that of a column. -/
def comparing (s t : Term) : Collation :=
  if s.explicit then s.collation.getD .binary
  else if t.explicit then t.collation.getD .binary
  else (s.collation.or t.collation).getD .binary

/-- A comparison, with what it is of two cells. -/
def compare (f : Option Affinity → Collation → Cell → Cell → Truth) (s t : Term) : Term :=
  let a := Affinity.ofBoth s.affinity t.affinity
  let c := s.comparing t
  map₂ (fun x y => .ofTruth (f a c x y)) s t

def truth (t : Term) (frame : Frame) : Except Fault Truth := do return (← t.eval frame).truth

/-- Whether a condition is true, as opposed to false or unknown. -/
def holds (t : Term) (frame : Frame) : Except Fault Bool := do
  return (← t.truth frame) == some true

/-- Two terms joined by a connective; the right one does not count when the left one decides. -/
def connect (decisive : Bool) (f : Truth → Truth → Truth) (s t : Term) : Term :=
  { eval := fun frame => do
      let a ← s.truth frame
      if a == some decisive then return .ofBool decisive
      return .ofTruth (f a (← t.truth frame)) }

end Term

/-! ## What names stand for -/

/-- A column of a source or of a selection. -/
structure ColumnView where
  name : String
  affinity : Option Affinity := none
  collation : Option Collation := none
deriving DecidableEq, Inhabited, Repr

/-- A source by the names it is called by. -/
structure SourceView where
  name : String
  columns : List ColumnView
  /-- What the rowid is called in results; only the rows of a table have one. -/
  rowidName : Option String := none
deriving Inhabited

/-- The names of a selection: those of its sources, and of its outputs where these count. -/
structure Scope where
  sources : List SourceView := []
  outputs : List (String × Expr) := []

/-- The selections in whose names an expression is looked up, the innermost first. -/
abbrev Scopes := List Scope

/-- What a selection yields: its columns, and its rows in order. -/
structure Relation where
  columns : List ColumnView
  rows : Frame → Flow (List Cell)

instance : Inhabited Relation := ⟨⟨[], fun _ => .empty⟩⟩

def isRowidName (name : String) : Bool :=
  sameName name "rowid" || sameName name "_rowid_" || sameName name "oid"

namespace Table

/-- The columns of a table as a source has them. -/
def views (t : Table) : List ColumnView :=
  t.columns.zipIdx.map fun (c, i) =>
    { name := c.name, affinity := some (t.affinity i), collation := some c.collation }

def rowidName (t : Table) : String := (t.rowidColumn.map fun i => (t.column i).name).getD "rowid"

end Table

/-- The rows of the table that lists the schema. -/
def Database.schemaRows (d : Database) : List StoredRow :=
  let root (n : Nat) : Cell := .integer (Int64.ofNat n)
  let (rows, _) := d.entries.foldl (fun (rows, page) e =>
    let row (kind table : String) (page : Nat) (written : Option String) : StoredRow :=
      ⟨Int64.ofNat (rows.length + 1),
        [.ofText kind, .ofText e.name, .ofText table, root page, written.elim .null .ofText]⟩
    match e with
    | .table t => (rows ++ [row "table" t.name page (some t.written)], page + 1)
    | .view v => (rows ++ [row "view" v.name 0 (some v.written)], page)
    | .index i => (rows ++ [row "index" i.table page i.written], page + 1)) (([], 2) : _ × Nat)
  rows

/-- The table of the schema, as it is at the moment. -/
def Database.schemaTable (d : Database) : Table :=
  { name := "sqlite_master",
    columns := [("type", "TEXT"), ("name", "TEXT"), ("tbl_name", "TEXT"), ("rootpage", "INT"),
      ("sql", "TEXT")].map fun (name, type) => { name, type },
    rows := d.schemaRows }

end GraphStore.Sqlite
