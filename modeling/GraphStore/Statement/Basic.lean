import GraphStore.Model.Derivation
import GraphStore.Sql.Context
import GraphStore.Sql.Fragment

/-!
# Statements

What is asked of a database, before it is written in a dialect. A select describes a join: every
table contributes a marker column followed by its selectable columns, and a segment says where
those columns are in a row.
-/

set_option autoImplicit false

namespace GraphStore

/-- `column = parameter` in an insert or an update. -/
structure Assignment where
  column : String
  param : Param
deriving DecidableEq, Repr

/-- A column that the database fills in, to be read back after an insert. -/
structure GeneratedKey where
  property : String
  column : String
deriving DecidableEq, Repr

structure InsertStatement where
  table : TableRef
  values : List Assignment
  generatedKey : Option GeneratedKey
deriving DecidableEq, Repr

structure UpdateStatement where
  table : TableRef
  set : List Assignment
  filter : Fragment
deriving DecidableEq, Repr

structure DeleteStatement where
  table : TableRef
  filter : Fragment
deriving DecidableEq, Repr

structure CreateTableStatement where
  map : EntityMap
  ifNotExists : Bool
deriving Repr

structure DropTableStatement where
  table : TableRef
  ifExists : Bool
deriving DecidableEq, Repr

/-! ## Selects -/

inductive Order where
  | asc | desc
deriving DecidableEq, Repr, Inhabited

/-- How a select behaves beside its filter: the most joined rows it returns, their order, and
whether rows flagged as deleted are returned too. -/
structure SelectOptions where
  limit : Option Nat := none
  orderBy : List (String × Order) := []
  includeDeleted : Bool := false
deriving DecidableEq, Repr, Inhabited

inductive JoinKind where
  | inner | left
deriving DecidableEq, Repr

structure Join where
  kind : JoinKind
  table : TableRef
  label : String
  on : Fragment
deriving DecidableEq, Repr

/-- A column of the result: the marker at which a table starts, or a column of a table. -/
inductive SelectColumn where
  | split (label : String)
  | column (table column label : String)
deriving DecidableEq, Repr

/-- The place of one table in a joined row. `start` is the place of its marker, and the
`properties` are those of the columns that follow it. The root table has no relation. -/
structure Segment where
  relation : Option RelationDef
  map : EntityMap
  label : String
  start : Nat
  properties : List String
deriving Repr

/-- The place of a property in a joined row. -/
def Segment.position? (s : Segment) (property : String) : Option Nat :=
  (s.properties.findIdx? (· == property)).map (s.start + 1 + ·)

structure SelectStatement where
  table : TableRef
  label : String
  columns : List SelectColumn
  joins : List Join
  filter : Fragment
  orderBy : List (ColumnToken × Order)
  limit : Option Nat
  segments : List Segment
deriving Repr

/-! ## All statements -/

inductive Statement where
  | select (s : SelectStatement)
  | insert (s : InsertStatement)
  | update (s : UpdateStatement)
  | delete (s : DeleteStatement)
  | createTable (s : CreateTableStatement)
  | dropTable (s : DropTableStatement)
deriving Repr

/-- The table a statement is about. -/
def Statement.table : Statement → TableRef
  | select s => s.table
  | insert s => s.table
  | update s => s.table
  | delete s => s.table
  | createTable s => s.map.table
  | dropTable s => s.table

/-- The creation of the table of an entity. -/
def EntityMap.createTable (map : EntityMap) (ifNotExists : Bool) : CreateTableStatement :=
  ⟨map, ifNotExists⟩

/-- The removal of the table of an entity. -/
def EntityMap.dropTable (map : EntityMap) (ifExists : Bool) : DropTableStatement :=
  ⟨map.table, ifExists⟩

end GraphStore
