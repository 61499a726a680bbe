import GraphStore.Sqlite.Fault
import GraphStore.Sqlite.Table

/-!
# Commands

The statements there are, as read from their text. Names in them are not yet looked up, except
that a definition is checked against the schema while it is read.
-/

set_option autoImplicit false

namespace GraphStore.Sqlite

/-- The name of a table, with its schema where that is written. -/
structure TableName where
  schema : Option String
  name : String
deriving DecidableEq, Inhabited, Repr

/-- The name with its schema in front. -/
def TableName.text (n : TableName) : String :=
  match n.schema with
  | some s => s ++ "." ++ n.name
  | none => n.name

/-- What an insert that meets a row with the same key does instead. -/
structure Upsert where
  /-- The columns whose key is met; none stands for any key. -/
  columns : List String
  /-- The changes of the row met; none leaves it as it is. -/
  assignments : List (String × Expr)
  filter : Option Expr

inductive Command where
  | select (s : Selection)
  /-- Without rows for a row of defaults. -/
  | insert (onConflict : Option Conflict) (table : TableName) (columns : List String)
      (rows : Option Selection) (upserts : List Upsert) (returning : List Output)
  | update (onConflict : Option Conflict) (table : TableName) (label : Option String)
      (assignments : List (String × Expr)) (filter : Option Expr) (returning : List Output)
  | delete (table : TableName) (label : Option String) (filter : Option Expr)
      (returning : List Output)
  /-- Without a table when it is there already and that is no fault. -/
  | createTable (t : Option Table)
  | createTableAs (t : Option Table) (rows : Selection)
  | createView (v : Option View)
  | createIndex (i : Option Index) (key : Option Key)
  | drop (kind : EntryKind) (ifExists : Bool) (name : TableName)
  | begin
  | finish (ending : Ending)
  | savepoint (name : String)
  | release (name : String)
  | rollbackTo (name : String)
  /-- A setting, asked for or set. -/
  | pragma (name : String) (set : Bool)

end GraphStore.Sqlite
