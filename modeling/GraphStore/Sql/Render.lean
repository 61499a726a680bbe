import GraphStore.Journal
import GraphStore.Sql.Piece
import GraphStore.Statement.Basic
import GraphStore.Text.Separated

/-!
# Rendering statements

Every statement as pieces, for each dialect, and as a finished query.
-/

set_option autoImplicit false

namespace GraphStore

open Text

/-- A condition behind `WHERE`, when there is one. -/
def wherePieces (filter : Fragment) (context : Context) : List Piece :=
  if filter.isEmpty then [] else .text "\nWHERE " :: filter.pieces context

/-! ## Selects -/

def SelectColumn.pieces : SelectColumn → List Piece
  | split label => [.text "NULL AS ", .name label]
  | column table name label => [.name table, .text ".", .name name, .text " AS ", .name label]

def JoinKind.text : JoinKind → String
  | inner => "\nINNER JOIN "
  | left => "\nLEFT JOIN "

def Join.pieces (j : Join) (context : Context) : List Piece :=
  .text j.kind.text :: (j.table.pieces context j.label ++ .text " ON " :: j.on.pieces context)

def Order.text : Order → String
  | asc => " ASC"
  | desc => " DESC"

def orderPieces (orderBy : List (ColumnToken × Order)) (context : Context) : List Piece :=
  if orderBy.isEmpty then []
  else .text "\nORDER BY " ::
    separatedBy (fun p => p.1.pieces context ++ [.text p.2.text]) [.text ", "] orderBy

def SelectStatement.pieces (d : Dialect) (s : SelectStatement) : List Piece :=
  let context : Context := { clause := .select }
  .text (d.selectHead s.limit) ::
    (separatedBy SelectColumn.pieces [.text ", "] s.columns ++
    .text "\nFROM " :: (s.table.pieces (context.inClause .selectFrom) s.label ++
    (s.joins.flatMap (·.pieces (context.inClause .join)) ++
    (wherePieces s.filter (context.inClause .selectWhere) ++
    (orderPieces s.orderBy (context.inClause .selectOrderBy) ++
    [.text (d.selectLimit s.limit), .text ";"])))))

/-! ## Writes -/

/-- The clause before the values that returns the generated key. -/
def outputPieces (d : Dialect) (key : Option GeneratedKey) : List Piece :=
  match d, key with
  | .sqlServer, some k => [.text " OUTPUT INSERTED.", .name k.column]
  | _, _ => []

/-- The clause after the values that returns the generated key. -/
def returningPieces (d : Dialect) (key : Option GeneratedKey) : List Piece :=
  match d, key with
  | .postgres, some k => [.text " RETURNING ", .name k.column]
  | _, _ => []

def InsertStatement.pieces (d : Dialect) (s : InsertStatement) : List Piece :=
  let context : Context := { clause := .insertInto, qualify := false }
  .text "INSERT INTO " :: (s.table.pieces context "" ++
    ((if s.values.isEmpty then
      outputPieces d s.generatedKey ++ [.text d.defaultValues]
    else
      .text " (" :: (separatedBy (fun a => [.name a.column]) [.text ", "] s.values ++
        .text ")" :: (outputPieces d s.generatedKey ++
        .text " VALUES (" :: (separatedBy (fun a => [.param a.param]) [.text ", "] s.values ++
        [.text ")"])))) ++
    (returningPieces d s.generatedKey ++ [.text ";"])))

def Assignment.pieces (a : Assignment) : List Piece :=
  [.name a.column, .text " = ", .param a.param]

def UpdateStatement.pieces (s : UpdateStatement) : List Piece :=
  let context : Context := { clause := .update, qualify := false }
  .text "UPDATE " :: (s.table.pieces context "" ++
    .text " SET " :: (separatedBy Assignment.pieces [.text ", "] s.set ++
    (wherePieces s.filter (context.inClause .updateWhere) ++ [.text ";"])))

def DeleteStatement.pieces (s : DeleteStatement) : List Piece :=
  let context : Context := { clause := .deleteFrom, qualify := false }
  .text "DELETE FROM " :: (s.table.pieces context "" ++
    (wherePieces s.filter (context.inClause .deleteFromWhere) ++ [.text ";"]))

/-! ## Tables -/

/-- The definition of one column. A single key is marked here, `inlineKey` says so. -/
def ColumnDef.pieces (d : Dialect) (inlineKey : Bool) (c : ColumnDef) : List Piece :=
  if c.isCounted then [.name c.name, .text d.countedColumn]
  else
    .name c.name :: .text " " :: .text ((d.columnType c.value).getD "") ::
      ((if !c.nullable && !c.isKey then [.text " NOT NULL"] else []) ++
      (if c.isKey && inlineKey then [.text " PRIMARY KEY"] else []))

/-- The beginning of a table definition. One dialect tests for the table in a statement of its
own, where the quoted name stands inside a string. -/
def createHead (d : Dialect) (s : CreateTableStatement) (context : Context) : List Piece :=
  match d with
  | .sqlServer =>
      if s.ifNotExists then
        let name := d.printFrom 0 (s.map.table.pieces context "")
        [.text ("IF OBJECT_ID(N'" ++ String.ofList (escaped '\'' ['\'', '\''] name.toList) ++
          "', N'U') IS NULL\n"), .text "CREATE TABLE "]
      else [.text "CREATE TABLE "]
  | _ => .text "CREATE TABLE " :: (if s.ifNotExists then [.text "IF NOT EXISTS "] else [])

/-- Several keys are listed after the columns. -/
def compositeKeyPieces (map : EntityMap) : List Piece :=
  if 1 < map.keys.length then
    .text ",\nPRIMARY KEY (" ::
      (separatedBy (fun c => [.name c.name]) [.text ", "] map.keyColumns ++ [.text ")"])
  else []

def CreateTableStatement.pieces (d : Dialect) (s : CreateTableStatement) : List Piece :=
  let context : Context := { clause := .createTable, qualify := false }
  createHead d s context ++ (s.map.table.pieces context "" ++
    .text " (\n" ::
      (separatedBy (ColumnDef.pieces d (s.map.keys.length == 1)) [.text ",\n"] s.map.columns ++
      (compositeKeyPieces s.map ++ [.text ");"])))

def DropTableStatement.pieces (s : DropTableStatement) : List Piece :=
  let context : Context := { clause := .dropTable, qualify := false }
  .text "DROP TABLE " :: ((if s.ifExists then [.text "IF EXISTS "] else []) ++
    (s.table.pieces context "" ++ [.text ";"]))

/-! ## All statements -/

def Statement.pieces (d : Dialect) : Statement → List Piece
  | select s => s.pieces d
  | insert s => s.pieces d
  | update s => s.pieces
  | delete s => s.pieces
  | createTable s => s.pieces d
  | dropTable s => s.pieces

/-- The statement as a query of the dialect. -/
def Dialect.render (d : Dialect) (s : Statement) : Query := d.print (s.pieces d)

/-- Writing the type of a column that has none is reported. -/
def untypedColumn (v : Value) : List LogEntry :=
  if v = .null then [.error "Cannot derive a column type from an untyped NULL"] else []

/-- What rendering a statement writes to the journal. -/
def Statement.journal : Statement → List LogEntry
  | createTable s => (s.map.columns.filter (!·.isCounted)).flatMap (untypedColumn ·.value)
  | _ => []

end GraphStore
