import GraphStore.Error
import GraphStore.Sql.Query

/-!
# Dialects

The four dialects differ in how they quote identifiers, mark parameters, name types and hand
back generated keys. Each difference is one function here.
-/

set_option autoImplicit false

namespace GraphStore

inductive Dialect where
  | postgres | sqlite | mySql | sqlServer
deriving DecidableEq, Repr

namespace Dialect

def all : List Dialect := [postgres, sqlite, mySql, sqlServer]

def name : Dialect → String
  | postgres => "postgres"
  | sqlite => "sqlite"
  | mySql => "mysql"
  | sqlServer => "sqlserver"

/-- The dialect of a name in any case of the letters A to Z; some have a second name. -/
def parse (s : String) : Except Error Dialect :=
  let lower := s.map Char.toLower
  if lower = "postgres" ∨ lower = "postgresql" then .ok postgres
  else if lower = "sqlite" then .ok sqlite
  else if lower = "mysql" ∨ lower = "mariadb" then .ok mySql
  else if lower = "sqlserver" ∨ lower = "mssql" then .ok sqlServer
  else fail (.unsupportedDialect s)

/-! ## Identifiers -/

/-- The characters around a quoted identifier. -/
def quotes : Dialect → Char × Char
  | postgres => ('"', '"')
  | sqlite => ('"', '"')
  | mySql => ('\x60', '\x60')
  | sqlServer => ('[', ']')

end Dialect

/-- The text with every `search` replaced. -/
def escaped (search : Char) (replacement : List Char) (s : List Char) : List Char :=
  s.flatMap fun c => if c = search then replacement else [c]

/-- The stretches of a text between the characters `search`, as offsets in bytes. The first of them
begins at `position`, and `offset` is where the characters begin that are left. -/
def stretchesFrom (search : Char) : Nat → Nat → List Char → List (Nat × Nat)
  | position, offset, [] => [(position, offset)]
  | position, offset, c :: rest =>
      let next := offset + c.utf8Size
      if c = search then (position, offset) :: stretchesFrom search next next rest
      else stretchesFrom search position next rest

/-- The text between two offsets. -/
def slice (text : String) (stretch : Nat × Nat) : String :=
  String.Pos.Raw.extract text ⟨stretch.1⟩ ⟨stretch.2⟩

/-- A copy of the text with every `search` replaced: the stretches between them are copied as they
are, with the replacement between any two. -/
def copyEscaped (search : Char) (replacement : String) (text : String) : String :=
  replacement.intercalate ((stretchesFrom search 0 0 text.toList).map (slice text))

namespace Dialect

/-- A quoted identifier: a closing quote in the name is written twice. -/
def identifier (d : Dialect) (name : String) : String :=
  let (opening, closing) := d.quotes
  let closing' := String.singleton closing
  String.singleton opening ++ copyEscaped closing (closing' ++ closing') name ++ closing'

/-! ## Parameters -/

/-- How the parameter after `count` others is marked: by number, by name, or by a mark alone. -/
def placeholder (d : Dialect) (count : Nat) (p : Param) : String :=
  match d with
  | postgres => "$" ++ toString (count + 1)
  | sqlite => ":" ++ p.name
  | mySql => "?"
  | sqlServer => "@" ++ p.name

/-- The count after one more parameter; only numbered parameters are counted. -/
def countParam (d : Dialect) (count : Nat) : Nat :=
  match d with
  | postgres => count + 1
  | _ => count

/-! ## Types -/

/-- The type of a column by what it holds. A null without a type has none. -/
def columnType (d : Dialect) (v : Value) : Option String :=
  match d, v with
  | _, .null => none
  | postgres, .boolean _ => some "BOOLEAN"
  | postgres, .int32 _ => some "INTEGER"
  | postgres, .int64 _ => some "BIGINT"
  | postgres, .float64 _ => some "DOUBLE PRECISION"
  | postgres, .varchar _ => some "VARCHAR"
  | postgres, .blob _ => some "BYTEA"
  | postgres, .timestamp _ => some "TIMESTAMP"
  | postgres, .uuid _ => some "UUID"
  | sqlite, .boolean _ => some "INTEGER"
  | sqlite, .int32 _ => some "INTEGER"
  | sqlite, .int64 _ => some "INTEGER"
  | sqlite, .float64 _ => some "REAL"
  | sqlite, .varchar _ => some "TEXT"
  | sqlite, .blob _ => some "BLOB"
  | sqlite, .timestamp _ => some "TEXT"
  | sqlite, .uuid _ => some "TEXT"
  | mySql, .boolean _ => some "BOOLEAN"
  | mySql, .int32 _ => some "INTEGER"
  | mySql, .int64 _ => some "BIGINT"
  | mySql, .float64 _ => some "DOUBLE"
  | mySql, .varchar _ => some "VARCHAR(255)"
  | mySql, .blob _ => some "BLOB"
  | mySql, .timestamp _ => some "DATETIME(6)"
  | mySql, .uuid _ => some "CHAR(36)"
  | sqlServer, .boolean _ => some "BIT"
  | sqlServer, .int32 _ => some "INT"
  | sqlServer, .int64 _ => some "BIGINT"
  | sqlServer, .float64 _ => some "FLOAT"
  | sqlServer, .varchar _ => some "NVARCHAR(255)"
  | sqlServer, .blob _ => some "VARBINARY(MAX)"
  | sqlServer, .timestamp _ => some "DATETIME2"
  | sqlServer, .uuid _ => some "UNIQUEIDENTIFIER"

/-- What follows the name of an integer key that the database counts up. -/
def countedColumn : Dialect → String
  | postgres => " SERIAL PRIMARY KEY"
  | sqlite => " INTEGER PRIMARY KEY AUTOINCREMENT"
  | mySql => " INTEGER AUTO_INCREMENT PRIMARY KEY"
  | sqlServer => " INT IDENTITY(1,1) PRIMARY KEY"

/-! ## Clauses -/

def beginText : Dialect → String
  | postgres => "BEGIN;"
  | sqlite => "BEGIN;"
  | mySql => "START TRANSACTION;"
  | sqlServer => "BEGIN TRANSACTION;"

def commitText (_ : Dialect) : String := "COMMIT;"

def rollbackText (_ : Dialect) : String := "ROLLBACK;"

/-- The beginning of a select; one dialect limits the rows here. -/
def selectHead (d : Dialect) (limit : Option Nat) : String :=
  match d, limit with
  | sqlServer, some n => "SELECT TOP (" ++ toString n ++ ") "
  | _, _ => "SELECT "

/-- The limit at the end of a select; the others limit the rows here. -/
def selectLimit (d : Dialect) (limit : Option Nat) : String :=
  match d, limit with
  | sqlServer, _ => ""
  | _, some n => "\nLIMIT " ++ toString n
  | _, none => ""

/-- The values of a row that consists of defaults. -/
def defaultValues : Dialect → String
  | mySql => " () VALUES ()"
  | _ => " DEFAULT VALUES"

/-- The query for the key that the last insert generated, in the dialects whose insert does not
return it. -/
def generatedKeyQuery : Dialect → Option Query
  | postgres => none
  | sqlite => some { sql := "SELECT last_insert_rowid();" }
  | mySql => some { sql := "SELECT LAST_INSERT_ID();" }
  | sqlServer => none

end Dialect

end GraphStore
