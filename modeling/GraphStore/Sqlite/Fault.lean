/-!
# What can go wrong with a statement

The causes and their wording. The first group arises when a statement is prepared, from its text
and the tables there are; the second when it runs.
-/

set_option autoImplicit false

namespace GraphStore.Sqlite

/-- What a name in the schema stands for. -/
inductive EntryKind where
  | table | view | index
deriving DecidableEq, Repr

def EntryKind.text : EntryKind → String
  | table => "table"
  | view => "view"
  | index => "index"

/-- An end of a transaction. -/
inductive Ending where
  | commit | rollback
deriving DecidableEq, Repr

def Ending.text : Ending → String
  | commit => "commit"
  | rollback => "rollback"

inductive Fault where
  -- reading the text
  | unexpected (near : String)
  | incomplete
  | unrecognized (token : String)
  | expressionTooDeep
  | parameterNumber
  -- names
  | unknownDatabase (written : String)
  | missing (kind : EntryKind) (name : String)
  | noColumn (name : String)
  | ambiguousColumn (name : String)
  | noColumnIn (table column : String)
  | noFunction (name : String)
  | argumentCount (function : String)
  | misusedAggregate (function : String)
  | misplacedAggregate (function : String)
  | unknownCollation (name : String)
  -- definitions
  | alreadyExists (kind : EntryKind) (written : String)
  | indexNamed (name : String)
  | duplicateColumn (name : String)
  | severalPrimaryKeys (table : String)
  | misplacedAutoincrement
  | reservedName (name : String)
  | dropAs (kind : EntryKind) (name : String)
  | notDroppable (table : String)
  | boundIndex
  | parametersInView
  | defaultNotConstant (column : String)
  | subqueryIn (place : String)
  -- parameters
  | tooBig
  -- queries
  | noTables
  | ordinal (place : Nat) (clause : String) (count : Nat)
  | unmatchedOrder (place : Nat)
  | havingAlone
  | circularView (name : String)
  | unevenValues
  | unevenSelects (operator : String)
  | subqueryWidth (found expected : Nat)
  | columnNames (view : String) (names columns : Nat)
  | clauseOrder (clause operator : String)
  -- changes
  | valueCount (table : String) (columns values : Nat)
  | columnCount (values columns : Nat)
  | readOnlyView (name : String)
  | readOnlyTable (name : String)
  | misusedRow
  | unmatchedConflict
  | referenceMismatch (child parent : String)
  | unsupported (what : String)
  -- running
  | uniqueFailed (columns : List String)
  | notNullFailed (table column : String)
  | checkFailed (name : String)
  | foreignKeyFailed
  | typeMismatch
  | integerOverflow
  | patternTooComplex
  | escapeLength
  | full
  | nestedTransaction
  | noTransaction (ending : Ending)
  | noSavepoint (name : String)
  | savepointInUse
  | readOnly
deriving DecidableEq, Repr

/-- A number with its ending as an ordinal. -/
def ordinalText (n : Nat) : String :=
  let ending :=
    if n / 10 % 10 = 1 then "th"
    else if n % 10 = 1 then "st"
    else if n % 10 = 2 then "nd"
    else if n % 10 = 3 then "rd"
    else "th"
  toString n ++ ending

def Fault.message : Fault → String
  | unexpected near => "near \"" ++ near ++ "\": syntax error"
  | incomplete => "incomplete input"
  | unrecognized token => "unrecognized token: \"" ++ token ++ "\""
  | expressionTooDeep => "Expression tree is too large (maximum depth 1000)"
  | parameterNumber => "variable number must be between ?1 and ?32766"
  | unknownDatabase written => "unknown database " ++ written
  | missing kind name => "no such " ++ kind.text ++ ": " ++ name
  | noColumn name => "no such column: " ++ name
  | ambiguousColumn name => "ambiguous column name: " ++ name
  | noColumnIn table column => "table " ++ table ++ " has no column named " ++ column
  | noFunction name => "no such function: " ++ name
  | argumentCount f => "wrong number of arguments to function " ++ f ++ "()"
  | misusedAggregate f => "misuse of aggregate function " ++ f ++ "()"
  | misplacedAggregate f => "misuse of aggregate: " ++ f ++ "()"
  | unknownCollation name => "no such collation sequence: " ++ name
  | alreadyExists kind written => kind.text ++ " " ++ written ++ " already exists"
  | indexNamed name => "there is already an index named " ++ name
  | duplicateColumn name => "duplicate column name: " ++ name
  | severalPrimaryKeys table => "table \"" ++ table ++ "\" has more than one primary key"
  | misplacedAutoincrement => "AUTOINCREMENT is only allowed on an INTEGER PRIMARY KEY"
  | reservedName name => "object name reserved for internal use: " ++ name
  | dropAs kind name =>
      "use DROP " ++ kind.text.toUpper ++ " to delete " ++ kind.text ++ " " ++ name
  | notDroppable table => "table " ++ table ++ " may not be dropped"
  | boundIndex => "index associated with UNIQUE or PRIMARY KEY constraint cannot be dropped"
  | parametersInView => "parameters are not allowed in views"
  | defaultNotConstant column => "default value of column [" ++ column ++ "] is not constant"
  | subqueryIn place => "subqueries prohibited in " ++ place
  | tooBig => "string or blob too big"
  | noTables => "no tables specified"
  | ordinal place clause count => ordinalText place ++ " " ++ clause ++
      " BY term out of range - should be between 1 and " ++ toString count
  | unmatchedOrder place => ordinalText place ++
      " ORDER BY term does not match any column in the result set"
  | havingAlone => "HAVING clause on a non-aggregate query"
  | circularView name => "view " ++ name ++ " is circularly defined"
  | unevenValues => "all VALUES must have the same number of terms"
  | unevenSelects operator => "SELECTs to the left and right of " ++ operator ++
      " do not have the same number of result columns"
  | subqueryWidth found expected => "sub-select returns " ++ toString found ++
      " columns - expected " ++ toString expected
  | columnNames view names columns => "expected " ++ toString names ++ " columns for '" ++ view ++
      "' but got " ++ toString columns
  | clauseOrder clause operator => clause ++ " clause should come after " ++ operator ++
      " not before"
  | valueCount table columns values => "table " ++ table ++ " has " ++ toString columns ++
      " columns but " ++ toString values ++ " values were supplied"
  | columnCount values columns => toString values ++ " values for " ++ toString columns ++
      " columns"
  | readOnlyView name => "cannot modify " ++ name ++ " because it is a view"
  | readOnlyTable name => "table " ++ name ++ " may not be modified"
  | misusedRow => "row value misused"
  | unmatchedConflict =>
      "ON CONFLICT clause does not match any PRIMARY KEY or UNIQUE constraint"
  | referenceMismatch child parent =>
      "foreign key mismatch - \"" ++ child ++ "\" referencing \"" ++ parent ++ "\""
  | unsupported what => what ++ " is not supported"
  | uniqueFailed columns => "UNIQUE constraint failed: " ++ String.intercalate ", " columns
  | notNullFailed table column => "NOT NULL constraint failed: " ++ table ++ "." ++ column
  | checkFailed name => "CHECK constraint failed: " ++ name
  | foreignKeyFailed => "FOREIGN KEY constraint failed"
  | typeMismatch => "datatype mismatch"
  | integerOverflow => "integer overflow"
  | patternTooComplex => "LIKE or GLOB pattern too complex"
  | escapeLength => "ESCAPE expression must be a single character"
  | full => "database or disk is full"
  | nestedTransaction => "cannot start a transaction within a transaction"
  | noTransaction ending => "cannot " ++ ending.text ++ " - no transaction is active"
  | noSavepoint name => "no such savepoint: " ++ name
  | savepointInUse => "cannot open savepoint - SQL statements in progress"
  | readOnly => "attempt to write a readonly database"

end GraphStore.Sqlite
