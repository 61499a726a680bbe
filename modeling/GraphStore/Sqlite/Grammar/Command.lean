import GraphStore.Sqlite.Grammar.Definition

/-!
# Reading commands

A command ends at a semicolon or with the text. What follows the semicolon is not read.
-/

set_option autoImplicit false

namespace GraphStore.Sqlite

namespace Reader

/-! ## Changes -/

/-- What a command does with rows that break a rule. -/
def orConflict : Reader (Option Conflict) := do
  if ← tryWord "or" then return some (← lexeme conflictNamed?) else return none

/-- One assignment of an update. -/
def assignment : Reader (String × Expr) := do
  if (← peek).isSymbol "(" then throw (.unsupported "An assignment of several columns")
  let column ← name
  symbol "="
  return (column, ← expr)

def assignments : Reader (List (String × Expr)) := do commaList assignment (← fuel)

def filter : Reader (Option Expr) := do
  if ← tryWord "where" then return some (← expr) else return none

def returning : Reader (List Output) := do
  if ← tryWord "returning" then outputs else return []

/-- What an insert does when it meets a row with the same key. -/
def upserts : Nat → Reader (List Upsert)
  | 0 => throw .expressionTooDeep
  | fuel + 1 => do
      if !(← tryWord "on") then return []
      word "conflict"
      let columns ← if (← peek).isSymbol "(" then keyColumns else pure []
      word "do"
      let u ←
        if ← tryWord "nothing" then pure (Upsert.mk columns [] none)
        else do
          word "update"
          word "set"
          let a ← assignments
          pure (Upsert.mk columns a (← filter))
      return u :: (← upserts fuel)

def tableAlias : Reader (Option String) := do
  if ← tryWord "as" then return some (← name) else return none

/-- An insert, after `INTO`. -/
def insert (onConflict : Option Conflict) : Reader Command := do
  let table ← tableName
  let _ ← tableAlias
  let columns ← if (← peek).isSymbol "(" then nameList else pure []
  if ← tryWord "default" then
    word "values"
    return .insert onConflict table columns none [] (← returning)
  let rows ← selection
  let us ← upserts (← fuel)
  return .insert onConflict table columns (some rows) us (← returning)

def update : Reader Command := do
  let c ← orConflict
  let table ← tableName
  let a ← tableAlias
  word "set"
  let changes ← assignments
  if (← peek).isKeyword "from" then throw (.unsupported "An update from other tables")
  let f ← filter
  return .update c table a changes f (← returning)

def delete : Reader Command := do
  word "from"
  let table ← tableName
  let a ← tableAlias
  let f ← filter
  return .delete table a f (← returning)

/-! ## Transactions -/

/-- The word `TRANSACTION` and a name, both without effect. -/
def transactionWords : Reader Unit := do
  if ← tryWord "transaction" then
    if (← peek).name?.isSome && !(← peek).isKeyword "to" then skip

def rollback : Reader Command := do
  transactionWords
  if ← tryWord "to" then
    let _ ← tryWord "savepoint"
    return .rollbackTo (← name)
  return .finish .rollback

/-! ## Commands -/

/-- What `CREATE` makes. -/
def create (d : Database) : Reader Command := do
  if (← tryWord "temp") || (← tryWord "temporary") then
    throw (.unsupported "A temporary table")
  if ← tryWord "table" then return ← createTable d
  if ← tryWord "view" then return ← createView d
  if ← tryWord "unique" then
    word "index"
    return ← createIndex d true
  if ← tryWord "index" then return ← createIndex d false
  if (← peek).isKeyword "trigger" || (← peek).isKeyword "virtual" then
    throw (.unsupported "A trigger or virtual table")
  unexpected

def drop : Reader Command := do
  let kind? : Option EntryKind :=
    [("table", EntryKind.table), ("view", .view), ("index", .index)].lookup (← peek).keyword
  match kind? with
  | none => unexpected
  | some kind =>
      skip
      let lenient ← tryWords ["if", "exists"]
      return .drop kind lenient (← tableName)

/-- A setting, with a value that has no effect. -/
def pragma : Reader Command := do
  let n ← tableName
  let value : Reader Unit := do
    if !(← trySymbol "-") then let _ ← trySymbol "+"
    lexeme fun l =>
      if l.kind = .number || l.name?.isSome || l.isKeyword "on" || l.isKeyword "delete" ||
        l.isKeyword "default" then some () else none
  if ← trySymbol "=" then
    value
    return .pragma n.name true
  if (← peek).isSymbol "(" then
    parenthesized value
    return .pragma n.name true
  return .pragma n.name false

/-- Commands that are not carried out. -/
def otherCommands : List String :=
  ["alter", "analyze", "attach", "detach", "explain", "reindex", "vacuum", "with"]

def command (d : Database) : Reader Command := do
  if ← atSelection then return .select (← selection)
  if ← tryWord "insert" then
    let c ← orConflict
    word "into"
    return ← insert c
  if ← tryWord "replace" then
    word "into"
    return ← insert (some .replace)
  if ← tryWord "update" then return ← update
  if ← tryWord "delete" then return ← delete
  if ← tryWord "create" then return ← create d
  if ← tryWord "drop" then return ← drop
  if ← tryWord "begin" then
    if !(← tryWord "deferred") && !(← tryWord "immediate") then let _ ← tryWord "exclusive"
    transactionWords
    return .begin
  if (← tryWord "commit") || (← tryWord "end") then
    transactionWords
    return .finish .commit
  if ← tryWord "rollback" then return ← rollback
  if ← tryWord "savepoint" then return .savepoint (← name)
  if ← tryWord "release" then
    let _ ← tryWord "savepoint"
    return .release (← name)
  if ← tryWord "pragma" then return ← pragma
  let l ← peek
  if otherCommands.contains l.keyword then throw (.unsupported ("The command " ++ l.text))
  unexpected

end Reader

/-- A command as read: with its parameters, and the text after its semicolon. -/
structure Reading where
  command : Command
  params : List (String × Nat)
  places : Nat
  rest : List Char

/-- Leading semicolons are empty commands. -/
def skipEmpty : List Lexeme → List Lexeme
  | l :: rest => if l.isSymbol ";" then skipEmpty rest else l :: rest
  | [] => []

/-- The first command of a text, when there is one. -/
def readCommand (d : Database) (sql : String) : Except Fault (Option Reading) := do
  let ls := skipEmpty (lexemes sql.toList)
  if (ls.headD ⟨.stop, [], []⟩).kind = .stop then return none
  let whole : Reader (Command × Bool) := do
    let c ← Reader.command d
    let ended ← Reader.trySymbol ";"
    if !ended && (← Reader.peek).kind != .stop then Reader.unexpected
    return (c, ended)
  let ((command, ended), s) ← whole { rest := ls }
  return some {
    command, params := s.params, places := s.places
    rest := if ended then source s.rest else [] }

end GraphStore.Sqlite
