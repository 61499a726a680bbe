import GraphStore.Sqlite.Definition
import GraphStore.Sqlite.Grammar.Expr

/-!
# Reading definitions

The definition of a table is checked while it is read, so a name that is taken is reported before
anything that follows it. Where a table is there already and that is no fault, the rest is read
without being checked.
-/

set_option autoImplicit false

namespace GraphStore.Sqlite

/-- The collation of a name. -/
def collationNamed (name : String) : Except Fault Collation :=
  if sameName name "binary" then .ok .binary
  else if sameName name "nocase" then .ok .noCase
  else if sameName name "rtrim" then .ok .rightTrim
  else .error (.unknownCollation name)

namespace Reader

def ifNotExists : Reader Bool := tryWords ["if", "not", "exists"]

/-- A name, and a schema in front of it, as they are written. -/
def qualifiedLexemes : Reader (Option Lexeme × Lexeme) := do
  let first ← peek
  let _ ← name
  if ← trySymbol "." then
    let second ← peek
    let _ ← name
    return (some first, second)
  return (none, first)

def tableName : Reader TableName := do
  let (schema, l) ← qualifiedLexemes
  return ⟨schema.bind Lexeme.name?, (l.name?).getD ""⟩

/-- What a schema that is not there is called in a message. -/
def checkSchema (schema : Option Lexeme) : Reader Unit := do
  match schema with
  | none => return ()
  | some l =>
      let n := (l.name?).getD ""
      if !(sameName n "main" || sameName n "temp") then throw (.unknownDatabase l.text)

def checkName (n : String) : Reader Unit := do
  if isReserved n then throw (.reservedName n)

/-! ## Rules -/

def conflictNamed? (l : Lexeme) : Option Conflict :=
  [("abort", Conflict.abort), ("fail", .fail), ("ignore", .ignore), ("replace", .replace),
    ("rollback", .rollback)].lookup l.keyword

def onConflict : Reader (Option Conflict) := do
  if (← peek).isKeyword "on" && (← peekSecond).isKeyword "conflict" then
    skip
    skip
    return some (← lexeme conflictNamed?)
  return none

def nameList : Reader (List String) := do parenthesized (commaList name (← fuel))

/-- Columns of a key: names, which may have an order. -/
def keyColumns : Reader (List String) := do
  let n ← fuel
  let column : Reader String := do
    let e ← readExpr n 0
    let _ ← orderDirection
    match e with
    | .name [] c _ => return c
    | .collate (.name [] c _) _ => return c
    | .constant (.text bytes) => return Text.readUtf8 bytes
    | _ => throw (.unsupported "A key of expressions")
  parenthesized (commaList column n)

def referenceAction : Reader ReferenceAction := do
  if ← tryWords ["no", "action"] then return .none
  if ← tryWord "restrict" then return .restrict
  if ← tryWord "cascade" then return .cascade
  word "set"
  if ← tryWord "null" then return .setNull
  word "default"
  return .setDefault

/-- When a reference is checked: whether at the end of the transaction. -/
def deferral : Reader Bool := do
  let negated ← tryWord "not"
  if !(← tryWord "deferrable") then
    if negated then unexpected else return false
  let deferred ←
    if ← tryWord "initially" then
      if ← tryWord "deferred" then pure true
      else do
        word "immediate"
        pure false
    else pure false
  return deferred && !negated

/-- What follows `REFERENCES`. -/
def reference (columns : List Nat) : Reader Reference := do
  let parent ← name
  let parentColumns ← if (← peek).isSymbol "(" then nameList else pure []
  actions (← fuel) { columns, parent, parentColumns }
where
  actions : Nat → Reference → Reader Reference
    | 0, _ => throw .expressionTooDeep
    | fuel + 1, r => do
        if ← tryWord "on" then
          if ← tryWord "delete" then
            return ← actions fuel { r with onDelete := ← referenceAction }
          word "update"
          return ← actions fuel { r with onUpdate := ← referenceAction }
        if ← tryWord "match" then
          let _ ← name
          return ← actions fuel r
        if (← peek).isKeyword "deferrable" ||
            ((← peek).isKeyword "not" && (← peekSecond).isKeyword "deferrable") then
          return ← actions fuel { r with deferred := ← deferral }
        return r

/-- A condition in parentheses, with its text. -/
def condition : Reader (Expr × String) := parenthesized (withText expr)

/-- A table under definition, absent when its definition does not count. -/
abbrev Draft := Option Table

/-- A step of a definition that counts. -/
def define (d : Draft) (f : Table → Except Fault Table) : Reader Draft :=
  match d with
  | none => return none
  | some t => return some (← f t)

/-- The value of a column that is not given. -/
def defaultValue : Reader Expr := do
  if (← peek).isSymbol "(" then return ← parenthesized expr
  if ← trySymbol "+" then return ← readOperand (← fuel)
  let l ← peek
  match l.plainName? with
  | some n =>
      if l.isKeyword "true" || l.isKeyword "false" then skip; return .name [] n false
      if (← peekSecond).isSymbol "(" then unexpected
      skip
      return .constant (.ofText n)
  | none => readOperand (← fuel)

/-- The rules of the column read last. -/
def columnRules : Nat → Option String → Draft → Reader Draft
  | 0, _, _ => throw .expressionTooDeep
  | fuel + 1, label, d => do
      let again := columnRules fuel
      let column (f : ColumnSpec → ColumnSpec) : Draft := d.map (·.mapLastColumn f)
      let place : Nat := d.elim 0 (·.columns.length - 1)
      if ← tryWord "constraint" then return ← again (some (← name)) d
      if ← tryWord "default" then
        let e ← defaultValue
        return ← again none (column ({ · with default := some e }))
      if ← tryWord "null" then
        let _ ← onConflict
        return ← again none d
      if (← peek).isKeyword "not" && !(← peekSecond).isKeyword "deferrable" then
        skip
        word "null"
        let c ← onConflict
        return ← again none (column ({ · with notNull := some (c.getD .abort) }))
      if ← tryWord "primary" then
        word "key"
        let descending ← orderDirection
        let c ← onConflict
        let counted ← tryWord "autoincrement"
        return ← again none (← define d (·.addPrimary [place] descending counted c))
      if ← tryWord "unique" then
        let c ← onConflict
        return ← again none (d.map (·.addKey [place] c))
      if ← tryWord "check" then
        let (e, text) ← condition
        return ← again none (d.map fun t =>
          { t with checks := t.checks ++ [⟨label.getD text, e⟩] })
      if ← tryWord "references" then
        let r ← reference [place]
        return ← again none (d.map fun t => { t with references := t.references ++ [r] })
      if ← tryWord "collate" then
        let c ← collationNamed (← lexeme Lexeme.label?)
        return ← again none (column ({ · with collation := c }))
      if (← peek).isKeyword "generated" || (← peek).isKeyword "as" then
        throw (.unsupported "A generated column")
      return d

/-- The rules of the table, after its columns. -/
def tableRules : Nat → Option String → Draft → Reader Draft
  | 0, _, _ => throw .expressionTooDeep
  | fuel + 1, label, d => do
      let again (d : Draft) : Reader Draft := do
        let _ ← trySymbol ","
        tableRules fuel none d
      if ← tryWord "constraint" then
        let n ← name
        return ← tableRules fuel (some n) d
      if ← tryWord "primary" then
        word "key"
        let columns ← keyColumns
        let c ← onConflict
        return ← again (← define d fun t => do t.addPrimary (← t.places columns) false false c)
      if ← tryWord "unique" then
        let columns ← keyColumns
        let c ← onConflict
        return ← again (← define d fun t => return t.addKey (← t.places columns) c)
      if ← tryWord "check" then
        let (e, text) ← condition
        let _ ← onConflict
        return ← again (d.map fun t => { t with checks := t.checks ++ [⟨label.getD text, e⟩] })
      if ← tryWord "foreign" then
        word "key"
        let columns ← nameList
        word "references"
        let r ← reference []
        return ← again (← define d fun t => do
          return { t with references := t.references ++ [{ r with columns := ← t.places columns }] })
      if (← peek).isSymbol ")" then return d
      unexpected

/-- Whether a rule of the table begins here. -/
def atTableRule : Reader Bool := do
  let l ← peek
  return ["constraint", "primary", "unique", "check", "foreign"].contains l.keyword

def tableColumns : Nat → Draft → Reader Draft
  | 0, _ => throw .expressionTooDeep
  | fuel + 1, d => do
      let n ← name
      let type ← typeName fuel
      let d ← define d (·.addColumn { name := n, type })
      let d ← columnRules fuel none d
      if ← trySymbol "," then
        if ← atTableRule then tableRules fuel none d else tableColumns fuel d
      else return d

/-! ## Definitions -/

/-- The table or view that takes a name, checked against what is there. -/
def newName (d : Database) (schema : Option Lexeme) (l : Lexeme) (lenient : Bool) :
    Reader (Option String) := do
  checkSchema schema
  let n := (l.name?).getD ""
  checkName n
  match d.taken? n with
  | some kind => if lenient then return none else throw (.alreadyExists kind l.text)
  | none =>
      if (d.index? n).isSome then throw (.indexNamed n)
      return some n

/-- A table, after `CREATE TABLE`. -/
def createTable (d : Database) : Reader Command := do
  let lenient ← ifNotExists
  let (schema, l) ← qualifiedLexemes
  let n ← newName d schema l lenient
  let draft : Draft := n.map fun name => { name }
  if ← tryWord "as" then
    let s ← selection
    return .createTableAs draft s
  let (draft, text) ← withText (parenthesized do tableColumns (← fuel) draft)
  if (← peek).isKeyword "without" || (← peek).isKeyword "strict" then
    throw (.unsupported "An option of a table")
  return .createTable (draft.map fun t =>
    { t with written := "CREATE TABLE " ++ l.text ++ " " ++ text })

/-- A view, after `CREATE VIEW`. -/
def createView (d : Database) : Reader Command := do
  let lenient ← ifNotExists
  let (schema, l) ← qualifiedLexemes
  let (columns, columnText) ←
    withText do if (← peek).isSymbol "(" then nameList else pure []
  word "as"
  let (s, text) ← withText selection
  if 0 < (← get).places then throw .parametersInView
  let n ← newName d schema l lenient
  let head := if columnText.isEmpty then "" else " " ++ columnText
  return .createView (n.map fun name =>
    { name, columns, selection := s,
      written := "CREATE VIEW " ++ l.text ++ head ++ " AS " ++ text })

/-- An index, after `CREATE INDEX`. -/
def createIndex (d : Database) (unique : Bool) : Reader Command := do
  let lenient ← ifNotExists
  let (schema, l) ← qualifiedLexemes
  word "on"
  let table ← name
  let (columns, text) ← withText keyColumns
  if (← peek).isKeyword "where" then throw (.unsupported "An index of some rows")
  checkSchema schema
  let n := (l.name?).getD ""
  match d.table? table with
  | none =>
      throw (if (d.view? table).isSome then .unsupported "An index of a view"
        else .missing .table ("main." ++ table))
  | some t =>
      checkName n
      if (d.taken? n).isSome then throw (.alreadyExists .table n)
      if (d.index? n).isSome then
        if lenient then return .createIndex none none else throw (.alreadyExists .index n)
      let places ← t.places columns
      let written := "CREATE " ++ (if unique then "UNIQUE " else "") ++ "INDEX " ++ l.text ++
        " ON " ++ table ++ text
      return .createIndex (some { name := n, table := t.name, written := some written })
        (if unique then some { columns := places, index := some n } else none)

end Reader

end GraphStore.Sqlite
