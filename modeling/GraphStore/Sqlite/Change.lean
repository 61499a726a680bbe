import GraphStore.Sqlite.Reference
import GraphStore.Sqlite.Resolve

/-!
# Changing rows

The rules that a row must keep, and what is done with one that breaks them. A change that fails
says what becomes of what it has done already; most often it is undone.
-/

set_option autoImplicit false

namespace GraphStore.Sqlite

/-- What is undone when a statement fails. -/
inductive Undo where
  | statement | nothing | transaction
deriving DecidableEq, Repr

structure Failure where
  fault : Fault
  undo : Undo := .statement

/-- A change of the world, which may fail halfway. -/
abbrev Change := EStateM Failure World

/-- The scope of the rows of one table, under its own name or another. -/
def Table.scope (t : Table) (label : Option String) : Scope :=
  { sources := [{ name := label.getD t.name, columns := t.views, rowidName := some t.rowidName }] }

/-- The rules of a table, with all names in them looked up. -/
structure RowRules where
  table : String
  checks : List (String × Term)
  /-- For every column, the value of a cell that is not given. -/
  defaults : List Term

namespace Database

/-- The term of the default of a column. -/
def defaultOf (d : Database) (c : ColumnSpec) : Except Fault Term :=
  match c.default with
  | none => .ok default
  | some e => (Context.term { database := d } e).mapError fun _ => .defaultNotConstant c.name

def rulesOf (d : Database) (t : Table) : Except Fault RowRules := do
  let ctx : Context := { database := d, scopes := [t.scope none] }
  return {
    table := t.name
    checks := ← t.checks.mapM fun c => do return (c.name, ← ctx.term c.condition)
    defaults := ← t.columns.mapM d.defaultOf }

end Database

namespace Change

variable {α : Type}

def ofExcept (x : Except Fault α) : Change α :=
  match x with
  | .ok a => return a
  | .error f => throw ⟨f, .statement⟩

/-- Fails because a row breaks a rule. -/
def broken (c : Conflict) (f : Fault) : Change α :=
  throw ⟨f, match c with
    | .fail => .nothing
    | .rollback => .transaction
    | _ => .statement⟩

def table (name : String) : Change Table := return ((← get).database.table? name).getD default

def setTable (t : Table) : Change Unit :=
  modify fun w => { w with database := w.database.setTable t }

/-- A frame with one row in view. -/
def frame (params : List Cell) (row : RowView) : Change Frame :=
  return { world := ← get, params, levels := [⟨[row], []⟩] }

/-- Counts a row that the statement itself has changed. -/
def count : Change Unit := modify fun w => { w with ongoing := w.ongoing + 1 }

/-- Counts a row that was changed because it refers to another. -/
def countReferring : Change Unit := modify fun w => { w with totalChanges := w.totalChanges + 1 }

/-! ## Rows that are referred to -/

/-- Sets the referring columns of a row, when its parent is gone or has changed. -/
def refer (child : String) (r : Reference) (row : StoredRow) (cells : List Cell) : Change Unit := do
  let t ← table child
  let changed := (r.columns.zip cells).foldl (fun (cs : List Cell) (i, c) => cs.set i c) row.cells
  for i in r.columns do
    if (t.column i).notNull.isSome && (changed[i]?.getD Cell.null).isNull then
      throw { fault := .notNullFailed t.name (t.column i).name }
  setTable ((t.erase row.rowid).insert { row with cells := changed })
  countReferring

/-- Does with a referring row as its reference says, when its parent is removed, or gets another
key; removing the row is left to `cascade`. -/
def act (action : ReferenceAction) (child : String) (r : Reference) (row : StoredRow)
    (cascade : Change Unit) : Change Unit := do
  match action with
  | .none => pure ()
  | .restrict => throw { fault := .foreignKeyFailed }
  | .cascade => cascade
  | .setNull => refer child r row (r.columns.map fun _ => .null)
  | .setDefault => do
      let t ← table child
      let d := (← get).database
      let cells ← r.columns.mapM fun i => do
        let value ← ofExcept (d.defaultOf (t.column i))
        ofExcept (value.eval { world := ← get, params := [] })
      refer child r row cells

/-- Removes a row, and does with the rows that refer to it as their references say. -/
def erase : Nat → String → StoredRow → Change Unit
  | 0, _, _ => return ()
  | fuel + 1, name, row => do
      let d := (← get).database
      setTable ((← table name).erase row.rowid)
      for (child, r) in d.referring name do
        for c in d.childrenOf child r row.cells do
          act r.onDelete child.name r c do
            erase fuel child.name c
            countReferring

/-- Replaces a row by another, and likewise. -/
def replace (name : String) (old new : StoredRow) : Change Unit := do
  let d := (← get).database
  setTable (((← table name).erase old.rowid).insert new)
  for (child, r) in d.referring name do
    match d.parent? r with
    | none => pure ()
    | some (_, columns) =>
        let key := Table.keyCells columns new.cells
        if key != Table.keyCells columns old.cells then
          for c in d.childrenOf child r old.cells do
            act r.onUpdate child.name r c (refer child.name r c key)

/-- The number of all rows, which bounds how far removals can spread. -/
def rowCount : Change Nat :=
  return (← get).database.tables.foldl (fun n t => n + t.rows.length) 1

def remove (name : String) (row : StoredRow) : Change Unit := do erase (← rowCount) name row

/-! ## Rules -/

/-- The row with defaults where a null is to be replaced; absent when the row is left out. -/
def checkNulls (rules : RowRules) (asked : Option Conflict) (params : List Cell)
    (cells : List Cell) : Change (Option (List Cell)) := do
  let t ← table rules.table
  let mut cells := cells
  for (c, i) in t.columns.zipIdx do
    if (cells[i]?.getD Cell.null).isNull && t.rowidColumn != some i then
      if let some own := c.notNull then
        let f := Fault.notNullFailed t.name c.name
        match asked.getD own with
        | .ignore => return none
        | .replace =>
            let value ← ofExcept ((rules.defaults[i]?.getD default).eval (← frame params default))
            if value.isNull then broken .abort f
            cells := cells.set i value
        | conflict => broken conflict f
  return some cells

/-- Whether the row keeps all conditions; if not, and that is no fault, it is left out. -/
def checkConditions (rules : RowRules) (asked : Option Conflict) (params : List Cell)
    (rowid : Int64) (cells : List Cell) : Change Bool := do
  for (name, condition) in rules.checks do
    let truth ← ofExcept (condition.truth (← frame params ⟨.integer rowid, cells⟩))
    if truth == some false then
      match asked.getD .abort with
      | .ignore => return false
      | .replace => broken .abort (.checkFailed name)
      | conflict => broken conflict (.checkFailed name)
  return true

/-- Whether the row differs from all others in its rowid and its keys. `self` is the row that is
being changed. Rows in its way are removed if they are to be replaced. -/
def checkKeys (rules : RowRules) (asked : Option Conflict) (self : Option Int64)
    (rowid : Int64) (cells : List Cell) : Change Bool := do
  let t ← table rules.table
  let qualified (i : Nat) : String := t.name ++ "." ++ (t.column i).name
  if self != some rowid then
    if let some other := t.row? rowid then
      let f := Fault.uniqueFailed [t.rowidColumn.elim (t.name ++ ".rowid") qualified]
      match (asked.or t.rowidConflict).getD .abort with
      | .ignore => return false
      | .replace => remove t.name other
      | conflict => broken conflict f
  for k in t.keys do
    if let some other := (← table rules.table).clash? k self cells then
      match (asked.or k.onConflict).getD .abort with
      | .ignore => return false
      | .replace => remove t.name other
      | conflict => broken conflict (.uniqueFailed (k.columns.map qualified))
  return true

/-- The row as it may be stored, or nothing when it is left out. -/
def accept (rules : RowRules) (asked : Option Conflict) (params : List Cell) (self : Option Int64)
    (rowid : Int64) (cells : List Cell) : Change (Option (List Cell)) := do
  match ← checkNulls rules asked params cells with
  | none => return none
  | some cells =>
      if !(← checkConditions rules asked params rowid cells) then return none
      if !(← checkKeys rules asked self rowid cells) then return none
      return some cells

/-! ## Rowids -/

/-- The last rowid that a table has counted up to. -/
def counted (name : String) : Change Int64 := do
  let rows := (← table sequenceTable.name).rows
  match rows.find? fun r => r.cells.head? == some (.ofText name) with
  | some r => return (r.cells[1]?.getD Cell.null).toInteger
  | none => return 0

def setCounted (name : String) (n : Int64) : Change Unit := do
  let t ← table sequenceTable.name
  match t.rows.find? fun r => r.cells.head? == some (.ofText name) with
  | some r => setTable ((t.erase r.rowid).insert { r with cells := [.ofText name, .integer n] })
  | none =>
      let rowid := t.lastRowid?.elim 1 (· + 1)
      setTable (t.insert ⟨rowid, [.ofText name, .integer n]⟩)

/-- The rowid of a new row: one more than the last, and than the last that was counted. -/
def newRowid (t : Table) (last : Int64) : Except Fault Int64 :=
  match t.lastRowid? with
  | none => if t.counted then next last else .ok 1
  | some n => if t.counted then next (if n < last then last else n) else next n
where
  next (n : Int64) : Except Fault Int64 :=
    if n = Int64.maxValue then .error .full else .ok (n + 1)

/-- The rowid that a cell gives, absent for null. -/
def rowidOf (c : Cell) : Except Fault (Option Int64) :=
  match Affinity.toNumeric c with
  | .null => .ok none
  | .integer n => .ok (some n)
  | _ => .error .typeMismatch

/-- The cells as the columns store them, with the rowid in the column that stands for it. -/
def stored (t : Table) (rowid : Int64) (cells : List Cell) : List Cell :=
  cells.zipIdx.map fun (c, i) =>
    if t.rowidColumn = some i then .integer rowid else (t.affinity i).store c

end Change

end GraphStore.Sqlite
