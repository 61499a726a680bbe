import GraphStore.Sqlite.Action

/-!
# Transactions

A link is a database in use: the world, and what it goes back to when the open transaction, or a
part of it, is rolled back. Outside a transaction every action is one of its own. An action that
fails leaves the database as it was before, unless a rule says otherwise; the numbers that later
statements can ask for are kept.
-/

set_option autoImplicit false

namespace GraphStore.Sqlite

/-- The open transaction. -/
structure Transaction where
  /-- The database as it was at the start. -/
  before : Database
  /-- A savepoint started it, and releasing that savepoint commits it. -/
  bySavepoint : Bool := false
  /-- The savepoints with the database as it was at each, the newest first. -/
  savepoints : List (String × Database) := []

structure Link where
  world : World := {}
  transaction : Option Transaction := none
  readOnly : Bool := false

namespace Link

def withDatabase (l : Link) (d : Database) : Link := { l with world := { l.world with database := d } }

/-- The end of the open transaction, with the changes undone. -/
def rolledBack (l : Link) : Link :=
  match l.transaction with
  | none => l
  | some t => { l.withDatabase t.before with transaction := none }

/-- The end of the open transaction, with the changes kept. No row may be left without its
parent. -/
def committed (l : Link) : Except Fault Link :=
  if l.world.database.hasOrphan true then .error .foreignKeyFailed
  else .ok { l with transaction := none }

/-! ## Changes -/

/-- Sets the number of rows changed last. -/
def settle (counted : Bool) (n : Nat) (w : World) : World :=
  if counted then { w with changes := n, totalChanges := w.totalChanges + n, ongoing := 0 } else w

/-- The link after a failed change that left the world `w`. -/
def undone (l : Link) (undo : Undo) (counted : Bool) (w : World) : Link :=
  let restored : Link :=
    { l with world := settle counted 0 { w with database := l.world.database } }
  match undo with
  | .nothing => { l with world := settle counted w.ongoing w }
  | .statement => restored
  | .transaction => restored.rolledBack

/-- Carries out a change. When it ends, no row may be without its parent, unless that may wait
for the end of an open transaction. -/
def change (l : Link) (counted : Bool) (c : Change (List (List Cell))) :
    Flow (List Cell) × Link :=
  let failed (f : Fault) (l : Link) : Flow (List Cell) × Link := (⟨[], some f⟩, l)
  if l.readOnly then failed .readOnly l
  else
    match c { l.world with ongoing := 0 } with
    | .error f w => failed f.fault (l.undone f.undo counted w)
    | .ok rows w =>
        if w.database.hasOrphan false || (l.transaction.isNone && w.database.hasOrphan true) then
          failed .foreignKeyFailed (l.undone .statement counted w)
        else (.ofList rows, { l with world := settle counted w.ongoing w })

/-! ## Savepoints -/

def addSavepoint (l : Link) (name : String) : Link :=
  let t := l.transaction.getD { before := l.world.database, bySavepoint := true }
  let savepoints := (name, l.world.database) :: t.savepoints
  { l with transaction := some { t with savepoints } }

/-- The open transaction, and its savepoints from the newest of a name on. -/
def savepoint? (l : Link) (name : String) :
    Option (Transaction × (String × Database) × List (String × Database)) := do
  let t ← l.transaction
  match t.savepoints.dropWhile fun s => !sameName s.1 name with
  | [] => none
  | s :: older => some (t, s, older)

/-- Forgets a savepoint and those after it. -/
def release (l : Link) (name : String) : Except Fault Link :=
  match l.savepoint? name with
  | none => .error (.noSavepoint name)
  | some (t, _, older) =>
      if older.isEmpty && t.bySavepoint then l.committed
      else .ok { l with transaction := some { t with savepoints := older } }

/-- Goes back to a savepoint, which stays. -/
def rollbackTo (l : Link) (name : String) : Except Fault Link :=
  match l.savepoint? name with
  | none => .error (.noSavepoint name)
  | some (t, s, older) =>
      .ok { l.withDatabase s.2 with transaction := some { t with savepoints := s :: older } }

/-! ## Actions -/

/-- The link without a change, or the next one. -/
def moved (l : Link) (next : Except Fault Link) : Flow (List Cell) × Link :=
  match next with
  | .ok next => (.empty, next)
  | .error f => (⟨[], some f⟩, l)

/-- Carries out an action: the rows it yields, and the link afterwards. -/
def perform (l : Link) (params : List Cell) : Action → Flow (List Cell) × Link
  | .query r => (r.rows { world := l.world, params }, l)
  | .write w => l.change true (w.run params)
  | .define none => (.empty, l)
  | .define (some c) => l.change false do
      c params
      return []
  | .begin => l.moved <|
      if l.transaction.isSome then .error .nestedTransaction
      else .ok { l with transaction := some { before := l.world.database } }
  | .finish e => l.moved <|
      if l.transaction.isNone then .error (.noTransaction e)
      else
        match e with
        | .commit => l.committed
        | .rollback => .ok l.rolledBack
  | .savepoint n => (.empty, l.addSavepoint n)
  | .release n => l.moved (l.release n)
  | .rollbackTo n => l.moved (l.rollbackTo n)
  | .nothing => (.empty, l)

end Link

end GraphStore.Sqlite
