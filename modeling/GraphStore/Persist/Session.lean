import GraphStore.Persist.Connection
import GraphStore.Record.Editing
import GraphStore.Sql.Render

/-!
# Sessions

A session is a connection in use: its state, the calls made so far, the journal, the supply of
identifiers and times, and the subject that is worked on, which is a record or nothing. Work that
fails leaves the session, and the subject, as they were when it failed.
-/

set_option autoImplicit false

namespace GraphStore

/-- A model and a connection to store its records on. -/
structure Store (σ : Type) where
  model : Model
  connection : Connection σ

structure Session (σ ρ : Type) where
  subject : ρ
  link : σ
  supply : Supply
  calls : List Call := []
  journal : List LogEntry := []

/-- The session with another subject. -/
def Session.on {σ ρ ρ' : Type} (s : Session σ ρ) (subject : ρ') : Session σ ρ' :=
  { subject, link := s.link, supply := s.supply, calls := s.calls, journal := s.journal }

/-- Work in a session that may fail. -/
abbrev Work (σ ρ : Type) := EStateM Error (Session σ ρ)

namespace Work

variable {σ ρ α : Type}

/-- Writes to the journal. -/
def log (entries : List LogEntry) : Work σ ρ Unit :=
  modify fun s => { s with journal := s.journal ++ entries }

/-- Fails with a cause, which is reported. -/
def reportedFailure (cause : Cause) : Work σ ρ α := do
  log [.error cause.message]
  throw (.of cause)

/-- A computation outside the session. A type that cannot be mapped is reported. -/
def ofExcept (x : Except Error α) : Work σ ρ α := do
  log (journalOf x)
  match x with
  | .ok a => return a
  | .error e => throw e

/-- A computation that draws from the supply. -/
def ofSupply (x : Supply → Except Error (α × Supply)) : Work σ ρ α := do
  let (a, supply) ← ofExcept (x (← get).supply)
  modify fun s => { s with supply }
  return a

/-- Work whose errors get a frame around them. -/
def framed (frame : Frame) (work : Work σ ρ α) : Work σ ρ α := fun s =>
  match work s with
  | .ok a s => .ok a s
  | .error e s => .error (e.inside frame) s

/-! ## The subject -/

/-- The record worked on. -/
def subject : Work σ Record Record := fun s => .ok s.subject s

/-- An edit of the record worked on. -/
def ofEdit (edit : Edit α) : Work σ Record α := fun s =>
  match edit ⟨s.subject, s.supply⟩ with
  | .ok a b => .ok a { s with subject := b.record, supply := b.supply }
  | .error e b => .error e { s with subject := b.record, supply := b.supply }

/-- Assigns a field of the record worked on. -/
def assignField (property : String) (v : Value) : Work σ Record Unit :=
  ofEdit (Edit.assignField property v)

/-- Works on the record `child` at place `i` of a slot; it is put back there afterwards. -/
def onItem (property : String) (i : Nat) (child : Record) (work : Work σ Record α) :
    Work σ Record α := fun s =>
  let putBack (t : Session σ Record) : Session σ Record :=
    { t with subject := s.subject.withItems property ((s.subject.items property).set i t.subject) }
  match work { s with subject := child } with
  | .ok a t => .ok a (putBack t)
  | .error e t => .error e (putBack t)

end Work

namespace Store

variable {σ ρ α : Type}

/-! ## Calls of the connection -/

/-- Starts or ends a transaction, keeping the call. -/
def transactionCall (call : σ → Answer σ (Except Error Unit)) (note : Except Error Unit → Call) :
    Work σ ρ Unit := fun s =>
  let answer := call s.link
  let s := { s with link := answer.state, calls := s.calls ++ [note answer.value],
                    journal := s.journal ++ answer.journal }
  match answer.value with
  | .ok _ => .ok () s
  | .error e => .error e s

def begin (store : Store σ) : Work σ ρ Unit := transactionCall store.connection.begin .begin

def commit (store : Store σ) : Work σ ρ Unit := transactionCall store.connection.commit .commit

def rollback (store : Store σ) : Work σ ρ Unit :=
  transactionCall store.connection.rollback .rollback

/-- Runs a query, keeping the call. -/
def run (store : Store σ) (q : Query) : Work σ ρ Yield := fun s =>
  let answer := store.connection.run q s.link
  .ok answer.value
    { s with link := answer.state, calls := s.calls ++ [.query q answer.value],
             journal := s.journal ++ answer.journal }

/-- Runs a query for the number of rows it affects. -/
def execute (store : Store σ) (q : Query) : Work σ ρ UInt64 := do
  match (← store.run q).affected with
  | .ok n => return n
  | .error e => throw e

/-- Runs a query for its rows. -/
def fetch (store : Store σ) (q : Query) : Work σ ρ (List Row) := do
  match (← store.run q).rows with
  | .ok rows => return rows
  | .error e => throw e

/-! ## Statements -/

/-- Work on a query, whose errors name the query and are reported. -/
def reporting (q : Query) (work : Work σ ρ α) : Work σ ρ α := fun s =>
  match work s with
  | .ok a s => .ok a s
  | .error e s =>
      let e := e.inside (.executing q.sql)
      .error e { s with journal := s.journal ++ [.error e.message] }

/-- The query of a statement, which is noted in the journal. -/
def render (store : Store σ) (s : Statement) : Work σ ρ Query := do
  let q := store.connection.dialect.render s
  Work.log (s.journal ++ [.debug q.text])
  return q

def executeQuery (store : Store σ) (q : Query) : Work σ ρ UInt64 :=
  reporting q (store.execute q)

def fetchQuery (store : Store σ) (q : Query) : Work σ ρ (List Row) := reporting q (store.fetch q)

/-- Executes a statement: the number of rows it affected. -/
def executeStatement (store : Store σ) (s : Statement) : Work σ ρ UInt64 := do
  store.executeQuery (← store.render s)

/-- A write of one row must have affected exactly one. -/
def expectOne (count : UInt64) (map : EntityMap) (action : RowAction) : Work σ ρ Unit :=
  if count = 1 then pure () else Work.reportedFailure (.unexpectedCount action map.table.name count)

/-- The map of a type. -/
def mapOf (store : Store σ) (type : String) : Work σ ρ EntityMap :=
  Work.ofExcept (store.model.entityMap type)

/-- The map of the target of a relation. -/
def targetOf (store : Store σ) (r : RelationDef) : Work σ ρ EntityMap :=
  Work.ofExcept (store.model.target r)

/-! ## Transactions -/

/-- Runs `body` in a transaction of its own, committed when it succeeds and rolled back when it
fails. An error of the rollback is only reported: the error of `body` is what went wrong. -/
def transaction (store : Store σ) (body : Work σ ρ α) : Work σ ρ α := fun s =>
  match store.begin s with
  | .error e s => .error e s
  | .ok _ s =>
      match body s with
      | .ok a s =>
          match store.commit s with
          | .ok _ s => .ok a s
          | .error e s => .error e s
      | .error e s =>
          match store.rollback s with
          | .ok _ s => .error e s
          | .error r s => .error e { s with
              journal := s.journal ++
                [.error ("Rollback failed, the original error follows: " ++ r.message)] }

end Store

end GraphStore
