import GraphStore.Journal
import GraphStore.Sql.Dialect

/-!
# Connections

A connection is given by its own state and by what it does with it: running a query, and starting
and ending a transaction. Nothing else is assumed of it, so it can be a database or a script. It
may also write to the journal.
-/

set_option autoImplicit false

namespace GraphStore

/-- What a connection answers, what it wrote to the journal, and its state afterwards. -/
structure Answer (σ α : Type) where
  value : α
  journal : List LogEntry := []
  state : σ

/-- What a query yields: rows and counts, and errors in their place. -/
abbrev Yield := List (Except Error ResultItem)

/-- A connection with states in `σ`. -/
structure Connection (σ : Type) where
  dialect : Dialect
  begin : σ → Answer σ (Except Error Unit)
  commit : σ → Answer σ (Except Error Unit)
  rollback : σ → Answer σ (Except Error Unit)
  run : Query → σ → Answer σ Yield

/-- One call of a connection, with what it answered. -/
inductive Call where
  | begin (answer : Except Error Unit)
  | query (q : Query) (answer : Yield)
  | commit (answer : Except Error Unit)
  | rollback (answer : Except Error Unit)

namespace Yield

/-- The total of the counts, or the first error. -/
def affected : Yield → Except Error UInt64
  | [] => .ok 0
  | .error e :: _ => .error e
  | .ok (.affected n) :: rest => (affected rest).map (n + ·)
  | .ok (.row _) :: rest => affected rest

/-- The rows, or the first error. -/
def rows : Yield → Except Error (List Row)
  | [] => .ok []
  | .error e :: _ => .error e
  | .ok (.affected _) :: rest => rows rest
  | .ok (.row r) :: rest => (rows rest).map (r :: ·)

end Yield

end GraphStore
