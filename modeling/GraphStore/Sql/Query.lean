import GraphStore.Text.Truncate
import GraphStore.Value.Basic

/-!
# Queries and their results

A query is a text with its parameters in order of appearance. Running it yields rows, whose
values are labelled by column, and counts of affected rows.
-/

set_option autoImplicit false

namespace GraphStore

/-- A named parameter with the value bound to it. -/
structure Param where
  name : String
  value : Value
deriving DecidableEq, Repr

structure Query where
  sql : String
  params : List Param := []
deriving DecidableEq, Repr

/-- A query as it is shown: its text, abridged. -/
def Query.text (q : Query) : String := Text.abridge q.sql

/-- A result row; `labels` name the places of `values`. -/
structure Row where
  labels : List String
  values : List Value
deriving DecidableEq, Repr

/-- The value under the first label of that name. -/
def Row.column? (r : Row) (name : String) : Option Value :=
  match r.labels.findIdx? (· == name) with
  | some i => r.values[i]?
  | none => none

/-- What running a query yields, one after another. -/
inductive ResultItem where
  | row (r : Row)
  | affected (count : UInt64)
deriving DecidableEq, Repr

/-- The total of several counts. -/
def totalAffected (counts : List UInt64) : UInt64 := counts.foldr (· + ·) 0

end GraphStore
