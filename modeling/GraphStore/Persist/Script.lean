import GraphStore.Persist.Connection

/-!
# Scripted connections

A connection that answers from a script: the queries in order, each with its own reply, and after
the last one with a default. It can be told to refuse the next start or end of a transaction.
-/

set_option autoImplicit false

namespace GraphStore

/-- One step of a reply. `labels` name the rows that follow. -/
inductive ScriptItem where
  | labels (names : List String)
  | affected (count : UInt64)
  | row (values : List Value)
  | error (e : Error)

/-- The replies still to be given, `none` standing for the default, the number in the next default
reply, and the refusals that are due. -/
structure Script where
  replies : List (Option (List ScriptItem))
  nextKey : Int64 := 101
  refuseBegin : Option String := none
  refuseCommit : Option String := none
  refuseRollback : Option String := none

namespace Script

/-- What a reply yields, its rows under the labels given last. -/
def yieldOf (labels : List String) : List ScriptItem → Yield
  | [] => []
  | .labels names :: rest => yieldOf names rest
  | .affected n :: rest => .ok (.affected n) :: yieldOf labels rest
  | .row values :: rest => .ok (.row ⟨labels, values⟩) :: yieldOf labels rest
  | .error e :: rest => .error e :: yieldOf labels rest

/-- One row affected, and a row with the number `key`. -/
def defaultYield (key : Int64) : Yield :=
  [.ok (.affected 1), .ok (.row ⟨["key"], [.int64 (some key)]⟩)]

def run (_ : Query) (s : Script) : Answer Script Yield :=
  match s.replies with
  | some reply :: rest => { value := yieldOf [] reply, state := { s with replies := rest } }
  | none :: rest =>
      { value := defaultYield s.nextKey,
        state := { s with replies := rest, nextKey := s.nextKey + 1 } }
  | [] => { value := defaultYield s.nextKey, state := { s with nextKey := s.nextKey + 1 } }

/-- The refusal that is due, as an error. -/
def refusal (due : Option String) : Except Error Unit :=
  match due with
  | none => .ok ()
  | some text => fail (.reported text)

/-- The connection that follows a script in a dialect. -/
def connection (d : Dialect) : Connection Script where
  dialect := d
  begin s := { value := refusal s.refuseBegin, state := { s with refuseBegin := none } }
  commit s := { value := refusal s.refuseCommit, state := { s with refuseCommit := none } }
  rollback s := { value := refusal s.refuseRollback, state := { s with refuseRollback := none } }
  run := run

end Script

end GraphStore
