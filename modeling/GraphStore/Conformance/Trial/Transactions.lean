import GraphStore.Conformance.Transactions
import GraphStore.Conformance.Trial

/-!
# The trial of transactions

What fails halfway leaves nothing behind, also what was stored before it failed; and several
operations can share a transaction that their caller ends.
-/

set_option autoImplicit false

namespace GraphStore.Conformance.Transactions

open Trial

variable {σ : Type}

/-- The number of teams of a name. -/
def countTeams (store : Store σ) (name : String) : Trial σ Nat := do
  let p := Predicate.compare .equal "name" (text name)
  return (← expect "Failed to select teams" (store.select team.name p [] {})).length

/-- A team that is inserted in a transaction of the caller. -/
def insertWithin (store : Store σ) (name : String) (words : String) (ending : Work σ Unit Unit) :
    Trial σ Unit := do
  expect "Could not begin a transaction" store.begin
  let _ ← write "Failed to insert inside the transaction" (newRecord team [("name", text name)] [])
    (store.insertRecord false)
  expect words ending

def trial (store : Store σ) : Trial σ Unit := do
  expect "Failed to drop Player table" (store.dropTable player.name true)
  expect "Failed to drop Team table" (store.dropTable team.name true)
  expect "Failed to create Team table" (store.createTable team.name true)
  expect "Failed to create Player table" (store.createTable player.name true)
  let first ← write "Failed to insert the first player"
    (newRecord player [("name", text "Ada")]
      [("team", [newRecord team [("name", text "Engines")] []])])
    (store.insert false)
  demand !(value first "id").isNull
  demandEqual (value first "team_id") (((first.reference? "team").map (value · "id")).getD .null)
  -- a failure after the cascade undoes what the cascade stored
  let clash := newRecord player [("id", value first "id"), ("name", text "Charles")]
    [("team", [newRecord team [("name", text "Ghosts")] []])]
  let _ ← writeError "Inserting a duplicate key must fail" clash (store.insert true)
  demandEqual (← countTeams store "Ghosts") 0
  -- a required reference that is neither set nor copied
  let e ← writeError "A player without a team must be rejected"
    (newRecord player [("name", text "Nobody")] []) (store.insert false)
  demandEqual e.cause (.requiredRelation "team" "players") "assertion failed"
  -- a transaction of the caller
  insertWithin store "Temporary" "Failed to roll back the transaction" store.rollback
  demandEqual (← countTeams store "Temporary") 0
  insertWithin store "Permanent" "Failed to commit the transaction" store.commit
  demandEqual (← countTeams store "Permanent") 1
  -- an update of some columns
  let id := value first "id"
  let changed := (first.withValue "name" (text "Ada Lovelace")).withValue "team_id" (.int32 none)
  let changed ← write "Failed to update the name" changed (store.updateFields ["name"])
  let stored ← expect "Failed to find the first player" (store.find player.name id ["team"])
  let stored ← present "The first player was not stored" stored
  demandEqual (value stored "name") (text "Ada Lovelace")
  demand (!(value stored "team_id").isNull) "Columns not listed are untouched"
  demandEqual ((stored.reference? "team").map (value · "name")) (some (text "Engines"))
  let _ ← writeError "Keys are not updatable" changed (store.updateFields ["id"])
  -- a deletion affects exactly one row
  let stored ← write "Failed to delete the first player" stored store.delete
  let found ← expect "Failed to look up the deleted player" (store.find player.name id [])
  demand found.isNone
  let _ ← writeError "Deleting a missing row must fail" stored store.delete

end GraphStore.Conformance.Transactions
