import GraphStore.Record.Prototype

/-!
# The team entities

Players of teams: a required reference between two tables with counted keys.
-/

set_option autoImplicit false

namespace GraphStore.Conformance.Transactions

def team : EntityType where
  prototype := .mk "tx::Team"
    [initialField "id" (.optional .int32), initialField "name" .text] []
  declaration :=
    { table := "teams", columns := [generatedColumn "id", column "name"] }

def player : EntityType where
  prototype := .mk "tx::Player"
    [initialField "id" (.optional .int32), initialField "name" .text,
      initialField "team_id" (.optional .int32)]
    [referenceSlot "team" "tx::Team"]
  declaration :=
    { table := "players"
      columns := [generatedColumn "id", column "name", column "team_id"]
      relations := [manyToOne "team" "tx::Team" "team_id" "id"] }

end GraphStore.Conformance.Transactions
