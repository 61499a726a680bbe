import GraphStore.Persist.Insert
import GraphStore.Statement.Delete

/-!
# Updating graphs

An update writes the row of a record, and the relations that are included. Included references
are saved first and their keys copied; included collections are saved afterwards, and the rows
that are no longer in them are removed. Saving inserts what is new and updates what is stored.
-/

set_option autoImplicit false

namespace GraphStore.Store

variable {σ : Type}

/-- Updates the row of the record worked on, which must be there. -/
def updateRow (store : Store σ) (map : EntityMap) (fields : Option (List String)) :
    Work σ Record Unit := do
  let s ← Work.ofEdit (Edit.update map fields)
  let count ← store.executeStatement (.update s)
  expectOne count map .update

/-- Inserts the record worked on when it is new, and updates it otherwise. A row of keys and
fixed columns has nothing to update. -/
def saveRecord (store : Store σ) : Work σ Record Unit := do
  let map ← store.mapOf (← Work.subject).type
  if ← Work.ofExcept (map.hasEmptyKey (← Work.subject)) then store.insertRecord false
  else if map.columns.any (·.isWritable) then store.updateRow map none
  else pure ()

/-- Saves the record of a single reference and copies its key. -/
def saveReference (store : Store σ) (map : EntityMap) (r : RelationDef) :
    Work σ Record Unit := do
  let target ← store.targetOf r
  match (← Work.subject).reference? r.property with
  | none => pure ()
  | some child => do
      Work.framed (.saving r.property map.table.name)
        (Work.onItem r.property 0 child store.saveRecord)
      match (← Work.subject).reference? r.property with
      | some child => Work.assignField r.localKey (← Work.ofExcept (target.read child r.foreignKey))
      | none => pure ()

/-- Saves one item of a collection under the key of its owner. -/
def saveItem (store : Store σ) (map : EntityMap) (r : RelationDef) (key : Value) (i : Nat) :
    Work σ Record Unit := do
  match ((← Work.subject).items r.property)[i]? with
  | none => pure ()
  | some child =>
      Work.onItem r.property i child do
        Work.assignField r.foreignKey key
        Work.framed (.savingItem i r.property map.table.name) store.saveRecord

/-- Saves a collection and removes the rows that are no longer in it. -/
def reconcile (store : Store σ) (map : EntityMap) (r : RelationDef) : Work σ Record Unit := do
  let key ← Work.ofExcept (map.read (← Work.subject) r.localKey)
  let count := (((← Work.subject).collection? r.property).getD []).length
  (List.range count).forM (store.saveItem map r key)
  let keep := ((← Work.subject).collection? r.property).getD []
  let s ← Work.ofSupply (store.model.deleteOrphans r key keep)
  let removed ← store.executeStatement s
  Work.log [.debug ("Removed " ++ toString removed ++ " rows no longer in " ++
    ticked r.property ++ " of " ++ ticked map.table.name)]

/-- The relations of one kind that are included. -/
def included (map : EntityMap) (includes : List String) (kind : RelationKind) :
    List RelationDef :=
  (map.relationsOf kind).filter fun r => includes.contains r.property

/-- Everything that is included must be a relation. -/
def checkIncludes (map : EntityMap) : List String → Work σ Record Unit
  | [] => pure ()
  | name :: rest => do
      if (map.relation? name).isNone then
        Work.reportedFailure (.unknownRelation map.table.name name)
      checkIncludes map rest

/-- The update of the record worked on with the relations in `includes`; of its own columns only
`fields`, when they are given. -/
def updateRecord (store : Store σ) (includes : List String) (fields : Option (List String)) :
    Work σ Record Unit := do
  let map ← store.mapOf (← Work.subject).type
  checkIncludes map includes
  (included map includes .manyToOne).forM (store.saveReference map)
  store.updateRow map fields
  (included map includes .oneToMany).forM (store.reconcile map)

/-- Updates a record and its included relations in a transaction of its own. -/
def update (store : Store σ) (includes : List String) : Work σ Record Unit :=
  store.transaction (store.updateRecord includes none)

/-- Updates only the columns of `fields`, and the auto timestamp, in a transaction of its own. -/
def updateFields (store : Store σ) (fields : List String) : Work σ Record Unit :=
  store.transaction (store.updateRecord [] (some fields))

end GraphStore.Store
