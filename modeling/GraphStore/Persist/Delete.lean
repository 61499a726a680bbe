import GraphStore.Persist.Session
import GraphStore.Statement.Delete

/-!
# Deleting and defining tables

Records are deleted by key or by a predicate. What a deleted record owns is never deleted with
it.
-/

set_option autoImplicit false

namespace GraphStore.Store

variable {σ ρ : Type}

/-- The deletion of the row of the record worked on, which must be there. -/
def deleteRecord (store : Store σ) : Work σ Record Unit := do
  let map ← store.mapOf (← Work.subject).type
  let s ← Work.ofEdit (Edit.delete map)
  let count ← store.executeStatement s
  expectOne count map .delete

/-- Deletes a record in a transaction of its own. -/
def delete (store : Store σ) : Work σ Record Unit := store.transaction store.deleteRecord

/-- The deletion of the rows of a type on which a predicate holds; the number of them. -/
def deleteRows (store : Store σ) (type : String) (p : Predicate) : Work σ ρ UInt64 := do
  let map ← store.mapOf type
  let s ← Work.ofSupply (store.model.deleteWhere map p)
  store.executeStatement s

/-- Deletes the rows on which a predicate holds in a transaction of its own. -/
def deleteWhere (store : Store σ) (type : String) (p : Predicate) : Work σ ρ UInt64 :=
  store.transaction (store.deleteRows type p)

/-- Creates the table of a type. -/
def createTable (store : Store σ) (type : String) (ifNotExists : Bool) : Work σ ρ Unit := do
  let map ← store.mapOf type
  let _ ← store.executeStatement (.createTable (map.createTable ifNotExists))

/-- Drops the table of a type. -/
def dropTable (store : Store σ) (type : String) (ifExists : Bool) : Work σ ρ Unit := do
  let map ← store.mapOf type
  let _ ← store.executeStatement (.dropTable (map.dropTable ifExists))

end GraphStore.Store
