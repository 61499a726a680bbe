import GraphStore.Persist.Graphs
import GraphStore.Persist.Session
import GraphStore.Statement.Select

/-!
# Selecting graphs
-/

set_option autoImplicit false

namespace GraphStore.Store

variable {σ ρ : Type}

/-- The records of a type on which a predicate holds, with the included relations loaded. -/
def selectRows (store : Store σ) (type : String) (p : Predicate) (includes : List String)
    (options : SelectOptions) : Work σ ρ (List Record) := do
  let map ← store.mapOf type
  let s ← Work.ofExcept (store.model.select map p includes options)
  let q ← store.render (.select s)
  let rows ← store.fetchQuery q
  Work.ofExcept (store.model.graphs s.segments rows)

/-- Selects in a transaction of its own. -/
def select (store : Store σ) (type : String) (p : Predicate) (includes : List String)
    (options : SelectOptions) : Work σ ρ (List Record) :=
  store.transaction (store.selectRows type p includes options)

/-- The record of a type with the key `id`, if there is one. -/
def findRow (store : Store σ) (type : String) (id : Value) (includes : List String) :
    Work σ ρ (Option Record) := do
  let map ← store.mapOf type
  let p ← Work.ofExcept (map.byId id)
  return (← store.selectRows type p includes {}).head?

/-- Finds a record by key in a transaction of its own. -/
def find (store : Store σ) (type : String) (id : Value) (includes : List String) :
    Work σ ρ (Option Record) :=
  store.transaction (store.findRow type id includes)

end GraphStore.Store
