import GraphStore.Persist.Session
import GraphStore.Statement.Insert

/-!
# Inserting graphs

`Store.insertRecord` inserts a record with the new records it refers to and owns, in an order in
which every key is known before it is needed:

1. new records in single references, whose keys are then copied into the record;
2. the record itself, whose generated key is read back;
3. new records in collections, after the key of the record has been copied into them.

A required reference that is neither set nor copied is an error. Records that are stored already
are left alone.
-/

set_option autoImplicit false

namespace GraphStore.Store

variable {σ : Type}

/-! ## The row of one record -/

/-- Inserts a row whose key the database generates, and returns that key: from the insert itself,
or from the query that the dialect has for it. -/
def insertReturningKey (store : Store σ) (s : InsertStatement) : Work σ Record Value := do
  let q ← store.render (.insert s)
  let rows ← match store.connection.dialect.generatedKeyQuery with
    | some followUp => do
        let _ ← store.executeQuery q
        store.fetchQuery followUp
    | none => store.fetchQuery q
  match rows.head?.bind (·.values.head?) with
  | some v =>
      if v.isNull then Work.reportedFailure (.keyNotReturned s.table.name) else return v
  | none => Work.reportedFailure (.keyNotReturned s.table.name)

/-- Inserts the row of the record worked on. -/
def insertRow (store : Store σ) (s : InsertStatement) : Work σ Record Unit := do
  match s.generatedKey with
  | some key => do
      let v ← store.insertReturningKey s
      Work.assignField key.property v
  | none => do
      let _ ← store.executeStatement (.insert s)

/-! ## The cascade -/

/-- Whether the record worked on is stored already. -/
def isStored (map : EntityMap) : Work σ Record Bool := do
  if map.keys.isEmpty then return false
  return !(← Work.ofExcept (map.hasEmptyKey (← Work.subject)))

/-- One single reference: its record is inserted by `cascade` if it is new, and its key copied. -/
def insertReference (store : Store σ) (cascade : Work σ Record Unit) (map : EntityMap)
    (r : RelationDef) : Work σ Record Unit := do
  let target ← store.targetOf r
  match (← Work.subject).reference? r.property with
  | some child => do
      if ← Work.ofExcept (target.hasEmptyKey child) then
        Work.framed (.inserting r.property map.table.name) (Work.onItem r.property 0 child cascade)
      match (← Work.subject).reference? r.property with
      | some child => Work.assignField r.localKey (← Work.ofExcept (target.read child r.foreignKey))
      | none => pure ()
  | none => do
      if r.nullable then return
      if !(← Work.ofExcept (map.read (← Work.subject) r.localKey)).isEmptyKey then return
      Work.reportedFailure (.requiredRelation r.property map.table.name)

/-- One item of a collection: if it is new it gets the key of its owner and is inserted by
`cascade`. -/
def insertItem (cascade : Work σ Record Unit) (map target : EntityMap) (r : RelationDef)
    (key : Value) (i : Nat) : Work σ Record Unit := do
  match ((← Work.subject).items r.property)[i]? with
  | none => pure ()
  | some child => do
      if !(← Work.ofExcept (target.hasEmptyKey child)) then return
      Work.onItem r.property i child do
        Work.assignField r.foreignKey key
        Work.framed (.insertingItem i r.property map.table.name) cascade

/-- One collection, item by item. -/
def insertCollection (store : Store σ) (cascade : Work σ Record Unit) (map : EntityMap)
    (r : RelationDef) : Work σ Record Unit := do
  let target ← store.targetOf r
  let key ← Work.ofExcept (map.read (← Work.subject) r.localKey)
  match (← Work.subject).collection? r.property with
  | none => pure ()
  | some items => (List.range items.length).forM (insertItem cascade map target r key)

/-- The insertion of a record and what is below it, for graphs of at most `levels` levels. -/
def insertLevels (store : Store σ) : Nat → Bool → Work σ Record Unit
  | 0, _ => do throw (.of (.nestedTooDeeply (← Work.subject).typeName))
  | levels + 1, forced => do
      let map ← store.mapOf (← Work.subject).type
      if !forced && (← isStored map) then return
      let cascade := store.insertLevels levels false
      (map.relationsOf .manyToOne).forM (store.insertReference cascade map)
      match ← Work.ofEdit (Edit.insert map forced) with
      | none => return
      | some s => do
          store.insertRow s
          (map.relationsOf .oneToMany).forM (store.insertCollection cascade map)

/-- The insertion of the record worked on and of the new records below it. A record that is
stored already is left alone unless its insertion is `forced`. -/
def insertRecord (store : Store σ) (forced : Bool) : Work σ Record Unit := do
  store.insertLevels (← Work.subject).height forced

/-- Inserts a record in a transaction of its own. -/
def insert (store : Store σ) (forced : Bool) : Work σ Record Unit :=
  store.transaction (store.insertRecord forced)

end GraphStore.Store
