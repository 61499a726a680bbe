import GraphStore.Persist.Delete
import GraphStore.Persist.Select
import GraphStore.Persist.Update

/-!
# Scenarios

A scenario works on named records, one step after another, in one session. Each step is an
operation of the store or a change of a record in memory. Steps own their transactions unless
they are performed within one that is open already.
-/

set_option autoImplicit false

namespace GraphStore

inductive Step where
  | insert (name : String) (forced : Bool)
  | update (name : String) (includes : List String)
  | updateFields (name : String) (fields : List String)
  | delete (name : String)
  | select (type : String) (p : Predicate) (includes : List String) (options : SelectOptions)
  | find (type : String) (id : Value) (includes : List String)
  | deleteWhere (type : String) (p : Predicate)
  | createTable (type : String) (ifNotExists : Bool)
  | dropTable (type : String) (ifExists : Bool)
  | set (name property : String) (v : Value)
  | attach (name property : String) (child : Except Error Record)
  | execute (q : Query)
  | fetch (q : Query)
  | run (q : Query)

/-- What a step that succeeds comes to. -/
inductive Outcome where
  | done
  | records (rs : List Record)
  | found (r : Option Record)
  | affected (count : UInt64)
  | rows (rows : List Row)
  | items (items : Yield)

/-- The named records and the session. -/
structure Scene (σ : Type) where
  records : List (String × Record)
  session : Session σ Unit

/-- The outcome of a step, and the named record that a write was about, as it is afterwards. -/
structure Report where
  outcome : Except Error Outcome
  record : Option Record := none

namespace Scene

variable {σ : Type}

/-- The named record; a new name stands for an empty record. -/
def record (scene : Scene σ) (name : String) : Record :=
  (scene.records.lookup name).getD default

def setRecord (scene : Scene σ) (name : String) (r : Record) : Scene σ :=
  { scene with records :=
      scene.records.map fun (n, old) => if n == name then (n, r) else (n, old) }

/-- Performs work on a named record. -/
def write (scene : Scene σ) (name : String) (work : Work σ Record Unit) : Report × Scene σ :=
  let finish (outcome : Except Error Outcome) (t : Session σ Record) : Report × Scene σ :=
    (⟨outcome, some t.subject⟩, { scene.setRecord name t.subject with session := t.on () })
  match work (scene.session.on (scene.record name)) with
  | .ok _ t => finish (.ok .done) t
  | .error e t => finish (.error e) t

/-- Performs work that is not about a named record. -/
def perform {α : Type} (scene : Scene σ) (outcome : α → Outcome) (work : Work σ Unit α) :
    Report × Scene σ :=
  match work scene.session with
  | .ok a t => (⟨.ok (outcome a), none⟩, { scene with session := t })
  | .error e t => (⟨.error e, none⟩, { scene with session := t })

/-- Changes a named record in memory; it stays as it was when the change is refused. -/
def change (scene : Scene σ) (name : String) (r : Except Error Record) : Report × Scene σ :=
  match r with
  | .ok r => (⟨.ok .done, none⟩, scene.setRecord name r)
  | .error e => (⟨.error e, none⟩, scene)

/-- Performs one step, in a transaction of its own unless it is `within` an open one. -/
def step (store : Store σ) (within : Bool) (scene : Scene σ) : Step → Report × Scene σ
  | .insert name forced =>
      scene.write name (if within then store.insertRecord forced else store.insert forced)
  | .update name includes =>
      scene.write name (if within then store.updateRecord includes none else store.update includes)
  | .updateFields name fields =>
      scene.write name
        (if within then store.updateRecord [] (some fields) else store.updateFields fields)
  | .delete name => scene.write name (if within then store.deleteRecord else store.delete)
  | .select type p includes options =>
      scene.perform .records
        (if within then store.selectRows type p includes options
        else store.select type p includes options)
  | .find type id includes =>
      scene.perform .found
        (if within then store.findRow type id includes else store.find type id includes)
  | .deleteWhere type p =>
      scene.perform .affected
        (if within then store.deleteRows type p else store.deleteWhere type p)
  | .createTable type flag => scene.perform (fun _ => .done) (store.createTable type flag)
  | .dropTable type flag => scene.perform (fun _ => .done) (store.dropTable type flag)
  | .set name property v => scene.change name ((scene.record name).setField property v)
  | .attach name property child =>
      let r := scene.record name
      let written := child.toOption.elim [] (store.model.attachJournal r property)
      let session := { scene.session with journal := scene.session.journal ++ written }
      { scene with session }.change name (child.bind (store.model.attach r property))
  | .execute q => scene.perform .affected (store.execute q)
  | .fetch q => scene.perform .rows (store.fetch q)
  | .run q => scene.perform .items (store.run q)

/-- Starts a transaction that several steps take part in. -/
def begin (store : Store σ) (scene : Scene σ) : Report × Scene σ :=
  scene.perform (fun _ => .done) store.begin

/-- Ends a transaction that several steps took part in. -/
def finish (store : Store σ) (scene : Scene σ) (keep : Bool) : Report × Scene σ :=
  scene.perform (fun _ => .done) (if keep then store.commit else store.rollback)

end Scene

end GraphStore
