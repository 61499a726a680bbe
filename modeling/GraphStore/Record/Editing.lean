import GraphStore.Record.Attach

/-!
# Editing a record

Statements that write a record may change it: they assign generated identifiers and stamp times.
An edit works on one record and draws from a supply of random identifiers and clock readings;
what it did to the record stays when it fails.
-/

set_option autoImplicit false

namespace GraphStore

/-- The identifiers and clock readings that a run draws from, and how many it has drawn. -/
structure Supply where
  randomUuid : Nat → Uuid
  clock : Nat → Timestamp
  drawn : Nat := 0
  readings : Nat := 0

namespace Supply

/-- The next random identifier. -/
def takeUuid (s : Supply) : Uuid × Supply :=
  ((s.randomUuid s.drawn).markRandom, { s with drawn := s.drawn + 1 })

/-- The time now. -/
def takeTime (s : Supply) : Timestamp × Supply :=
  (s.clock s.readings, { s with readings := s.readings + 1 })

end Supply

/-- A record being edited, with the supply. -/
structure Bench where
  record : Record
  supply : Supply

/-- Work on one record that may fail. -/
abbrev Edit := EStateM Error Bench

namespace Edit

/-- A computation that does not touch the record. -/
def ofExcept {α : Type} (x : Except Error α) : Edit α := fun b =>
  match x with
  | .ok a => .ok a b
  | .error e => .error e b

/-- The record as it is now. -/
def record : Edit Record := fun b => .ok b.record b

/-- Assigns a field of the record. -/
def assignField (property : String) (v : Value) : Edit Unit := fun b =>
  match b.record.setField property v with
  | .ok r => .ok () { b with record := r }
  | .error e => .error e b

/-- Draws a random identifier. -/
def freshUuid : Edit Uuid := fun b =>
  let (u, supply) := b.supply.takeUuid
  .ok u { b with supply }

/-- Reads the clock. -/
def now : Edit Timestamp := fun b =>
  let (t, supply) := b.supply.takeTime
  .ok t { b with supply }

/-- Stamps the auto timestamp column with the time now; the property that was stamped. -/
def stamp (map : EntityMap) : Edit (Option String) :=
  match map.autoTimestampColumn? with
  | none => pure none
  | some column => do
      let time ← now
      assignField column.property (.timestamp (some time))
      return some column.property

end Edit

end GraphStore
