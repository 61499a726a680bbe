import GraphStore.Journal

/-!
# Attaching records

A record is put into a slot only if its type is the target of the slot.
-/

set_option autoImplicit false

namespace GraphStore.Model

/-- The name of the table that a type is mapped to; empty if it cannot be mapped. -/
def tableName (m : Model) (type : String) : String :=
  match m.entityMap type with
  | .ok map => map.table.name
  | .error _ => ""

/-- Puts `child` into the slot `property` of `r`. -/
def attach (m : Model) (r : Record) (property : String) (child : Record) : Except Error Record :=
  match r.slot? property with
  | none => fail (.noRelationSlot r.typeName property)
  | some s =>
      if child.type = s.target then .ok (r.hold property child)
      else fail (.wrongType (m.tableName child.type) s.target)

/-- Looking up the table of an attached record reports a type that cannot be mapped. -/
def attachJournal (m : Model) (r : Record) (property : String) (child : Record) :
    List LogEntry :=
  if (r.slot? property).isSome then journalOf (m.entityMap child.type) else []

/-- Assigns `property` in every record of the slot `slot`, and says how each of them took it; a
record that refuses the value stays as it was. -/
def setInSlot (r : Record) (slot property : String) (v : Value) :
    Record × List (Except Error Unit) :=
  let results := (r.items slot).map fun child => (child, child.setField property v)
  (r.withItems slot (results.map fun p => p.2.toOption.getD p.1),
    results.map fun p => p.2.map fun _ => ())

end GraphStore.Model
