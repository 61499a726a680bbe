import GraphStore.Error
import GraphStore.Text.Path

/-!
# Records

A record has a type, scalar fields, and slots that hold related records: a slot for a single
reference holds at most one, a slot for a collection any number. A record is a tree: it owns
everything in its slots.

The operations here concern the record alone. Those that need to know how its type is mapped are
with the model.
-/

set_option autoImplicit false

namespace GraphStore

/-- A scalar field; its value is in the canonical form of the type. -/
structure Field where
  name : String
  type : FieldType
  value : Value
deriving DecidableEq, Repr

/-- A place for related records of the type `target`. -/
structure Slot (ρ : Type) where
  name : String
  kind : RelationKind
  target : String
  items : List ρ
deriving Repr

/-- A record with everything it owns. -/
inductive Record where
  | mk (type : String) (fields : List Field) (slots : List (Slot Record))
deriving Repr

namespace Record

def type : Record → String
  | mk t _ _ => t

def fields : Record → List Field
  | mk _ fs _ => fs

def slots : Record → List (Slot Record)
  | mk _ _ ss => ss

instance : Inhabited Record := ⟨mk "" [] []⟩

/-- The type without the path to it. -/
def typeName (r : Record) : String := Text.shortTypeName r.type

/-! ## Fields -/

/-- The value of a field, if there is one of that name. -/
def field? (r : Record) (property : String) : Option Value :=
  (r.fields.find? (·.name == property)).map (·.value)

/-- The record with the value of one field replaced, as it is. -/
def withValue (r : Record) (property : String) (v : Value) : Record :=
  mk r.type (r.fields.map fun f => if f.name = property then { f with value := v } else f) r.slots

/-- Assigns a field, converting the value to the type of the field. -/
def setField (r : Record) (property : String) (v : Value) : Except Error Record :=
  match r.fields.find? (·.name == property) with
  | none => fail (.noProperty r.typeName property)
  | some f =>
      match f.type.convert v with
      | .ok w => .ok (r.withValue property w)
      | .error e => .error ((Error.of (.conversion e)).inside (.assigning property r.typeName))

/-! ## Slots -/

def slot? (r : Record) (property : String) : Option (Slot Record) :=
  r.slots.find? (·.name == property)

/-- The record with the content of one slot replaced. -/
def withItems (r : Record) (property : String) (items : List Record) : Record :=
  mk r.type r.fields
    (r.slots.map fun s => if s.name = property then { s with items := items } else s)

/-- The record in the slot of a single reference. -/
def reference? (r : Record) (property : String) : Option Record :=
  match r.slot? property with
  | some s => if s.kind = .manyToOne then s.items.head? else none
  | none => none

/-- The records in the slot of a collection. -/
def collection? (r : Record) (property : String) : Option (List Record) :=
  match r.slot? property with
  | some s => if s.kind = .oneToMany then some s.items else none
  | none => none

/-- The records in a slot, in order; none for a property that is not a slot. -/
def items (r : Record) (property : String) : List Record :=
  match r.slot? property with
  | some s => s.items
  | none => []

/-- Puts `child` into the slot: in place of a single reference, at the end of a collection. -/
def hold (r : Record) (property : String) (child : Record) : Record :=
  match r.slot? property with
  | none => r
  | some s => r.withItems property
      (match s.kind with
      | .manyToOne => [child]
      | .oneToMany => s.items ++ [child])

/-! ## Size -/

mutual

/-- The number of levels of records below and including `r`. -/
def height : Record → Nat
  | mk _ _ slots => heightOfSlots slots + 1

def heightOfSlots : List (Slot Record) → Nat
  | [] => 0
  | ⟨_, _, _, items⟩ :: rest => max (heightOfItems items) (heightOfSlots rest)

def heightOfItems : List Record → Nat
  | [] => 0
  | r :: rest => max (height r) (heightOfItems rest)

end

/-! ## What the operations leave alone -/

@[simp] theorem type_withValue (r : Record) (p : String) (v : Value) :
    (r.withValue p v).type = r.type := rfl

@[simp] theorem slots_withValue (r : Record) (p : String) (v : Value) :
    (r.withValue p v).slots = r.slots := rfl

@[simp] theorem type_withItems (r : Record) (p : String) (items : List Record) :
    (r.withItems p items).type = r.type := rfl

@[simp] theorem fields_withItems (r : Record) (p : String) (items : List Record) :
    (r.withItems p items).fields = r.fields := rfl

end Record

end GraphStore
