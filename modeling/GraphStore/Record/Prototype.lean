import GraphStore.Model.Derivation

/-!
# Prototypes

New records written down by the types of their fields and the targets of their slots.
-/

set_option autoImplicit false

namespace GraphStore

namespace FieldType

/-- What a field of this type holds in a new record. -/
def initial : FieldType → Value
  | any => .null
  | boolean => .boolean (some false)
  | int32 => .int32 (some 0)
  | int64 => .int64 (some 0)
  | float64 => .float64 (some .zero)
  | text => .varchar (some "")
  | borrowedText => .varchar (some "")
  | bytes => .blob (some [])
  | uuid => .uuid (some .nil)
  | timestamp => .timestamp (some .epoch)
  | optional t => t.nullValue
  | boxed t => t.initial

end FieldType

/-- A field of a new record. -/
def initialField (name : String) (type : FieldType) : Field := ⟨name, type, type.initial⟩

/-- An empty slot for a single reference. -/
def referenceSlot (name target : String) : Slot Record := ⟨name, .manyToOne, target, []⟩

/-- An empty slot for a collection. -/
def collectionSlot (name target : String) : Slot Record := ⟨name, .oneToMany, target, []⟩

end GraphStore
