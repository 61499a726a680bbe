import GraphStore.Value.Shown

/-!
# Types of fields

The types a field of a record may have, and the conversion of a dynamic value into a field. A
field holds a value in the canonical form of its type (`FieldType.Holds`), so writing a field out
is the identity. Reading accepts the canonical form and what a database without the type hands
back in its place: integers for truth values, a wider integer, text for identifiers and
timestamps. `convert_holds` says that whatever is accepted ends in canonical form.
-/

set_option autoImplicit false

namespace GraphStore

/-- The type of a field. `any` takes every value as it is; `borrowedText` can be written but
never read; `boxed` is held as its inner type. -/
inductive FieldType where
  | any
  | boolean
  | int32
  | int64
  | float64
  | text
  | borrowedText
  | bytes
  | uuid
  | timestamp
  | optional (inner : FieldType)
  | boxed (inner : FieldType)
deriving DecidableEq, Repr

/-- Why a value is not accepted by a field. -/
inductive ConversionFault where
  | mismatch (value : Value) (type : FieldType)
  | outOfRange (n : Int64)
  | cannotBorrow (value : Value)
  | notUuidBytes
  | notUuidText (text : String)
  | notTimestampText (text : String)
deriving DecidableEq, Repr

namespace FieldType

/-- The type without options and boxes. -/
def base : FieldType → FieldType
  | optional t => t.base
  | boxed t => t.base
  | t => t

/-- The name of a type in messages; options and boxes go by the name of what they hold. -/
def name : FieldType → String
  | any => "Value"
  | boolean => "bool"
  | int32 => "i32"
  | int64 => "i64"
  | float64 => "f64"
  | text => "alloc::string::String"
  | borrowedText => "&str"
  | bytes => "alloc::vec::Vec<u8>"
  | uuid => "uuid::Uuid"
  | timestamp => "time::plain_date_time::PlainDateTime"
  | optional t => t.name
  | boxed t => t.name

/-- The null of a type. -/
def nullValue : FieldType → Value
  | any => .null
  | boolean => .boolean none
  | int32 => .int32 none
  | int64 => .int64 none
  | float64 => .float64 none
  | text => .varchar none
  | borrowedText => .varchar none
  | bytes => .blob none
  | uuid => .uuid none
  | timestamp => .timestamp none
  | optional t => t.nullValue
  | boxed t => t.nullValue

/-! ## Reading a value into a field -/

def readBoolean (v : Value) : Except ConversionFault Value :=
  match v with
  | .boolean (some b) => .ok (.boolean (some b))
  | .int32 (some n) => .ok (.boolean (some (n != 0)))
  | .int64 (some n) => .ok (.boolean (some (n != 0)))
  | v => .error (.mismatch v boolean)

def readInt32 (v : Value) : Except ConversionFault Value :=
  match v with
  | .int32 (some n) => .ok (.int32 (some n))
  | .int64 (some n) =>
      if n.toInt32.toInt64 = n then .ok (.int32 (some n.toInt32)) else .error (.outOfRange n)
  | .boolean (some b) => .ok (.int32 (some (if b then 1 else 0)))
  | v => .error (.mismatch v int32)

def readInt64 (v : Value) : Except ConversionFault Value :=
  match v with
  | .int64 (some n) => .ok (.int64 (some n))
  | .int32 (some n) => .ok (.int64 (some n.toInt64))
  | .boolean (some b) => .ok (.int64 (some (if b then 1 else 0)))
  | v => .error (.mismatch v int64)

def readFloat64 (v : Value) : Except ConversionFault Value :=
  match v with
  | .float64 (some x) => .ok (.float64 (some x))
  | .int32 (some n) => .ok (.float64 (some (.ofInt n.toInt)))
  | .int64 (some n) => .ok (.float64 (some (.ofInt n.toInt)))
  | v => .error (.mismatch v float64)

def readText (v : Value) : Except ConversionFault Value :=
  match v with
  | .varchar (some s) => .ok (.varchar (some s))
  | v => .error (.mismatch v text)

def readBytes (v : Value) : Except ConversionFault Value :=
  match v with
  | .blob (some b) => .ok (.blob (some b))
  | v => .error (.mismatch v bytes)

def readUuid (v : Value) : Except ConversionFault Value :=
  match v with
  | .uuid (some u) => .ok (.uuid (some u))
  | .varchar (some s) =>
      match Uuid.parse? s with
      | some u => .ok (.uuid (some u))
      | none => .error (.notUuidText s)
  | .blob (some b) =>
      match Uuid.ofBytes? b with
      | some u => .ok (.uuid (some u))
      | none => .error .notUuidBytes
  | v => .error (.mismatch v uuid)

def readTimestamp (v : Value) : Except ConversionFault Value :=
  match v with
  | .timestamp (some t) => .ok (.timestamp (some t))
  | .varchar (some s) =>
      match Timestamp.parse? s with
      | some t => .ok (.timestamp (some t))
      | none => .error (.notTimestampText s)
  | v => .error (.mismatch v timestamp)

/-- The canonical form of `v` in a field of type `t`. A null is accepted only by optional fields
and by those that take any value. -/
def convert : FieldType → Value → Except ConversionFault Value
  | any, v => .ok v
  | boolean, v => readBoolean v
  | int32, v => readInt32 v
  | int64, v => readInt64 v
  | float64, v => readFloat64 v
  | text, v => readText v
  | borrowedText, v => .error (.cannotBorrow v)
  | bytes, v => readBytes v
  | uuid, v => readUuid v
  | timestamp, v => readTimestamp v
  | optional t, v => if v.isNull then .ok t.nullValue else t.convert v
  | boxed t, v => t.convert v

/-! ## The values of a type -/

/-- The values that a field of this type can hold. -/
def Holds : FieldType → Value → Prop
  | any, _ => True
  | boolean, v => ∃ b, v = .boolean (some b)
  | int32, v => ∃ n, v = .int32 (some n)
  | int64, v => ∃ n, v = .int64 (some n)
  | float64, v => ∃ x, v = .float64 (some x)
  | text, v => ∃ s, v = .varchar (some s)
  | borrowedText, v => ∃ s, v = .varchar (some s)
  | bytes, v => ∃ b, v = .blob (some b)
  | uuid, v => ∃ u, v = .uuid (some u)
  | timestamp, v => ∃ t, v = .timestamp (some t)
  | optional t, v => v = t.nullValue ∨ t.Holds v
  | boxed t, v => t.Holds v

/-- What is accepted ends in canonical form. -/
theorem convert_holds {t : FieldType} {v w : Value} (h : t.convert v = .ok w) : t.Holds w := by
  induction t generalizing v with
  | any => trivial
  | boolean =>
    simp only [convert, readBoolean] at h
    split at h <;> cases h <;> exact ⟨_, rfl⟩
  | int32 =>
    simp only [convert, readInt32] at h
    split at h
    · cases h; exact ⟨_, rfl⟩
    · split at h <;> cases h; exact ⟨_, rfl⟩
    · cases h; exact ⟨_, rfl⟩
    · cases h
  | int64 =>
    simp only [convert, readInt64] at h
    split at h <;> cases h <;> exact ⟨_, rfl⟩
  | float64 =>
    simp only [convert, readFloat64] at h
    split at h <;> cases h <;> exact ⟨_, rfl⟩
  | text =>
    simp only [convert, readText] at h
    split at h <;> cases h; exact ⟨_, rfl⟩
  | borrowedText => simp [convert] at h
  | bytes =>
    simp only [convert, readBytes] at h
    split at h <;> cases h; exact ⟨_, rfl⟩
  | uuid =>
    simp only [convert, readUuid] at h
    split at h
    · cases h; exact ⟨_, rfl⟩
    · split at h <;> cases h; exact ⟨_, rfl⟩
    · split at h <;> cases h; exact ⟨_, rfl⟩
    · cases h
  | timestamp =>
    simp only [convert, readTimestamp] at h
    split at h
    · cases h; exact ⟨_, rfl⟩
    · split at h <;> cases h; exact ⟨_, rfl⟩
    · cases h
  | optional t ih =>
    simp only [convert] at h
    split at h
    · cases h; exact .inl rfl
    · exact .inr (ih h)
  | boxed t ih => exact ih h

end FieldType

end GraphStore
