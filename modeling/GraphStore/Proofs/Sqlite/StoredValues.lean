import GraphStore.Proofs.Persist.StoredKeys
import GraphStore.Proofs.Value.UuidText
import GraphStore.Sample.Tables
import GraphStore.Sqlite.Connection

/-!
# Values that are stored

A value is bound to a cell of one of five storage classes and read from it without knowledge of
the type that it had (`Value.restored`). A field of this type takes what is read and has the value
again: truth values and both widths of integers come back from integers, identifiers from text.
Points in time are left out, NaN, which is stored as null, and texts and blobs whose bytes are too
many to be counted (`Sqlite.Cell.bound_of_byteCount`).

What is read is an empty key exactly where the value was. So a row and the record that it stores
agree about which of their keys are empty, if there are keys.
-/

set_option autoImplicit false

namespace GraphStore

open Sqlite (Cell)

/-! ## What a field says -/

namespace FieldType

/-- The values of a type. -/
def Native : FieldType → Type
  | any => Value
  | boolean => Bool
  | int32 => Int32
  | int64 => Int64
  | float64 => Binary64
  | text => String
  | borrowedText => String
  | bytes => List UInt8
  | uuid => Uuid
  | timestamp => Timestamp
  | optional t => Option t.Native
  | boxed t => t.Native

/-- The dynamic form of a value of the type. -/
def write : (t : FieldType) → t.Native → Value
  | any, v => v
  | boolean, b => .boolean (some b)
  | int32, n => .int32 (some n)
  | int64, n => .int64 (some n)
  | float64, x => .float64 (some x)
  | text, s => .varchar (some s)
  | borrowedText, s => .varchar (some s)
  | bytes, b => .blob (some b)
  | uuid, u => .uuid (some u)
  | timestamp, t => .timestamp (some t)
  | optional t, x => Option.elim x t.nullValue t.write
  | boxed t, x => t.write x

/-- The type is an option, in boxes or not. -/
def isOptional : FieldType → Bool
  | optional _ => true
  | boxed t => t.isOptional
  | _ => false

/-- A value of the type is absent in one way only: no option is all that another one holds. -/
def AbsentOnce : FieldType → Prop
  | optional t => t.isOptional = false
  | boxed t => t.AbsentOnce
  | _ => True

variable {t : FieldType}

theorem absentOnce_of_isOptional (h : t.isOptional = false) : t.AbsentOnce := by
  induction t with
  | optional t ih => cases h
  | boxed t ih => exact ih h
  | _ => trivial

/-- A field holds the dynamic forms of the values of its type. -/
theorem holds_iff_write {v : Value} : t.Holds v ↔ ∃ x, t.write x = v := by
  induction t with
  | any => exact ⟨fun _ => ⟨v, rfl⟩, fun _ => trivial⟩
  | optional t ih =>
      constructor
      · rintro (rfl | h)
        · exact ⟨(none : Option t.Native), rfl⟩
        · obtain ⟨x, rfl⟩ := ih.mp h
          exact ⟨(some x : Option t.Native), rfl⟩
      · rintro ⟨_ | x, rfl⟩
        · exact .inl rfl
        · exact .inr (ih.mpr ⟨x, rfl⟩)
  | boxed t ih => exact ih
  | _ => exact exists_congr fun _ => eq_comm

theorem holds_write (x : t.Native) : t.Holds (t.write x) := holds_iff_write.mpr ⟨x, rfl⟩

theorem isNull_write (hany : t.base ≠ .any) (ht : t.isOptional = false) (x : t.Native) :
    (t.write x).isNull = false := by
  induction t with
  | any => exact absurd rfl hany
  | optional t ih => cases ht
  | boxed t ih => exact ih hany ht x
  | _ => rfl

/-- Different values have different dynamic forms, if they are absent in one way only. -/
theorem write_injective (hany : t.base ≠ .any) (ht : t.AbsentOnce) {x y : t.Native}
    (h : t.write x = t.write y) : x = y := by
  induction t with
  | any => exact absurd rfl hany
  | optional t ih =>
      -- what the option holds is never written as a null
      have present : ∀ z : t.Native, t.nullValue ≠ t.write z := by
        intro z heq
        have hnull := isNull_write (t := t) hany ht z
        rw [← heq, isNull_nullValue] at hnull
        cases hnull
      cases x with
      | none =>
          cases y with
          | none => rfl
          | some y => exact absurd h (present y)
      | some x =>
          cases y with
          | none => exact absurd h.symm (present x)
          | some y => exact congrArg some (ih hany (absentOnce_of_isOptional ht) h)
  | boxed t ih => exact ih hany ht h
  | _ =>
      simp only [write] at h
      injection h with h
      injection h

/-- What a type holds is a null, or held by the type without options and boxes. -/
theorem isNull_or_holds_base {v : Value} (hv : t.Holds v) : v.isNull = true ∨ t.base.Holds v := by
  rcases holds_base hv with rfl | hv
  · exact .inl (isNull_nullValue _)
  · exact .inr hv

/-- The types whose values a cell holds as they are or in a form that they are known by. -/
def storedTypes : List FieldType := [.boolean, .int32, .int64, .float64, .text, .bytes, .uuid]

theorem ne_any_of_mem_storedTypes (h : t.base ∈ storedTypes) : t.base ≠ .any := by
  intro heq
  rw [heq] at h
  exact absurd h (by decide)

end FieldType

/-! ## What is read of a cell -/

namespace Value

/-- The number that is not one. -/
def isNaN : Value → Bool
  | float64 (some x) => x.isNaN
  | _ => false

/-- What is read of the cell that the value is bound to. -/
def restored (v : Value) : Value := (Cell.ofValue v).value

theorem restored_of_isNull {v : Value} (h : v.isNull = true) : v.restored = .null := by
  rw [restored, Cell.ofValue_of_isNull v h]
  rfl

theorem restored_int32 (n : Int32) : (int32 (some n)).restored = .int64 (some n.toInt64) := by
  have wide : Int64.ofInt n.toInt = n.toInt64 := by
    rw [← Int64.toInt_inj, ← Int32.toInt_toInt64, Int64.ofInt_toInt]
  rw [restored, Cell.ofValue, wide]
  rfl

theorem restored_float64 {x : Binary64} (h : x.isNaN = false) :
    (float64 (some x)).restored = .float64 (some x) := by
  rw [restored, Cell.ofValue, Cell.ofReal, h]
  rfl

theorem restored_text (s : String) : (varchar (some s)).restored = .varchar (some s) :=
  Cell.value_ofText s

theorem restored_uuid (u : Uuid) : (uuid (some u)).restored = .varchar (some u.text) :=
  Cell.value_ofText u.text

theorem restored_timestamp (t : Timestamp) :
    (timestamp (some t)).restored = .varchar (some t.storedText) := Cell.value_ofText t.storedText

theorem isNull_restored {v : Value} (h : v.isNaN = false) : v.restored.isNull = v.isNull := by
  cases v with
  | null => rfl
  | float64 x =>
      cases x with
      | none => rfl
      | some x => rw [restored_float64 h]
  | varchar s =>
      cases s with
      | none => rfl
      | some s => rw [restored_text]
  | timestamp t =>
      cases t with
      | none => rfl
      | some t =>
          rw [restored_timestamp]
          rfl
  | uuid u =>
      cases u with
      | none => rfl
      | some u =>
          rw [restored_uuid]
          rfl
  | _ x => cases x <;> rfl

theorem isEmptyKey_of_isNull {v : Value} (h : v.isNull = true) : v.isEmptyKey = true := by
  by_contra hkeyed
  have := isNull_eq_false (by simpa using hkeyed)
  rw [h] at this
  cases this

end Value

/-! ## What is bound -/

/-- The bytes of a text or a blob. -/
def Value.byteCount : Value → Nat
  | varchar (some s) => s.utf8ByteSize
  | blob (some bytes) => bytes.length
  | _ => 0

namespace Sqlite

/-- Bytes that can be counted are all bound. -/
theorem countedBytes_of_lt {bytes : List UInt8} (h : bytes.length < 2 ^ 31) :
    countedBytes bytes = .ok bytes := by
  have positive : ¬ Int32.ofNat bytes.length < 0 := by
    rw [Int32.lt_iff_toInt_lt, Int32.toInt_ofNat_of_lt h]
    exact not_lt.mpr (Int.natCast_nonneg _)
  unfold countedBytes
  simp only [positive, if_false, Int32.toNatClampNeg_ofNat_of_lt h, List.take_length]

theorem length_utf8 (s : String) : (Text.utf8 s).length = s.utf8ByteSize := by
  simp [Text.utf8]

theorem Cell.bound_of_length {v : Value}
    (h : ∀ bytes, ofValue v = text bytes ∨ ofValue v = blob bytes → bytes.length < 2 ^ 31) :
    bound v = .ok (ofValue v) := by
  unfold bound
  cases hcell : ofValue v with
  | text bytes => exact congrArg (Except.map text) (countedBytes_of_lt (h bytes (.inl hcell)))
  | blob bytes => exact congrArg (Except.map blob) (countedBytes_of_lt (h bytes (.inr hcell)))
  | _ => rfl

/-- A value of a type that is stored is bound in full, if its bytes can be counted. -/
theorem Cell.bound_of_byteCount {t : FieldType} {v : Value} (ht : t.base ∈ FieldType.storedTypes)
    (hv : t.Holds v) (h : v.byteCount < 2 ^ 31) : bound v = .ok (ofValue v) := by
  refine bound_of_length fun bytes hcell => ?_
  rcases FieldType.isNull_or_holds_base hv with hnull | hv
  · rw [ofValue_of_isNull v hnull] at hcell
    simp at hcell
  · generalize t.base = base at ht hv
    simp only [FieldType.storedTypes, List.mem_cons, List.not_mem_nil, or_false] at ht
    rcases ht with rfl | rfl | rfl | rfl | rfl | rfl | rfl <;> obtain ⟨x, rfl⟩ := hv
    · simp [ofValue, ofBool] at hcell
    · simp [ofValue] at hcell
    · simp [ofValue] at hcell
    · by_cases hnan : x.isNaN = true <;> simp [ofValue, ofReal, hnan] at hcell
    · obtain rfl : Text.utf8 x = bytes := by simpa [ofValue, ofText] using hcell
      rwa [length_utf8]
    · obtain rfl : x = bytes := by simpa [ofValue] using hcell
      exact h
    · obtain rfl : Text.utf8 x.text = bytes := by simpa [ofValue, ofText] using hcell
      have small := x.utf8ByteSize_text
      rw [length_utf8]
      omega

end Sqlite

namespace FieldType

variable {t : FieldType} {v : Value}

/-- A value that is no null comes back through the type without options and boxes. -/
theorem convert_restored_base (ht : t.base ∈ storedTypes) (hv : t.base.Holds v)
    (hnan : v.isNaN = false) : t.base.convert v.restored = .ok v := by
  generalize t.base = base at ht hv
  simp only [storedTypes, List.mem_cons, List.not_mem_nil, or_false] at ht
  rcases ht with rfl | rfl | rfl | rfl | rfl | rfl | rfl <;> obtain ⟨x, rfl⟩ := hv
  · cases x <;> rfl
  · rw [Value.restored_int32]
    simp [convert, readInt32]
  · rfl
  · rw [Value.restored_float64 hnan]
    rfl
  · rw [Value.restored_text]
    rfl
  · rfl
  · rw [Value.restored_uuid]
    simp [convert, readUuid, Uuid.parse?_text]

/-- A null comes back where the type has one. -/
theorem convert_null (hany : t.base ≠ .any) (hv : t.Holds v) (hnull : v.isNull = true) :
    t.convert .null = .ok v := by
  have absent : v = t.nullValue := by
    rcases holds_base hv with rfl | hv
    · exact nullValue_base t
    · exact absurd (base_eq_any hv hnull) hany
  subst absent
  induction t with
  | any => exact absurd rfl hany
  | optional t ih => rfl
  | boxed t ih => exact ih hany hv hnull
  | _ =>
      obtain ⟨x, hx⟩ := hv
      cases hx

/-- A field has its value again from the cell that the value was bound to. -/
theorem convert_restored (ht : t.base ∈ storedTypes) (hv : t.Holds v) (hnan : v.isNaN = false) :
    t.convert v.restored = .ok v := by
  by_cases hnull : v.isNull = true
  · rw [Value.restored_of_isNull hnull]
    exact convert_null (ne_any_of_mem_storedTypes ht) hv hnull
  · have held := (isNull_or_holds_base hv).resolve_left hnull
    have kept : v.restored.isNull = false := by
      rw [Value.isNull_restored hnan]
      simpa using hnull
    exact convert_of_base kept (convert_restored_base ht held hnan)

/-- What is read of a cell is an empty key if and only if the value is. -/
theorem isEmptyKey_restored (ht : t.base ∈ storedTypes) (hv : t.Holds v)
    (hnan : v.isNaN = false) : v.restored.isEmptyKey = v.isEmptyKey := by
  rcases isNull_or_holds_base hv with hnull | hv
  · rw [Value.restored_of_isNull hnull, Value.isEmptyKey_of_isNull hnull]
    rfl
  · generalize t.base = base at ht hv
    simp only [storedTypes, List.mem_cons, List.not_mem_nil, or_false] at ht
    rcases ht with rfl | rfl | rfl | rfl | rfl | rfl | rfl <;> obtain ⟨x, rfl⟩ := hv
    · rfl
    · rfl
    · rfl
    · rw [Value.restored_float64 hnan]
    · rw [Value.restored_text]
    · rfl
    · rw [Value.restored_uuid, Value.isEmptyKey_text]
      rfl

end FieldType

/-! ## Rows and records -/

/-- The key cells of the row are what is read of the cells that the keys of the record are bound
to, where each key is of a type that is stored and its bytes can be counted. -/
def Segment.RestoresKeys (seg : Segment) (row : Row) (record : Record) : Prop :=
  ∀ c ∈ seg.map.keyColumns, ∃ (t : FieldType) (x : t.Native) (cell : Cell),
    t.base ∈ FieldType.storedTypes ∧ (t.write x).isNaN = false ∧
    (t.write x).byteCount < 2 ^ 31 ∧ record.field? c.property = some (t.write x) ∧
    Cell.bound (t.write x) = .ok cell ∧ seg.cell? row c.property = some cell.value

variable {seg : Segment} {row : Row} {record : Record}

/-- Such cells are empty where the keys of the record are. -/
theorem Segment.RestoresKeys.agreesOnKeys (h : seg.RestoresKeys row record) :
    seg.AgreesOnKeys row record := by
  intro c hc v hv
  obtain ⟨t, x, cell, ht, hnan, hcount, hfield, hbound, hcell⟩ := h c hc
  cases hfield.symm.trans hv
  have held := FieldType.holds_write x
  cases hbound.symm.trans (Cell.bound_of_byteCount ht held hcount)
  exact ⟨_, hcell, FieldType.isEmptyKey_restored ht held hnan⟩

/-- A row shows a record in the segment if and only if no key of the record is empty. -/
theorem Segment.RestoresKeys.hasEmptyKey_eq (hkeyed : seg.map.keys.isEmpty = false)
    (h : seg.RestoresKeys row record) :
    seg.map.hasEmptyKey record = .ok (!seg.isPresent row) := by
  have fields : ∀ c ∈ seg.map.keyColumns, ∃ v, record.field? c.property = some v := by
    intro c hc
    obtain ⟨t, x, -, -, -, -, hfield, -⟩ := h c hc
    exact ⟨_, hfield⟩
  have shown := h.agreesOnKeys.isPresent_iff hkeyed fields
  obtain ⟨empty, hempty⟩ := EntityMap.exists_hasEmptyKey hkeyed fields
  rw [hempty] at shown ⊢
  cases empty with
  | false => rw [shown.mpr rfl, Bool.not_true]
  | true =>
      have absent : seg.isPresent row = false := by
        rw [← Bool.not_eq_true, shown]
        intro heq
        cases heq
      rw [absent, Bool.not_false]

/-- Without keys every row shows a record, and no record can be asked for an empty one. -/
theorem Segment.isPresent_of_keyless (hkeyless : seg.map.keys.isEmpty = true) (row : Row)
    (record : Record) : seg.isPresent row = true ∧
      seg.map.hasEmptyKey record = .error (.of (.noKey seg.map.table.name)) := by
  constructor
  · have none : seg.map.keyColumns = [] := by
      rw [EntityMap.keyColumns, List.isEmpty_iff.mp hkeyless]
      rfl
    rw [isPresent, none]
    rfl
  · rw [EntityMap.hasEmptyKey, EntityMap.requireKeys, if_pos hkeyless]
    rfl

/-- **Values survive being stored.** A value of a type that is stored, apart from NaN, is bound if
its bytes can be counted, to a cell from which a field of the type has the value again, and no other
one if it is absent in one way only; what is read of the cell is an empty key if and only if the
value is. So the test for empty keys that is made on a row comes out as the one that is made on the
record, if there are keys; if not, the row counts as a record, and the record has no such test. -/
theorem values_survive_storage :
    (∀ (t : FieldType) (x : t.Native), t.base ∈ FieldType.storedTypes →
      (t.write x).isNaN = false → (t.write x).byteCount < 2 ^ 31 →
      ∃ cell, Cell.bound (t.write x) = .ok cell ∧
        t.convert cell.value = .ok (t.write x) ∧
        (t.AbsentOnce → ∀ y, t.convert cell.value = .ok (t.write y) ↔ y = x) ∧
        cell.value.isEmptyKey = (t.write x).isEmptyKey) ∧
    (∀ (seg : Segment) (row : Row) (record : Record), seg.map.keys.isEmpty = false →
      seg.RestoresKeys row record →
      seg.map.hasEmptyKey record = .ok (!seg.isPresent row) ∧
      (seg.readRow row = .ok none ↔ seg.map.hasEmptyKey record = .ok true)) ∧
    ∀ (seg : Segment) (row : Row) (record : Record), seg.map.keys.isEmpty = true →
      seg.isPresent row = true ∧
      seg.map.hasEmptyKey record = .error (.of (.noKey seg.map.table.name)) := by
  refine ⟨fun t x ht hnan hcount => ?_, fun seg row record hkeyed h => ?_,
    fun seg row record hkeyless => seg.isPresent_of_keyless hkeyless row record⟩
  · have back := FieldType.convert_restored ht (FieldType.holds_write x) hnan
    refine ⟨_, Cell.bound_of_byteCount ht (FieldType.holds_write x) hcount, back,
      fun hapart y => ⟨fun hy => ?_, ?_⟩,
      FieldType.isEmptyKey_restored ht (FieldType.holds_write x) hnan⟩
    · have same : t.write y = t.write x := Except.ok.inj (hy.symm.trans back)
      exact FieldType.write_injective (FieldType.ne_any_of_mem_storedTypes ht) hapart same
    · rintro rfl
      exact back
  · have agreed := h.hasEmptyKey_eq hkeyed
    refine ⟨agreed, ?_⟩
    rw [agreed, Segment.readRow_eq_none]
    simp

namespace Sample

theorem restoresKeys_enrollments {course student : String}
    (hcourse : course.utf8ByteSize < 2 ^ 31) (hstudent : student.utf8ByteSize < 2 ^ 31) :
    enrollments.RestoresKeys (enrollmentRow course student) (newEnrollment course student) := by
  have bound (s : String) (hs : s.utf8ByteSize < 2 ^ 31) :
      Cell.bound (.varchar (some s)) = .ok (.ofText s) :=
    @Cell.bound_of_byteCount .text _ (by decide) ⟨s, rfl⟩ hs
  intro c hc
  rcases mem_keyColumns_enrollments hc with h | h <;> rw [h]
  · exact ⟨.text, course, _, by decide, rfl, hcourse, rfl, bound course hcourse,
      congrArg some (Cell.value_ofText course).symm⟩
  · exact ⟨.text, student, _, by decide, rfl, hstudent, rfl, bound student hstudent,
      congrArg some (Cell.value_ofText student).symm⟩

/-- Main records with a code, by which they are not known. -/
def keylessMains : Segment where
  relation := none
  map := mapOf ⟨mainPrototype, { table := "mains", columns := [column "code"] }⟩
  label := "mains"
  start := 0
  properties := ["code"]

end Sample

/-- The nil identifier comes back from its text and counts as empty before and after, and so does
the enrollment of nobody. A row of a table without keys is shown. -/
theorem values_survive_storage_enrollments :
    let t : FieldType := .boxed (.optional .uuid)
    let x : t.Native := (some Uuid.nil : Option Uuid)
    (∃ cell, Cell.bound (t.write x) = .ok cell ∧ t.convert cell.value = .ok (t.write x) ∧
      (∀ y, t.convert cell.value = .ok (t.write y) ↔ y = x) ∧ cell.value.isEmptyKey = true) ∧
    Sample.enrollments.map.hasEmptyKey (Sample.newEnrollment "OPT" "") = .ok true ∧
    Sample.enrollments.readRow (Sample.enrollmentRow "OPT" "") = .ok none ∧
    Sample.keylessMains.isPresent ⟨[], []⟩ = true := by
  intro t x
  obtain ⟨cell, hbound, back, only, empty⟩ :=
    values_survive_storage.1 t x (by decide) rfl (by decide)
  obtain ⟨keys, skipped⟩ := values_survive_storage.2.1 Sample.enrollments
    (Sample.enrollmentRow "OPT" "") (Sample.newEnrollment "OPT" "") rfl
    (Sample.restoresKeys_enrollments (by decide) (by decide))
  obtain ⟨shown, -⟩ := values_survive_storage.2.2 Sample.keylessMains ⟨[], []⟩
    Sample.mainPrototype rfl
  have absent : Sample.enrollments.isPresent (Sample.enrollmentRow "OPT" "") = false := by
    decide +kernel
  rw [absent] at keys
  exact ⟨⟨cell, hbound, back, only rfl, empty.trans (by decide)⟩, keys, skipped.mpr keys, shown⟩

/-- A blob whose length is a multiple of 2³² is bound as an empty one, which is what a field reads
back and an empty key. A row of a table without keys is read as a record, which cannot be asked for
an empty key. -/
theorem lost_in_storage :
    let bytes := List.replicate (2 ^ 32) (7 : UInt8)
    (Cell.bound (.blob (some bytes)) = .ok (.blob []) ∧
      FieldType.bytes.convert (Cell.blob []).value = .ok (.blob (some [])) ∧
      Value.blob (some []) ≠ .blob (some bytes) ∧
      (Cell.blob []).value.isEmptyKey = true ∧ (Value.blob (some bytes)).isEmptyKey = false) ∧
    ∃ record, Sample.keylessMains.readRow ⟨[], [.null, .varchar (some "A")]⟩ = .ok (some record) ∧
      Sample.keylessMains.map.hasEmptyKey record = .error (.of (.noKey "mains")) := by
  intro bytes
  have hlength : bytes.length = 2 ^ 32 := List.length_replicate
  clear_value bytes
  have nonempty : bytes ≠ [] := by
    intro heq
    rw [heq] at hlength
    cases hlength
  have counted : Sqlite.countedBytes bytes = .ok [] := by
    unfold Sqlite.countedBytes
    rw [hlength]
    rfl
  refine ⟨⟨congrArg (Except.map Cell.blob) counted, rfl, ?_, rfl, ?_⟩, _, rfl, rfl⟩
  · intro heq
    injection heq with heq
    exact nonempty (Option.some.inj heq).symm
  · exact List.isEmpty_eq_false_iff.mpr nonempty

end GraphStore
