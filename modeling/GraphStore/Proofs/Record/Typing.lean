import GraphStore.Proofs.Record.Places

/-!
# Typed records

The fields of a typed record hold values of their types. An assignment converts what it is given,
so it keeps a record typed and leaves the types of its fields as they are. What a field holds is
taken unchanged by a field of the same type but for options (`FieldType.takes_of_convert`).
-/

set_option autoImplicit false

namespace GraphStore.FieldType

/-! ## Values for fields of another type -/

/-- What a field of type `t` holds when the value `v` has been put into it: the value itself, or a
null for a null if the field takes any value. -/
def Takes (t : FieldType) (v w : Value) : Prop :=
  w = v ∨ t.base = .any ∧ v.isNull = true ∧ w.isNull = true

variable {t t' : FieldType} {v w : Value}

theorem nullValue_base (t : FieldType) : t.base.nullValue = t.nullValue := by
  induction t with
  | optional t ih => exact ih
  | boxed t ih => exact ih
  | _ => rfl

theorem isNull_nullValue (t : FieldType) : t.nullValue.isNull = true := by
  induction t with
  | optional t ih => exact ih
  | boxed t ih => exact ih
  | _ => rfl

theorem holds_base (h : t.Holds v) : v = t.base.nullValue ∨ t.base.Holds v := by
  induction t with
  | optional t ih =>
      rcases h with rfl | h
      · exact .inl (nullValue_base t).symm
      · exact ih h
  | boxed t ih => exact ih h
  | _ => exact .inr h

theorem convert_base (h : t.convert v = .ok w) :
    (v.isNull = true ∧ w = t.base.nullValue) ∨ t.base.convert v = .ok w := by
  induction t with
  | optional t ih =>
      simp only [convert] at h
      split at h
      next hnull =>
        cases h
        exact .inl ⟨hnull, (nullValue_base t).symm⟩
      next => exact ih h
  | boxed t ih => exact ih h
  | _ => exact .inr h

/-- Values of a type that is neither optional nor boxed are taken as they are, and nulls only where
any value is taken. -/
theorem eq_of_convert_base (hv : v = t.base.nullValue ∨ t.base.Holds v)
    (h : t.base.convert v = .ok w) : w = v := by
  induction t with
  | optional t ih => exact ih hv h
  | boxed t ih => exact ih hv h
  | any =>
      cases h
      rfl
  | borrowedText => cases h
  | _ =>
      rcases hv with rfl | ⟨x, rfl⟩
      · cases h
      · cases h
        rfl

theorem base_eq_any (hv : t.base.Holds v) (hnull : v.isNull = true) : t.base = .any := by
  induction t with
  | optional t ih => exact ih hv
  | boxed t ih => exact ih hv
  | any => rfl
  | _ =>
      obtain ⟨x, rfl⟩ := hv
      cases hnull

/-- A value that a field holds is taken by every field of the same type but for options. -/
theorem takes_of_convert (hbase : t.base = t'.base) (hv : t'.Holds v) (h : t.convert v = .ok w) :
    t.Takes v w := by
  have hv := hbase ▸ holds_base hv
  rcases convert_base h with ⟨hnull, rfl⟩ | h
  · rcases hv with rfl | hv
    · exact .inl rfl
    · exact .inr ⟨base_eq_any hv hnull, hnull, isNull_nullValue _⟩
  · exact .inl (eq_of_convert_base hv h)

/-! ## What a field of some type takes -/

/-- A value that is no null is taken by a field if its type takes it without options and boxes. -/
theorem convert_of_base (hnull : v.isNull = false) (h : t.base.convert v = .ok w) :
    t.convert v = .ok w := by
  induction t with
  | optional t ih => simpa only [convert, hnull, Bool.false_eq_true, if_false] using ih h
  | boxed t ih => exact ih h
  | _ => exact h

/-- Identifiers and times are put into a field as they are. -/
theorem eq_of_convert (hv : (∃ u, v = .uuid (some u)) ∨ ∃ x, v = .timestamp (some x))
    (h : t.convert v = .ok w) : w = v := by
  induction t with
  | any =>
      cases h
      rfl
  | optional t ih =>
      rcases hv with ⟨u, rfl⟩ | ⟨x, rfl⟩ <;> exact ih h
  | boxed t ih => exact ih h
  | _ => rcases hv with ⟨u, rfl⟩ | ⟨x, rfl⟩ <;> cases h <;> rfl

/-- The type of the fields that are made for a value. -/
def ofValue : Value → FieldType
  | .null => any
  | .boolean _ => boolean
  | .int32 _ => int32
  | .int64 _ => int64
  | .float64 _ => float64
  | .varchar _ => text
  | .blob _ => bytes
  | .timestamp _ => timestamp
  | .uuid _ => uuid

/-- A field that holds a value is made for it, takes any value, or is a text of the other kind. -/
theorem base_of_holds (h : v = t.nullValue ∨ t.Holds v) :
    t.base = ofValue v ∨ t.base = .any ∨ t.base = .borrowedText ∧ ofValue v = .text := by
  induction t with
  | optional t ih =>
      rcases h with rfl | rfl | h
      · exact ih (.inl rfl)
      · exact ih (.inl rfl)
      · exact ih (.inr h)
  | boxed t ih => exact ih h
  | any => exact .inr (.inl rfl)
  | borrowedText => rcases h with rfl | ⟨x, rfl⟩ <;> exact .inr (.inr ⟨rfl, rfl⟩)
  | _ => rcases h with rfl | ⟨x, rfl⟩ <;> exact .inl rfl

/-- A type that is made for some values holds these unless they are null. -/
theorem holds_iff (hown : ofValue t.nullValue = t) (hany : t ≠ .any) :
    t.Holds v ↔ ofValue v = t ∧ v.isNull = false := by
  cases t with
  | any => exact absurd rfl hany
  | borrowedText => cases hown
  | optional t => exact absurd hown (by cases (FieldType.optional t).nullValue <;> simp [ofValue])
  | boxed t => exact absurd hown (by cases (FieldType.boxed t).nullValue <;> simp [ofValue])
  | _ =>
      cases v with
      | null => simp [Holds, ofValue]
      | _ x => cases x <;> simp [Holds, ofValue, Value.isNull]

instance decidableHolds : (t : FieldType) → (v : Value) → Decidable (t.Holds v)
  | any, _ => .isTrue trivial
  | boolean, _ => decidable_of_iff _ (holds_iff rfl (by decide)).symm
  | int32, _ => decidable_of_iff _ (holds_iff rfl (by decide)).symm
  | int64, _ => decidable_of_iff _ (holds_iff rfl (by decide)).symm
  | float64, _ => decidable_of_iff _ (holds_iff rfl (by decide)).symm
  | text, _ => decidable_of_iff _ (holds_iff rfl (by decide)).symm
  | borrowedText, v => decidable_of_iff _ (holds_iff (t := .text) (v := v) rfl (by decide)).symm
  | bytes, _ => decidable_of_iff _ (holds_iff rfl (by decide)).symm
  | uuid, _ => decidable_of_iff _ (holds_iff rfl (by decide)).symm
  | timestamp, _ => decidable_of_iff _ (holds_iff rfl (by decide)).symm
  | optional t, v =>
      have := decidableHolds t v
      inferInstanceAs (Decidable (v = t.nullValue ∨ t.Holds v))
  | boxed t, v => decidableHolds t v

/-- What a field made for identifiers holds is an identifier. -/
theorem exists_uuid_of_holds (hbase : t.base = .uuid) (h : t.Holds v) : ∃ u, v = .uuid u := by
  rcases holds_base h with rfl | h
  · exact ⟨none, by rw [hbase]; rfl⟩
  · rw [hbase] at h
    obtain ⟨u, rfl⟩ := h
    exact ⟨some u, rfl⟩

/-- What a field made for integers takes is not an empty key, unless it is a null. -/
theorem isEmptyKey_of_int32 (hbase : t.base = .int32) (hnull : v.isNull = false)
    (h : t.convert v = .ok w) : w.isEmptyKey = false := by
  rcases convert_base h with ⟨hv, -⟩ | h
  · rw [hnull] at hv
    cases hv
  · rw [hbase] at h
    obtain ⟨n, rfl⟩ := convert_holds h
    rfl

end GraphStore.FieldType

namespace GraphStore.Record

/-! ## Types of fields -/

/-- The type of a field, if there is one of that name. -/
def fieldType? (r : Record) (property : String) : Option FieldType :=
  (r.fields.find? (·.name == property)).map (·.type)

variable {r r' : Record} {p q : String} {v w : Value} {t : FieldType}

/-- An assignment puts the converted value into the field. -/
theorem setField_of_convert (ht : r.fieldType? p = some t) (hw : t.convert v = .ok w) :
    r.setField p v = .ok (r.withValue p w) := by
  unfold fieldType? at ht
  obtain ⟨f, hf, rfl⟩ := Option.map_eq_some_iff.mp ht
  simp only [setField, hf, hw]

theorem fieldType?_withValue (r : Record) (p q : String) (w : Value) :
    (r.withValue p w).fieldType? q = r.fieldType? q := by
  obtain ⟨type, fields, slots⟩ := r
  simp only [withValue, fieldType?, Record.fields]
  induction fields with
  | nil => rfl
  | cons f fs ih =>
      have name : (if f.name = p then { f with value := w } else f).name = f.name := by
        split <;> rfl
      have type : (if f.name = p then { f with value := w } else f).type = f.type := by
        split <;> rfl
      rw [List.map_cons, List.find?_cons, List.find?_cons, name]
      cases f.name == q with
      | true => exact congrArg some type
      | false => exact ih

theorem field?_withValue_self (ht : r.fieldType? p = some t) (w : Value) :
    (r.withValue p w).field? p = some w := by
  unfold fieldType? at ht
  obtain ⟨f, hf, -⟩ := Option.map_eq_some_iff.mp ht
  rw [field?_withValue, if_pos rfl, field?, hf]
  rfl

/-! ## Values of fields -/

/-- Every field holds a value of its type. -/
def Typed (r : Record) : Prop :=
  ∀ p t v, r.fieldType? p = some t → r.field? p = some v → t.Holds v

/-- A record whose fields hold values of their types is typed. -/
theorem typed_of_fields (h : ∀ f ∈ r.fields, f.type.Holds f.value) : r.Typed := by
  intro p t v ht hv
  obtain ⟨f, hf, rfl⟩ := Option.map_eq_some_iff.mp ht
  obtain ⟨f', hf', rfl⟩ := Option.map_eq_some_iff.mp hv
  cases hf.symm.trans hf'
  exact h f (List.mem_of_find?_eq_some hf)

theorem exists_fieldType? (h : r.field? p = some v) : ∃ t, r.fieldType? p = some t := by
  obtain ⟨f, hf, -⟩ := Option.map_eq_some_iff.mp h
  exact ⟨f.type, by rw [fieldType?, hf]; rfl⟩

theorem exists_field? (h : r.fieldType? p = some t) : ∃ v, r.field? p = some v := by
  obtain ⟨f, hf, -⟩ := Option.map_eq_some_iff.mp h
  exact ⟨f.value, by rw [field?, hf]; rfl⟩

/-- What an assignment puts into the field: the value as it is converted. -/
theorem exists_convert_of_setField (h : r.setField p v = .ok r') :
    ∃ t w, r.fieldType? p = some t ∧ t.convert v = .ok w ∧ r' = r.withValue p w := by
  unfold setField at h
  split at h
  next => cases h
  next f hf =>
    split at h
    next w hw =>
      cases h
      exact ⟨f.type, w, by rw [fieldType?, hf]; rfl, hw, rfl⟩
    next => cases h

/-- The field then holds the value that was converted. -/
theorem exists_field?_of_setField (h : r.setField p v = .ok r') :
    ∃ t w, r.fieldType? p = some t ∧ t.convert v = .ok w ∧ r'.field? p = some w := by
  obtain ⟨t, w, ht, hw, rfl⟩ := exists_convert_of_setField h
  exact ⟨t, w, ht, hw, field?_withValue_self ht w⟩

/-- Identifiers and times are found in the field that they are assigned to. -/
theorem field?_of_setField_same (hv : (∃ u, v = .uuid (some u)) ∨ ∃ x, v = .timestamp (some x))
    (h : r.setField p v = .ok r') : r'.field? p = some v := by
  obtain ⟨t, w, -, hw, hassigned⟩ := exists_field?_of_setField h
  rw [hassigned, FieldType.eq_of_convert hv hw]

theorem fieldType?_of_setField (h : r.setField p v = .ok r') (q : String) :
    r'.fieldType? q = r.fieldType? q := by
  obtain ⟨t, w, -, -, rfl⟩ := exists_convert_of_setField h
  exact fieldType?_withValue r p q w

theorem Typed.of_setField (typed : r.Typed) (h : r.setField p v = .ok r') : r'.Typed := by
  obtain ⟨t, w, ht, hw, rfl⟩ := exists_convert_of_setField h
  intro q t' v' ht' hv'
  rw [fieldType?_withValue] at ht'
  by_cases hq : q = p
  · subst hq
    rw [ht] at ht'
    cases ht'
    rw [field?_withValue_self ht] at hv'
    cases hv'
    exact FieldType.convert_holds hw
  · rw [field?_withValue, if_neg hq] at hv'
    exact typed q t' v' ht' hv'

/-- The fields have the same types, and hold values of these if they did before. -/
structure KeepsTypes (r r' : Record) : Prop where
  fieldType?_eq : ∀ p, r'.fieldType? p = r.fieldType? p
  typed : r.Typed → r'.Typed

namespace KeepsTypes

theorem trans {r'' : Record} (h : KeepsTypes r r') (h' : KeepsTypes r' r'') : KeepsTypes r r'' :=
  ⟨fun p => (h'.fieldType?_eq p).trans (h.fieldType?_eq p), fun typed => h'.typed (h.typed typed)⟩

theorem of_fields (h : r'.fields = r.fields) : KeepsTypes r r' where
  fieldType?_eq p := by rw [fieldType?, fieldType?, h]
  typed typed p t v ht hv := by
    rw [fieldType?, h] at ht
    rw [field?, h] at hv
    exact typed p t v ht hv

theorem of_setField (h : r.setField p v = .ok r') : KeepsTypes r r' :=
  ⟨fieldType?_of_setField h, fun typed => typed.of_setField h⟩

end KeepsTypes

end GraphStore.Record
