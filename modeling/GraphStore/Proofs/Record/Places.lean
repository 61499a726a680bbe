import GraphStore.Model.EntityMap

/-!
# Places in a graph

A place says how to get from the root of a graph to one of its records: through which slot, and
to which of its items, again and again. What an operation on a record does is said slot by slot
and field by field, so that records elsewhere in the graph are seen to stay as they are.
-/

set_option autoImplicit false

namespace GraphStore

/-- The slots and positions that lead from a record to one below it. -/
abbrev Place := List (String × Nat)

namespace Record

variable {r r' : Record} {p q : String} {v : Value}

/-- The record at a place. -/
def at? : Record → Place → Option Record
  | r, [] => some r
  | r, (property, i) :: rest => (r.items property)[i]?.bind fun child => child.at? rest

@[simp] theorem at?_nil (r : Record) : r.at? [] = some r := rfl

theorem at?_cons (r : Record) (property : String) (i : Nat) (rest : Place) :
    r.at? ((property, i) :: rest) = (r.items property)[i]?.bind fun child => child.at? rest := rfl

theorem at?_append (r : Record) (front back : Place) :
    r.at? (front ++ back) = (r.at? front).bind (·.at? back) := by
  induction front generalizing r with
  | nil => rfl
  | cons step front ih =>
      obtain ⟨property, i⟩ := step
      rw [List.cons_append, at?_cons, at?_cons]
      cases (r.items property)[i]? with
      | none => rfl
      | some child => exact ih child

/-! ## Fields -/

theorem field?_withValue (r : Record) (p q : String) (v : Value) :
    (r.withValue p v).field? q = if q = p then (r.field? p).map fun _ => v else r.field? q := by
  obtain ⟨type, fields, slots⟩ := r
  simp only [withValue, field?, Record.fields]
  induction fields with
  | nil => simp
  | cons f fs ih =>
      by_cases hf : f.name = q
      · by_cases hq : q = p
        · simp [hf, hq]
        · simp [hf, hq]
      · have name : (if f.name = p then { f with value := v } else f).name = f.name := by
          split <;> rfl
        by_cases hq : q = p
        · subst hq
          simpa [List.find?_cons, hf] using ih
        · simpa [List.find?_cons, name, hf, hq] using ih

/-- Assigning a field replaces its value and nothing else. -/
theorem exists_of_setField (h : r.setField p v = .ok r') :
    (r.field? p).isSome = true ∧ ∃ w, r' = r.withValue p w := by
  unfold setField at h
  cases hf : r.fields.find? (·.name == p) with
  | none =>
      rw [hf] at h
      cases h
  | some f =>
      rw [hf] at h
      simp only at h
      split at h
      next w _ =>
        cases h
        exact ⟨by simp [field?, hf], w, rfl⟩
      next => cases h

theorem type_of_setField (h : r.setField p v = .ok r') : r'.type = r.type := by
  obtain ⟨-, w, rfl⟩ := exists_of_setField h
  rfl

theorem slots_of_setField (h : r.setField p v = .ok r') : r'.slots = r.slots := by
  obtain ⟨-, w, rfl⟩ := exists_of_setField h
  rfl

theorem field?_of_setField (h : r.setField p v = .ok r') (hq : q ≠ p) :
    r'.field? q = r.field? q := by
  obtain ⟨-, w, rfl⟩ := exists_of_setField h
  rw [field?_withValue, if_neg hq]

theorem fields_withValue (r : Record) (p : String) (v : Value) :
    (r.withValue p v).fields =
      r.fields.map fun f => if f.name = p then { f with value := v } else f := rfl

/-- What is assigned does not depend on the slots. -/
theorem setField_congr {t : Record} (hfields : t.fields = r.fields)
    (h : r.setField p v = .ok r') : ∃ t', t.setField p v = .ok t' ∧ t'.fields = r'.fields := by
  unfold setField at h ⊢
  rw [hfields]
  cases hf : r.fields.find? (·.name == p) with
  | none =>
      rw [hf] at h
      cases h
  | some f =>
      rw [hf] at h
      simp only at h ⊢
      split at h
      next w hw =>
        cases h
        exact ⟨t.withValue p w, rfl, by rw [fields_withValue, fields_withValue, hfields]⟩
      next => cases h

/-! ## Slots -/

theorem slot?_withItems (r : Record) (p q : String) (items : List Record) :
    (r.withItems p items).slot? q =
      if q = p then (r.slot? p).map fun s => { s with items := items } else r.slot? q := by
  obtain ⟨type, fields, slots⟩ := r
  simp only [withItems, slot?, Record.slots]
  induction slots with
  | nil => simp
  | cons s ss ih =>
      by_cases hs : s.name = q
      · by_cases hq : q = p
        · simp [hs, hq]
        · simp [hs, hq]
      · have name : (if s.name = p then { s with items := items } else s).name = s.name := by
          split <;> rfl
        by_cases hq : q = p
        · subst hq
          simpa [List.find?_cons, hs] using ih
        · simpa [List.find?_cons, name, hs, hq] using ih

theorem slot?_congr (h : r'.slots = r.slots) (q : String) : r'.slot? q = r.slot? q := by
  rw [slot?, slot?, h]

theorem items_congr (h : r'.slot? p = r.slot? p) : r'.items p = r.items p := by
  rw [items, items, h]

theorem at?_congr (h : r'.slot? p = r.slot? p) (i : Nat) (rest : Place) :
    r'.at? ((p, i) :: rest) = r.at? ((p, i) :: rest) := by
  rw [at?_cons, at?_cons, items_congr h]

theorem reference?_congr (h : r'.slot? p = r.slot? p) : r'.reference? p = r.reference? p := by
  rw [reference?, reference?, h]

/-- A reference that is set is the first item of a slot for references. -/
theorem slot_of_reference? {child : Record} (h : r.reference? p = some child) :
    ∃ s, r.slot? p = some s ∧ s.kind = .manyToOne ∧ s.items.head? = some child := by
  unfold reference? at h
  cases hslot : r.slot? p with
  | none => simp [hslot] at h
  | some s =>
      simp only [hslot] at h
      by_cases hs : s.kind = .manyToOne
      · rw [if_pos hs] at h
        exact ⟨s, rfl, hs, h⟩
      · simp [hs] at h

theorem items_of_slot? {s : Slot Record} (h : r.slot? p = some s) : r.items p = s.items := by
  simp only [items, h]

theorem items_withItems {s : Slot Record} (h : r.slot? p = some s) (items : List Record) :
    (r.withItems p items).items p = items := by
  rw [items_of_slot? (by rw [slot?_withItems, if_pos rfl, h, Option.map_some])]

/-- A slot with an item is there to be given other items. -/
theorem items_withItems_of_item {i : Nat} {child : Record} (h : (r.items p)[i]? = some child)
    (items : List Record) : (r.withItems p items).items p = items := by
  cases hslot : r.slot? p with
  | none => simp [Record.items, hslot] at h
  | some s => exact items_withItems hslot items

/-- What holds of a record and of all records of the graphs in its slots holds of every record of
its graph. -/
theorem forall_at?_of_items {P : Record → Prop} (hroot : P r)
    (hitems : ∀ s ∈ r.slots, ∀ child ∈ s.items, ∀ place record,
      child.at? place = some record → P record) :
    ∀ place record, r.at? place = some record → P record := by
  intro place record hrecord
  cases place with
  | nil =>
      cases hrecord
      exact hroot
  | cons step rest =>
      obtain ⟨slot, i⟩ := step
      obtain ⟨child, hchild, hrest⟩ := Option.bind_eq_some_iff.mp hrecord
      unfold Record.items at hchild
      cases hslot : r.slot? slot with
      | none => simp [hslot] at hchild
      | some s =>
          simp only [hslot] at hchild
          exact hitems s (List.mem_of_find?_eq_some hslot) child (List.mem_of_getElem? hchild) rest
            record hrest

/-- The reference is replaced when the first item is. -/
theorem reference?_withItems {child child' : Record} (h : r.reference? p = some child) :
    (r.withItems p ((r.items p).set 0 child')).reference? p = some child' := by
  obtain ⟨s, hslot, hkind, hfirst⟩ := slot_of_reference? h
  rw [reference?, slot?_withItems, if_pos rfl, hslot, items_of_slot? hslot]
  cases hitems : s.items with
  | nil => simp [hitems] at hfirst
  | cons first rest => simp [hkind]

/-- A record that has other fields than another of the same type and slots is above the same
records. -/
theorem at?_of_slots (htype : r'.type = r.type) (hslots : r'.slots = r.slots)
    {place : Place} {record' : Record} (h : r'.at? place = some record') :
    ∃ record, r.at? place = some record ∧ record'.type = record.type ∧
      record'.slots = record.slots := by
  cases place with
  | nil =>
      cases h
      exact ⟨r, rfl, htype, hslots⟩
  | cons step rest =>
      obtain ⟨slot, i⟩ := step
      rw [at?_congr (slot?_congr hslots slot)] at h
      exact ⟨record', h, rfl, rfl⟩

end Record

/-! ## Work on one slot -/

/-- Two records differ in the items of one slot at most. -/
structure Record.OnlyItems (slot : String) (r r' : Record) : Prop where
  type_eq : r'.type = r.type
  fields_eq : r'.fields = r.fields
  slot_eq : ∀ q, q ≠ slot → r'.slot? q = r.slot? q
  slot_here : r'.slot? slot = (r.slot? slot).map fun s => { s with items := r'.items slot }

namespace Record.OnlyItems

variable {slot : String} {r r' r'' : Record}

theorem refl (slot : String) (r : Record) : OnlyItems slot r r where
  type_eq := rfl
  fields_eq := rfl
  slot_eq _ _ := rfl
  slot_here := by
    unfold Record.items
    cases r.slot? slot <;> rfl

theorem trans (h : OnlyItems slot r r') (h' : OnlyItems slot r' r'') : OnlyItems slot r r'' where
  type_eq := h'.type_eq.trans h.type_eq
  fields_eq := h'.fields_eq.trans h.fields_eq
  slot_eq q hq := (h'.slot_eq q hq).trans (h.slot_eq q hq)
  slot_here := by
    rw [h'.slot_here, h.slot_here, Option.map_map]
    rfl

theorem of_withItems (r : Record) (slot : String) (items : List Record) :
    OnlyItems slot r (r.withItems slot items) where
  type_eq := rfl
  fields_eq := rfl
  slot_eq q hq := by rw [slot?_withItems, if_neg hq]
  slot_here := by
    rw [slot?_withItems, if_pos rfl]
    cases hslot : r.slot? slot with
    | none => rfl
    | some s => rw [items_withItems hslot]

/-- The reference in a slot of that kind is the first of its items. -/
theorem reference?_eq {s : Slot Record} (h : OnlyItems slot r r') (hslot : r.slot? slot = some s)
    (hkind : s.kind = .manyToOne) : r'.reference? slot = (r'.items slot)[0]? := by
  have here := h.slot_here
  rw [hslot, Option.map_some] at here
  simp only [reference?, here, hkind, if_true]
  rw [List.head?_eq_getElem?]

/-- A collection stays one, with its items. -/
theorem collection?_eq {items : List Record} (h : OnlyItems slot r r')
    (hitems : r.collection? slot = some items) : r'.collection? slot = some (r'.items slot) := by
  unfold collection? at hitems ⊢
  rw [h.slot_here]
  cases hslot : r.slot? slot with
  | none => simp [hslot] at hitems
  | some s =>
      simp only [hslot] at hitems
      split at hitems
      next hkind => simp [hkind]
      next => cases hitems

end Record.OnlyItems

/-! ## Related records -/

namespace RelationDef

/-- The records that a relation leads to: the one in the slot of a single reference, or all in the
slot of a collection. -/
def related (r : RelationDef) (record : Record) : List Record :=
  match r.kind with
  | .manyToOne => (record.reference? r.property).toList
  | .oneToMany => (record.collection? r.property).getD []

theorem related_congr {r : RelationDef} {record record' : Record}
    (h : record'.slot? r.property = record.slot? r.property) :
    r.related record' = r.related record := by
  unfold related
  cases r.kind <;> simp only [Record.reference?, Record.collection?, h]

/-- A related record is an item of the slot. -/
theorem items_of_related {r : RelationDef} {record child : Record} {i : Nat}
    (h : (r.related record)[i]? = some child) : (record.items r.property)[i]? = some child := by
  unfold related at h
  cases hkind : r.kind with
  | manyToOne =>
      simp only [hkind, Record.reference?] at h
      unfold Record.items
      cases hslot : record.slot? r.property with
      | none => simp [hslot] at h
      | some s =>
          simp only [hslot] at h ⊢
          by_cases hs : s.kind = .manyToOne
          · rw [if_pos hs] at h
            cases hitems : s.items with
            | nil => simp [hitems] at h
            | cons first rest =>
                cases i with
                | zero => simpa [hitems] using h
                | succ i => simp [hitems] at h
          · simp [hs] at h
  | oneToMany =>
      simp only [hkind, Record.collection?] at h
      unfold Record.items
      cases hslot : record.slot? r.property with
      | none => simp [hslot] at h
      | some s =>
          simp only [hslot] at h ⊢
          by_cases hs : s.kind = .oneToMany
          · simpa [hs] using h
          · simp [hs] at h

/-- A related record is at the place that its relation leads to. -/
theorem at?_of_related {r : RelationDef} {root record child : Record} {place : Place} {i : Nat}
    (hrecord : root.at? place = some record) (hchild : (r.related record)[i]? = some child) :
    root.at? (place ++ [(r.property, i)]) = some child := by
  rw [Record.at?_append, hrecord, Option.bind_some, Record.at?_cons, items_of_related hchild]
  rfl

/-- The record in the slot of a single reference is its only related record. -/
theorem related_of_reference {r : RelationDef} {record child : Record}
    (hkind : r.kind = .manyToOne) (h : record.reference? r.property = some child) :
    r.related record = [child] ∧
      ∃ s, record.slot? r.property = some s ∧ s.kind = .manyToOne ∧ s.items.head? = some child :=
  ⟨by simp [related, hkind, h], Record.slot_of_reference? h⟩

/-- All items in the slot of a collection are related records. -/
theorem related_of_collection {r : RelationDef} {record : Record} {items : List Record}
    (hkind : r.kind = .oneToMany) (h : record.collection? r.property = some items) :
    r.related record = items ∧
      ∃ s, record.slot? r.property = some s ∧ s.kind = .oneToMany ∧ s.items = items := by
  refine ⟨by simp [related, hkind, h], ?_⟩
  unfold Record.collection? at h
  cases hslot : record.slot? r.property with
  | none => simp [hslot] at h
  | some s =>
      simp only [hslot] at h
      by_cases hs : s.kind = .oneToMany
      · rw [if_pos hs] at h
        exact ⟨s, rfl, hs, Option.some.inj h⟩
      · simp [hs] at h

end RelationDef

end GraphStore
