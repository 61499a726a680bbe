import GraphStore.Model.Derivation
import GraphStore.Proofs.Record.Typing

/-!
# What writing keeps

Writing a graph changes it in memory: identifiers are drawn, times are stamped and keys are
copied. `Model.Assigns` says which fields of a record that can be, and `Keeps` that two graphs
are the same but for such fields: the same records at the same places, in slots of the same kinds.
Keeping is transitive, so what every step of a run keeps, the whole run keeps.
-/

set_option autoImplicit false

namespace GraphStore

namespace Model

/-- The fields that writing a record may assign on its own account: a generated key that was
empty, the auto timestamp, and the local key of a reference that is set. -/
inductive Assigns (m : Model) (record : Record) (property : String) : Prop where
  | generatedKey {map : EntityMap} {column : ColumnDef} {v : Value}
      (hmap : m.entityMap record.type = .ok map) (hcolumn : map.generatedKeyColumn? = some column)
      (hproperty : column.property = property) (hvalue : record.field? property = some v)
      (hempty : v.isEmptyKey = true)
  | timestamp {map : EntityMap} {column : ColumnDef} (hmap : m.entityMap record.type = .ok map)
      (hcolumn : map.autoTimestampColumn? = some column) (hproperty : column.property = property)
  | localKey {map : EntityMap} {r : RelationDef} {child : Record}
      (hmap : m.entityMap record.type = .ok map) (hr : r ∈ map.relationsOf .manyToOne)
      (hproperty : r.localKey = property) (hchild : record.reference? r.property = some child)

/-- The fields of an item that its owner may assign: the foreign key of its collection. -/
def GivesKey (m : Model) (owner : Record) (slot property : String) : Prop :=
  ∃ map r, m.entityMap owner.type = .ok map ∧ r ∈ map.relationsOf .oneToMany ∧
    r.property = slot ∧ r.foreignKey = property

end Model

/-! ## The shape of a record -/

namespace Record

/-- What a slot is, without the records in it. -/
def shape? (r : Record) (slot : String) : Option (RelationKind × String × Nat) :=
  (r.slot? slot).map fun s => (s.kind, s.target, s.items.length)

/-- The records have the same type, fields and slots, with as many items. -/
structure SameShape (r r' : Record) : Prop where
  type_eq : r'.type = r.type
  isSome_field? : ∀ property, (r'.field? property).isSome = (r.field? property).isSome
  shape?_eq : ∀ slot, r'.shape? slot = r.shape? slot

namespace SameShape

variable {r r' r'' : Record}

theorem refl (r : Record) : SameShape r r := ⟨rfl, fun _ => rfl, fun _ => rfl⟩

theorem trans (h : SameShape r r') (h' : SameShape r' r'') : SameShape r r'' :=
  ⟨h'.type_eq.trans h.type_eq, fun p => (h'.isSome_field? p).trans (h.isSome_field? p),
    fun s => (h'.shape?_eq s).trans (h.shape?_eq s)⟩

theorem of_setField {property : String} {v : Value} (h : r.setField property v = .ok r') :
    SameShape r r' where
  type_eq := type_of_setField h
  isSome_field? q := by
    obtain ⟨hpresent, w, rfl⟩ := exists_of_setField h
    rw [field?_withValue]
    split
    next hq => simp [hq]
    next => rfl
  shape?_eq slot := by rw [shape?, shape?, slot?_congr (slots_of_setField h)]

theorem of_withItems {slot : String} {items : List Record}
    (h : items.length = (r.items slot).length) : SameShape r (r.withItems slot items) where
  type_eq := rfl
  isSome_field? _ := rfl
  shape?_eq q := by
    rw [shape?, shape?, slot?_withItems]
    split
    next hq =>
      subst hq
      unfold Record.items at h
      cases hs : r.slot? q with
      | none => rfl
      | some s =>
          rw [hs] at h
          simp only [Option.map_some]
          rw [← h]
    next => rfl

/-- A reference is set in both or in neither. -/
theorem isSome_reference? (h : SameShape r r') (slot : String) :
    (r'.reference? slot).isSome = (r.reference? slot).isSome := by
  have hshape := h.shape?_eq slot
  unfold shape? at hshape
  unfold reference?
  cases hs : r.slot? slot with
  | none =>
      cases hs' : r'.slot? slot with
      | none => rfl
      | some s' => simp [hs, hs'] at hshape
  | some s =>
      cases hs' : r'.slot? slot with
      | none => simp [hs, hs'] at hshape
      | some s' =>
          simp only [hs, hs', Option.map_some, Option.some.injEq, Prod.mk.injEq] at hshape
          obtain ⟨hkind, -, hlength⟩ := hshape
          -- a reference is set exactly when its slot has an item
          simp only [hkind]
          split
          · rw [List.head?_eq_getElem?, List.head?_eq_getElem?, Bool.eq_iff_iff, isSome_getElem?,
              isSome_getElem?, hlength]
          · rfl

theorem reference?_eq_none (h : SameShape r r') (slot : String) :
    r'.reference? slot = none ↔ r.reference? slot = none := by
  rw [← Option.isNone_iff_eq_none, ← Option.isNone_iff_eq_none, ← Option.not_isSome,
    ← Option.not_isSome, h.isSome_reference?]

/-- A relation leads to as many records in both. -/
theorem length_related (h : SameShape r r') (relation : RelationDef) :
    (relation.related r').length = (relation.related r).length := by
  unfold RelationDef.related
  cases relation.kind with
  | manyToOne =>
      have := h.isSome_reference? relation.property
      cases hr : r.reference? relation.property <;>
        cases hr' : r'.reference? relation.property <;> simp_all
  | oneToMany =>
      have hshape := h.shape?_eq relation.property
      unfold shape? at hshape
      unfold collection?
      cases hs : r.slot? relation.property <;> cases hs' : r'.slot? relation.property <;>
        simp_all
      split <;> simp_all

end SameShape

end Record

open Record (SameShape)

/-! ## Keeping -/

/-- At a place below `r` and `r'` there is the same record but for fields that may have been
assigned values of their types: on its own account, by its owner or, at the root, those of
`extra`. -/
def KeepsAt (m : Model) : Place → (String → Prop) → Record → Record → Prop
  | [], extra, r, r' =>
      SameShape r r' ∧ Record.KeepsTypes r r' ∧ ∀ property,
        r'.field? property ≠ r.field? property → m.Assigns r property ∨ extra property
  | (slot, i) :: rest, _, r, r' =>
      match (r.items slot)[i]?, (r'.items slot)[i]? with
      | some child, some child' => KeepsAt m rest (m.GivesKey r slot) child child'
      | none, none => True
      | _, _ => False

/-- The graphs are the same but for fields that may have been assigned. -/
def Keeps (m : Model) (extra : String → Prop) (r r' : Record) : Prop :=
  ∀ place, KeepsAt m place extra r r'

namespace Keeps

variable {m : Model} {extra extra' : String → Prop} {r r' r'' : Record} {slot : String} {i : Nat}

theorem sameShape (h : Keeps m extra r r') : SameShape r r' := (h []).1

theorem keepsTypes (h : Keeps m extra r r') : Record.KeepsTypes r r' := (h []).2.1

theorem assigned {property : String} (h : Keeps m extra r r')
    (hchanged : r'.field? property ≠ r.field? property) : m.Assigns r property ∨ extra property :=
  (h []).2.2 property hchanged

theorem type_eq (h : Keeps m extra r r') : r'.type = r.type := h.sameShape.type_eq

theorem item {child child' : Record} (h : Keeps m extra r r')
    (hchild : (r.items slot)[i]? = some child) (hchild' : (r'.items slot)[i]? = some child') :
    Keeps m (m.GivesKey r slot) child child' := by
  intro place
  have := h ((slot, i) :: place)
  simpa only [KeepsAt, hchild, hchild'] using this

theorem exists_item {child : Record} (h : Keeps m extra r r')
    (hchild : (r.items slot)[i]? = some child) : ∃ child', (r'.items slot)[i]? = some child' := by
  have := h [(slot, i)]
  cases hchild' : (r'.items slot)[i]? with
  | none => simp only [KeepsAt, hchild, hchild'] at this
  | some child' => exact ⟨child', rfl⟩

/-- It is enough to look at the record itself and at the items of its slots. -/
theorem of_items (hshape : SameShape r r') (htypes : Record.KeepsTypes r r')
    (hfields : ∀ property, r'.field? property ≠ r.field? property →
      m.Assigns r property ∨ extra property)
    (hitems : ∀ slot (i : Nat) child child', (r.items slot)[i]? = some child →
      (r'.items slot)[i]? = some child' → Keeps m (m.GivesKey r slot) child child')
    (hlength : ∀ slot, (r'.items slot).length = (r.items slot).length) : Keeps m extra r r' := by
  intro place
  cases place with
  | nil => exact ⟨hshape, htypes, hfields⟩
  | cons step rest =>
      obtain ⟨slot, i⟩ := step
      unfold KeepsAt
      cases hchild : (r.items slot)[i]? with
      | none =>
          have : (r'.items slot)[i]? = none := by
            rw [List.getElem?_eq_none_iff] at hchild ⊢
            rwa [hlength]
          simp only [this]
      | some child =>
          have inside : i < (r'.items slot).length := by
            rw [hlength]
            exact (List.getElem?_eq_some_iff.mp hchild).1
          simp only [List.getElem?_eq_getElem inside]
          exact hitems slot i child _ hchild (List.getElem?_eq_getElem inside) rest

theorem length_items (h : Keeps m extra r r') (slot : String) :
    (r'.items slot).length = (r.items slot).length := by
  have hshape := h.sameShape.shape?_eq slot
  unfold Record.shape? at hshape
  unfold Record.items
  cases hs : r.slot? slot <;> cases hs' : r'.slot? slot <;> simp_all

theorem refl (r : Record) : Keeps m extra r r := by
  intro place
  induction place generalizing r extra with
  | nil => exact ⟨.refl r, .of_fields rfl, fun property h => absurd rfl h⟩
  | cons step rest ih =>
      obtain ⟨slot, i⟩ := step
      unfold KeepsAt
      cases (r.items slot)[i]? with
      | none => trivial
      | some child => exact ih child

theorem mono (h : Keeps m extra r r') (hle : ∀ property, extra property → extra' property) :
    Keeps m extra' r r' :=
  .of_items h.sameShape h.keepsTypes (fun property hp => (h.assigned hp).imp_right (hle property))
    (fun _ _ _ _ hchild hchild' => h.item hchild hchild') h.length_items

/-- Whether a field may be assigned has not changed when the field has not. -/
theorem assigns_of_assigns {property : String} (h : SameShape r r')
    (heq : r'.field? property = r.field? property) (hassigns : m.Assigns r' property) :
    m.Assigns r property := by
  cases hassigns with
  | generatedKey hmap hcolumn hproperty hvalue hempty =>
      exact .generatedKey (h.type_eq ▸ hmap) hcolumn hproperty (heq ▸ hvalue) hempty
  | timestamp hmap hcolumn hproperty => exact .timestamp (h.type_eq ▸ hmap) hcolumn hproperty
  | @localKey map relation child hmap hr hproperty hchild =>
      have := h.isSome_reference? relation.property
      rw [hchild, Option.isSome_some, eq_comm, Option.isSome_iff_exists] at this
      obtain ⟨child₀, hchild₀⟩ := this
      exact .localKey (h.type_eq ▸ hmap) hr hproperty hchild₀

theorem trans (h : Keeps m extra r r') (h' : Keeps m extra r' r'') : Keeps m extra r r'' := by
  intro place
  -- below a slot the keys that its owner gives take the part of `extra`
  induction place generalizing r r' r'' extra with
  | nil =>
      refine ⟨h.sameShape.trans h'.sameShape, h.keepsTypes.trans h'.keepsTypes,
        fun property hp => ?_⟩
      -- a field that was assigned first may be assigned; otherwise the second step accounts for it
      by_cases hfirst : r'.field? property = r.field? property
      · rcases h'.assigned (hfirst ▸ hp) with hassigns | hextra
        · exact .inl (assigns_of_assigns h.sameShape hfirst hassigns)
        · exact .inr hextra
      · exact h.assigned hfirst
  | cons step rest ih =>
      obtain ⟨slot, i⟩ := step
      unfold KeepsAt
      cases hchild : (r.items slot)[i]? with
      | none =>
          have outside : (r''.items slot)[i]? = none := by
            rw [List.getElem?_eq_none_iff] at hchild ⊢
            rwa [h'.length_items, h.length_items]
          simp only [outside]
      | some child =>
          obtain ⟨child', hchild'⟩ := h.exists_item hchild
          obtain ⟨child'', hchild''⟩ := h'.exists_item hchild'
          simp only [hchild'']
          have owner : m.GivesKey r' slot = m.GivesKey r slot := by
            funext property
            rw [Model.GivesKey, Model.GivesKey, h.type_eq]
          exact ih (h.item hchild hchild') (owner ▸ h'.item hchild' hchild'')

theorem of_setField {property : String} {v : Value} (h : r.setField property v = .ok r')
    (hallowed : m.Assigns r property ∨ extra property) : Keeps m extra r r' := by
  have items : ∀ slot, r'.items slot = r.items slot := fun slot =>
    Record.items_congr (Record.slot?_congr (Record.slots_of_setField h) slot)
  refine .of_items (.of_setField h) (.of_setField h) (fun q hq => ?_)
    (fun slot i child child' hc hc' => ?_) fun slot => by rw [items]
  · by_cases hp : q = property
    · exact hp ▸ hallowed
    · exact absurd (Record.field?_of_setField h hp) hq
  · rw [items, hc] at hc'
    cases hc'
    exact .refl child

/-- What work on an item keeps of it, it keeps of the whole record. -/
theorem of_withItems {child child' : Record} (hchild : (r.items slot)[i]? = some child)
    (h : Keeps m (m.GivesKey r slot) child child') :
    Keeps m extra r (r.withItems slot ((r.items slot).set i child')) := by
  obtain ⟨s, hs⟩ : ∃ s, r.slot? slot = some s := by
    cases hs : r.slot? slot with
    | none => simp [Record.items, hs] at hchild
    | some s => exact ⟨s, rfl⟩
  have here := Record.items_withItems hs ((r.items slot).set i child')
  have others : ∀ q, q ≠ slot → (r.withItems slot ((r.items slot).set i child')).items q =
      r.items q := fun q hq => Record.items_congr (by rw [Record.slot?_withItems, if_neg hq])
  refine .of_items (.of_withItems (List.length_set ..)) (.of_fields rfl) (fun q hq => absurd rfl hq)
    (fun q j c c' hc hc' => ?_) (fun q => ?_)
  · by_cases hq : q = slot
    · subst hq
      rw [here] at hc'
      -- the work was on item `i` of the slot alone
      by_cases hj : i = j
      · subst hj
        rw [hchild] at hc
        rw [List.getElem?_set_self (List.getElem?_eq_some_iff.mp hchild).1] at hc'
        cases hc
        cases hc'
        exact h
      · rw [List.getElem?_set_ne hj, hc] at hc'
        cases hc'
        exact .refl c
    · rw [others q hq, hc] at hc'
      cases hc'
      exact .refl c
  · by_cases hq : q = slot
    · subst hq
      rw [here, List.length_set]
    · rw [others q hq]

/-- The fields of the record at a place that were not its own to assign: at the root those of
`extra`, below it those that the owner may assign. -/
def givenAt (m : Model) (extra : String → Prop) (root : Record) (place : Place)
    (property : String) : Prop :=
  (place = [] ∧ extra property) ∨ ∃ front slot i owner, place = front ++ [(slot, i)] ∧
    root.at? front = some owner ∧ m.GivesKey owner slot property

/-- What is given below an item is given at the same place below its owner. -/
theorem givenAt.of_item {child : Record} {place : Place} {property : String}
    (hchild : (r.items slot)[i]? = some child)
    (h : givenAt m (m.GivesKey r slot) child place property) :
    givenAt m extra r ((slot, i) :: place) property := by
  rcases h with ⟨rfl, hgiven⟩ | ⟨front, slot', j, owner, rfl, howner, hgiven⟩
  · exact .inr ⟨[], slot, i, r, rfl, rfl, hgiven⟩
  · refine .inr ⟨(slot, i) :: front, slot', j, owner, rfl, ?_, hgiven⟩
    rw [Record.at?_cons, hchild]
    exact howner

/-- Graphs that are kept have records at the same places, and these are kept. -/
theorem at? {place : Place} {record : Record} (h : Keeps m extra r r')
    (hrecord : r.at? place = some record) :
    ∃ record', r'.at? place = some record' ∧ Keeps m (givenAt m extra r place) record record' := by
  induction place generalizing r r' extra with
  | nil =>
      cases hrecord
      exact ⟨r', rfl, h.mono fun property hextra => .inl ⟨rfl, hextra⟩⟩
  | cons step rest ih =>
      obtain ⟨slot, i⟩ := step
      obtain ⟨child, hchild, hrest⟩ := Option.bind_eq_some_iff.mp hrecord
      obtain ⟨child', hchild'⟩ := h.exists_item hchild
      obtain ⟨record', hrecord', hkept⟩ := ih (h.item hchild hchild') hrest
      refine ⟨record', ?_, hkept.mono fun _ hgiven => hgiven.of_item hchild⟩
      rw [Record.at?_cons, hchild']
      exact hrecord'

theorem isSome_at? (h : Keeps m extra r r') (place : Place) :
    (r'.at? place).isSome = (r.at? place).isSome := by
  induction place generalizing r r' extra with
  | nil => rfl
  | cons step rest ih =>
      obtain ⟨slot, i⟩ := step
      rw [Record.at?_cons, Record.at?_cons]
      cases hchild : (r.items slot)[i]? with
      | none =>
          have outside : (r'.items slot)[i]? = none := by
            rw [List.getElem?_eq_none_iff] at hchild ⊢
            rwa [h.length_items]
          rw [outside]
      | some child =>
          obtain ⟨child', hchild'⟩ := h.exists_item hchild
          rw [hchild']
          exact ih (h.item hchild hchild')

/-- Every record below the one that was kept is a record that was kept. -/
theorem exists_at? {place : Place} {record' : Record} (h : Keeps m extra r r')
    (hrecord' : r'.at? place = some record') :
    ∃ record, r.at? place = some record ∧ Keeps m (givenAt m extra r place) record record' := by
  obtain ⟨record, hrecord⟩ : ∃ record, r.at? place = some record := by
    rw [← Option.isSome_iff_exists, ← h.isSome_at? place, hrecord']
    rfl
  obtain ⟨record'', hrecord'', hkept⟩ := h.at? hrecord
  rw [hrecord'] at hrecord''
  cases hrecord''
  exact ⟨record, hrecord, hkept⟩

/-- So is every related record. -/
theorem exists_related {relation : RelationDef} {child' : Record} (h : Keeps m extra r r')
    (hchild' : (relation.related r')[i]? = some child') :
    ∃ child, (relation.related r)[i]? = some child ∧
      Keeps m (m.GivesKey r relation.property) child child' := by
  have inside : i < (relation.related r).length := by
    rw [← h.sameShape.length_related]
    exact (List.getElem?_eq_some_iff.mp hchild').1
  have hchild := List.getElem?_eq_getElem inside
  exact ⟨_, hchild,
    h.item (RelationDef.items_of_related hchild) (RelationDef.items_of_related hchild')⟩

/-- Owners may assign the same fields before and after. -/
theorem givenAt.of_keeps {place : Place} {property : String} (hkeep : Keeps m extra r r')
    (h : givenAt m extra r' place property) : givenAt m extra r place property := by
  rcases h with ⟨rfl, hgiven⟩ | ⟨front, slot, i, owner', rfl, howner', map, relation, hmap, hgives⟩
  · exact .inl ⟨rfl, hgiven⟩
  · obtain ⟨owner, howner, kept⟩ := hkeep.exists_at? howner'
    exact .inr ⟨front, slot, i, owner, rfl, howner, map, relation, kept.type_eq ▸ hmap, hgives⟩

end Keeps

end GraphStore
