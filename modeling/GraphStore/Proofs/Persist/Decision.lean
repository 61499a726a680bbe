import GraphStore.Persist.Insert
import GraphStore.Proofs.Statement.Insert

/-!
# Which records are inserted

Whether a record counts as new is asked several times, and keys are copied into it in between:
the key of its owner when it is an item of a collection, and the keys of its references. Here the
answers are computed from the graph before and after a run alone: `Model.inserts` says of every
place whether the record there is inserted.
-/

set_option autoImplicit false

namespace GraphStore

/-! ## The keys that are copied -/

/-- The record as its own insertion finds it: an item of a collection has been given the key of
its owner. -/
def RelationDef.given (r : RelationDef) (map : EntityMap) (owner child : Record) :
    Except Error Record :=
  match r.kind with
  | .manyToOne => .ok child
  | .oneToMany => do child.setField r.foreignKey (← map.read owner r.localKey)

theorem RelationDef.given_congr {r : RelationDef} {map : EntityMap} {owner owner' : Record}
    (h : owner'.fields = owner.fields) : r.given map owner' = r.given map owner := by
  funext child
  rw [given, given, EntityMap.read_congr h]

namespace Model

variable (m : Model)

/-- The record with the keys of its references copied into it, one relation after another. The
references are those of `final`. -/
def withReferenceKeys (final : Record) : List RelationDef → Record → Except Error Record
  | [], record => .ok record
  | r :: rest, record =>
      match final.reference? r.property with
      | none => withReferenceKeys final rest record
      | some child => do
          let target ← m.target r
          let record ← record.setField r.localKey (← target.read child r.foreignKey)
          withReferenceKeys final rest record

/-! ## The decisions -/

/-- Whether the insertion of a record begins, so that its references are looked at. -/
def entered (map : EntityMap) (forced : Bool) (given : Record) : Except Error Bool :=
  if forced || map.keys.isEmpty then .ok true else map.hasEmptyKey given

/-- Whether the row of a record is inserted: the record must still count as new with the keys of
its references. -/
def chosen (map : EntityMap) (forced : Bool) (given final : Record) : Except Error Bool := do
  if !(← entered map forced given) then return false
  let completed ← m.withReferenceKeys final (map.relationsOf .manyToOne) given
  entered map forced completed

/-- Whether the records of a relation are looked at: references before the row is inserted,
collections only when it is. -/
def reached (map : EntityMap) (r : RelationDef) (forced : Bool) (given final : Record) :
    Except Error Bool :=
  match r.kind with
  | .manyToOne => entered map forced given
  | .oneToMany => m.chosen map forced given final

/-- What `decision` says about an item of a relation, as it was and as it ended, if it is new. -/
def decidedItem (decision : Record → Record → Except Error Bool) (map : EntityMap)
    (r : RelationDef) (owner : Record) : Option Record → Option Record → Except Error Bool
  | some child, some child' => do
      let target ← m.target r
      if !(← target.hasEmptyKey child) then return false
      decision (← r.given map owner child) child'
  | _, _ => .ok false

/-- What `decision` says about the record at place `i` of a relation. -/
def decidedBelow (decision : Record → Record → Except Error Bool) (map : EntityMap)
    (r : RelationDef) (owner : Record) (i : Nat) (given final : Record) : Except Error Bool :=
  m.decidedItem decision map r owner (r.related given)[i]? (r.related final)[i]?

/-- Whether the record at a place is inserted. -/
def inserts : Place → Bool → Record → Record → Except Error Bool
  | [], forced, given, final => do
      m.chosen (← m.entityMap given.type) forced given final
  | (property, i) :: rest, forced, given, final => do
      let map ← m.entityMap given.type
      match map.relation? property with
      | none => return false
      | some r =>
          if !(← m.reached map r forced given final) then return false
          m.decidedBelow (inserts rest false) map r final i given final

end Model

namespace Model

variable {m : Model} {decision : Record → Record → Except Error Bool} {map target : EntityMap}
  {r : RelationDef} {owner child : Record}

/-- There is nothing to decide about an item that is not there. -/
theorem decidedItem_none {item : Option Record} :
    m.decidedItem decision map r owner none item = .ok false := rfl

/-- An item that is stored is not inserted. -/
theorem decidedItem_stored {child' : Record} (htarget : m.target r = .ok target)
    (hstored : target.hasEmptyKey child = .ok false) :
    m.decidedItem decision map r owner (some child) (some child') = .ok false := by
  simp only [decidedItem, htarget, ok_bind, hstored]
  rfl

/-- The decision about a new item is taken once it has been given its key. -/
theorem decidedItem_new {given child' : Record} (htarget : m.target r = .ok target)
    (hnew : target.hasEmptyKey child = .ok true) (hgiven : r.given map owner child = .ok given) :
    m.decidedItem decision map r owner (some child) (some child') = decision given child' := by
  simp only [decidedItem, htarget, ok_bind, hnew, hgiven, Bool.not_true, Bool.false_eq_true,
    if_false]

end Model

namespace Model

variable {m : Model} {map : EntityMap} {forced : Bool} {given final : Record} {r : RelationDef}
  {property : String} {i : Nat} {rest : Place}

theorem decidedBelow_congr_owner {decision : Record → Record → Except Error Bool}
    {owner owner' : Record} (h : owner'.fields = owner.fields) :
    m.decidedBelow decision map r owner' i given final =
      m.decidedBelow decision map r owner i given final := by
  unfold decidedBelow decidedItem
  rw [RelationDef.given_congr h]

theorem inserts_nil (hmap : m.entityMap given.type = .ok map) :
    m.inserts [] forced given final = m.chosen map forced given final := by
  rw [inserts, hmap, ok_bind]

theorem inserts_cons_of_none (hmap : m.entityMap given.type = .ok map)
    (hr : map.relation? property = none) :
    m.inserts ((property, i) :: rest) forced given final = .ok false := by
  rw [inserts, hmap, ok_bind, hr]
  rfl

theorem inserts_cons_of_unreached (hmap : m.entityMap given.type = .ok map)
    (hr : map.relation? property = some r)
    (hreached : m.reached map r forced given final = .ok false) :
    m.inserts ((property, i) :: rest) forced given final = .ok false := by
  rw [inserts, hmap, ok_bind, hr]
  simp only [hreached, ok_bind]
  rfl

theorem inserts_cons_of_reached (hmap : m.entityMap given.type = .ok map)
    (hr : map.relation? property = some r)
    (hreached : m.reached map r forced given final = .ok true) :
    m.inserts ((property, i) :: rest) forced given final =
      m.decidedBelow (m.inserts rest false) map r final i given final := by
  rw [inserts, hmap, ok_bind, hr]
  simp only [hreached, ok_bind, Bool.not_true, Bool.false_eq_true, if_false]

theorem entered_congr {record record' : Record} (h : record'.fields = record.fields) :
    entered map forced record' = entered map forced record := by
  rw [entered, entered, EntityMap.hasEmptyKey_congr h]

theorem chosen_of_not_entered (h : entered map forced given = .ok false) :
    m.chosen map forced given final = .ok false := by
  rw [chosen, h, ok_bind]
  rfl

theorem chosen_of_entered {completed : Record} (h : entered map forced given = .ok true)
    (hkeys : m.withReferenceKeys final (map.relationsOf .manyToOne) given = .ok completed) :
    m.chosen map forced given final = entered map forced completed := by
  rw [chosen, h, ok_bind]
  simp only [Bool.not_true, Bool.false_eq_true, if_false, hkeys, ok_bind]

end Model

/-! ## Copying the keys of references -/

namespace Model

variable {m : Model} {final final' record record' : Record} {r : RelationDef}
  {rs : List RelationDef}

theorem withReferenceKeys_cons : m.withReferenceKeys final (r :: rs) record =
    m.withReferenceKeys final [r] record >>= m.withReferenceKeys final rs := by
  unfold withReferenceKeys
  cases final.reference? r.property with
  | none => cases rs <;> rfl
  | some child =>
      simp only [bind_assoc, withReferenceKeys, ok_bind]

/-- Only the references themselves matter in the record that they are taken from. -/
theorem withReferenceKeys_congr (h : ∀ r ∈ rs, final'.slot? r.property = final.slot? r.property) :
    m.withReferenceKeys final' rs record = m.withReferenceKeys final rs record := by
  induction rs generalizing record with
  | nil => rfl
  | cons r rs ih =>
      have here := Record.reference?_congr (h r (by simp))
      rw [withReferenceKeys, withReferenceKeys, here]
      have ih := fun record => @ih record fun r' hr' => h r' (List.mem_cons_of_mem r hr')
      simp only [ih]

/-- What is copied does not depend on the slots of the record that gets the keys. -/
theorem withReferenceKeys_fields {completed : Record} (hfields : record'.fields = record.fields)
    (h : m.withReferenceKeys final rs record = .ok completed) :
    ∃ completed', m.withReferenceKeys final rs record' = .ok completed' ∧
      completed'.fields = completed.fields := by
  induction rs generalizing record record' with
  | nil =>
      cases h
      exact ⟨record', rfl, hfields⟩
  | cons r rs ih =>
      rw [withReferenceKeys] at h ⊢
      cases hchild : final.reference? r.property with
      | none =>
          simp only [hchild] at h ⊢
          exact ih hfields h
      | some child =>
          simp only [hchild] at h ⊢
          obtain ⟨target, htarget, h₁⟩ := ok_of_bind h
          obtain ⟨key, hkey, h₂⟩ := ok_of_bind h₁
          obtain ⟨assigned, hassign, h₃⟩ := ok_of_bind h₂
          obtain ⟨assigned', hassign', hfields'⟩ := Record.setField_congr hfields hassign
          simp only [htarget, hkey, hassign', ok_bind]
          exact ih hfields' h₃

end Model

end GraphStore
