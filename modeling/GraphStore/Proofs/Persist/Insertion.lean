import GraphStore.Proofs.Persist.Cascade
import GraphStore.Proofs.Persist.Keeping

/-!
# Runs that insert

Every run of the cascade that ends well issues one insert for each record that it was decided to
insert, and no other query (`inserting_insertLevels`). The proof follows the work: items,
collections and references of a record are worked on by a run for one level less.
-/

set_option autoImplicit false

namespace GraphStore

open IssuedInserts

variable {σ : Type}

namespace Store

variable {store : Store σ} {map target : EntityMap} {owner : Record} {r : RelationDef}
  {cascade : Work σ Record Unit}

/-- Work that inserts a record that counts as new, with what is below it. -/
def Inserting (store : Store σ) (forced : Bool) (work : Work σ Record Unit) : Prop :=
  ∀ s s', work s = .ok () s' → ∃ issued,
    Cascaded store.model forced s.subject s'.subject issued ∧
      RanQueries s.calls s'.calls (issued.queries store)

/-! ## Collections -/

theorem ok_of_insertItem (hcascade : store.Inserting false cascade)
    (htarget : store.model.target r = .ok target) (hkind : r.kind = .oneToMany) {key : Value}
    (hkey : map.read owner r.localKey = .ok key) {i : Nat} {s s' : Session σ Record}
    (h : insertItem cascade map target r key i s = .ok () s') :
    ∃ issued, BelowItems store.model map owner r [i] s.subject s'.subject issued ∧
      RanQueries s.calls s'.calls (issued.queries store) := by
  unfold insertItem at h
  obtain ⟨record, s₁, hrecord, h₁⟩ := ends_of_bind h
  obtain ⟨rfl, rfl⟩ := Work.ok_of_subject hrecord
  cases hitem : (s₁.subject.items r.property)[i]? with
  | none =>
      simp only [hitem] at h₁
      obtain ⟨-, rfl⟩ := ends_of_pure h₁
      refine ⟨[], .refl fun j hj decision item hj' => ?_, .refl _⟩
      rw [← hj', List.mem_singleton.mp hj, hitem]
      rfl
  | some child =>
      simp only [hitem] at h₁
      obtain ⟨new, s₂, hcheck, h₂⟩ := ends_of_bind h₁
      obtain ⟨hempty, hsubject, hcalls⟩ := Work.ok_of_ofExcept hcheck
      cases new with
      | false =>
          obtain ⟨-, rfl⟩ := ends_of_pure h₂
          rw [hsubject, hcalls]
          refine ⟨[], .refl fun j hj decision item hj' => ?_, .refl _⟩
          rw [← hj', List.mem_singleton.mp hj, hitem]
          exact Model.decidedItem_stored htarget hempty
      | true =>
          obtain ⟨t, hwork, hcalls', hsubject'⟩ := Work.ok_of_onItem h₂
          -- the item is worked on with the key of its owner already assigned
          obtain ⟨_, u, hassign, hframed⟩ := ends_of_bind hwork
          obtain ⟨hgiven, hcallsu⟩ := Work.ok_of_assignField hassign
          obtain ⟨issued, hbelow, ran⟩ := hcascade u t (Work.ok_of_framed hframed)
          have given : r.given map owner child = .ok u.subject := by
            simp only [RelationDef.given, hkind, hkey, ok_bind]
            exact hgiven
          rw [hsubject] at hsubject'
          rw [hcallsu, hcalls] at ran
          refine ⟨issued.under r.property i, ?_, ?_⟩
          · rw [hsubject']
            exact .of_cascaded htarget hitem hempty given hbelow
          · rw [queries_under, hcalls']
            exact ran

theorem ok_of_insertItems (hcascade : store.Inserting false cascade)
    (htarget : store.model.target r = .ok target) (hkind : r.kind = .oneToMany) {key : Value}
    (hkey : map.read owner r.localKey = .ok key) {is : List Nat} (hnodup : is.Nodup)
    {s s' : Session σ Record} (h : is.forM (insertItem cascade map target r key) s = .ok () s') :
    ∃ issued, BelowItems store.model map owner r is s.subject s'.subject issued ∧
      RanQueries s.calls s'.calls (issued.queries store) := by
  induction is generalizing s with
  | nil =>
      obtain ⟨-, rfl⟩ := ends_of_pure h
      exact ⟨[], .refl fun i hi => absurd hi List.not_mem_nil, .refl _⟩
  | cons i is ih =>
      obtain ⟨t, hitem, hrest⟩ := ends_of_forM_cons h
      obtain ⟨fresh, hnodup⟩ := List.nodup_cons.mp hnodup
      obtain ⟨issued, hbelow, ran⟩ := ok_of_insertItem hcascade htarget hkind hkey hitem
      obtain ⟨issued', hbelow', ran'⟩ := ih hnodup hrest
      refine ⟨issued ++ issued', hbelow.cons hbelow' fresh, ?_⟩
      rw [queries_append]
      exact ran.trans ran'

theorem ok_of_targetOf {s s' : Session σ Record} (h : store.targetOf r s = .ok target s') :
    store.model.target r = .ok target ∧ s'.subject = s.subject ∧ s'.calls = s.calls :=
  Work.ok_of_ofExcept h

theorem ok_of_insertCollection (hcascade : store.Inserting false cascade)
    (hkind : r.kind = .oneToMany) {s s' : Session σ Record}
    (howner : owner.fields = s.subject.fields)
    (h : store.insertCollection cascade map r s = .ok () s') :
    ∃ issued, BelowRelations store.model map owner [r] s.subject s'.subject issued ∧
      s'.subject.fields = s.subject.fields ∧
      RanQueries s.calls s'.calls (issued.queries store) := by
  unfold insertCollection at h
  obtain ⟨target, s₁, htargetOf, h₁⟩ := ends_of_bind h
  obtain ⟨htarget, hsubject₁, hcalls₁⟩ := ok_of_targetOf htargetOf
  obtain ⟨record, s₂, hrecord, h₂⟩ := ends_of_bind h₁
  obtain ⟨rfl, rfl⟩ := Work.ok_of_subject hrecord
  obtain ⟨key, s₃, hread, h₃⟩ := ends_of_bind h₂
  obtain ⟨hkey, hsubject₃, hcalls₃⟩ := Work.ok_of_ofExcept hread
  obtain ⟨record, s₄, hrecord', h₄⟩ := ends_of_bind h₃
  obtain ⟨rfl, rfl⟩ := Work.ok_of_subject hrecord'
  rw [hsubject₁] at hkey hsubject₃
  rw [hcalls₁] at hcalls₃
  rw [← hsubject₃, ← hcalls₃]
  -- the two checks before the loop change neither the record nor the calls
  rw [← hsubject₃] at hkey howner
  cases hitems : s₄.subject.collection? r.property with
  | none =>
      simp only [hitems] at h₄
      obtain ⟨-, unchanged⟩ := ends_of_pure h₄
      rw [unchanged]
      have none_related : r.related s₄.subject = [] := by
        simp [RelationDef.related, hkind, hitems]
      exact ⟨[], .of_unrelated none_related, rfl, .refl _⟩
  | some items =>
      simp only [hitems] at h₄
      have hkey' : map.read owner r.localKey = .ok key := by
        rw [EntityMap.read_congr howner]
        exact hkey
      obtain ⟨issued, hbelow, ran⟩ :=
        ok_of_insertItems hcascade htarget hkind hkey' List.nodup_range h₄
      -- the loop runs over the indices of the items, which are the related records
      obtain ⟨related, slot, hslot, -, hslotItems⟩ :=
        RelationDef.related_of_collection hkind hitems
      have items_eq : s₄.subject.items r.property = items :=
        (Record.items_of_slot? hslot).trans hslotItems
      have related' : r.related s'.subject = s'.subject.items r.property :=
        (RelationDef.related_of_collection hkind (hbelow.collection?_eq hitems)).1
      refine ⟨issued, .of_items hbelow rfl rfl (fun i _ => ⟨by rw [related, items_eq],
        by rw [related']⟩) (fun i hi => ?_), hbelow.fields_eq, ran⟩
      rw [related]
      exact List.getElem?_eq_none (by simpa using hi)

theorem ok_of_insertCollections (owner : Record) (hcascade : store.Inserting false cascade)
    {rs : List RelationDef} (hkind : ∀ r ∈ rs, r.kind = .oneToMany)
    (hnodup : (rs.map (·.property)).Nodup) {s s' : Session σ Record}
    (howner : owner.fields = s.subject.fields)
    (h : rs.forM (store.insertCollection cascade map) s = .ok () s') :
    ∃ issued, BelowRelations store.model map owner rs s.subject s'.subject issued ∧
      s'.subject.fields = s.subject.fields ∧
      RanQueries s.calls s'.calls (issued.queries store) := by
  induction rs generalizing s with
  | nil =>
      obtain ⟨-, rfl⟩ := ends_of_pure h
      exact ⟨[], .refl _, rfl, .refl _⟩
  | cons r rs ih =>
      obtain ⟨t, hfirst, hrest⟩ := ends_of_forM_cons h
      rw [List.map_cons, List.nodup_cons] at hnodup
      obtain ⟨issued, hbelow, hfields, ran⟩ :=
        ok_of_insertCollection hcascade (hkind r (by simp)) howner hfirst
      obtain ⟨issued', hbelow', hfields', ran'⟩ :=
        ih (fun r' hr' => hkind r' (List.mem_cons_of_mem r hr')) hnodup.2
          (howner.trans hfields.symm) hrest
      refine ⟨issued ++ issued', hbelow.cons hbelow' hnodup.1, hfields'.trans hfields, ?_⟩
      rw [queries_append]
      exact ran.trans ran'

/-! ## References -/

/-- The record of a reference is inserted if it is new; its key is copied either way. -/
theorem ok_of_referredItem (map : EntityMap) (owner : Record)
    (hcascade : store.Inserting false cascade)
    (htarget : store.model.target r = .ok target) (hkind : r.kind = .manyToOne) {child : Record}
    {slot : Slot Record} {frame : Frame} {s s' : Session σ Record}
    (hslot : s.subject.slot? r.property = some slot) (hfirst : slot.items[0]? = some child)
    (h : (do
      if ← Work.ofExcept (target.hasEmptyKey child) then
        Work.framed frame (Work.onItem r.property 0 child cascade)
      copyKey target r : Work σ Record Unit) s = .ok () s') :
    ∃ t issued child', BelowItems store.model map owner r [0] s.subject t.subject issued ∧
      (t.subject.items r.property)[0]? = some child' ∧
      RanQueries s.calls t.calls (issued.queries store) ∧ copyKey target r t = .ok () s' := by
  have hitem : (s.subject.items r.property)[0]? = some child := by
    rw [Record.items_of_slot? hslot, hfirst]
  obtain ⟨new, s₁, hcheck, h₁⟩ := ends_of_bind h
  obtain ⟨hempty, hsubject₁, hcalls₁⟩ := Work.ok_of_ofExcept hcheck
  rw [← hsubject₁] at hslot hitem ⊢
  rw [← hcalls₁]
  cases new with
  | false =>
      refine ⟨s₁, [], child, .refl fun i hi decision item hi' => ?_, hitem, .refl _, h₁⟩
      rw [← hi', List.mem_singleton.mp hi, hitem]
      exact Model.decidedItem_stored htarget hempty
  | true =>
      obtain ⟨_, t, hframed, hcopy⟩ := ends_of_bind h₁
      obtain ⟨u, hwork, hcalls, hsubject⟩ := Work.ok_of_onItem (Work.ok_of_framed hframed)
      obtain ⟨issued, hcascaded, ran⟩ := hcascade _ _ hwork
      have given : r.given map owner child = .ok child := by
        simp only [RelationDef.given, hkind]
      refine ⟨t, issued.under r.property 0, u.subject, ?_, ?_, ?_, hcopy⟩
      · rw [hsubject]
        exact .of_cascaded htarget hitem hempty given hcascaded
      · rw [hsubject, Record.items_withItems hslot,
          List.getElem?_set_self (List.getElem?_eq_some_iff.mp hitem).1]
      · rw [queries_under, hcalls]
        exact ran

/-- Without a record in the slot nothing is done. -/
theorem ok_of_absentReference {s s' : Session σ Record}
    (h : (do
      if r.nullable then return
      if !(← Work.ofExcept (map.read (← Work.subject) r.localKey)).isEmptyKey then return
      Work.reportedFailure (.requiredRelation r.property map.table.name) : Work σ Record Unit) s =
        .ok () s') : s'.subject = s.subject ∧ s'.calls = s.calls := by
  by_cases hnullable : r.nullable = true
  · rw [if_pos hnullable] at h
    obtain ⟨-, rfl⟩ := ends_of_pure h
    exact ⟨rfl, rfl⟩
  · rw [if_neg hnullable] at h
    obtain ⟨record, s₁, hrecord, h₁⟩ := ends_of_bind h
    obtain ⟨rfl, rfl⟩ := Work.ok_of_subject hrecord
    obtain ⟨key, s₂, hread, h₂⟩ := ends_of_bind h₁
    obtain ⟨-, hsubject, hcalls⟩ := Work.ok_of_ofExcept hread
    by_cases hkey : (!key.isEmptyKey) = true
    · rw [if_pos hkey] at h₂
      obtain ⟨-, rfl⟩ := ends_of_pure h₂
      exact ⟨hsubject, hcalls⟩
    · rw [if_neg hkey] at h₂
      -- a required reference is missing: the run would not have ended well
      exact absurd h₂ Work.not_ok_reportedFailure

theorem ok_of_insertReference (hcascade : store.Inserting false cascade)
    (hkind : r.kind = .manyToOne) {s s' : Session σ Record}
    (h : store.insertReference cascade map r s = .ok () s') :
    ∃ issued, BelowRelations store.model map owner [r] s.subject s'.subject issued ∧
      (∃ completed, store.model.withReferenceKeys s'.subject [r] s.subject = .ok completed ∧
        completed.fields = s'.subject.fields) ∧
      RanQueries s.calls s'.calls (issued.queries store) := by
  unfold insertReference at h
  obtain ⟨target, s₁, htargetOf, h₁⟩ := ends_of_bind h
  obtain ⟨htarget, hsubject₁, hcalls₁⟩ := ok_of_targetOf htargetOf
  obtain ⟨record, s₂, hrecord, h₂⟩ := ends_of_bind h₁
  obtain ⟨rfl, rfl⟩ := Work.ok_of_subject hrecord
  rw [← hsubject₁, ← hcalls₁]
  cases hchild : s₂.subject.reference? r.property with
  | none =>
      simp only [hchild] at h₂
      obtain ⟨hsubject, hcalls⟩ := ok_of_absentReference h₂
      have none_related : r.related s₂.subject = [] := by
        simp [RelationDef.related, hkind, hchild]
      rw [hsubject, hcalls]
      refine ⟨[], .of_unrelated none_related, ⟨s₂.subject, ?_, rfl⟩, .refl _⟩
      simp only [Model.withReferenceKeys, hchild]
  | some child =>
      simp only [hchild] at h₂
      obtain ⟨related, slot, hslot, hslotKind, hfirst⟩ :=
        RelationDef.related_of_reference hkind hchild
      rw [List.head?_eq_getElem?] at hfirst
      obtain ⟨t, issued, child', hbelow, hitem, ran, hcopy⟩ :=
        ok_of_referredItem map owner hcascade htarget hkind hslot hfirst h₂
      have hreference := (hbelow.reference?_eq hslot hslotKind).trans hitem
      -- the key is read from the record as its own insertion left it
      obtain ⟨key, hkey, hassign, hcalls⟩ := ok_of_copyKey hreference hcopy
      have hslots := Record.slots_of_setField hassign
      have hreference' : s'.subject.reference? r.property = some child' := by
        rw [← hreference, Record.reference?_congr (Record.slot?_congr hslots _)]
      obtain ⟨completed, hcompleted, hfields⟩ := Record.setField_congr hbelow.fields_eq.symm hassign
      refine ⟨issued, .of_items hbelow (Record.type_of_setField hassign) hslots
        (fun i hi => ?_) (fun i hi => ?_), ⟨completed, ?_, hfields⟩, hcalls ▸ ran⟩
      · rw [List.mem_singleton.mp hi, related, Record.items_of_slot? hslot, hfirst,
          (RelationDef.related_of_reference hkind hreference).1, hitem]
        exact ⟨rfl, rfl⟩
      · rw [related]
        exact List.getElem?_eq_none (by simp at hi ⊢; omega)
      · simp only [Model.withReferenceKeys, hreference', htarget, hkey, hcompleted, ok_bind]

theorem ok_of_insertReferences (owner : Record) (hcascade : store.Inserting false cascade)
    {rs : List RelationDef} (hkind : ∀ r ∈ rs, r.kind = .manyToOne)
    (hnodup : (rs.map (·.property)).Nodup) {s s' : Session σ Record}
    (h : rs.forM (store.insertReference cascade map) s = .ok () s') :
    ∃ issued, BelowRelations store.model map owner rs s.subject s'.subject issued ∧
      (∃ completed, store.model.withReferenceKeys s'.subject rs s.subject = .ok completed ∧
        completed.fields = s'.subject.fields) ∧
      RanQueries s.calls s'.calls (issued.queries store) := by
  induction rs generalizing s with
  | nil =>
      obtain ⟨-, rfl⟩ := ends_of_pure h
      exact ⟨[], .refl _, ⟨_, rfl, rfl⟩, .refl _⟩
  | cons r rs ih =>
      obtain ⟨t, hfirst, hrest⟩ := ends_of_forM_cons h
      rw [List.map_cons, List.nodup_cons] at hnodup
      obtain ⟨issued, hbelow, ⟨c₁, hc₁, hfields₁⟩, ran⟩ :=
        ok_of_insertReference hcascade (hkind r (by simp)) hfirst
      obtain ⟨issued', hbelow', ⟨c₂, hc₂, hfields₂⟩, ran'⟩ :=
        ih (fun r' hr' => hkind r' (List.mem_cons_of_mem r hr')) hnodup.2 hrest
      -- the slot of the first reference is not touched by the others
      have first : store.model.withReferenceKeys s'.subject [r] s.subject = .ok c₁ := by
        refine (Model.withReferenceKeys_congr fun r' hr' => ?_).trans hc₁
        rw [List.mem_singleton.mp hr', hbelow'.slot_eq r.property hnodup.1]
      obtain ⟨c₃, hc₃, hfields₃⟩ := Model.withReferenceKeys_fields hfields₁ hc₂
      refine ⟨issued ++ issued', hbelow.cons hbelow' hnodup.1, ⟨c₃, ?_, ?_⟩, ?_⟩
      · rw [Model.withReferenceKeys_cons, first, ok_bind, hc₃]
      · rw [hfields₃, hfields₂]
      · rw [queries_append]
        exact ran.trans ran'

end Store

/-! ## Whole runs -/

namespace Store

variable {store : Store σ} {map : EntityMap}

theorem ok_of_isStored {stored : Bool} {s s' : Session σ Record}
    (h : isStored map s = .ok stored s') :
    s'.subject = s.subject ∧ s'.calls = s.calls ∧
      Model.entered map false s.subject = .ok !stored := by
  unfold isStored at h
  by_cases hkeys : map.keys.isEmpty = true
  · rw [if_pos hkeys] at h
    obtain ⟨rfl, rfl⟩ := ends_of_pure h
    exact ⟨rfl, rfl, by simp [Model.entered, hkeys]⟩
  · rw [if_neg hkeys] at h
    obtain ⟨record, s₁, hrecord, h₁⟩ := ends_of_bind h
    obtain ⟨rfl, rfl⟩ := Work.ok_of_subject hrecord
    obtain ⟨empty, s₂, hcheck, h₂⟩ := ends_of_bind h₁
    obtain ⟨hempty, hsubject, hcalls⟩ := Work.ok_of_ofExcept hcheck
    obtain ⟨rfl, rfl⟩ := ends_of_pure h₂
    refine ⟨hsubject, hcalls, ?_⟩
    simpa [Model.entered, hkeys] using hempty

/-- Reading the generated key back keeps the record prepared for the statement. -/
theorem prepares_of_insertRow {m : Model} {forced : Bool} {given : Record} {st : InsertStatement}
    {s s' : Session σ Record} (h : Edit.Prepares m map forced given s.subject st)
    (hrow : store.insertRow st s = .ok () s') :
    Edit.Prepares m map forced given s'.subject st := by
  have hgenerated := (ok_of_insertRow hrow).2
  cases hkey : st.generatedKey with
  | none =>
      simp only [hkey] at hgenerated
      rwa [hgenerated]
  | some key =>
      simp only [hkey] at hgenerated
      obtain ⟨v, -, hassign⟩ := hgenerated
      exact h.of_generatedKey hkey hassign

/-- The part of an insertion that follows once it has begun. -/
theorem ok_of_insertEntered {levels : Nat} {forced : Bool} (hderived : map.Derived)
    (hcascade : store.Inserting false (store.insertLevels levels false)) {s s' : Session σ Record}
    (hmap : store.model.entityMap s.subject.type = .ok map)
    (hentered : Model.entered map forced s.subject = .ok true)
    (hkept : Keeps store.model (fun _ => False) s.subject s'.subject)
    (h : (do
      (map.relationsOf .manyToOne).forM
        (store.insertReference (store.insertLevels levels false) map)
      match ← Work.ofEdit (Edit.insert map forced) with
      | none => return
      | some st => do
          store.insertRow st
          (map.relationsOf .oneToMany).forM
            (store.insertCollection (store.insertLevels levels false) map) :
      Work σ Record Unit) s = .ok () s') :
    ∃ issued, Cascaded store.model forced s.subject s'.subject issued ∧
      RanQueries s.calls s'.calls (issued.queries store) := by
  obtain ⟨_, t, hreferences, h₁⟩ := ends_of_bind h
  obtain ⟨outcome, u, hedit, h₂⟩ := ends_of_bind h₁
  obtain ⟨b, hinsert, hsubject, hcalls⟩ := Work.ok_of_ofEdit hedit
  cases outcome with
  | none =>
      obtain ⟨-, hend⟩ := ends_of_pure h₂
      -- the keys of the references were all that the record lacked
      obtain ⟨rfl, hforced, hkeys, hempty⟩ := Edit.ok_of_insert_none hinsert
      obtain ⟨issued, hbelow, ⟨completed, hcompleted, hfields⟩, ran⟩ :=
        ok_of_insertReferences t.subject hcascade
          (fun r hr => kind_of_mem_relationsOf hr) (nodup_relationsOf hderived .manyToOne)
          hreferences
      have dropped : Model.entered map forced t.subject = .ok false := by
        simp [Model.entered, hforced, hkeys, hempty]
      rw [hend, hsubject] at hkept ⊢
      rw [hcalls]
      exact ⟨issued, .of_dropped hderived hmap hentered hbelow hcompleted hfields dropped hkept,
        ran⟩
  | some st =>
      -- the row, then the collections, whose items get the key of the row
      obtain ⟨_, v, hrow, hcollections⟩ := ends_of_bind h₂
      have ranRow := (ok_of_insertRow hrow).1
      obtain ⟨issued, hbelow, ⟨completed, hcompleted, hfields⟩, ran⟩ :=
        ok_of_insertReferences s'.subject hcascade
          (fun r hr => kind_of_mem_relationsOf hr) (nodup_relationsOf hderived .manyToOne)
          hreferences
      obtain ⟨issued', hbelow', hfields', ran'⟩ :=
        ok_of_insertCollections v.subject hcascade
          (fun r hr => kind_of_mem_relationsOf hr) (nodup_relationsOf hderived .oneToMany) rfl
          hcollections
      have hmap' : store.model.entityMap t.subject.type = .ok map := by rw [hbelow.type_eq, hmap]
      have prepared := Edit.ok_of_insert_some hmap' hinsert
      have new : Model.entered map forced t.subject = .ok true := by
        rcases prepared.new with hforced | hkeys | hempty
        · simp [Model.entered, hforced]
        · simp [Model.entered, hkeys]
        · simp [Model.entered, hempty]
      have row : Edit.Prepares store.model map forced t.subject v.subject st :=
        prepares_of_insertRow (hsubject ▸ prepared) hrow
      have final : store.model.Describes st s'.subject :=
        row.describes.congr hbelow'.type_eq hfields'
      have inserted : InsertedBetween store.model map forced s.subject t.subject v.subject s'.subject
          issued st issued' := {
        derived := hderived
        map_eq := hmap
        entered := hentered
        references := ⟨_, rfl, hbelow⟩
        keys := ⟨completed, hcompleted, hfields⟩
        new := new
        row := row.onlyFields
        collections := ⟨_, hfields'.symm, hbelow'⟩
        describes := final
        generates := row.generates
        field?_eq := fun property hfree => by
          rw [Record.field?_congr hfields', row.field?_eq property hfree]
        kept := hkept }
      refine ⟨issued ++ ([], st) :: issued', inserted.cascaded, ?_⟩
      rw [queries_append]
      refine ran.trans ?_
      have := ranRow.trans ran'
      rw [hcalls] at this
      simpa [queries] using this

/-- A run on a record leaves it alone when it counts as stored, and begins its insertion when it
counts as new. -/
theorem begun_of_insertLevels {levels : Nat} {forced : Bool} {s s' : Session σ Record}
    (h : store.insertLevels (levels + 1) forced s = .ok () s') :
    ∃ map t, store.model.entityMap t.subject.type = .ok map ∧ t.subject = s.subject ∧
      t.calls = s.calls ∧ (Model.entered map forced t.subject = .ok false ∧ s' = t ∨
        Model.entered map forced t.subject = .ok true ∧ (do
          (map.relationsOf .manyToOne).forM
            (store.insertReference (store.insertLevels levels false) map)
          match ← Work.ofEdit (Edit.insert map forced) with
          | none => return
          | some st => do
              store.insertRow st
              (map.relationsOf .oneToMany).forM
                (store.insertCollection (store.insertLevels levels false) map) :
          Work σ Record Unit) t = .ok () s') := by
  unfold insertLevels at h
  obtain ⟨record, s₁, hrecord, h₁⟩ := ends_of_bind h
  obtain ⟨rfl, rfl⟩ := Work.ok_of_subject hrecord
  obtain ⟨map, s₂, hmapOf, h₂⟩ := ends_of_bind h₁
  obtain ⟨hmap, hsubject, hcalls⟩ := Work.ok_of_ofExcept hmapOf
  obtain ⟨stored, t, hcheck, h₃⟩ := ends_of_bind h₂
  obtain ⟨hsubject', hcalls', hunforced⟩ := ok_of_isStored hcheck
  have hentered : Model.entered map forced s₂.subject = .ok (forced || !stored) := by
    cases forced with
    | true => simp [Model.entered]
    | false => simpa using hunforced
  rw [← hsubject, ← hsubject'] at hmap
  rw [← hsubject'] at hentered
  refine ⟨map, t, hmap, hsubject'.trans hsubject, hcalls'.trans hcalls, ?_⟩
  by_cases hskip : (!forced && stored) = true
  · rw [if_pos hskip] at h₃
    simp only [Bool.and_eq_true, Bool.not_eq_true'] at hskip
    exact .inl ⟨by rw [hentered, hskip.1, hskip.2]; rfl, (ends_of_pure h₃).2⟩
  · rw [if_neg hskip] at h₃
    refine .inr ⟨?_, h₃⟩
    rw [hentered]
    cases forced <;> cases stored <;> simp_all

/-- **A run that ends well issues exactly the inserts that were decided.** -/
theorem inserting_insertLevels (store : Store σ) (levels : Nat) (forced : Bool) :
    store.Inserting forced (store.insertLevels levels forced) := by
  induction levels generalizing forced with
  | zero =>
      intro s s' h
      -- a graph higher than the levels is cut off with an error
      cases h
  | succ levels ih =>
      intro s s' h
      have kept := (keepsAll_insertLevels store (levels + 1) forced).keeps h
      obtain ⟨map, t, hmap, hsubject, hcalls, begun⟩ := begun_of_insertLevels h
      rw [← hsubject] at kept ⊢
      rw [← hcalls]
      rcases begun with ⟨unentered, rfl⟩ | ⟨entered, h⟩
      · exact ⟨[], .of_stored hmap unentered, .refl _⟩
      · exact ok_of_insertEntered (Model.derived_of_entityMap hmap) (ih false) hmap entered kept h

end Store

end GraphStore
