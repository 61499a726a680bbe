import GraphStore.Persist.Update
import GraphStore.Proofs.Persist.NewRecords
import GraphStore.Proofs.Statement.Rows

/-!
# Reconciling collections

What an update does to the relations that it includes. A record is saved by inserting it when it
is new and by updating its row otherwise (`Saved`). The items of a collection are given the key of
their owner before they are saved (`SavedItem.Sound`), so an item may count as stored by then that
was new before. Then the rows of the owner are removed that have the key of none of the items
(`SavedCollection.Sound`).
-/

set_option autoImplicit false

namespace GraphStore

variable {σ : Type}

/-- A key of the record is empty, and no reference is set whose key is copied into it. -/
def EntityMap.LacksKey (map : EntityMap) (record : Record) : Prop :=
  ∃ c ∈ map.keyColumns, ∃ v, record.field? c.property = some v ∧ v.isEmptyKey = true ∧
    ∀ r ∈ map.relationsOf .manyToOne, r.localKey = c.property →
      record.reference? r.property = none

/-! ## Saving a record -/

/-- How a record was saved: the inserts that were issued, and the calls that were made. -/
inductive Saved (store : Store σ) (map : EntityMap) (start final : Record) :
    IssuedInserts → List Call → Prop where
  /-- A new record is inserted, if it stays new, with the new records below it. -/
  | inserted {issued : IssuedInserts} {calls : List Call}
      (hnew : map.hasEmptyKey start = .ok true)
      (hinserts : InsertsNew store.model false start final issued)
      (hlacks : map.LacksKey start → [] ∈ issued.places)
      (hcalls : calls.map Call.query? = (issued.queries store).map some) :
      Saved store map start final issued calls
  /-- The row of a stored record is updated, and it was there. -/
  | updated {st : UpdateStatement} {answer : Yield}
      (hstored : map.hasEmptyKey start = .ok false)
      (hwritable : map.columns.any (·.isWritable) = true)
      (hst : map.UpdatesRow none final st) (hcount : answer.affected = .ok 1) :
      Saved store map start final []
        [.query (store.connection.dialect.render (.update st)) answer]
  /-- There is nothing to write in a row of keys and fixed columns. -/
  | unchanged (hstored : map.hasEmptyKey start = .ok false)
      (hfixed : map.columns.any (·.isWritable) = false) (hsame : final = start) :
      Saved store map start final [] []

namespace Store

variable {store : Store σ} {map : EntityMap} {s s' : Session σ Record}

/-- A row that is updated is found by the key of the record. -/
theorem ok_of_updateRow {fields : Option (List String)} (hderived : map.Derived)
    (h : store.updateRow map fields s = .ok () s') :
    ∃ st answer, map.hasEmptyKey s.subject = .ok false ∧
      Edit.OnlyFields s.subject s'.subject ∧ map.UpdatesRow fields s'.subject st ∧
      Yield.affected answer = .ok 1 ∧
      s'.calls = s.calls ++ [.query (store.connection.dialect.render (.update st)) answer] := by
  unfold updateRow at h
  obtain ⟨st, s₁, hedit, h₁⟩ := ends_of_bind h
  obtain ⟨count, s₂, hexecute, h₂⟩ := ends_of_bind h₁
  obtain ⟨b, hupdate, hsubject₁, hcalls₁⟩ := Work.ok_of_ofEdit hedit
  obtain ⟨hstored, honly, hst⟩ := Edit.ok_of_update hderived hupdate
  obtain ⟨answer, hcount, hcalls₂, hsubject₂⟩ := exists_call_of_executeStatement hexecute
  unfold expectOne at h₂
  by_cases hone : count = 1
  · rw [if_pos hone] at h₂
    obtain ⟨-, rfl⟩ := ends_of_pure h₂
    rw [hsubject₂, hsubject₁, hcalls₂, hcalls₁]
    exact ⟨st, answer, hstored, honly, hst, hone ▸ hcount, rfl⟩
  · rw [if_neg hone] at h₂
    exact absurd h₂ Work.not_ok_reportedFailure

/-- A record with a key that stays empty is inserted. -/
theorem mem_of_lacksKey {given final : Record} {issued : IssuedInserts}
    (hmap : store.model.entityMap given.type = .ok map)
    (h : Cascaded store.model false given final issued)
    (hlacks : map.LacksKey given) : [] ∈ issued.places := by
  obtain ⟨c, hc, v, hvalue, hempty, hfree⟩ := hlacks
  have decided := h.decided []
  rw [Model.inserts_nil hmap] at decided
  refine of_decide_eq_true (Model.chosen_of_empty hc hvalue hempty (fun r hr equal => ?_) decided)
  have := h.kept.sameShape.isSome_reference? r.property
  rw [hfree r hr equal] at this
  simpa using this

theorem ok_of_saveRecord (h : store.saveRecord s = .ok () s') :
    ∃ map issued calls, store.model.entityMap s.subject.type = .ok map ∧
      Saved store map s.subject s'.subject issued calls ∧ s'.calls = s.calls ++ calls := by
  unfold saveRecord at h
  obtain ⟨record, s₁, hrecord, h₁⟩ := ends_of_bind h
  obtain ⟨rfl, rfl⟩ := Work.ok_of_subject hrecord
  obtain ⟨map, s₂, hmapOf, h₂⟩ := ends_of_bind h₁
  obtain ⟨hmap, hsubject₂, hcalls₂⟩ := Work.ok_of_ofExcept hmapOf
  obtain ⟨record, s₃, hrecord, h₃⟩ := ends_of_bind h₂
  obtain ⟨rfl, rfl⟩ := Work.ok_of_subject hrecord
  obtain ⟨new, s₄, hcheck, h₄⟩ := ends_of_bind h₃
  obtain ⟨hempty, hsubject₄, hcalls₄⟩ := Work.ok_of_ofExcept hcheck
  -- finding out what is to be done changes neither the record nor the calls
  rw [← hsubject₂, ← hsubject₄] at hmap ⊢
  rw [← hsubject₄] at hempty
  rw [← hcalls₂, ← hcalls₄]
  refine ⟨map, ?_⟩
  cases new with
  | true =>
      rw [if_pos rfl] at h₄
      obtain ⟨record, s₅, hrecord, h₅⟩ := ends_of_bind h₄
      obtain ⟨rfl, rfl⟩ := Work.ok_of_subject hrecord
      obtain ⟨issued, hcascaded, calls, hcalls, hqueries⟩ := inserting_insertLevels _ _ _ _ _ h₅
      exact ⟨issued, calls, hmap, .inserted hempty hcascaded.insertsNew
        (mem_of_lacksKey hmap hcascaded) hqueries, hcalls⟩
  | false =>
      rw [if_neg Bool.false_ne_true] at h₄
      by_cases hwritable : map.columns.any (·.isWritable) = true
      · rw [if_pos hwritable] at h₄
        obtain ⟨st, answer, -, -, hst, hcount, hcalls⟩ :=
          ok_of_updateRow (Model.derived_of_entityMap hmap) h₄
        exact ⟨[], _, hmap, .updated hempty hwritable hst hcount, hcalls⟩
      · rw [if_neg hwritable] at h₄
        obtain ⟨-, rfl⟩ := ends_of_pure h₄
        exact ⟨[], [], hmap, .unchanged hempty (by simpa using hwritable) rfl, by simp⟩

end Store

/-- A record with an empty key that nothing is copied into was inserted. -/
theorem Saved.mem_of_lacksKey {store : Store σ} {map : EntityMap} {start final : Record}
    {issued : IssuedInserts} {calls : List Call} (h : Saved store map start final issued calls)
    (hlacks : map.LacksKey start) : [] ∈ issued.places := by
  have notStored : map.hasEmptyKey start ≠ .ok false := by
    obtain ⟨c, hc, v, hvalue, hempty, -⟩ := hlacks
    intro hstored
    cases EntityMap.hasEmptyKey_of_mem hc (EntityMap.read_of_field? hvalue) hempty hstored
  cases h with
  | inserted _ _ hinserted _ => exact hinserted hlacks
  | updated hstored => exact absurd hstored notStored
  | unchanged hstored => exact absurd hstored notStored

/-! ## Items -/

/-- An item of a collection as it was, as its saving found it and as it ended, with the inserts
that were issued and the calls that were made for it. -/
structure SavedItem where
  before : Record
  given : Record
  after : Record
  issued : IssuedInserts
  calls : List Call

/-- The item was given the key of its owner and then saved. -/
structure SavedItem.Sound (store : Store σ) (map : EntityMap) (r : RelationDef) (key : Value)
    (x : SavedItem) : Prop where
  given_eq : x.before.setField r.foreignKey key = .ok x.given
  saved : Saved store map x.given x.after x.issued x.calls
  /-- With an empty key that nothing is copied into, the item is inserted. -/
  inserted : x.before.type = r.target → store.model.LacksOwnKey r x.before → [] ∈ x.issued.places
  /-- An item that was stored still counts as stored, unless its key has got an empty value. -/
  stored : map.hasEmptyKey x.before = .ok false →
    (∀ c ∈ map.keyColumns, c.property = r.foreignKey → ∀ v, x.given.field? c.property = some v →
      v.isEmptyKey = false) → map.hasEmptyKey x.given = .ok false
  kept : Keeps store.model (fun _ => False) x.given x.after
  foreignKey : ¬ store.model.Assigns x.given r.foreignKey →
    x.after.field? r.foreignKey = x.given.field? r.foreignKey

namespace EntityMap

variable {map : EntityMap} {record given : Record} {property : String} {key : Value}

/-- A key that was not empty is not empty with another value in one column, unless that is. -/
theorem hasEmptyKey_of_setField (hassign : record.setField property key = .ok given)
    (hstored : map.hasEmptyKey record = .ok false)
    (hvalue : ∀ c ∈ map.keyColumns, c.property = property → ∀ v,
      given.field? c.property = some v → v.isEmptyKey = false) :
    map.hasEmptyKey given = .ok false := by
  obtain ⟨hkeys, hvalues⟩ := hasEmptyKey_eq_false.mp hstored
  refine hasEmptyKey_eq_false.mpr ⟨hkeys, fun c hc => ?_⟩
  obtain ⟨v, hv, hempty⟩ := hvalues c hc
  by_cases here : c.property = property
  · obtain ⟨t, w, -, -, assigned⟩ := Record.exists_field?_of_setField hassign
    rw [← here] at assigned
    exact ⟨w, assigned, hvalue c hc here w assigned⟩
  · exact ⟨v, by rw [Record.field?_of_setField hassign here, hv], hempty⟩

end EntityMap

/-- The item was saved as its own type says. -/
def SavedItem.IsSound (store : Store σ) (r : RelationDef) (key : Value) (x : SavedItem) : Prop :=
  ∃ map, store.model.entityMap x.before.type = .ok map ∧ x.Sound store map r key

/-- A key that the item lacks, and that is not given to it, it still lacks when it is saved. -/
theorem Model.LacksOwnKey.lacksKey {m : Model} {r : RelationDef} {target : EntityMap}
    {child given : Record} {key : Value} (h : m.LacksOwnKey r child) (hkind : r.kind = .oneToMany)
    (htarget : m.target r = .ok target) (hassign : child.setField r.foreignKey key = .ok given) :
    target.LacksKey given := by
  obtain ⟨target', c, v, htarget', hc, hvalue, hempty, apart, hfree⟩ := h
  rw [htarget] at htarget'
  cases htarget'
  refine ⟨c, hc, v, by rw [Record.field?_of_setField hassign (apart hkind), hvalue], hempty, ?_⟩
  intro r' hr' equal
  rw [Record.reference?_congr (Record.slot?_congr (Record.slots_of_setField hassign) _)]
  exact hfree r' hr' equal

namespace Store

variable {store : Store σ} {map : EntityMap} {r : RelationDef} {key : Value}
  {s s' : Session σ Record}

theorem ok_of_saveItem {i : Nat} {child : Record} (hkind : r.kind = .oneToMany)
    (hchild : (s.subject.items r.property)[i]? = some child)
    (h : store.saveItem map r key i s = .ok () s') :
    ∃ (x : SavedItem) (childMap : EntityMap), x.before = child ∧
      store.model.entityMap child.type = .ok childMap ∧ x.Sound store childMap r key ∧
      s'.calls = s.calls ++ x.calls ∧
      s'.subject = s.subject.withItems r.property ((s.subject.items r.property).set i x.after) := by
  unfold saveItem at h
  obtain ⟨record, s₁, hrecord, h₁⟩ := ends_of_bind h
  obtain ⟨rfl, rfl⟩ := Work.ok_of_subject hrecord
  simp only [hchild] at h₁
  obtain ⟨t, hwork, hcalls, hsubject⟩ := Work.ok_of_onItem h₁
  obtain ⟨_, u, hassign, hframed⟩ := ends_of_bind hwork
  obtain ⟨hgiven, hcallsu⟩ := Work.ok_of_assignField hassign
  have hsave := Work.ok_of_framed hframed
  obtain ⟨childMap, issued, calls, hmap, hsaved, hcallst⟩ := ok_of_saveRecord hsave
  have kept := (keepsAll_saveRecord store).keeps hsave
  rw [Record.type_of_setField hgiven] at hmap
  refine ⟨⟨child, u.subject, t.subject, issued, calls⟩, childMap, rfl, hmap, ?_, ?_, hsubject⟩
  · exact {
      given_eq := hgiven
      saved := hsaved
      inserted := fun htype hlacks => hsaved.mem_of_lacksKey
        (hlacks.lacksKey hkind (by rw [Model.target, ← htype, hmap]) hgiven)
      stored := fun hstored hvalue => EntityMap.hasEmptyKey_of_setField hgiven hstored hvalue
      kept
      foreignKey := fun hassigns => by
        by_contra changed
        exact (kept.assigned changed).elim hassigns id }
  · rw [hcalls, hcallst, hcallsu]

theorem ok_of_saveItems (hkind : r.kind = .oneToMany) {i n : Nat}
    (hlength : (s.subject.items r.property).length = i + n)
    (h : (List.range' i n).forM (store.saveItem map r key) s = .ok () s') :
    ∃ items : List SavedItem, (s.subject.items r.property).drop i = items.map (·.before) ∧
      s'.subject.items r.property =
        (s.subject.items r.property).take i ++ items.map (·.after) ∧
      (∀ x ∈ items, x.IsSound store r key) ∧ s'.calls = s.calls ++ items.flatMap (·.calls) ∧
      Record.OnlyItems r.property s.subject s'.subject := by
  induction n generalizing i s with
  | zero =>
      obtain ⟨-, rfl⟩ := ends_of_pure h
      refine ⟨[], ?_, ?_, by simp, by simp, .refl _ _⟩
      · simpa using List.drop_eq_nil_of_le (by omega)
      · simpa using (List.take_of_length_le (by omega)).symm
  | succ n ih =>
      obtain ⟨t, hitem, hrest⟩ := ends_of_forM_cons h
      have inside : i < (s.subject.items r.property).length := by omega
      obtain ⟨x, childMap, hbefore, hmap, hsound, hcalls, hsubject⟩ :=
        ok_of_saveItem hkind (List.getElem?_eq_getElem inside) hitem
      have only : Record.OnlyItems r.property s.subject t.subject := by
        rw [hsubject]
        exact .of_withItems _ _ _
      -- one item was replaced, the others are as they were
      have here : t.subject.items r.property = (s.subject.items r.property).set i x.after := by
        rw [hsubject, Record.items_withItems_of_item (List.getElem?_eq_getElem inside)]
      obtain ⟨items, hdrop, hitems, hsounds, hcalls', only'⟩ :=
        ih (by rw [here, List.length_set]; omega) hrest
      refine ⟨x :: items, ?_, ?_, ?_, ?_, only.trans only'⟩
      · rw [List.drop_eq_getElem_cons inside, List.map_cons, hbefore, ← hdrop, here,
          List.drop_set_of_lt (by omega)]
      · rw [hitems, here]
        rw [List.take_add_one, List.getElem?_set_self inside, List.take_set_of_le (Nat.le_refl i)]
        simp
      · exact List.forall_mem_cons.mpr ⟨⟨childMap, hbefore ▸ hmap, hsound⟩, hsounds⟩
      · rw [hcalls', hcalls, List.flatMap_cons, List.append_assoc]

end Store

/-! ## Collections -/

/-- A collection that was reconciled: its items, the statement that removed other rows, and the
answer to that. -/
structure SavedCollection where
  items : List SavedItem
  removal : Statement
  answer : Yield

/-- All calls for a collection: those for its items, and then the removal. -/
def SavedCollection.calls (store : Store σ) (x : SavedCollection) : List Call :=
  x.items.flatMap (·.calls) ++ [.query (store.connection.dialect.render x.removal) x.answer]

/-- Every item was saved under the key of the owner, and what was removed then are the rows with
that key which have none of the keys of the items as they ended. -/
structure SavedCollection.Sound (store : Store σ) (map : EntityMap) (r : RelationDef)
    (start final : Record) (x : SavedCollection) : Prop where
  before_eq : r.related start = x.items.map (·.before)
  after_eq : r.related final = x.items.map (·.after)
  reconciled : ∃ key target foreign, map.read final r.localKey = .ok key ∧
    store.model.target r = .ok target ∧ target.column? r.foreignKey = some foreign ∧
    (∀ item ∈ x.items, item.IsSound store r key) ∧ x.removal.table = target.table ∧
    ∀ s t, x.removal.concerns s t = target.isOrphan s foreign key (r.related final) t
  /-- No row is removed that has the key of an item. -/
  spared : ∀ target, store.model.target r = .ok target → ∀ item ∈ x.items, ∀ s t,
    target.hasKeyOf s item.after t = some true → x.removal.concerns s t = false
  removed : ∃ n, x.answer.affected = .ok n

/-- What matters is the slot of the collection and, in the end, the fields of the owner. -/
theorem SavedCollection.Sound.congr {store : Store σ} {map : EntityMap} {r : RelationDef}
    {start start' final final' : Record} {x : SavedCollection}
    (h : x.Sound store map r start final)
    (hstart : start'.slot? r.property = start.slot? r.property)
    (hfinal : final'.slot? r.property = final.slot? r.property)
    (hfields : final'.fields = final.fields) : x.Sound store map r start' final' where
  before_eq := (RelationDef.related_congr hstart).trans h.before_eq
  after_eq := (RelationDef.related_congr hfinal).trans h.after_eq
  reconciled := by
    rw [RelationDef.related_congr hfinal]
    simp only [EntityMap.read_congr hfields]
    exact h.reconciled
  spared := h.spared
  removed := h.removed

namespace Store

variable {store : Store σ} {map : EntityMap} {r : RelationDef} {s s' : Session σ Record}

theorem ok_of_reconcile (hkind : r.kind = .oneToMany)
    (h : store.reconcile map r s = .ok () s') :
    ∃ x : SavedCollection, x.Sound store map r s.subject s'.subject ∧
      s'.calls = s.calls ++ x.calls store ∧ Record.OnlyItems r.property s.subject s'.subject := by
  unfold reconcile at h
  obtain ⟨record, s₁, hrecord, h₁⟩ := ends_of_bind h
  obtain ⟨rfl, rfl⟩ := Work.ok_of_subject hrecord
  obtain ⟨key, s₂, hread, h₂⟩ := ends_of_bind h₁
  obtain ⟨hkey, hsubject₂, hcalls₂⟩ := Work.ok_of_ofExcept hread
  obtain ⟨record, s₃, hrecord, h₃⟩ := ends_of_bind h₂
  obtain ⟨rfl, rfl⟩ := Work.ok_of_subject hrecord
  rw [← hsubject₂] at hkey ⊢
  rw [← hcalls₂]
  obtain ⟨_, s₄, hitems, h₄⟩ := ends_of_bind h₃
  obtain ⟨record, s₅, hrecord, h₅⟩ := ends_of_bind h₄
  obtain ⟨rfl, rfl⟩ := Work.ok_of_subject hrecord
  obtain ⟨removal, s₆, hremoval, h₆⟩ := ends_of_bind h₅
  obtain ⟨n, s₇, hexecute, h₇⟩ := ends_of_bind h₆
  obtain ⟨supply, hremoval, hsubject₆, hcalls₆⟩ := Work.ok_of_ofSupply hremoval
  obtain ⟨answer, hcount, hcalls₇, hsubject₇⟩ := exists_call_of_executeStatement hexecute
  obtain ⟨hsubject', hcalls'⟩ := Work.ok_of_log h₇
  have ended : s'.subject = s₅.subject := hsubject'.trans (hsubject₇.trans hsubject₆)
  -- the items of a collection are all that is in its slot
  obtain ⟨items, hbefore, hafter, hsounds, hcalls, only⟩ : ∃ items : List SavedItem,
      r.related s₃.subject = items.map (·.before) ∧ r.related s₅.subject = items.map (·.after) ∧
      (∀ x ∈ items, x.IsSound store r key) ∧ s₅.calls = s₃.calls ++ items.flatMap (·.calls) ∧
      Record.OnlyItems r.property s₃.subject s₅.subject := by
    cases hcollection : s₃.subject.collection? r.property with
    | none =>
        rw [hcollection] at hitems
        obtain ⟨-, rfl⟩ := ends_of_pure hitems
        refine ⟨[], ?_, ?_, by simp, by simp, .refl _ _⟩ <;>
          simp [RelationDef.related, hkind, hcollection]
    | some content =>
        obtain ⟨hrelated, slot, hslot, -, hcontent⟩ :=
          RelationDef.related_of_collection hkind hcollection
        have whole : s₃.subject.items r.property = content :=
          (Record.items_of_slot? hslot).trans hcontent
        rw [hcollection, Option.getD_some, List.range_eq_range'] at hitems
        obtain ⟨items, hbefore, hafter, hsounds, hcalls, only⟩ :=
          ok_of_saveItems hkind (by rw [whole, Nat.zero_add]) hitems
        refine ⟨items, ?_, ?_, hsounds, hcalls, only⟩
        · rw [hrelated, ← hbefore, whole, List.drop_zero]
        · rw [(RelationDef.related_of_collection hkind (only.collection?_eq hcollection)).1, hafter,
            List.take_zero, List.nil_append]
  have keep : (s₅.subject.collection? r.property).getD [] = r.related s₅.subject := by
    simp only [RelationDef.related, hkind]
  obtain ⟨target, foreign, htarget, hforeign, htable, hconcerns⟩ :=
    Model.concerns_deleteOrphans hremoval
  rw [ended]
  refine ⟨⟨items, removal, answer⟩, ⟨hbefore, hafter, ?_, ?_, n, hcount⟩, ?_, only⟩
  · refine ⟨key, target, foreign, ?_, htarget, hforeign, hsounds, htable, fun s t => ?_⟩
    · rw [EntityMap.read_congr only.fields_eq, hkey]
    · rw [hconcerns, keep]
  · intro target' htarget' item hitem s t hkey
    rw [htarget] at htarget'
    cases htarget'
    rw [hconcerns]
    refine EntityMap.isOrphan_of_hasKeyOf ?_ hkey
    rw [keep, hafter]
    exact List.mem_map_of_mem hitem
  · rw [hcalls', hcalls₇, hcalls₆, hcalls, SavedCollection.calls, List.append_assoc]

theorem ok_of_reconcileAll {rs : List RelationDef} (hkind : ∀ r ∈ rs, r.kind = .oneToMany)
    (hnodup : (rs.map (·.property)).Nodup) (h : rs.forM (store.reconcile map) s = .ok () s') :
    ∃ xs : List SavedCollection,
      List.Forall₂ (fun r x => x.Sound store map r s.subject s'.subject) rs xs ∧
      s'.calls = s.calls ++ xs.flatMap (·.calls store) ∧ s'.subject.fields = s.subject.fields ∧
      ∀ q, q ∉ rs.map (·.property) → s'.subject.slot? q = s.subject.slot? q := by
  induction rs generalizing s with
  | nil =>
      obtain ⟨-, rfl⟩ := ends_of_pure h
      exact ⟨[], .nil, by simp, rfl, fun _ _ => rfl⟩
  | cons r rs ih =>
      obtain ⟨t, hfirst, hrest⟩ := ends_of_forM_cons h
      rw [List.map_cons, List.nodup_cons] at hnodup
      obtain ⟨x, hsound, hcalls, only⟩ := ok_of_reconcile (hkind r (by simp)) hfirst
      obtain ⟨xs, hsounds, hcalls', hfields, hslots⟩ :=
        ih (fun r' hr' => hkind r' (List.mem_cons_of_mem r hr')) hnodup.2 hrest
      refine ⟨x :: xs, .cons ?_ ?_, ?_, hfields.trans only.fields_eq, fun q hq => ?_⟩
      · exact hsound.congr rfl (hslots r.property hnodup.1) hfields
      · -- the slots of the other relations are as they were before the first
        refine forall₂_imp_of_mem hsounds fun r' hr' x' h =>
          h.congr (only.slot_eq _ ?_).symm rfl rfl
        exact fun equal => hnodup.1 (equal ▸ List.mem_map_of_mem hr')
      · rw [hcalls', hcalls, List.flatMap_cons, List.append_assoc]
      · rw [List.map_cons, List.mem_cons, not_or] at hq
        rw [hslots q hq.2, only.slot_eq q hq.1]

end Store

/-! ## References -/

/-- How the record of an included reference was saved, if there is one. -/
inductive ReferenceSaved (store : Store σ) (r : RelationDef) (start final : Record) :
    List Call → Prop where
  | absent (hstart : start.reference? r.property = none)
      (hfinal : final.reference? r.property = none) : ReferenceSaved store r start final []
  | saved {child child' : Record} {map : EntityMap} {issued : IssuedInserts} {calls : List Call}
      (hchild : start.reference? r.property = some child)
      (hchild' : final.reference? r.property = some child')
      (hmap : store.model.entityMap child.type = .ok map)
      (hsaved : Saved store map child child' issued calls) :
      ReferenceSaved store r start final calls

theorem ReferenceSaved.congr {store : Store σ} {r : RelationDef}
    {start start' final final' : Record} {calls : List Call}
    (h : ReferenceSaved store r start final calls)
    (hstart : start'.slot? r.property = start.slot? r.property)
    (hfinal : final'.slot? r.property = final.slot? r.property) :
    ReferenceSaved store r start' final' calls := by
  cases h with
  | absent hs hf =>
      exact .absent ((Record.reference?_congr hstart).trans hs)
        ((Record.reference?_congr hfinal).trans hf)
  | saved hchild hchild' hmap hsaved =>
      exact .saved ((Record.reference?_congr hstart).trans hchild)
        ((Record.reference?_congr hfinal).trans hchild') hmap hsaved

namespace Store

variable {store : Store σ} {map : EntityMap} {r : RelationDef} {s s' : Session σ Record}

theorem ok_of_saveReference (h : store.saveReference map r s = .ok () s') :
    ∃ calls, ReferenceSaved store r s.subject s'.subject calls ∧ s'.calls = s.calls ++ calls ∧
      s'.subject.type = s.subject.type ∧
      ∀ q, q ≠ r.property → s'.subject.slot? q = s.subject.slot? q := by
  unfold saveReference at h
  obtain ⟨target, s₁, htargetOf, h₁⟩ := ends_of_bind h
  obtain ⟨-, hsubject₁, hcalls₁⟩ := ok_of_targetOf htargetOf
  obtain ⟨record, s₂, hrecord, h₂⟩ := ends_of_bind h₁
  obtain ⟨rfl, rfl⟩ := Work.ok_of_subject hrecord
  rw [← hsubject₁, ← hcalls₁]
  cases hchild : s₂.subject.reference? r.property with
  | none =>
      simp only [hchild] at h₂
      obtain ⟨-, rfl⟩ := ends_of_pure h₂
      exact ⟨[], .absent hchild hchild, by simp, rfl, fun _ _ => rfl⟩
  | some child =>
      simp only [hchild] at h₂
      obtain ⟨_, t, hframed, hcopy⟩ := ends_of_bind h₂
      obtain ⟨u, hwork, hcalls, hsubject⟩ := Work.ok_of_onItem (Work.ok_of_framed hframed)
      obtain ⟨childMap, issued, calls, hmap, hsaved, hcallsu⟩ := ok_of_saveRecord hwork
      have only : Record.OnlyItems r.property s₂.subject t.subject := by
        rw [hsubject]
        exact .of_withItems _ _ _
      have hchild' : t.subject.reference? r.property = some u.subject := by
        rw [hsubject, Record.reference?_withItems hchild]
      obtain ⟨key, -, hassign, hcallst⟩ := ok_of_copyKey hchild' hcopy
      have slots := Record.slots_of_setField hassign
      refine ⟨calls, .saved hchild ?_ hmap hsaved, by rw [hcallst, hcalls, hcallsu], ?_,
        fun q hq => ?_⟩
      · rw [Record.reference?_congr (Record.slot?_congr slots _), hchild']
      · rw [Record.type_of_setField hassign, only.type_eq]
      · rw [Record.slot?_congr slots, only.slot_eq q hq]

theorem ok_of_saveReferences {rs : List RelationDef} (hnodup : (rs.map (·.property)).Nodup)
    (h : rs.forM (store.saveReference map) s = .ok () s') :
    ∃ calls : List (List Call),
      List.Forall₂ (fun r calls => ReferenceSaved store r s.subject s'.subject calls) rs calls ∧
      s'.calls = s.calls ++ calls.flatten ∧ s'.subject.type = s.subject.type ∧
      ∀ q, q ∉ rs.map (·.property) → s'.subject.slot? q = s.subject.slot? q := by
  induction rs generalizing s with
  | nil =>
      obtain ⟨-, rfl⟩ := ends_of_pure h
      exact ⟨[], .nil, by simp, rfl, fun _ _ => rfl⟩
  | cons r rs ih =>
      obtain ⟨t, hfirst, hrest⟩ := ends_of_forM_cons h
      rw [List.map_cons, List.nodup_cons] at hnodup
      obtain ⟨calls, hsaved, hcalls, htype, hslots⟩ := ok_of_saveReference hfirst
      obtain ⟨others, hothers, hcalls', htype', hslots'⟩ := ih hnodup.2 hrest
      refine ⟨calls :: others, .cons ?_ ?_, ?_, htype'.trans htype, fun q hq => ?_⟩
      · exact hsaved.congr rfl (hslots' r.property hnodup.1)
      · refine forall₂_imp_of_mem hothers fun r' hr' x' h => h.congr (hslots _ ?_).symm rfl
        exact fun equal => hnodup.1 (equal ▸ List.mem_map_of_mem hr')
      · rw [hcalls', hcalls, List.flatten_cons, List.append_assoc]
      · rw [List.map_cons, List.mem_cons, not_or] at hq
        rw [hslots' q hq.2, hslots q hq.1]

end Store

/-! ## Updates -/

/-- What is written to a row depends on the fields alone. -/
theorem EntityMap.UpdatesRow.congr {map : EntityMap} {fields : Option (List String)}
    {record record' : Record} {st : UpdateStatement} (h : map.UpdatesRow fields record st)
    (hfields : record'.fields = record.fields) : map.UpdatesRow fields record' st where
  table_eq := h.table_eq
  set_eq := by
    simp only [Record.field?_congr hfields]
    exact h.set_eq
  concerns_eq s t := by
    rw [h.concerns_eq, hasKeyOf, hasKeyOf]
    simp only [Record.field?_congr hfields]

/-- The calls were made between two moments, on their own or in a transaction of their own. -/
def CallsMade (before after calls : List Call) : Prop :=
  after = before ++ calls ∨ after = before ++ .begin (.ok ()) :: calls ++ [.commit (.ok ())]

/-- What an update of a record with included relations did: the records of the references were
saved, the row was updated, and the collections were reconciled. -/
structure Updated (store : Store σ) (includes : List String) (fields : Option (List String))
    (map : EntityMap) (start final : Record) (references : List (List Call)) (row : UpdateStatement)
    (collections : List SavedCollection) : Prop where
  references : List.Forall₂ (fun r calls => ReferenceSaved store r start final calls)
    (Store.included map includes .manyToOne) references
  row : map.UpdatesRow fields final row
  collections : List.Forall₂ (fun r x => x.Sound store map r start final)
    (Store.included map includes .oneToMany) collections

namespace Store

variable {store : Store σ} {includes : List String} {fields : Option (List String)}
  {s s' : Session σ Record}

theorem leaves_checkIncludes {map : EntityMap} (h : checkIncludes map includes s = .ok () s') :
    s' = s := by
  induction includes generalizing s with
  | nil => exact (ends_of_pure h).2
  | cons name rest ih =>
      unfold checkIncludes at h
      split at h
      · obtain ⟨_, t, hfailed, -⟩ := ends_of_bind h
        exact absurd hfailed Work.not_ok_reportedFailure
      · exact ih h

theorem nodup_included {map : EntityMap} (hderived : map.Derived) (includes : List String)
    (kind : RelationKind) : ((included map includes kind).map (·.property)).Nodup :=
  (nodup_relationsOf hderived kind).sublist (List.filter_sublist.map _)

/-- No slot belongs to an included reference and to an included collection. -/
theorem notMem_included {map : EntityMap} (hderived : map.Derived) {kind kind' : RelationKind}
    {r : RelationDef} (hr : r ∈ included map includes kind) (hkinds : kind ≠ kind') :
    r.property ∉ (included map includes kind').map (·.property) := by
  intro hmem
  obtain ⟨r', hr', equal⟩ := List.mem_map.mp hmem
  exact property_ne_of_kinds hderived (List.mem_filter.mp hr).1 (List.mem_filter.mp hr').1 hkinds
    equal.symm

theorem ok_of_updateRecord (h : store.updateRecord includes fields s = .ok () s') :
    ∃ map references row answer collections, store.model.entityMap s.subject.type = .ok map ∧
      s'.calls = s.calls ++ references.flatten ++
        .query (store.connection.dialect.render (.update row)) answer ::
          collections.flatMap (·.calls store) ∧ Yield.affected answer = .ok 1 ∧
      Updated store includes fields map s.subject s'.subject references row collections := by
  unfold updateRecord at h
  obtain ⟨record, s₁, hrecord, h₁⟩ := ends_of_bind h
  obtain ⟨rfl, rfl⟩ := Work.ok_of_subject hrecord
  obtain ⟨map, s₂, hmapOf, h₂⟩ := ends_of_bind h₁
  obtain ⟨hmap, hsubject₂, hcalls₂⟩ := Work.ok_of_ofExcept hmapOf
  obtain ⟨_, s₃, hchecked, h₃⟩ := ends_of_bind h₂
  obtain rfl := leaves_checkIncludes hchecked
  obtain ⟨_, s₄, hsaving, h₄⟩ := ends_of_bind h₃
  obtain ⟨_, s₅, hrow, hreconciling⟩ := ends_of_bind h₄
  rw [← hsubject₂] at hmap ⊢
  rw [← hcalls₂]
  have hderived := Model.derived_of_entityMap hmap
  obtain ⟨references, hreferences, hcalls₄, -, hslots₄⟩ :=
    ok_of_saveReferences (nodup_included hderived includes .manyToOne) hsaving
  obtain ⟨row, answer, -, honly, hwritten, hcount, hcalls₅⟩ := ok_of_updateRow hderived hrow
  obtain ⟨collections, hcollections, hcalls₆, hfields, hslots₆⟩ := ok_of_reconcileAll
    (fun r hr => kind_of_mem_relationsOf (List.mem_filter.mp hr).1)
    (nodup_included hderived includes .oneToMany) hreconciling
  refine ⟨map, references, row, answer, collections, hmap, ?_, hcount, ?_,
    hwritten.congr hfields, ?_⟩
  · rw [hcalls₆, hcalls₅, hcalls₄]
    simp
  · refine forall₂_imp_of_mem hreferences fun r hr calls h => h.congr rfl ?_
    rw [hslots₆ r.property (notMem_included hderived hr (by simp)), Record.slot?_congr honly.2]
  · refine forall₂_imp_of_mem hcollections fun r hr x h => h.congr ?_ rfl rfl
    rw [Record.slot?_congr honly.2, hslots₄ r.property (notMem_included hderived hr (by simp))]

/-- **An update reconciles the collections that it includes.** When an update ends well, in a
transaction of its own or in one that was open, every item of an included collection was given the
key of the owner and saved, by inserts if it was new by then, by one update that found its row if
there was anything to write, and the rows removed afterwards have the key of none of the items. -/
theorem updated_of_ok (h : store.updateRecord includes fields s = .ok () s' ∨
      store.transaction (store.updateRecord includes fields) s = .ok () s') :
    ∃ map references row answer collections, store.model.entityMap s.subject.type = .ok map ∧
      CallsMade s.calls s'.calls (references.flatten ++
        .query (store.connection.dialect.render (.update row)) answer ::
          collections.flatMap (·.calls store)) ∧ Yield.affected answer = .ok 1 ∧
      Updated store includes fields map s.subject s'.subject references row collections := by
  rcases h with h | h
  · obtain ⟨map, references, row, answer, collections, hmap, hcalls, hcount, updated⟩ :=
      ok_of_updateRecord h
    exact ⟨map, references, row, answer, collections, hmap,
      .inl (by rw [hcalls, List.append_assoc]), hcount, updated⟩
  · obtain ⟨t, u, ht, hbegin, hbody, hu, hcommit⟩ := ok_of_transaction h
    obtain ⟨map, references, row, answer, collections, hmap, hcalls, hcount, updated⟩ :=
      ok_of_updateRecord hbody
    rw [ht] at hmap updated
    rw [← hu] at updated
    refine ⟨map, references, row, answer, collections, hmap, .inr ?_, hcount, updated⟩
    rw [hcommit, hcalls, hbegin]
    simp

/-- An update of a stored author with a new book inserts the book. -/
theorem updated_of_ok_storedAuthor :
    let s := Sample.session Sample.storedAuthor []
    ∃ s', Sample.store.update ["books"] s = .ok () s' ∧
      ∃ map references row collections,
        Updated Sample.store ["books"] none map s.subject s'.subject references row collections ∧
        ∃ x ∈ collections, ∃ item ∈ x.items, item.before = Sample.newBook ∧
          [] ∈ item.issued.places := by
  have ended := ok_of_endedWell
    (Sample.store.update ["books"] (Sample.session Sample.storedAuthor [])) (by decide +kernel)
  refine ⟨_, ended, ?_⟩
  obtain ⟨map, references, row, answer, collections, hmap, -, -, updated⟩ :=
    updated_of_ok (.inr ended)
  refine ⟨map, references, row, collections, updated, ?_⟩
  obtain ⟨map₀, r, hmap₀, hincluded, hbook, htype, hlacks⟩ : ∃ map₀ r,
      Sample.store.model.entityMap Sample.storedAuthor.type = .ok map₀ ∧
      included map₀ ["books"] .oneToMany = [r] ∧
      r.related Sample.storedAuthor = [Sample.newBook] ∧ Sample.newBook.type = r.target ∧
      Sample.store.model.LacksOwnKey r Sample.newBook :=
    ⟨_, _, rfl, rfl, rfl, rfl, _, _, _, rfl, .head _, rfl, rfl, by decide, by decide⟩
  rw [show (Sample.session Sample.storedAuthor []).subject = Sample.storedAuthor from rfl, hmap₀]
    at hmap
  cases hmap
  -- the only collection that is included has the book as its only item
  have sound := updated.collections
  rw [hincluded] at sound
  cases sound with
  | @cons _ x _ _ hx _ =>
      obtain ⟨item, hitem, hbefore⟩ : ∃ item ∈ x.items, item.before = Sample.newBook := by
        have := hx.before_eq.symm.trans hbook
        refine List.mem_map.mp ?_
        rw [this]
        exact List.mem_singleton_self _
      obtain ⟨_, _, _, -, -, -, items, -, -⟩ := hx.reconciled
      obtain ⟨_, -, saved⟩ := items item hitem
      rw [← hbefore] at htype hlacks
      exact ⟨x, List.mem_cons_self, item, hitem, hbefore, saved.inserted htype hlacks⟩

/-- A tag whose key is that of its course and a label counts as stored once it is given the key of
the course, and it has nothing to update: it is not inserted, and the update of the course ends
well. -/
theorem update_newCourse :
    let s := Sample.session Sample.newCourse []
    let m := Sample.store.model
    (∃ map target r, m.entityMap s.subject.type = .ok map ∧ r ∈ map.relations ∧
      r.related s.subject = [Sample.newTag] ∧ m.target r = .ok target ∧
      target.hasEmptyKey Sample.newTag = .ok true) ∧
    ∃ s', Sample.store.updateRecord ["tags"] none s = .ok () s' ∧ RanQueries s.calls s'.calls
      [⟨"UPDATE \"courses\" SET \"title\" = :title_0\nWHERE \"code\" = :code_1;",
        [⟨"title_0", .varchar (some "")⟩, ⟨"code_1", .varchar (some "OPT")⟩]⟩,
      ⟨"DELETE FROM \"course_tags\"\nWHERE \"course\" = :course_0 AND NOT " ++
        "(\"course\" = :course_1 AND \"label\" = :label_2);",
        [⟨"course_0", .varchar (some "OPT")⟩, ⟨"course_1", .varchar (some "OPT")⟩,
          ⟨"label_2", .varchar (some "lenses")⟩]⟩] := by
  have ended := ok_of_endedWell
    (Sample.store.updateRecord ["tags"] none (Sample.session Sample.newCourse []))
    (by decide +kernel)
  refine ⟨⟨_, _, _, rfl, .head _, rfl, rfl, rfl⟩, _, ended, .of_map ?_⟩
  decide +kernel

end Store

end GraphStore
