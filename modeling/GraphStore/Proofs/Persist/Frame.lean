import GraphStore.Proofs.Persist.Effects
import GraphStore.Proofs.Persist.Reconciling

/-!
# The frame of an update

What an update leaves alone, whether it ends well or not. A record that is saved is inserted with
what is below it when its key is empty; otherwise its auto timestamp is all that changes in memory
(`Touched`). Items of an included collection are given the key of their owner first
(`TouchedItem.Sound`). Slots that are not included stay as they are, and every call is for the
root, for an included record, for one below an included record that counts as new, or removes what
is no longer in an included collection (`UpdateFrame`).
-/

set_option autoImplicit false

namespace GraphStore

variable {σ : Type}

/-! ## Updating a row -/

namespace Edit

variable {α β : Type} {b : Bench}

/-- The rest of an edit whose first part leaves the record as it is. -/
theorem leaves_bind {P : Record → Prop} {x : Edit α} {f : α → Edit β}
    (hx : (stateAfter (x b)).record = b.record) (hnone : P b.record)
    (hf : ∀ a b', x b = .ok a b' → b'.record = b.record → P (stateAfter (f a b')).record) :
    P (stateAfter ((x >>= f) b)).record := by
  refine stateAfter_bind (P := fun b' : Bench => P b'.record)
    (Q := fun b' => b'.record = b.record) hx (fun b' hsame => ?_) hf
  rw [hsame]
  exact hnone

theorem leaves_ofExcept (x : Except Error α) : (stateAfter (ofExcept x b)).record = b.record := by
  unfold ofExcept
  cases x <;> rfl

theorem assignsAt_assignField (column : ColumnDef) (v : Value) : AssignsAt (some column) b.record
    (stateAfter (assignField column.property v b)).record := by
  unfold assignField
  cases hassign : b.record.setField column.property v with
  | ok record => exact .inr ⟨column, v, rfl, hassign⟩
  | error e => exact .inl rfl

/-- Stamping assigns the auto timestamp at most, also when that fails. -/
theorem assignsAt_stamp (map : EntityMap) :
    AssignsAt map.autoTimestampColumn? b.record (stateAfter (stamp map b)).record := by
  unfold stamp
  cases hcolumn : map.autoTimestampColumn? with
  | none => exact .inl rfl
  | some column =>
      refine leaves_bind rfl (.inl rfl) fun time b₁ _ h₁ => ?_
      rw [← h₁]
      exact stateAfter_bind
        (P := fun b' : Bench => AssignsAt (some column) b₁.record b'.record)
        (assignsAt_assignField column _) (fun _ h => h) fun _ _ _ h => h

/-- So does an update, also when it is refused. -/
theorem assignsAt_update (map : EntityMap) (fields : Option (List String)) :
    AssignsAt map.autoTimestampColumn? b.record (stateAfter (update map fields b)).record := by
  have same : AssignsAt map.autoTimestampColumn? b.record b.record := .inl rfl
  unfold update
  refine leaves_bind rfl same fun record b₁ hrecord _ => ?_
  cases hrecord
  refine leaves_bind (leaves_ofExcept _) same fun empty b₂ _ h₂ => ?_
  by_cases hkeyless : empty = true
  · rw [if_pos hkeyless]
    exact .inl h₂
  · rw [if_neg hkeyless]
    rw [← h₂] at same ⊢
    refine leaves_bind (leaves_ofExcept _) same fun _ b₃ _ h₃ => ?_
    rw [← h₃]
    -- what follows the stamp leaves the record alone
    refine stateAfter_bind
      (P := fun b' : Bench => AssignsAt map.autoTimestampColumn? b₃.record b'.record)
      (assignsAt_stamp map) (fun _ h => h) fun stamped b₄ _ stampedOnly => ?_
    refine leaves_bind rfl stampedOnly fun record b₅ hrecord _ => ?_
    cases hrecord
    refine leaves_bind (leaves_ofExcept _) stampedOnly fun values b₆ _ h₆ => ?_
    rw [← h₆] at stampedOnly
    obtain ⟨set, context⟩ := values
    by_cases hset : set.isEmpty = true
    · simp only [hset, if_true]
      exact stampedOnly
    · simp only [hset, Bool.false_eq_true, if_false]
      refine leaves_bind rfl stampedOnly fun record b₇ hrecord _ => ?_
      cases hrecord
      exact leaves_bind (leaves_ofExcept _) stampedOnly fun _ _ _ h => h ▸ stampedOnly

end Edit

namespace Store

variable {store : Store σ} {map : EntityMap} {s : Session σ Record}

/-- There was no call, or one that updates the row of the record. -/
def UpdatesOnce (store : Store σ) (map : EntityMap) (fields : Option (List String))
    (record : Record) (calls : List Call) : Prop :=
  calls = [] ∨ ∃ st answer, map.UpdatesRow fields record st ∧
    calls = [.query (store.connection.dialect.render (.update st)) answer]

theorem did_updateRow {fields : Option (List String)} (hderived : map.Derived) :
    Did s (store.updateRow map fields) fun final calls =>
      Edit.AssignsAt map.autoTimestampColumn? s.subject final ∧
        store.UpdatesOnce map fields final calls := by
  have stamped := Edit.assignsAt_update (b := ⟨s.subject, s.supply⟩) map fields
  unfold updateRow
  refine .bind (did_ofEdit _) ?_ ?_
  · rintro _ _ ⟨rfl, rfl⟩
    exact ⟨stamped, .inl rfl⟩
  · rintro st s₁ _ hedit ⟨hsubject₁, rfl⟩
    rw [← hsubject₁] at stamped
    obtain ⟨b, hupdate, hb, -⟩ := Work.ok_of_ofEdit hedit
    have hst := (Edit.ok_of_update hderived hupdate).2.2
    rw [← hb] at hst
    refine .bind (did_executeStatement _) ?_ ?_
    · rintro _ _ ⟨rfl, answer, rfl⟩
      exact ⟨stamped, .inr ⟨st, answer, hst, rfl⟩⟩
    · rintro count s₂ _ - ⟨hsubject₂, answer, rfl⟩
      refine .of_quiet (.expectOne _ _ _) ?_
      rw [hsubject₂]
      exact ⟨stamped, .inr ⟨st, answer, hst, rfl⟩⟩

end Store

/-! ## Saving a record -/

/-- The insertion of a record, ending well or not, made of `start` what `final` is by these calls.
They insert the rows of the record and of records below it. -/
structure Store.Cascades (store : Store σ) (start final : Record) (calls : List Call) : Prop where
  run : ∃ s : Session σ Record, s.subject = start ∧
    (stateAfter (store.insertRecord false s)).subject = final ∧
    (stateAfter (store.insertRecord false s)).calls = s.calls ++ calls
  kept : Keeps store.model (fun _ => False) start final
  inserts : ∃ rows : List (RowInsertion σ), calls = rows.flatMap (·.calls) ∧
    ∀ x ∈ rows, x.IsBelow store false (fun _ => False) start

/-- What the saving of a record did to it, ending well or not: the record counted as new and was
inserted with what is below it, or it counted as stored and its row was updated. -/
inductive Touched (store : Store σ) (start : Record) : Record → List Call → Prop where
  | untouched : Touched store start start []
  | inserted {map : EntityMap} {final : Record} {calls : List Call}
      (hmap : store.model.entityMap start.type = .ok map)
      (hnew : map.hasEmptyKey start = .ok true) (hcascades : store.Cascades start final calls) :
      Touched store start final calls
  | updated {map : EntityMap} {final : Record} {calls : List Call}
      (hmap : store.model.entityMap start.type = .ok map)
      (hstored : map.hasEmptyKey start = .ok false)
      (hstamped : Edit.AssignsAt map.autoTimestampColumn? start final)
      (hrow : store.UpdatesOnce map none final calls) : Touched store start final calls

namespace Store

variable {store : Store σ} {s : Session σ Record}

theorem did_insertRecord : Did s (store.insertRecord false) fun final calls =>
    store.Cascades s.subject final calls := by
  obtain ⟨calls, hcalls, inserts⟩ := onlyInserts_insertRecord store false s fun _ => False
  exact ⟨calls, hcalls, ⟨s, rfl, rfl, hcalls⟩, keepsAll_insertRecord store false s _, inserts⟩

theorem did_saveRecord :
    Did s store.saveRecord fun final calls => Touched store s.subject final calls := by
  unfold saveRecord
  refine .subject_bind (.quiet_bind (.ofExcept _) .untouched fun map s₁ hmapOf h₁ => ?_)
  obtain ⟨hmap, -, -⟩ := Work.ok_of_ofExcept hmapOf
  rw [← h₁] at hmap ⊢
  refine .subject_bind (.quiet_bind (.ofExcept _) .untouched fun new s₂ hcheck h₂ => ?_)
  obtain ⟨hempty, -, -⟩ := Work.ok_of_ofExcept hcheck
  rw [← h₂] at hmap hempty ⊢
  cases new with
  | true => exact did_insertRecord.mono fun _ _ h => .inserted hmap hempty h
  | false =>
      rw [if_neg Bool.false_ne_true]
      split
      · refine (did_updateRow (Model.derived_of_entityMap hmap)).mono ?_
        rintro final calls ⟨hstamped, hrow⟩
        exact .updated hmap hempty hstamped hrow
      · exact .of_quiet (.pure _) .untouched

end Store

/-! ## One thing after another -/

/-- Work on one thing after another, each with a view of the record of its own. What the work for
one of them did, `R`, shows in that view; `I` holds of the record all the time. -/
theorem did_forM_views {α κ β : Type} (key : α → κ) (view : κ → Record → β) {owner : Record}
    {I : Record → Prop} {R : α → Record → List Call → Prop} {f : α → Work σ Record Unit}
    (hskip : ∀ a final, view (key a) final = view (key a) owner → R a final [])
    (hcongr : ∀ a final final' calls, view (key a) final' = view (key a) final →
      R a final calls → R a final' calls)
    {as : List α} {s : Session σ Record} (hnodup : (as.map key).Nodup)
    (hstep : ∀ a ∈ as, ∀ t : Session σ Record, I t.subject →
      view (key a) t.subject = view (key a) owner →
      Did t (f a) fun final calls => I final ∧
        (∀ k, k ≠ key a → view k final = view k t.subject) ∧ R a final calls)
    (hinvariant : I s.subject) (hviews : ∀ a ∈ as, view (key a) s.subject = view (key a) owner) :
    Did s (as.forM f) fun final calls => I final ∧
      (∀ k, k ∉ as.map key → view k final = view k s.subject) ∧
      ∃ each, List.Forall₂ (fun a calls => R a final calls) as each ∧ calls = each.flatten := by
  induction as generalizing s with
  | nil => exact .of_quiet (.pure _) ⟨hinvariant, fun _ _ => rfl, [], .nil, rfl⟩
  | cons a as ih =>
      rw [List.map_cons, List.nodup_cons] at hnodup
      have others {final : Record} (frame : ∀ k, k ≠ key a → view k final = view k s.subject) :
          ∀ b ∈ as, view (key b) final = view (key b) owner := by
        intro b hb
        rw [← hviews b (List.mem_cons_of_mem a hb)]
        exact frame _ fun equal => hnodup.1 (equal ▸ List.mem_map_of_mem hb)
      have first := hstep a (by simp) s hinvariant (hviews a (by simp))
      refine .bind (f := fun _ => as.forM f) first ?_ ?_
      -- when the work for one of them fails, the others are not looked at
      · rintro final calls ⟨hfinal, frame, hR⟩
        refine ⟨hfinal, fun k hk => frame k fun equal => hk (by simp [equal]), ?_⟩
        refine ⟨calls :: as.map fun _ => [], .cons hR ?_, by simp⟩
        rw [List.forall₂_map_right_iff]
        exact List.forall₂_same.mpr fun b hb => hskip b final (others frame b hb)
      · rintro _ t calls - ⟨ht, frame, hR⟩
        have rest := ih hnodup.2 (fun b hb => hstep b (List.mem_cons_of_mem a hb)) ht
          (others frame)
        refine rest.mono ?_
        rintro final more ⟨hfinal, frame', each, heach, rfl⟩
        refine ⟨hfinal, fun k hk => ?_, calls :: each, .cons ?_ heach, rfl⟩
        · rw [List.map_cons, List.mem_cons, not_or] at hk
          rw [frame' k hk.2, frame k hk.1]
        · exact hcongr a t.subject final calls (frame' (key a) hnodup.1) hR

/-! ## References -/

/-- What the saving of a single reference did in its slot. -/
inductive ReferenceTouched (store : Store σ) (r : RelationDef) (start final : Record) :
    List Call → Prop where
  | untouched (hslot : final.slot? r.property = start.slot? r.property) :
      ReferenceTouched store r start final []
  | saved {child child' : Record} {calls : List Call}
      (hchild : start.reference? r.property = some child)
      (hslot : final.slot? r.property = (start.slot? r.property).map fun slot =>
        { slot with items := (start.items r.property).set 0 child' })
      (htouched : Touched store child child' calls) : ReferenceTouched store r start final calls

theorem ReferenceTouched.congr {store : Store σ} {r : RelationDef}
    {start start' final final' : Record} {calls : List Call}
    (h : ReferenceTouched store r start final calls)
    (hstart : start'.slot? r.property = start.slot? r.property)
    (hfinal : final'.slot? r.property = final.slot? r.property) :
    ReferenceTouched store r start' final' calls := by
  cases h with
  | untouched hslot => exact .untouched (hfinal.trans (hslot.trans hstart.symm))
  | saved hchild hslot htouched =>
      refine .saved ((Record.reference?_congr hstart).trans hchild) ?_ htouched
      rw [hfinal, hslot, hstart, Record.items_congr hstart]

/-- The type of the record is as it was, and a field has changed only if it is the local key of a
relation of `rs` whose slot is filled. -/
def LocalKeysOnly (rs : List RelationDef) (start final : Record) : Prop :=
  final.type = start.type ∧ ∀ property, final.field? property ≠ start.field? property →
    ∃ r ∈ rs, r.localKey = property ∧ (start.reference? r.property).isSome = true

namespace Store

variable {store : Store σ} {map : EntityMap} {r : RelationDef} {s : Session σ Record}

theorem did_saveReference : Did s (store.saveReference map r) fun final calls =>
    LocalKeysOnly [r] s.subject final ∧
      (∀ q, q ≠ r.property → final.slot? q = s.subject.slot? q) ∧
      ReferenceTouched store r s.subject final calls := by
  have skipped : LocalKeysOnly [r] s.subject s.subject ∧
      (∀ q, q ≠ r.property → s.subject.slot? q = s.subject.slot? q) ∧
      ReferenceTouched store r s.subject s.subject [] :=
    ⟨⟨rfl, fun _ changed => absurd rfl changed⟩, fun _ _ => rfl, .untouched rfl⟩
  unfold saveReference
  refine .quiet_bind (.ofExcept _) skipped fun target s₁ _ h₁ => .subject_bind ?_
  rw [← h₁] at skipped ⊢
  cases hchild : s₁.subject.reference? r.property with
  | none => exact .of_quiet (.pure _) skipped
  | some child =>
      -- the slot shows how the record was saved, whatever becomes of the local key then
      have filled {final child' : Record} {calls : List Call}
          (hslots : final.slots =
            (s₁.subject.withItems r.property ((s₁.subject.items r.property).set 0 child')).slots)
          (htouched : Touched store child child' calls) :
          (∀ q, q ≠ r.property → final.slot? q = s₁.subject.slot? q) ∧
            ReferenceTouched store r s₁.subject final calls := by
        have slot (q : String) := Record.slot?_congr hslots q
        refine ⟨fun q hq => ?_, .saved hchild ?_ htouched⟩
        · rw [slot, Record.slot?_withItems, if_neg hq]
        · rw [slot, Record.slot?_withItems, if_pos rfl]
      refine .bind (.framed (did_onItem did_saveRecord)) ?_ ?_
      · rintro _ calls ⟨child', htouched, rfl⟩
        exact ⟨⟨rfl, fun _ changed => absurd rfl changed⟩, filled rfl htouched⟩
      · rintro _ t calls - ⟨child', htouched, hsubject⟩
        refine (did_copyKey target r).mono ?_
        rintro final _ ⟨rfl, rfl | ⟨v, hassign⟩⟩
        · rw [List.append_nil, hsubject]
          exact ⟨⟨rfl, fun _ changed => absurd rfl changed⟩, filled rfl htouched⟩
        · rw [hsubject] at hassign
          have htype := Record.type_of_setField hassign
          rw [List.append_nil]
          refine ⟨⟨htype, fun property changed => ?_⟩,
            filled (Record.slots_of_setField hassign) htouched⟩
          refine ⟨r, List.mem_singleton_self r, ?_, by rw [hchild]; rfl⟩
          by_contra apart
          have kept := Record.field?_of_setField hassign fun equal => apart equal.symm
          exact changed kept

theorem did_saveReferences {rs : List RelationDef} (hnodup : (rs.map (·.property)).Nodup) :
    Did s (rs.forM (store.saveReference map)) fun final calls => LocalKeysOnly rs s.subject final ∧
      (∀ q, q ∉ rs.map (·.property) → final.slot? q = s.subject.slot? q) ∧
      ∃ each, List.Forall₂ (fun r calls => ReferenceTouched store r s.subject final calls) rs each ∧
        calls = each.flatten := by
  refine did_forM_views RelationDef.property (fun q record => record.slot? q)
    (fun r final hslot => .untouched hslot)
    (fun r final final' calls hslot h => h.congr rfl hslot) hnodup
    (fun r hr t hkeys hslot => did_saveReference.mono ?_)
    ⟨rfl, fun _ changed => absurd rfl changed⟩ fun _ _ => rfl
  rintro final calls ⟨⟨htype, hfields⟩, frame, htouched⟩
  refine ⟨⟨htype.trans hkeys.1, fun property changed => ?_⟩, frame, htouched.congr hslot.symm rfl⟩
  by_cases before : t.subject.field? property = s.subject.field? property
  · obtain ⟨r', hr', hlocal, hfilled⟩ := hfields property (before.symm ▸ changed)
    rw [List.mem_singleton.mp hr', Record.reference?_congr hslot] at hfilled
    exact ⟨r, hr, List.mem_singleton.mp hr' ▸ hlocal, hfilled⟩
  · exact hkeys.2 property before

end Store

/-! ## Collections -/

/-- An item of a collection as it was and as it ended, with the calls that were made for it. -/
structure TouchedItem where
  before : Record
  after : Record
  calls : List Call

/-- The item was given the key of its owner and then saved, or it was not looked at. It counts as
new only by the foreign key if it was stored before: that is part of its key and empty now. -/
inductive TouchedItem.Sound (store : Store σ) (r : RelationDef) (key : Value) (x : TouchedItem) :
    Prop where
  | untouched (hafter : x.after = x.before) (hcalls : x.calls = [])
  | given {given : Record} (hgiven : x.before.setField r.foreignKey key = .ok given)
      (htouched : Touched store given x.after x.calls)
      (hstored : ∀ map : EntityMap, map.hasEmptyKey x.before = .ok false →
        (∀ c ∈ map.keyColumns, c.property = r.foreignKey → ∀ v,
          given.field? c.property = some v → v.isEmptyKey = false) →
        map.hasEmptyKey given = .ok false)

/-- What the saving of the items of a slot did, from item `i` on. -/
structure ItemsTouched (store : Store σ) (r : RelationDef) (key : Value) (i : Nat)
    (start final : Record) (calls : List Call) : Prop
    extends Record.OnlyItems r.property start final where
  items : ∃ items : List TouchedItem,
    (start.items r.property).drop i = items.map (·.before) ∧
    final.items r.property = (start.items r.property).take i ++ items.map (·.after) ∧
    (∀ x ∈ items, x.Sound store r key) ∧ calls = items.flatMap (·.calls)

namespace ItemsTouched

variable {store : Store σ} {r : RelationDef} {key : Value} {i : Nat} {start mid final : Record}
  {calls more : List Call}

theorem refl : ItemsTouched store r key i start start [] where
  toOnlyItems := .refl _ _
  items := by
    refine ⟨((start.items r.property).drop i).map fun child => ⟨child, child, []⟩, ?_, ?_, ?_, ?_⟩
    · rw [List.map_map]
      exact (List.map_id _).symm
    · rw [List.map_map]
      exact (List.take_append_drop i _).symm.trans (congrArg _ (List.map_id _).symm)
    · intro x hx
      obtain ⟨child, -, rfl⟩ := List.mem_map.mp hx
      exact .untouched rfl rfl
    · rw [List.flatMap_map]
      simp

/-- Item `i` was saved before those that follow. -/
theorem cons {x : TouchedItem} (hbefore : (start.items r.property)[i]? = some x.before)
    (hsound : x.Sound store r key)
    (hmid : mid = start.withItems r.property ((start.items r.property).set i x.after))
    (h : ItemsTouched store r key (i + 1) mid final more) :
    ItemsTouched store r key i start final (x.calls ++ more) := by
  obtain ⟨inside, hhere⟩ := List.getElem?_eq_some_iff.mp hbefore
  have replaced : mid.items r.property = (start.items r.property).set i x.after := by
    rw [hmid, Record.items_withItems_of_item hbefore]
  obtain ⟨items, hdrop, hitems, hsounds, rfl⟩ := h.items
  refine ⟨(hmid ▸ Record.OnlyItems.of_withItems start r.property _).trans h.toOnlyItems,
    x :: items, ?_, ?_, List.forall_mem_cons.mpr ⟨hsound, hsounds⟩, rfl⟩
  · rw [List.drop_eq_getElem_cons inside, hhere, List.map_cons, ← hdrop, replaced,
      List.drop_set_of_lt (by omega)]
  · rw [hitems, replaced, List.take_add_one, List.getElem?_set_self inside,
      List.take_set_of_le (Nat.le_refl i)]
    simp

end ItemsTouched

namespace Store

variable {store : Store σ} {map : EntityMap} {r : RelationDef} {key : Value} {s : Session σ Record}

theorem did_saveItem {i : Nat} {child : Record}
    (hchild : (s.subject.items r.property)[i]? = some child) :
    Did s (store.saveItem map r key i) fun final calls => ∃ x : TouchedItem, x.before = child ∧
      x.Sound store r key ∧ x.calls = calls ∧
      final = s.subject.withItems r.property ((s.subject.items r.property).set i x.after) := by
  unfold saveItem
  refine .subject_bind ?_
  simp only [hchild]
  have saved : Did { s with subject := child } (do
      Work.assignField r.foreignKey key
      Work.framed (.savingItem i r.property map.table.name) store.saveRecord)
      fun final calls => (⟨child, final, calls⟩ : TouchedItem).Sound store r key := by
    have given {given final : Record} {calls : List Call}
        (hassign : child.setField r.foreignKey key = .ok given)
        (htouched : Touched store given final calls) :
        (⟨child, final, calls⟩ : TouchedItem).Sound store r key :=
      .given hassign htouched fun _ => EntityMap.hasEmptyKey_of_setField hassign
    refine .bind did_assignField ?_ ?_
    · rintro final _ ⟨rfl, rfl | hassign⟩
      · exact .untouched rfl rfl
      · exact given hassign .untouched
    · rintro _ t _ h ⟨rfl, -⟩
      obtain ⟨hassign, -⟩ := Work.ok_of_assignField h
      exact .framed (did_saveRecord.mono fun _ _ htouched => given hassign htouched)
  refine (did_onItem saved).mono ?_
  rintro _ calls ⟨child', hsound, rfl⟩
  exact ⟨_, rfl, hsound, rfl, rfl⟩

theorem did_saveItems {i n : Nat} (hlength : (s.subject.items r.property).length = i + n) :
    Did s ((List.range' i n).forM (store.saveItem map r key)) fun final calls =>
      ItemsTouched store r key i s.subject final calls := by
  induction n generalizing i s with
  | zero => exact .of_quiet (.pure _) .refl
  | succ n ih =>
      have inside : i < (s.subject.items r.property).length := by omega
      have hchild := List.getElem?_eq_getElem inside
      refine .bind (f := fun _ => (List.range' (i + 1) n).forM (store.saveItem map r key))
        (did_saveItem hchild) ?_ ?_
      -- when the saving of an item fails, the items that follow are not looked at
      · rintro final _ ⟨x, hbefore, hsound, rfl, hfinal⟩
        rw [← List.append_nil x.calls]
        exact .cons (hbefore ▸ hchild) hsound hfinal .refl
      · rintro _ t _ - ⟨x, hbefore, hsound, rfl, hfinal⟩
        have length : (t.subject.items r.property).length = i + 1 + n := by
          rw [hfinal, Record.items_withItems_of_item hchild, List.length_set]
          omega
        refine (ih length).mono fun final more h => ?_
        exact .cons (hbefore ▸ hchild) hsound hfinal h

end Store

/-- Nothing was removed, or there was one call for that: it is about the rows of the collection that
have the key of none of its items. -/
def Store.RemovesOrphans (store : Store σ) (r : RelationDef) (key : Value) (final : Record)
    (calls : List Call) : Prop :=
  calls = [] ∨ ∃ st answer target foreign, store.model.target r = .ok target ∧
    target.column? r.foreignKey = some foreign ∧ st.table = target.table ∧
    (∀ s t, st.concerns s t = target.isOrphan s foreign key (r.related final) t) ∧
    calls = [.query (store.connection.dialect.render st) answer]

/-- What the reconciling of a collection did in its slot, with the key of its owner. -/
inductive CollectionTouched (store : Store σ) (r : RelationDef) (key : Except Error Value)
    (start final : Record) : List Call → Prop where
  | untouched (hslot : final.slot? r.property = start.slot? r.property) :
      CollectionTouched store r key start final []
  | reconciled {v : Value} {items : List TouchedItem} {removal : List Call} (hkey : key = .ok v)
      (hbefore : start.items r.property = items.map (·.before))
      (hslot : final.slot? r.property = (start.slot? r.property).map fun slot =>
        { slot with items := items.map (·.after) })
      (hitems : ∀ x ∈ items, x.Sound store r v)
      (hremoval : store.RemovesOrphans r v final removal) :
      CollectionTouched store r key start final (items.flatMap (·.calls) ++ removal)

theorem CollectionTouched.congr {store : Store σ} {r : RelationDef} {key : Except Error Value}
    {start start' final final' : Record} {calls : List Call}
    (h : CollectionTouched store r key start final calls)
    (hstart : start'.slot? r.property = start.slot? r.property)
    (hfinal : final'.slot? r.property = final.slot? r.property) :
    CollectionTouched store r key start' final' calls := by
  cases h with
  | untouched hslot => exact .untouched (hfinal.trans (hslot.trans hstart.symm))
  | reconciled hkey hbefore hslot hitems hremoval =>
      refine .reconciled hkey ?_ ?_ hitems ?_
      · rw [Record.items_congr hstart, hbefore]
      · rw [hfinal, hslot, hstart]
      · unfold Store.RemovesOrphans
        rw [RelationDef.related_congr hfinal]
        exact hremoval

theorem ItemsTouched.collection {store : Store σ} {r : RelationDef} {key : Value}
    {start final : Record} {calls removal : List Call}
    (h : ItemsTouched store r key 0 start final calls)
    (hremoval : store.RemovesOrphans r key final removal) :
    CollectionTouched store r (.ok key) start final (calls ++ removal) := by
  obtain ⟨items, hbefore, hafter, hsound, rfl⟩ := h.items
  refine .reconciled rfl hbefore ?_ hsound hremoval
  rw [h.slot_here, hafter]
  rfl

namespace Store

variable {store : Store σ} {map : EntityMap} {r : RelationDef} {s : Session σ Record}

theorem did_reconcile (hkind : r.kind = .oneToMany) :
    Did s (store.reconcile map r) fun final calls => Record.OnlyItems r.property s.subject final ∧
      CollectionTouched store r (map.read s.subject r.localKey) s.subject final calls := by
  have skipped : Record.OnlyItems r.property s.subject s.subject ∧
      CollectionTouched store r (map.read s.subject r.localKey) s.subject s.subject [] :=
    ⟨.refl _ _, .untouched rfl⟩
  unfold reconcile
  refine .subject_bind (.quiet_bind (.ofExcept _) skipped fun key s₁ hread h₁ => ?_)
  obtain ⟨hkey, -, -⟩ := Work.ok_of_ofExcept hread
  rw [hkey, ← h₁]
  -- the items of a collection are all that is in its slot
  have items : Did s₁ ((List.range ((s₁.subject.collection? r.property).getD []).length).forM
      (store.saveItem map r key)) fun final calls =>
      ItemsTouched store r key 0 s₁.subject final calls := by
    cases hcollection : s₁.subject.collection? r.property with
    | none => exact .of_quiet (.pure _) .refl
    | some content =>
        obtain ⟨-, slot, hslot, -, hcontent⟩ :=
          RelationDef.related_of_collection hkind hcollection
        have whole : s₁.subject.items r.property = content :=
          (Record.items_of_slot? hslot).trans hcontent
        rw [Option.getD_some, List.range_eq_range']
        exact did_saveItems (by rw [whole, Nat.zero_add])
  refine .subject_bind (.bind items ?_ ?_)
  · intro final calls h
    rw [← List.append_nil calls]
    exact ⟨h.toOnlyItems, h.collection (.inl rfl)⟩
  · intro _ t calls _ h
    have saved : Record.OnlyItems r.property s₁.subject t.subject ∧
        CollectionTouched store r (.ok key) s₁.subject t.subject (calls ++ []) :=
      ⟨h.toOnlyItems, h.collection (.inl rfl)⟩
    refine .subject_bind (.quiet_bind (.ofSupply _) saved fun st s₂ hremoval h₂ => ?_)
    obtain ⟨supply, hremoval, -, -⟩ := Work.ok_of_ofSupply hremoval
    obtain ⟨target, foreign, htarget, hforeign, htable, hconcerns⟩ :=
      Model.concerns_deleteOrphans hremoval
    have keep : (t.subject.collection? r.property).getD [] = r.related t.subject := by
      simp only [RelationDef.related, hkind]
    rw [keep] at hconcerns
    have removed {answer : Yield} : store.RemovesOrphans r key t.subject
        [.query (store.connection.dialect.render st) answer] :=
      .inr ⟨st, answer, target, foreign, htarget, hforeign, htable, hconcerns, rfl⟩
    rw [← h₂] at h removed
    refine .bind (did_executeStatement st) ?_ ?_
    · rintro _ _ ⟨rfl, answer, rfl⟩
      exact ⟨h.toOnlyItems, h.collection removed⟩
    · rintro n s₃ _ - ⟨hsubject, answer, rfl⟩
      refine .of_quiet (.log _) ?_
      rw [hsubject]
      exact ⟨h.toOnlyItems, h.collection removed⟩

theorem did_reconcileAll {rs : List RelationDef} (hkind : ∀ r ∈ rs, r.kind = .oneToMany)
    (hnodup : (rs.map (·.property)).Nodup) :
    Did s (rs.forM (store.reconcile map)) fun final calls =>
      (final.type = s.subject.type ∧ final.fields = s.subject.fields) ∧
      (∀ q, q ∉ rs.map (·.property) → final.slot? q = s.subject.slot? q) ∧
      ∃ each, List.Forall₂ (fun r calls =>
        CollectionTouched store r (map.read s.subject r.localKey) s.subject final calls) rs each ∧
        calls = each.flatten := by
  refine did_forM_views RelationDef.property (fun q record => record.slot? q)
    (fun r final hslot => .untouched hslot)
    (fun r final final' calls hslot h => h.congr rfl hslot) hnodup
    (fun r hr t hsame hslot => (did_reconcile (hkind r hr)).mono ?_) ⟨rfl, rfl⟩ fun _ _ => rfl
  rintro final calls ⟨only, htouched⟩
  refine ⟨⟨only.type_eq.trans hsame.1, only.fields_eq.trans hsame.2⟩, only.slot_eq, ?_⟩
  rw [EntityMap.read_congr hsame.2] at htouched
  exact htouched.congr hslot.symm rfl

end Store

/-! ## Updates -/

/-- What an update with included relations has done by its end, well or not: which fields of the
root have changed, that other slots have not, and the calls that were made for the included
references, then for the row, and then for the included collections. -/
structure UpdateFrame (store : Store σ) (includes : List String) (fields : Option (List String))
    (map : EntityMap) (start final : Record) (calls : List Call) : Prop where
  type_eq : final.type = start.type
  assigned : ∀ property, final.field? property ≠ start.field? property →
    (∃ c, map.autoTimestampColumn? = some c ∧ c.property = property) ∨
      ∃ r ∈ Store.included map includes .manyToOne, r.localKey = property ∧
        (start.reference? r.property).isSome = true
  slot_eq : ∀ slot, slot ∉ includes → final.slot? slot = start.slot? slot
  touched : ∃ references row collections,
    calls = references.flatten ++ row ++ collections.flatten ∧
    List.Forall₂ (fun r calls => ReferenceTouched store r start final calls)
      (Store.included map includes .manyToOne) references ∧
    store.UpdatesOnce map fields final row ∧
    List.Forall₂ (fun r calls =>
        CollectionTouched store r (map.read final r.localKey) start final calls)
      (Store.included map includes .oneToMany) collections

namespace Store

variable {includes : List String} {map : EntityMap}

theorem notMem_included_of_notMem {kind : RelationKind} {slot : String} (h : slot ∉ includes) :
    slot ∉ (included map includes kind).map (·.property) := by
  intro hmem
  obtain ⟨r, hr, rfl⟩ := List.mem_map.mp hmem
  exact h (by simpa using (List.mem_filter.mp hr).2)

end Store

/-- The three parts of an update, one after the other. -/
theorem UpdateFrame.of_parts {store : Store σ} {includes : List String}
    {fields : Option (List String)} {map : EntityMap} {start saved written final : Record}
    {references collections : List (List Call)} {row : List Call} (hderived : map.Derived)
    (hkeys : LocalKeysOnly (Store.included map includes .manyToOne) start saved)
    (hsaved : ∀ q, q ∉ (Store.included map includes .manyToOne).map (·.property) →
      saved.slot? q = start.slot? q)
    (hreferences : List.Forall₂ (fun r calls => ReferenceTouched store r start saved calls)
      (Store.included map includes .manyToOne) references)
    (hstamped : Edit.AssignsAt map.autoTimestampColumn? saved written)
    (hrow : store.UpdatesOnce map fields written row)
    (hsame : final.type = written.type ∧ final.fields = written.fields)
    (hreconciled : ∀ q, q ∉ (Store.included map includes .oneToMany).map (·.property) →
      final.slot? q = written.slot? q)
    (hcollections : List.Forall₂ (fun r calls =>
        CollectionTouched store r (map.read written r.localKey) written final calls)
      (Store.included map includes .oneToMany) collections) :
    UpdateFrame store includes fields map start final
      (references.flatten ++ row ++ collections.flatten) := by
  obtain ⟨htype, hslots⟩ := hstamped.onlyFields
  have written_slot (q : String) : written.slot? q = saved.slot? q := Record.slot?_congr hslots q
  refine ⟨?_, fun property changed => ?_, fun slot hslot => ?_, references, row, collections, rfl,
    ?_, ?_, ?_⟩
  · rw [hsame.1, htype, hkeys.1]
  · rw [Record.field?_congr hsame.2] at changed
    by_cases stamp : ∃ c, map.autoTimestampColumn? = some c ∧ c.property = property
    · exact .inl stamp
    · rw [hstamped.field?_eq fun c hc equal => stamp ⟨c, hc, equal.symm⟩] at changed
      exact .inr (hkeys.2 property changed)
  · rw [hreconciled slot (Store.notMem_included_of_notMem hslot), written_slot,
      hsaved slot (Store.notMem_included_of_notMem hslot)]
  · refine forall₂_imp_of_mem hreferences fun r hr calls h => h.congr rfl ?_
    rw [hreconciled _ (Store.notMem_included hderived hr (by simp)), written_slot]
  · rcases hrow with rfl | ⟨st, answer, hst, rfl⟩
    · exact .inl rfl
    · exact .inr ⟨st, answer, hst.congr hsame.2, rfl⟩
  · refine forall₂_imp_of_mem hcollections fun r hr calls h => ?_
    rw [EntityMap.read_congr hsame.2]
    refine h.congr ?_ rfl
    rw [written_slot, hsaved _ (Store.notMem_included hderived hr (by simp))]

namespace Store

variable {store : Store σ} {includes : List String} {fields : Option (List String)}
  {s : Session σ Record}

theorem did_updateRecord : Did s (store.updateRecord includes fields) fun final calls =>
    (final = s.subject ∧ calls = []) ∨ ∃ map, store.model.entityMap s.subject.type = .ok map ∧
      UpdateFrame store includes fields map s.subject final calls := by
  unfold updateRecord
  refine .subject_bind (.quiet_bind (.ofExcept _) (.inl ⟨rfl, rfl⟩) fun map s₁ hmapOf h₁ => ?_)
  obtain ⟨hmap, -, -⟩ := Work.ok_of_ofExcept hmapOf
  refine .quiet_bind (.checkIncludes map includes) (.inl ⟨h₁, rfl⟩) fun _ s₂ _ h₂ => ?_
  rw [← h₁, ← h₂] at hmap ⊢
  have hderived := Model.derived_of_entityMap hmap
  have unreconciled (record : Record) : ∃ each : List (List Call), List.Forall₂ (fun r calls =>
      CollectionTouched store r (map.read record r.localKey) record record calls)
      (included map includes .oneToMany) each ∧ each.flatten = [] := by
    refine ⟨(included map includes .oneToMany).map fun _ => [], ?_, by simp⟩
    rw [List.forall₂_map_right_iff]
    exact List.forall₂_same.mpr fun r _ => .untouched rfl
  refine .bind (did_saveReferences (nodup_included hderived includes .manyToOne)) ?_ ?_
  · rintro saved _ ⟨hkeys, hsaved, references, hreferences, rfl⟩
    obtain ⟨collections, hcollections, hnone⟩ := unreconciled saved
    refine .inr ⟨map, hmap, ?_⟩
    have unwritten : store.UpdatesOnce map fields saved [] := .inl rfl
    have frame := UpdateFrame.of_parts hderived hkeys hsaved hreferences (.inl rfl) unwritten
      ⟨rfl, rfl⟩ (fun _ _ => rfl) hcollections
    rwa [hnone, List.append_nil, List.append_nil] at frame
  · rintro _ t _ - ⟨hkeys, hsaved, references, hreferences, rfl⟩
    refine .bind (did_updateRow hderived) ?_ ?_
    · rintro written row ⟨hstamped, hrow⟩
      obtain ⟨collections, hcollections, hnone⟩ := unreconciled written
      refine .inr ⟨map, hmap, ?_⟩
      have frame := UpdateFrame.of_parts hderived hkeys hsaved hreferences hstamped hrow
        ⟨rfl, rfl⟩ (fun _ _ => rfl) hcollections
      rwa [hnone, List.append_nil] at frame
    · rintro _ u row - ⟨hstamped, hrow⟩
      have kinds : ∀ r ∈ included map includes .oneToMany, r.kind = .oneToMany :=
        fun r hr => kind_of_mem_relationsOf (List.mem_filter.mp hr).1
      refine (did_reconcileAll kinds (nodup_included hderived includes .oneToMany)).mono ?_
      rintro final _ ⟨hsame, hreconciled, collections, hcollections, rfl⟩
      refine .inr ⟨map, hmap, ?_⟩
      rw [← List.append_assoc]
      exact .of_parts hderived hkeys hsaved hreferences hstamped hrow hsame hreconciled
        hcollections

/-- **The frame of an update.** Whether it ends well or not, an update changes of the root only the
local keys of included references that are set and the auto timestamp. The record of an included
relation keeps everything but its foreign key, if it is an item, and its auto timestamp, unless it
counts as new: then it is inserted, with what is below it. Other slots stay as they are, and all
calls are for these records or remove what is no longer in an included collection. When the update
ends well every row that it updated was there, and each included collection had one removal, after
its items were saved. -/
theorem frame_of_updateRecord (store : Store σ) (includes : List String)
    (fields : Option (List String)) (s : Session σ Record) :
    (Did s (store.updateRecord includes fields) fun final calls =>
      (final = s.subject ∧ calls = []) ∨ ∃ map, store.model.entityMap s.subject.type = .ok map ∧
        UpdateFrame store includes fields map s.subject final calls) ∧
    ∀ s', store.updateRecord includes fields s = .ok () s' →
      ∃ map references row answer collections, store.model.entityMap s.subject.type = .ok map ∧
        s'.calls = s.calls ++ references.flatten ++
          .query (store.connection.dialect.render (.update row)) answer ::
            collections.flatMap (·.calls store) ∧ Yield.affected answer = .ok 1 ∧
        Updated store includes fields map s.subject s'.subject references row collections :=
  ⟨did_updateRecord, fun _ h => ok_of_updateRecord h⟩

/-- The update of a stored author with a new book changes nothing of the author itself. -/
theorem frame_of_updateRecord_storedAuthor :
    let s := Sample.session Sample.storedAuthor []
    ∃ s' map calls references row collections,
      Sample.store.updateRecord ["books"] none s = .ok () s' ∧ s'.calls = s.calls ++ calls ∧
      UpdateFrame Sample.store ["books"] none map s.subject s'.subject calls ∧
      Updated Sample.store ["books"] none map s.subject s'.subject references row collections ∧
      ∀ property, s'.subject.field? property = s.subject.field? property := by
  intro s
  have ended := ok_of_endedWell (Sample.store.updateRecord ["books"] none s) (by decide +kernel)
  obtain ⟨did, finished⟩ := frame_of_updateRecord Sample.store ["books"] none s
  obtain ⟨map, references, row, _, collections, hmap, -, -, updated⟩ := finished _ ended
  obtain ⟨calls, hcalls, ⟨-, rfl⟩ | ⟨map', hmap', frame⟩⟩ := did
  · have none := congrArg List.length hcalls
    exact absurd none (by decide +kernel)
  · rw [hmap] at hmap'
    cases hmap'
    refine ⟨_, map, calls, references, row, collections, ended, hcalls, frame, updated, ?_⟩
    -- an author has no auto timestamp and no reference
    obtain ⟨map₀, hmap₀, hnotime, hnone⟩ : ∃ map₀,
        Sample.store.model.entityMap Sample.storedAuthor.type = .ok map₀ ∧
        map₀.autoTimestampColumn? = none ∧ included map₀ ["books"] .manyToOne = [] :=
      ⟨_, rfl, rfl, rfl⟩
    rw [show s.subject = Sample.storedAuthor from rfl, hmap₀] at hmap
    cases hmap
    intro property
    by_contra changed
    rcases frame.assigned property changed with ⟨c, hc, -⟩ | ⟨r, hr, -⟩
    · rw [hnotime] at hc
      cases hc
    · rw [hnone] at hr
      cases hr

/-- A stored peer whose key is partly that of its owner counts as new once the owner, whose code is
empty, has given it that: it is inserted again, and so is the record below it, which gets the code
of the peer. -/
theorem update_codeless :
    let s := Sample.session Sample.codeless []
    let m := Sample.peersByCode.model
    (∃ map target r, m.entityMap s.subject.type = .ok map ∧ r ∈ map.relations ∧
      r.related s.subject = [Sample.storedPeer] ∧ m.target r = .ok target ∧
      target.hasEmptyKey Sample.storedPeer = .ok false) ∧
    ∃ s', Sample.peersByCode.updateRecord ["peers"] none s = .ok () s' ∧
      (s.subject.at? [("peers", 0), ("mains", 0)]).bind (·.field? "code") =
        some (.varchar (some "")) ∧
      (s'.subject.at? [("peers", 0), ("mains", 0)]).bind (·.field? "code") =
        some (.varchar (some "c")) ∧
      RanQueries s.calls s'.calls
        [⟨"UPDATE \"mains\" SET \"code\" = :code_0\nWHERE \"id\" = :id_1;",
          [⟨"code_0", .varchar (some "")⟩, ⟨"id_1", .int32 (some 1)⟩]⟩,
        ⟨"INSERT INTO \"peers\" (\"main_code\", \"code\") VALUES (:main_code_0, :code_1);",
          [⟨"main_code_0", .varchar (some "")⟩, ⟨"code_1", .varchar (some "c")⟩]⟩,
        ⟨"INSERT INTO \"mains\" (\"code\") VALUES (:code_0);",
          [⟨"code_0", .varchar (some "c")⟩]⟩,
        ⟨"SELECT last_insert_rowid();", []⟩,
        ⟨"DELETE FROM \"peers\"\nWHERE \"main_code\" = :main_code_0 AND NOT " ++
          "(\"main_code\" = :main_code_1 AND \"code\" = :code_2);",
          [⟨"main_code_0", .varchar (some "")⟩, ⟨"main_code_1", .varchar (some "")⟩,
            ⟨"code_2", .varchar (some "c")⟩]⟩] := by
  have ended := ok_of_endedWell
    (Sample.peersByCode.updateRecord ["peers"] none (Sample.session Sample.codeless []))
    (by decide +kernel)
  refine ⟨⟨_, _, _, rfl, .head _, rfl, rfl, rfl⟩, _, ended, by decide +kernel, ?_, .of_map ?_⟩
  · decide +kernel
  · decide +kernel

end Store

end GraphStore
