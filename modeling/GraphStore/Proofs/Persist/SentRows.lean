import GraphStore.Proofs.Persist.Frame

/-!
# What a write has sent

Whatever a write has sent to the database, the records hold, also when it fails afterwards. Every
statement that it has run is about a record at some place, and the record that the write leaves at
that place shows what the statement assigns, with the key that the database handed back for it
(`Store.Shows`). Later work does not touch it: the references of a record, its row and its
collections are written one after the other, each in slots of their own
(`accounts_insertRecord`, `accounts_updateRecord`, `accounts_deleteRecord`).
-/

set_option autoImplicit false

namespace GraphStore

variable {σ : Type}

/-! ## What a record shows -/

/-- If the field takes the value it holds it, as it was converted. -/
def Record.Took (record : Record) (property : String) (v : Value) : Prop :=
  ∀ t w, record.fieldType? property = some t → t.convert v = .ok w →
    record.field? property = some w

theorem Record.Took.of_setField {record record' : Record} {property : String} {v : Value}
    (h : record.setField property v = .ok record') : record'.Took property v := by
  intro t w ht hw
  obtain ⟨t', w', ht', hw', hfield⟩ := Record.exists_field?_of_setField h
  rw [Record.fieldType?_of_setField h, ht'] at ht
  cases ht
  rw [hw'] at hw
  cases hw
  exact hfield

theorem Record.Took.congr {record record' : Record} {property : String} {v : Value}
    (h : record.Took property v) (hfields : record'.fields = record.fields) :
    record'.Took property v := by
  intro t w ht hw
  rw [Record.fieldType?, hfields] at ht
  rw [Record.field?_congr hfields]
  exact h t w ht hw

namespace EntityMap

/-- The property of the column that an assignment is to. -/
def assigned? (map : EntityMap) (a : Assignment) : Option String :=
  (map.columns.find? (·.name == a.column)).map (·.property)

/-- The last of the assignments to the property assigns the value. -/
def AssignsLast (map : EntityMap) (set : List Assignment) (property : String) (v : Value) : Prop :=
  ∃ front a back, set = front ++ a :: back ∧ map.assigned? a = some property ∧
    a.param.value = v ∧ ∀ a' ∈ back, map.assigned? a' ≠ some property

end EntityMap

/-- What is sent for a record: the insertion or the update of its row, the removal of the rows that
are no longer in one of its collections, and the deletion of its row. -/
inductive RowStatement where
  | insertion (st : InsertStatement)
  | update (st : UpdateStatement)
  | removal (st : Statement)
  | deletion (st : Statement)

/-- The calls were made for a statement about the record, and the record shows what the statement
assigns. -/
inductive Store.Shows (store : Store σ) (record : Record) : RowStatement → List Call → Prop where
  /-- The row was inserted with what the record holds. A key that was handed back for it is held
  too. -/
  | inserted {st : InsertStatement} {begun : Session σ Record} {calls : List Call}
      (hvalues : store.model.Describes st record)
      (hcalls : (stateAfter (store.insertRow st begun)).calls = begun.calls ++ calls)
      (hasks : store.AsksOnly st calls)
      (hkey : ∀ key v t, st.generatedKey = some key →
        store.insertReturningKey st begun = .ok v t → record.Took key.property v) :
      Shows store record (.insertion st) calls
  /-- The row was updated to what the record holds. -/
  | updated {map : EntityMap} {fields : Option (List String)} {st : UpdateStatement}
      {answer : Yield} (hmap : store.model.entityMap record.type = .ok map)
      (hrow : map.UpdatesRow fields record st) :
      Shows store record (.update st)
        [.query (store.connection.dialect.render (.update st)) answer]
  /-- The rows of a collection were removed that have the key of none of its items. -/
  | reconciled {r : RelationDef} {key : Value} {st : Statement} {target : EntityMap}
      {foreign : ColumnDef} {answer : Yield} (htarget : store.model.target r = .ok target)
      (hforeign : target.column? r.foreignKey = some foreign) (htable : st.table = target.table)
      (hconcerns : ∀ s t, st.concerns s t = target.isOrphan s foreign key (r.related record) t) :
      Shows store record (.removal st) [.query (store.connection.dialect.render st) answer]
  /-- The row was deleted or marked. What it is marked with, the record holds too. -/
  | deleted {map : EntityMap} {st : Statement} {answer : Yield} {before : Record}
      {supply supply' : Supply} (hmap : store.model.entityMap record.type = .ok map)
      (hedit : Edit.delete map ⟨before, supply⟩ = .ok st ⟨record, supply'⟩)
      (hmarks : ∀ u property v, st = .update u → map.AssignsLast u.set property v →
        record.Took property v) :
      Shows store record (.deletion st) [.query (store.connection.dialect.render st) answer]

/-- A statement that was run for the record at a place, and the calls for it. -/
structure SentRow where
  place : Place
  statement : RowStatement
  calls : List Call

namespace SentRow

/-- The same, seen from the record that owns item `i` of a slot. -/
def under (x : SentRow) (slot : String) (i : Nat) : SentRow :=
  { x with place := (slot, i) :: x.place }

/-- The record at the place shows what the statement assigns. -/
def ShownIn (x : SentRow) (store : Store σ) (root : Record) : Prop :=
  ∃ record, root.at? x.place = some record ∧ store.Shows record x.statement x.calls

end SentRow

namespace Store

/-- The calls were made for statements about records of the graph, which show what these assign. -/
def Accounts (store : Store σ) (root : Record) (calls : List Call) : Prop :=
  ∃ rows : List SentRow, calls = rows.flatMap (·.calls) ∧ ∀ x ∈ rows, x.ShownIn store root

/-- The calls were made for statements about records below one slot. -/
def AccountsIn (store : Store σ) (slot : String) (root : Record) (calls : List Call) : Prop :=
  ∃ each : List (List Call), calls = each.flatten ∧ ∀ calls ∈ each, calls = [] ∨
    ∃ (i : Nat) (child : Record), (root.items slot)[i]? = some child ∧ store.Accounts child calls

variable {store : Store σ} {root root' child : Record} {calls more : List Call} {slot : String}
  {i : Nat}

namespace Accounts

theorem nil : store.Accounts root [] := ⟨[], rfl, List.forall_mem_nil _⟩

theorem of_shows {st : RowStatement} (h : store.Shows root st calls) :
    store.Accounts root calls := by
  refine ⟨[⟨[], st, calls⟩], (List.append_nil _).symm, List.forall_mem_singleton.mpr ?_⟩
  exact ⟨root, rfl, h⟩

theorem append (h : store.Accounts root calls) (h' : store.Accounts root more) :
    store.Accounts root (calls ++ more) := by
  obtain ⟨rows, rfl, hrows⟩ := h
  obtain ⟨rows', rfl, hrows'⟩ := h'
  refine ⟨rows ++ rows', List.flatMap_append.symm, fun x hx => ?_⟩
  exact (List.mem_append.mp hx).elim (hrows x) (hrows' x)

theorem flatten {each : List (List Call)} (h : ∀ calls ∈ each, store.Accounts root calls) :
    store.Accounts root each.flatten := by
  induction each with
  | nil => exact nil
  | cons calls each ih =>
      rw [List.forall_mem_cons] at h
      exact h.1.append (ih h.2)

theorem of_forall₂ {α : Type} {R : α → List Call → Prop} {xs : List α} {each : List (List Call)}
    (h : List.Forall₂ R xs each) (hR : ∀ x calls, R x calls → store.Accounts root calls) :
    store.Accounts root each.flatten := by
  refine .flatten fun calls hcalls => ?_
  obtain ⟨x, -, hx⟩ := exists_of_mem_forall₂ h hcalls
  exact hR x calls hx

theorem of_item (hchild : (root.items slot)[i]? = some child) (h : store.Accounts child calls) :
    store.Accounts root calls := by
  obtain ⟨rows, rfl, hrows⟩ := h
  refine ⟨rows.map (·.under slot i), ?_, fun x hx => ?_⟩
  · rw [List.flatMap_map]
    rfl
  obtain ⟨y, hy, rfl⟩ := List.mem_map.mp hx
  obtain ⟨record, hrecord, hshows⟩ := hrows y hy
  refine ⟨record, ?_, hshows⟩
  rw [SentRow.under, Record.at?_cons, hchild]
  exact hrecord

end Accounts

namespace AccountsIn

theorem nil : store.AccountsIn slot root [] := ⟨[], rfl, List.forall_mem_nil _⟩

theorem of_item (hchild : (root.items slot)[i]? = some child) (h : store.Accounts child calls) :
    store.AccountsIn slot root calls :=
  ⟨[calls], (List.append_nil _).symm, List.forall_mem_singleton.mpr (.inr ⟨i, child, hchild, h⟩)⟩

/-- An item was put back into its place. -/
theorem of_set {child' : Record} (hchild : (root.items slot)[i]? = some child)
    (h : store.Accounts child' calls) :
    store.AccountsIn slot (root.withItems slot ((root.items slot).set i child')) calls := by
  have back : ((root.withItems slot ((root.items slot).set i child')).items slot)[i]? =
      some child' := by
    rw [Record.items_withItems_of_item hchild]
    exact List.getElem?_set_self (List.getElem?_eq_some_iff.mp hchild).1
  exact .of_item back h

/-- What is below a slot stays while the slot does. -/
theorem congr (h : store.AccountsIn slot root calls) (hslot : root'.slot? slot = root.slot? slot) :
    store.AccountsIn slot root' calls := by
  unfold AccountsIn
  rw [Record.items_congr hslot]
  exact h

theorem accounts (h : store.AccountsIn slot root calls) : store.Accounts root calls := by
  obtain ⟨each, rfl, heach⟩ := h
  refine .flatten fun calls hcalls => ?_
  rcases heach calls hcalls with rfl | ⟨i, child, hchild, haccounts⟩
  · exact .nil
  · exact .of_item hchild haccounts

end AccountsIn

/-- What was done for the relations of a record, each in its slot. -/
theorem Accounts.of_relations {rs : List RelationDef} {each : List (List Call)}
    (h : List.Forall₂ (fun r calls => store.AccountsIn r.property root calls) rs each) :
    store.Accounts root each.flatten :=
  .of_forall₂ h fun _ _ => AccountsIn.accounts

end Store

/-! ## Insertions -/

namespace Edit

variable {map : EntityMap} {b : Bench}

theorem assignsAt_provideKey (map : EntityMap) :
    AssignsAt map.generatedKeyColumn? b.record (stateAfter (provideKey map b)).record := by
  unfold provideKey
  cases hcolumn : map.generatedKeyColumn? with
  | none => exact .inl rfl
  | some column =>
      refine leaves_bind rfl (.inl rfl) fun record b₁ _ h₁ => ?_
      refine leaves_bind (leaves_ofExcept _) (.inl h₁) fun v b₂ _ h₂ => ?_
      rw [← h₁, ← h₂]
      by_cases hempty : v.isEmptyKey = true
      · rw [if_neg (by simp [hempty])]
        cases v with
        | uuid u =>
            refine leaves_bind rfl (.inl rfl) fun fresh b₃ _ h₃ => ?_
            rw [← h₃]
            exact stateAfter_bind
              (P := fun b' : Bench => AssignsAt (some column) b₃.record b'.record)
              (assignsAt_assignField column _) (fun _ h => h) fun _ _ _ h => h
        | _ => exact .inl rfl
      · rw [if_pos (by simpa using hempty)]
        exact .inl rfl

/-- An insertion changes fields only, also when it is refused. -/
theorem onlyFields_insert (map : EntityMap) (forced : Bool) :
    OnlyFields b.record (stateAfter (insert map forced b)).record := by
  have checked : (stateAfter (isStored map b)).record = b.record := by
    unfold isStored
    split
    · rfl
    · refine leaves_bind (P := fun record => record = b.record) rfl rfl fun _ b₁ _ h₁ => ?_
      rw [← h₁]
      exact leaves_bind (P := fun record => record = b₁.record) (leaves_ofExcept _) rfl
        fun _ _ _ h₂ => h₂
  unfold insert
  refine leaves_bind checked (.refl _) fun stored b₁ _ h₁ => ?_
  rw [← h₁]
  split
  · exact .refl _
  · refine stateAfter_bind (P := fun b' : Bench => OnlyFields b₁.record b'.record)
      (assignsAt_provideKey map).onlyFields (fun _ h => h) fun key b₂ _ h₂ => ?_
    refine stateAfter_bind (P := fun b' : Bench => OnlyFields b₁.record b'.record)
      (h₂.trans (assignsAt_stamp map).onlyFields) (fun _ h => h) fun _ b₃ _ h₃ => ?_
    refine leaves_bind rfl h₃ fun record b₄ _ h₄ => ?_
    rw [← h₄] at h₃
    exact leaves_bind (leaves_ofExcept _) h₃ fun _ _ _ h₅ => h₅ ▸ h₃

end Edit

namespace Store

variable {store : Store σ} {map target : EntityMap} {r : RelationDef} {s : Session σ Record}
  {cascade : Work σ Record Unit}

/-- The key that was handed back is held, if the field takes it. -/
theorem took_of_insertRow {st : InsertStatement} {key : GeneratedKey} {v : Value}
    {t : Session σ Record} (hkey : st.generatedKey = some key)
    (h : store.insertReturningKey st s = .ok v t) :
    (stateAfter (store.insertRow st s)).subject.Took key.property v := by
  unfold insertRow
  rw [hkey]
  simp only
  rw [bind_of_ok h]
  unfold Work.assignField Work.ofEdit Edit.assignField
  cases hassign : t.subject.setField key.property v with
  | ok record => exact .of_setField hassign
  | error e =>
      -- the field does not take the key
      intro ty w hty hw
      rw [stateAfter] at hty
      rw [Record.setField_of_convert hty hw] at hassign
      cases hassign

/-- A record whose row was inserted shows that for as long as its fields stay. -/
theorem shows_insertRow {st : InsertStatement} (hst : store.model.Describes st s.subject) :
    Did s (store.insertRow st) fun final calls => Edit.OnlyFields s.subject final ∧
      ∀ record : Record, record.type = final.type → record.fields = final.fields →
        store.Shows record (.insertion st) calls := by
  have did : Did s (store.insertRow st) _ := did_insertRow
  obtain ⟨calls, hcalls, hassigned, hasks⟩ := did
  refine ⟨calls, hcalls, ?_, fun record htype hfields => ?_⟩
  · rcases hassigned with same | ⟨key, v, -, hassign⟩
    · rw [same]
      exact .refl _
    · exact ⟨Record.type_of_setField hassign, Record.slots_of_setField hassign⟩
  · have described : store.model.Describes st (stateAfter (store.insertRow st s)).subject := by
      rcases hassigned with same | ⟨key, v, hkey, hassign⟩
      · rw [same]
        exact hst
      · exact hst.of_generatedKey hkey hassign
    refine .inserted (described.congr htype hfields) hcalls hasks fun key v t hkey hreturned => ?_
    exact (took_of_insertRow hkey hreturned).congr hfields

/-- Work on one slot of a record, perhaps with assignments to fields. -/
structure SentIn (store : Store σ) (slot : String) (start final : Record) (calls : List Call) :
    Prop where
  type_eq : final.type = start.type
  slot_eq : ∀ q, q ≠ slot → final.slot? q = start.slot? q
  accounts : store.AccountsIn slot final calls

theorem SentIn.refl (slot : String) (record : Record) : store.SentIn slot record record [] :=
  ⟨rfl, fun _ _ => rfl, .nil⟩

theorem SentIn.of_setField {slot property : String} {start mid final : Record} {v : Value}
    {calls : List Call} (h : store.SentIn slot start mid calls)
    (hassign : mid.setField property v = .ok final) : store.SentIn slot start final calls := by
  have slots := Record.slots_of_setField hassign
  exact ⟨(Record.type_of_setField hassign).trans h.type_eq,
    fun q hq => (Record.slot?_congr slots q).trans (h.slot_eq q hq),
    h.accounts.congr (Record.slot?_congr slots slot)⟩

theorem sentIn_copyKey {start : Record} {calls : List Call}
    (h : store.SentIn r.property start s.subject calls) :
    Did s (copyKey target r) fun final more =>
      store.SentIn r.property start final (calls ++ more) := by
  refine (did_copyKey target r).mono ?_
  rintro final _ ⟨rfl, rfl | ⟨v, hassign⟩⟩
  · rwa [List.append_nil]
  · rw [List.append_nil]
    exact h.of_setField hassign

theorem sentIn_insertReference
    (hcascade : ∀ t, Did t cascade fun final calls => store.Accounts final calls) :
    Did s (store.insertReference cascade map r) fun final calls =>
      store.SentIn r.property s.subject final calls := by
  unfold insertReference
  refine .quiet_bind (.ofExcept _) (.refl _ _) fun target s₁ _ h₁ => .subject_bind ?_
  rw [← h₁]
  split
  next child hchild =>
    refine .quiet_bind (.ofExcept _) (.refl _ _) fun new s₂ _ h₂ => ?_
    rw [← h₂] at hchild ⊢
    split
    · have put {final child' : Record} {calls : List Call}
          (haccounts : store.Accounts child' calls) (hfinal : final = s₂.subject.withItems
            r.property ((s₂.subject.items r.property).set 0 child')) :
          store.SentIn r.property s₂.subject final calls := by
        subst hfinal
        exact ⟨rfl, (Record.OnlyItems.of_withItems _ _ _).slot_eq,
          .of_set (Record.items_of_reference? hchild) haccounts⟩
      refine .bind (.framed (did_onItem (hcascade _))) ?_ ?_
      · rintro final calls ⟨child', haccounts, hfinal⟩
        exact put haccounts hfinal
      · rintro _ t calls - ⟨child', haccounts, hsubject⟩
        exact sentIn_copyKey (put haccounts hsubject)
    · exact sentIn_copyKey (.refl _ _)
  next =>
    refine .of_quiet ?_ (.refl _ _)
    split
    · exact .pure _
    · refine .bind .subject fun _ => .bind (.ofExcept _) fun _ => ?_
      split
      · exact .pure _
      · exact .reportedFailure _

theorem accounts_insertItem {key : Value} {i : Nat}
    (hcascade : ∀ t, Did t cascade fun final calls => store.Accounts final calls) :
    Did s (insertItem cascade map target r key i) fun final calls =>
      Record.OnlyItems r.property s.subject final ∧
      (∀ j, j ≠ i → (final.items r.property)[j]? = (s.subject.items r.property)[j]?) ∧
      (calls = [] ∨ ∃ child, (final.items r.property)[i]? = some child ∧
        store.Accounts child calls) := by
  have skipped : Record.OnlyItems r.property s.subject s.subject ∧
      (∀ j, j ≠ i → (s.subject.items r.property)[j]? = (s.subject.items r.property)[j]?) ∧
      (([] : List Call) = [] ∨ ∃ child, (s.subject.items r.property)[i]? = some child ∧
        store.Accounts child []) := ⟨.refl _ _, fun _ _ => rfl, .inl rfl⟩
  unfold insertItem
  refine .subject_bind ?_
  split
  next => exact .of_quiet (.pure _) skipped
  next child hchild =>
    refine .quiet_bind (.ofExcept _) skipped fun new s₁ _ h₁ => ?_
    rw [← h₁] at hchild skipped ⊢
    split
    · exact .of_quiet (.pure _) skipped
    · have given : Did { s₁ with subject := child } (do
          Work.assignField r.foreignKey key
          Work.framed (.insertingItem i r.property map.table.name) cascade)
          fun final calls => store.Accounts final calls := by
        refine .bind did_assignField ?_ ?_
        · rintro _ _ ⟨rfl, -⟩
          exact .nil
        · rintro _ t _ - ⟨rfl, -⟩
          exact .framed (hcascade t)
      refine (did_onItem given).mono ?_
      rintro _ calls ⟨child', haccounts, rfl⟩
      have items := Record.items_withItems_of_item hchild
        ((s₁.subject.items r.property).set i child')
      refine ⟨.of_withItems _ _ _, fun j hj => ?_, .inr ⟨child', ?_, haccounts⟩⟩
      · rw [items, List.getElem?_set_ne hj.symm]
      · rw [items]
        exact List.getElem?_set_self (List.getElem?_eq_some_iff.mp hchild).1

theorem accounts_insertCollection
    (hcascade : ∀ t, Did t cascade fun final calls => store.Accounts final calls) :
    Did s (store.insertCollection cascade map r) fun final calls =>
      Record.OnlyItems r.property s.subject final ∧ store.AccountsIn r.property final calls := by
  have skipped : Record.OnlyItems r.property s.subject s.subject ∧
      store.AccountsIn r.property s.subject [] := ⟨.refl _ _, .nil⟩
  unfold insertCollection
  refine .quiet_bind (.ofExcept _) skipped fun target s₁ _ h₁ => .subject_bind ?_
  rw [← h₁] at skipped ⊢
  refine .quiet_bind (.ofExcept _) skipped fun key s₂ _ h₂ => .subject_bind ?_
  rw [← h₂] at skipped ⊢
  split
  next => exact .of_quiet (.pure _) skipped
  next items hitems =>
    -- each item shows in its own place of the slot
    refine Did.mono (did_forM_views (fun i : Nat => i)
      (fun i record => (record.items r.property)[i]?)
      (I := Record.OnlyItems r.property s₂.subject)
      (R := fun i final calls => calls = [] ∨ ∃ child, (final.items r.property)[i]? = some child ∧
        store.Accounts child calls)
      (fun _ _ _ => .inl rfl) (fun i final final' calls hitem h => by rwa [hitem])
      (by simpa using List.nodup_range)
      (fun i _ t ht _ => (accounts_insertItem hcascade).mono fun final calls h =>
        ⟨ht.trans h.1, h.2⟩)
      (.refl _ _) fun _ _ => rfl) ?_
    rintro final _ ⟨honly, -, each, heach, rfl⟩
    refine ⟨honly, each, rfl, fun calls hcalls => ?_⟩
    obtain ⟨i, -, hi⟩ := exists_of_mem_forall₂ heach hcalls
    exact hi.imp_right fun ⟨child, hchild, haccounts⟩ => ⟨i, child, hchild, haccounts⟩

/-- The references of a record are worked on in turn. -/
theorem accounts_insertReferences {rs : List RelationDef} (hnodup : (rs.map (·.property)).Nodup)
    (hcascade : ∀ t, Did t cascade fun final calls => store.Accounts final calls) :
    Did s (rs.forM (store.insertReference cascade map)) fun final calls =>
      final.type = s.subject.type ∧ ∃ each,
        List.Forall₂ (fun r calls => store.AccountsIn r.property final calls) rs each ∧
        calls = each.flatten := by
  refine Did.mono (did_forM_views RelationDef.property (fun q record => record.slot? q)
    (I := fun record => record.type = s.subject.type)
    (R := fun r final calls => store.AccountsIn r.property final calls)
    (fun _ _ _ => .nil) (fun _ _ _ _ hslot h => h.congr hslot) hnodup
    (fun _ _ _ ht _ => (sentIn_insertReference hcascade).mono fun _ _ h =>
      ⟨h.type_eq.trans ht, h.slot_eq, h.accounts⟩) rfl fun _ _ => rfl) ?_
  rintro final calls ⟨htype, -, each⟩
  exact ⟨htype, each⟩

theorem accounts_insertCollections {rs : List RelationDef} (hnodup : (rs.map (·.property)).Nodup)
    (hcascade : ∀ t, Did t cascade fun final calls => store.Accounts final calls) :
    Did s (rs.forM (store.insertCollection cascade map)) fun final calls =>
      (final.type = s.subject.type ∧ final.fields = s.subject.fields) ∧
      (∀ q, q ∉ rs.map (·.property) → final.slot? q = s.subject.slot? q) ∧ ∃ each,
        List.Forall₂ (fun r calls => store.AccountsIn r.property final calls) rs each ∧
        calls = each.flatten :=
  did_forM_views RelationDef.property (fun q record => record.slot? q)
    (fun _ _ _ => .nil) (fun _ _ _ _ hslot h => h.congr hslot) hnodup
    (fun _ _ _ ht _ => (accounts_insertCollection hcascade).mono fun _ _ h =>
      ⟨⟨h.1.type_eq.trans ht.1, h.1.fields_eq.trans ht.2⟩, h.1.slot_eq, h.2⟩)
    ⟨rfl, rfl⟩ fun _ _ => rfl

theorem accounts_insertLevels (store : Store σ) (levels : Nat) (forced : Bool)
    (s : Session σ Record) : Did s (store.insertLevels levels forced) fun final calls =>
      store.Accounts final calls := by
  induction levels generalizing forced s with
  | zero => exact .subject_bind (.of_quiet (.throw _) .nil)
  | succ levels ih =>
      unfold insertLevels
      refine .subject_bind (.quiet_bind (.ofExcept _) .nil fun map s₁ hmapOf h₁ => ?_)
      obtain ⟨hmap, -, -⟩ := Work.ok_of_ofExcept hmapOf
      refine .quiet_bind (.isStored map) .nil fun stored s₂ _ h₂ => ?_
      rw [← h₁, ← h₂] at hmap
      have hderived := Model.derived_of_entityMap hmap
      split
      · exact .of_quiet (.pure _) .nil
      refine .bind (accounts_insertReferences (nodup_relationsOf hderived .manyToOne) (ih false))
        ?_ ?_
      · rintro final _ ⟨-, each, heach, rfl⟩
        exact .of_relations heach
      rintro _ s₃ _ - ⟨htype, references, hreferences, rfl⟩
      rw [← htype] at hmap
      -- what was done for the references stays while their slots do
      have stay {record : Record} (hslots : ∀ r ∈ map.relationsOf .manyToOne,
          record.slot? r.property = s₃.subject.slot? r.property) :
          store.Accounts record references.flatten :=
        .of_relations (forall₂_imp_of_mem hreferences fun r hr _ h => h.congr (hslots r hr))
      have prepared := Edit.onlyFields_insert (b := ⟨s₃.subject, s₃.supply⟩) map forced
      refine .bind (did_ofEdit _) ?_ ?_
      · rintro _ _ ⟨rfl, rfl⟩
        rw [List.append_nil]
        exact stay fun r _ => Record.slot?_congr prepared.2 _
      rintro outcome s₄ _ hedit ⟨hsubject, rfl⟩
      rw [← hsubject] at prepared
      cases outcome with
      | none =>
          refine .of_quiet (.pure _) ?_
          simp only [List.append_nil]
          exact stay fun r _ => Record.slot?_congr prepared.2 _
      | some st =>
          obtain ⟨b, hinsert, hb, -⟩ := Work.ok_of_ofEdit hedit
          have described := (Edit.ok_of_insert_some hmap hinsert).describes
          rw [← hb] at described
          refine .bind (shows_insertRow described) ?_ ?_
          · rintro final row ⟨honly, shows⟩
            rw [List.nil_append]
            have kept := stay fun r _ => Record.slot?_congr (prepared.trans honly).2 r.property
            exact kept.append (.of_shows (shows final rfl rfl))
          rintro _ s₅ row - ⟨honly, shows⟩
          refine (accounts_insertCollections (nodup_relationsOf hderived .oneToMany)
            (ih false)).mono ?_
          rintro final _ ⟨⟨htype', hfields⟩, hslots, collections, hcollections, rfl⟩
          have kept : store.Accounts final references.flatten := stay fun r hr => by
            rw [hslots _ (notMem_relationsOf hderived (List.mem_filter.mp hr).1
              (by simp [kind_of_mem_relationsOf hr]))]
            exact Record.slot?_congr (prepared.trans honly).2 _
          have rows := kept.append (.of_shows (shows final htype' hfields))
          have all := rows.append (.of_relations hcollections)
          simpa using all

/-- However the insertion of a graph ends, its records show what was sent for them. -/
theorem accounts_insertRecord (store : Store σ) (forced : Bool) (s : Session σ Record) :
    Did s (store.insertRecord forced) fun final calls => store.Accounts final calls :=
  .subject_bind (accounts_insertLevels store _ forced s)

end Store

/-! ## Updates -/

section Updates

variable {store : Store σ} {map : EntityMap} {r : RelationDef} {start final : Record}
  {calls : List Call}

theorem Store.UpdatesOnce.accounts {fields : Option (List String)}
    (h : store.UpdatesOnce map fields final calls)
    (hmap : store.model.entityMap final.type = .ok map) : store.Accounts final calls := by
  rcases h with rfl | ⟨st, answer, hst, rfl⟩
  · exact .nil
  · exact .of_shows (.updated hmap hst)

theorem Touched.accounts (h : Touched store start final calls) : store.Accounts final calls := by
  cases h with
  | untouched => exact .nil
  | inserted _ _ hcascades =>
      obtain ⟨s, rfl, rfl, hcalls⟩ := hcascades.run
      obtain ⟨calls', hcalls', haccounts⟩ := Store.accounts_insertRecord store false s
      rw [hcalls, List.append_cancel_left_eq] at hcalls'
      exact hcalls' ▸ haccounts
  | updated hmap _ hstamped hrow => exact hrow.accounts (hstamped.onlyFields.1 ▸ hmap)

theorem TouchedItem.Sound.accounts {key : Value} {x : TouchedItem} (h : x.Sound store r key) :
    store.Accounts x.after x.calls := by
  cases h with
  | untouched _ hcalls =>
      rw [hcalls]
      exact .nil
  | given _ htouched => exact htouched.accounts

theorem ReferenceTouched.accounts (h : ReferenceTouched store r start final calls) :
    store.Accounts final calls := by
  cases h with
  | untouched => exact .nil
  | @saved child child' _ hchild hslot htouched =>
      obtain ⟨slot, hslot₀, -⟩ := Record.slot_of_reference? hchild
      rw [hslot₀, Option.map_some] at hslot
      have inside := (List.getElem?_eq_some_iff.mp (Record.items_of_reference? hchild)).1
      have back : (final.items r.property)[0]? = some child' := by
        rw [Record.items_of_slot? hslot]
        exact List.getElem?_set_self inside
      exact .of_item back htouched.accounts

theorem CollectionTouched.accounts {key : Except Error Value}
    (h : CollectionTouched store r key start final calls) : store.Accounts final calls := by
  cases h with
  | untouched => exact .nil
  | @reconciled v items removal _ hbefore hslot hitems hremoval =>
      refine .append (.flatten fun calls hcalls => ?_) ?_
      · obtain ⟨i, hi, rfl⟩ := List.getElem_of_mem hcalls
        rw [List.length_map] at hi
        rw [List.getElem_map]
        have back : (final.items r.property)[i]? = some (items[i].after) := by
          cases hstart : start.slot? r.property with
          | none =>
              -- a slot that is not there has no items
              rw [Record.items, hstart] at hbefore
              rw [List.map_eq_nil_iff.mp hbefore.symm] at hi
              cases hi
          | some slot =>
              rw [hstart, Option.map_some] at hslot
              rw [Record.items_of_slot? hslot, List.getElem?_map, List.getElem?_eq_getElem hi]
              rfl
        exact .of_item back (hitems _ (List.getElem_mem hi)).accounts
      · rcases hremoval with rfl | ⟨st, _, _, _, htarget, hforeign, htable, hst, rfl⟩
        · exact .nil
        · exact .of_shows (.reconciled htarget hforeign htable hst)

theorem UpdateFrame.accounts {includes : List String} {fields : Option (List String)}
    (h : UpdateFrame store includes fields map start final calls)
    (hmap : store.model.entityMap start.type = .ok map) : store.Accounts final calls := by
  obtain ⟨references, row, collections, rfl, hreferences, hrow, hcollections⟩ := h.touched
  refine .append (.append (.of_forall₂ hreferences fun _ _ => ReferenceTouched.accounts) ?_)
    (.of_forall₂ hcollections fun _ _ => CollectionTouched.accounts)
  exact hrow.accounts (h.type_eq ▸ hmap)

/-- However an update ends, the root and the records of included relations show what was sent for
them. -/
theorem Store.accounts_updateRecord (store : Store σ) (includes : List String)
    (fields : Option (List String)) (s : Session σ Record) :
    Did s (store.updateRecord includes fields) fun final calls => store.Accounts final calls := by
  refine Store.did_updateRecord.mono ?_
  rintro final calls (⟨rfl, rfl⟩ | ⟨map, hmap, frame⟩)
  · exact .nil
  · exact frame.accounts hmap

end Updates

/-! ## Deletions -/

namespace Edit

variable {map : EntityMap} {set rest : List Assignment} {a : Assignment} {b b' : Bench}
  {property : String} {v : Value}

/-- Following an assignment is to assign the field of its column, if it has one. -/
theorem ok_of_follow_cons (h : follow map (a :: rest) b = .ok () b') :
    ∃ b₁, follow map rest b₁ = .ok () b' ∧ ((map.assigned? a = none ∧ b₁ = b) ∨
      ∃ property, map.assigned? a = some property ∧
        b.record.setField property a.param.value = .ok b₁.record) := by
  unfold follow at h
  unfold EntityMap.assigned?
  cases hcolumn : map.columns.find? (·.name == a.column) with
  | none =>
      simp only [hcolumn] at h
      exact ⟨b, h, .inl ⟨rfl, rfl⟩⟩
  | some column =>
      simp only [hcolumn] at h
      obtain ⟨_, b₁, hassign, hrest⟩ := ends_of_bind h
      exact ⟨b₁, hrest, .inr ⟨column.property, rfl, ok_of_assignField hassign⟩⟩

theorem onlyFields_of_follow (h : follow map set b = .ok () b') :
    OnlyFields b.record b'.record := by
  induction set generalizing b with
  | nil =>
      cases h
      exact .refl _
  | cons a rest ih =>
      obtain ⟨b₁, hrest, ⟨-, rfl⟩ | ⟨property, -, hassign⟩⟩ := ok_of_follow_cons h
      · exact ih hrest
      · exact OnlyFields.trans ⟨Record.type_of_setField hassign, Record.slots_of_setField hassign⟩
          (ih hrest)

/-- What a field holds it holds until it is assigned again. -/
theorem took_of_follow_of_free (h : follow map set b = .ok () b')
    (hfree : ∀ a ∈ set, map.assigned? a ≠ some property) (htook : b.record.Took property v) :
    b'.record.Took property v := by
  induction set generalizing b with
  | nil =>
      cases h
      exact htook
  | cons a rest ih =>
      rw [List.forall_mem_cons] at hfree
      obtain ⟨b₁, hrest, ⟨-, rfl⟩ | ⟨property', hassigned, hassign⟩⟩ := ok_of_follow_cons h
      · exact ih hrest hfree.2 htook
      · have apart : property ≠ property' := by
          rintro rfl
          exact hfree.1 hassigned
        refine ih hrest hfree.2 fun t w ht hw => ?_
        rw [Record.fieldType?_of_setField hassign] at ht
        rw [Record.field?_of_setField hassign apart]
        exact htook t w ht hw

/-- A record that follows assignments holds what is assigned last. -/
theorem took_of_follow (h : follow map set b = .ok () b')
    (hlast : map.AssignsLast set property v) : b'.record.Took property v := by
  obtain ⟨front, a, back, rfl, hassigned, rfl, hback⟩ := hlast
  induction front generalizing b with
  | nil =>
      obtain ⟨b₁, hrest, ⟨hnone, -⟩ | ⟨property', hassigned', hassign⟩⟩ := ok_of_follow_cons h
      · rw [hassigned] at hnone
        cases hnone
      · rw [hassigned] at hassigned'
        cases hassigned'
        exact took_of_follow_of_free hrest hback (.of_setField hassign)
  | cons a' front ih =>
      obtain ⟨b₁, hrest, -⟩ := ok_of_follow_cons h
      exact ih hrest

/-- A record that is deleted changes in fields only, and holds what its row is marked with. -/
theorem marks_of_delete {st : Statement} (h : delete map b = .ok st b') :
    OnlyFields b.record b'.record ∧ ∀ u property v, st = .update u →
      map.AssignsLast u.set property v → b'.record.Took property v := by
  obtain ⟨-, filter, context, supply, -, -, ⟨u, rfl, hfollow⟩ | ⟨hnone, rfl⟩⟩ := steps_of_delete h
  · have only := onlyFields_of_follow hfollow
    refine ⟨only, fun u' property v hu hlast => ?_⟩
    cases hu
    exact took_of_follow hfollow hlast
  · exact ⟨.refl _, fun u property v hu => absurd hu (hnone u)⟩

end Edit

/-- However a deletion ends, the record shows what was sent for it. -/
theorem Store.accounts_deleteRecord (store : Store σ) (s : Session σ Record) :
    Did s store.deleteRecord fun final calls => store.Accounts final calls := by
  unfold deleteRecord
  refine .subject_bind (.quiet_bind (.ofExcept _) .nil fun map s₁ hmapOf h₁ => ?_)
  obtain ⟨hmap, -, -⟩ := Work.ok_of_ofExcept hmapOf
  rw [← h₁] at hmap
  refine .bind (did_ofEdit _) ?_ ?_
  · rintro _ _ ⟨rfl, rfl⟩
    exact .nil
  rintro st s₂ _ hedit ⟨-, rfl⟩
  obtain ⟨b, hdelete, hb, -⟩ := Work.ok_of_ofEdit hedit
  have shows {answer : Yield} : store.Shows s₂.subject (.deletion st)
      [.query (store.connection.dialect.render st) answer] := by
    obtain ⟨onlyFields, marks⟩ := Edit.marks_of_delete hdelete
    rw [hb]
    exact .deleted (onlyFields.1 ▸ hmap) hdelete marks
  refine .bind (did_executeStatement st) ?_ ?_
  · rintro _ _ ⟨rfl, answer, rfl⟩
    exact .of_shows shows
  · rintro count s₃ _ - ⟨hsubject, answer, rfl⟩
    refine .of_quiet (.expectOne _ _ _) ?_
    rw [hsubject]
    exact .of_shows shows

end GraphStore
