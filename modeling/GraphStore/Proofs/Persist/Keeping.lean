import GraphStore.Persist.Delete
import GraphStore.Persist.Update
import GraphStore.Proofs.Persist.Runs
import GraphStore.Proofs.Record.Keeping
import GraphStore.Proofs.Statement.Rows

/-!
# What runs keep

Inserting, updating and deleting a graph keep it (`Keeps`) however they end: the record that is
worked on when a run fails has been changed in the same way as if the run had gone on. The proof
goes through the work step by step. Most steps do not touch the record at all (`LeavesSubject`);
those that assign a field are allowed to.
-/

set_option autoImplicit false

namespace GraphStore

/-! ## Keeping as a property of work -/

section

variable {S α β : Type} (view : S → Record) (m : Model) (extra : String → Prop)

/-- The record seen in a state is kept by work that starts there. -/
def KeepsFrom (s : S) (work : EStateM Error S α) : Prop :=
  Keeps m extra (view s) (view (stateAfter (work s)))

variable {view m extra} {s : S}

theorem KeepsFrom.of_same {work : EStateM Error S α} (h : view (stateAfter (work s)) = view s) :
    KeepsFrom view m extra s work := by
  unfold KeepsFrom
  rw [h]
  exact .refl _

theorem KeepsFrom.pure (a : α) : KeepsFrom view m extra s (Pure.pure a) := .of_same rfl

theorem KeepsFrom.bind {x : EStateM Error S α} {f : α → EStateM Error S β}
    (hx : KeepsFrom view m extra s x)
    (hf : ∀ a t, x s = .ok a t → Keeps m extra (view s) (view t) →
      KeepsFrom view m extra t (f a)) : KeepsFrom view m extra s (x >>= f) :=
  -- work that fails in its first part has kept the record with that part alone
  stateAfter_bind (P := fun t => Keeps m extra (view s) (view t)) hx (fun _ ht => ht)
    fun a t h ht => ht.trans (hf a t h ht)

theorem KeepsFrom.forM {xs : List α} {f : α → EStateM Error S Unit}
    (h : ∀ x ∈ xs, ∀ t, Keeps m extra (view s) (view t) → KeepsFrom view m extra t (f x)) :
    KeepsFrom view m extra s (xs.forM f) := by
  induction xs generalizing s with
  | nil => exact .pure ()
  | cons x xs ih =>
      refine .bind (f := fun _ => xs.forM f) (h x (by simp) s (.refl _)) fun _ t _ ht => ?_
      exact ih fun y hy u hu => h y (List.mem_cons_of_mem x hy) u (ht.trans hu)

theorem KeepsFrom.mono {extra' : String → Prop} {work : EStateM Error S α}
    (h : KeepsFrom view m extra s work) (hle : ∀ property, extra property → extra' property) :
    KeepsFrom view m extra' s work :=
  Keeps.mono h hle

theorem KeepsFrom.of_ok {work : EStateM Error S α} {a : α} {t : S}
    (h : KeepsFrom view m extra s work) (hwork : work s = .ok a t) :
    Keeps m extra (view s) (view t) := by
  unfold KeepsFrom at h
  rwa [hwork] at h

end

/-! ## Work that does not touch the subject -/

section

variable {σ ρ α β : Type}

/-- The subject stays as it is, however the work ends. -/
def LeavesSubject (work : Work σ ρ α) : Prop := ∀ s, (stateAfter (work s)).subject = s.subject

theorem LeavesSubject.bind {x : Work σ ρ α} {f : α → Work σ ρ β} (hx : LeavesSubject x)
    (hf : ∀ a, LeavesSubject (f a)) : LeavesSubject (x >>= f) := fun s =>
  stateAfter_bind (P := fun t => t.subject = s.subject) (hx s) (fun _ ht => ht)
    fun a t _ ht => (hf a t).trans ht

theorem LeavesSubject.pure (a : α) : LeavesSubject (Pure.pure a : Work σ ρ α) := fun _ => rfl

theorem LeavesSubject.throw (e : Error) : LeavesSubject (throw e : Work σ ρ α) := fun _ => rfl

theorem LeavesSubject.subject : LeavesSubject (Work.subject : Work σ Record Record) := fun _ => rfl

theorem LeavesSubject.log (entries : List LogEntry) :
    LeavesSubject (Work.log entries : Work σ ρ Unit) := fun _ => rfl

theorem LeavesSubject.reportedFailure (cause : Cause) :
    LeavesSubject (Work.reportedFailure cause : Work σ ρ α) := fun _ => rfl

theorem LeavesSubject.ofExcept (x : Except Error α) :
    LeavesSubject (Work.ofExcept x : Work σ ρ α) := by
  intro s
  cases x <;> rfl

theorem LeavesSubject.ofSupply (x : Supply → Except Error (α × Supply)) :
    LeavesSubject (Work.ofSupply x : Work σ ρ α) := by
  unfold Work.ofSupply
  refine .bind (fun _ => rfl) fun s => .bind (.ofExcept _) fun a => ?_
  exact .bind (fun _ => rfl) fun _ => .pure _

variable (store : Store σ)

theorem LeavesSubject.reporting (q : Query) {work : Work σ ρ α} (h : LeavesSubject work) :
    LeavesSubject (Store.reporting q work) := by
  intro s
  have h := h s
  unfold Store.reporting
  cases hwork : work s <;> (rw [hwork] at h; exact h)

theorem LeavesSubject.executeQuery (q : Query) :
    LeavesSubject (store.executeQuery q : Work σ ρ UInt64) := by
  refine .reporting q (.bind (fun _ => rfl) fun y => ?_)
  split
  · exact .pure _
  · exact .throw _

theorem LeavesSubject.fetchQuery (q : Query) :
    LeavesSubject (store.fetchQuery q : Work σ ρ (List Row)) := by
  refine .reporting q (.bind (fun _ => rfl) fun y => ?_)
  split
  · exact .pure _
  · exact .throw _

theorem LeavesSubject.executeStatement (st : Statement) :
    LeavesSubject (store.executeStatement st : Work σ ρ UInt64) :=
  .bind (fun _ => rfl) fun q => .executeQuery store q

theorem LeavesSubject.expectOne (count : UInt64) (map : EntityMap) (action : RowAction) :
    LeavesSubject (Store.expectOne count map action : Work σ ρ Unit) := by
  unfold Store.expectOne
  split
  · exact .pure _
  · exact .reportedFailure _

theorem LeavesSubject.insertReturningKey (st : InsertStatement) :
    LeavesSubject (store.insertReturningKey st) := by
  refine .bind (fun _ => rfl) fun q => ?_
  split
  case' h_1 =>
    refine .bind (.executeQuery store q) fun _ => .bind (.fetchQuery store _) fun rows => ?_
  case' h_2 => refine .bind (.fetchQuery store q) fun rows => ?_
  -- either way the key is read from the rows
  all_goals
    dsimp only
    split
    · split
      · exact .reportedFailure _
      · exact .pure _
    · exact .reportedFailure _

theorem KeepsFrom.of_leaves {m : Model} {extra : String → Prop} {s : Session σ Record}
    {work : Work σ Record α} (h : LeavesSubject work) :
    KeepsFrom Session.subject m extra s work := .of_same (h s)

end

/-! ## Edits -/

section

variable {m : Model} {extra : String → Prop} {map : EntityMap} {b : Bench}

theorem KeepsFrom.editOfExcept {α : Type} (x : Except Error α) :
    KeepsFrom Bench.record m extra b (Edit.ofExcept x) := by
  refine .of_same ?_
  unfold Edit.ofExcept
  cases x <;> rfl

theorem KeepsFrom.editAssign {property : String} {v : Value}
    (h : m.Assigns b.record property ∨ extra property) :
    KeepsFrom Bench.record m extra b (Edit.assignField property v) := by
  unfold KeepsFrom Edit.assignField
  cases hr : b.record.setField property v with
  | ok r => exact .of_setField hr h
  | error e => exact .refl _

theorem KeepsFrom.stamp (hmap : m.entityMap b.record.type = .ok map) :
    KeepsFrom Bench.record m extra b (Edit.stamp map) := by
  unfold Edit.stamp
  split
  next => exact .pure _
  next column hcolumn =>
    refine .bind (.of_same rfl) fun time b₁ hnow _ => ?_
    cases hnow
    exact .bind (.editAssign (.inl (.timestamp hmap hcolumn rfl))) fun _ _ _ _ => .pure _

theorem KeepsFrom.provideKey (hmap : m.entityMap b.record.type = .ok map) :
    KeepsFrom Bench.record m extra b (Edit.provideKey map) := by
  unfold Edit.provideKey
  split
  next => exact .pure _
  next column hcolumn =>
    refine .bind (.of_same rfl) fun r b₁ hrecord _ => ?_
    cases hrecord
    refine .bind (.editOfExcept _) fun v b₂ hread _ => ?_
    obtain ⟨hvalue, rfl⟩ := Edit.ok_of_ofExcept hread
    split
    next => exact .pure _
    next hempty =>
      split
      next =>
        refine .bind (.of_same rfl) fun u b₃ hfresh _ => ?_
        cases hfresh
        refine .bind (.editAssign (.inl ?_)) fun _ _ _ _ => .pure _
        exact .generatedKey hmap hcolumn rfl (EntityMap.read_eq_ok hvalue) (by simpa using hempty)
      next => exact .pure _

theorem KeepsFrom.editIsStored : KeepsFrom Bench.record m extra b (Edit.isStored map) := by
  unfold Edit.isStored
  split
  · exact .pure _
  · refine .bind (.of_same rfl) fun _ _ _ _ => ?_
    exact .bind (.editOfExcept _) fun _ _ _ _ => .pure _

theorem KeepsFrom.editInsert {forced : Bool} (hmap : m.entityMap b.record.type = .ok map) :
    KeepsFrom Bench.record m extra b (Edit.insert map forced) := by
  unfold Edit.insert
  refine .bind .editIsStored fun stored b₁ _ h₁ => ?_
  have hmap₁ : m.entityMap b₁.record.type = .ok map := by rw [h₁.type_eq, hmap]
  split
  · exact .pure _
  · refine .bind (.provideKey hmap₁) fun key b₂ _ h₂ => ?_
    have hmap₂ : m.entityMap b₂.record.type = .ok map := by rw [h₂.type_eq, hmap₁]
    refine .bind (.stamp hmap₂) fun _ b₃ _ _ => .bind (.of_same rfl) fun _ _ _ _ => ?_
    exact .bind (.editOfExcept _) fun _ _ _ _ => .pure _

/-- A key that is left to the database may be assigned once the statement is issued. -/
theorem Edit.assigns_of_insert {forced : Bool} {st : InsertStatement} {key : GeneratedKey}
    {b' : Bench} (hmap : m.entityMap b.record.type = .ok map)
    (h : Edit.insert map forced b = .ok (some st) b') (hkey : st.generatedKey = some key) :
    m.Assigns b'.record key.property := by
  rw [← (Edit.ok_of_insert_some hmap h).onlyFields.1] at hmap
  obtain ⟨-, b₁, stamped, context, hprovide, hstamp, -, -⟩ := Edit.steps_of_insert_some h
  rw [hkey] at hprovide
  cases Edit.providesKey_of_provideKey hprovide with
  | @left column v hcolumn hfield hempty =>
      -- the stamp may have been put on the key itself; otherwise the key is as empty as it was
      by_cases hstamped : ∃ c, map.autoTimestampColumn? = some c ∧ column.property = c.property
      · obtain ⟨c, hc, equal⟩ := hstamped
        exact .timestamp hmap hc equal.symm
      · refine .generatedKey hmap hcolumn rfl ?_ hempty
        rw [(Edit.assignsAt_of_stamp hstamp).field?_eq fun c hc equal => hstamped ⟨c, hc, equal⟩,
          hfield]

end

/-! ## Work on the subject -/

section

variable {σ α : Type} {m : Model} {extra : String → Prop} {s : Session σ Record}

theorem KeepsFrom.framed {frame : Frame} {work : Work σ Record α}
    (h : KeepsFrom Session.subject m extra s work) :
    KeepsFrom Session.subject m extra s (Work.framed frame work) := by
  unfold KeepsFrom Work.framed at *
  cases hwork : work s <;> (rw [hwork] at h; exact h)

theorem KeepsFrom.ofEdit {edit : Edit α}
    (h : KeepsFrom Bench.record m extra ⟨s.subject, s.supply⟩ edit) :
    KeepsFrom Session.subject m extra s (Work.ofEdit edit) := by
  unfold KeepsFrom Work.ofEdit at *
  cases hedit : edit ⟨s.subject, s.supply⟩ <;> (rw [hedit] at h; exact h)

theorem KeepsFrom.assignField {property : String} {v : Value}
    (h : m.Assigns s.subject property ∨ extra property) :
    KeepsFrom Session.subject m extra s (Work.assignField property v) :=
  .ofEdit (.editAssign h)

/-- Work on an item keeps the record when it keeps the item, whose owner may give it a key. -/
theorem KeepsFrom.onItem {property : String} {i : Nat} {child : Record} {work : Work σ Record α}
    (hchild : (s.subject.items property)[i]? = some child)
    (h : KeepsFrom Session.subject m (m.GivesKey s.subject property) { s with subject := child }
      work) : KeepsFrom Session.subject m extra s (Work.onItem property i child work) := by
  unfold KeepsFrom Work.onItem at *
  cases hwork : work { s with subject := child } <;>
    (rw [hwork] at h; exact .of_withItems hchild h)

theorem Record.items_of_reference? {r child : Record} {property : String}
    (h : r.reference? property = some child) : (r.items property)[0]? = some child := by
  obtain ⟨s, hslot, -, hfirst⟩ := slot_of_reference? h
  rw [items_of_slot? hslot, ← List.head?_eq_getElem?, hfirst]

end

/-! ## Inserting -/

namespace Store

variable {σ : Type} {store : Store σ} {extra : String → Prop} {map : EntityMap}
  {r : RelationDef} {s : Session σ Record} {cascade : Work σ Record Unit}

/-- Work that keeps every record it is started on. -/
def KeepsAll (store : Store σ) (work : Work σ Record Unit) : Prop :=
  ∀ (s : Session σ Record) extra, KeepsFrom Session.subject store.model extra s work

/-- When it ends well the record is the one that was kept. -/
theorem KeepsAll.keeps {work : Work σ Record Unit} {s' : Session σ Record}
    (h : store.KeepsAll work) (hended : work s = .ok () s') :
    Keeps store.model (fun _ => False) s.subject s'.subject :=
  (h s fun _ => False).of_ok hended

theorem keepsFrom_copyKey {target : EntityMap}
    (hmap : store.model.entityMap s.subject.type = .ok map) (hr : r ∈ map.relationsOf .manyToOne) :
    KeepsFrom Session.subject store.model extra s (copyKey target r) := by
  unfold copyKey
  refine .bind (.of_leaves .subject) fun record t hrecord _ => ?_
  obtain ⟨rfl, rfl⟩ := Work.ok_of_subject hrecord
  split
  next child hchild =>
    refine .bind (.of_leaves (.ofExcept _)) fun key u hread _ => .assignField (.inl ?_)
    obtain ⟨-, hsubject, -⟩ := Work.ok_of_ofExcept hread
    rw [hsubject]
    exact .localKey hmap hr rfl hchild
  next => exact .pure _

/-- The record of a reference is worked on in its slot, and its key copied. -/
theorem keepsFrom_reference {target : EntityMap} {child : Record} {work : Work σ Record Unit}
    {frame : Frame} (hwork : store.KeepsAll work)
    (hmap : store.model.entityMap s.subject.type = .ok map) (hr : r ∈ map.relationsOf .manyToOne)
    (hchild : s.subject.reference? r.property = some child) :
    KeepsFrom Session.subject store.model extra s (do
      Work.framed frame (Work.onItem r.property 0 child work)
      copyKey target r) := by
  refine .bind (.framed (.onItem (Record.items_of_reference? hchild) (hwork _ _)))
    fun _ t _ ht => keepsFrom_copyKey ?_ hr
  rw [ht.type_eq, hmap]

theorem keepsFrom_insertReference (hcascade : store.KeepsAll cascade)
    (hmap : store.model.entityMap s.subject.type = .ok map) (hr : r ∈ map.relationsOf .manyToOne) :
    KeepsFrom Session.subject store.model extra s (store.insertReference cascade map r) := by
  unfold insertReference
  refine .bind (.of_leaves (.ofExcept _)) fun target s₁ htarget h₁ => ?_
  refine .bind (.of_leaves .subject) fun record s₂ hrecord _ => ?_
  obtain ⟨rfl, rfl⟩ := Work.ok_of_subject hrecord
  have hmap₂ : store.model.entityMap s₂.subject.type = .ok map := by rw [h₁.type_eq, hmap]
  split
  next child hchild =>
    refine .bind (.of_leaves (.ofExcept _)) fun new s₃ hcheck h₃ => ?_
    obtain ⟨-, hsubject, -⟩ := Work.ok_of_ofExcept hcheck
    rw [← hsubject] at hmap₂ hchild
    split
    · exact keepsFrom_reference hcascade hmap₂ hr hchild
    · exact keepsFrom_copyKey hmap₂ hr
  next =>
    split
    · exact .pure _
    · refine .bind (.of_leaves .subject) fun _ _ _ _ => ?_
      refine .bind (.of_leaves (.ofExcept _)) fun _ _ _ _ => ?_
      split
      · exact .pure _
      · exact .of_leaves (.reportedFailure _)

/-- An item of a collection is given the key of its owner and worked on in its place. -/
theorem keepsFrom_item {child : Record} {key : Value} {i : Nat} {work : Work σ Record Unit}
    {frame : Frame} (hwork : store.KeepsAll work)
    (hmap : store.model.entityMap s.subject.type = .ok map) (hr : r ∈ map.relationsOf .oneToMany)
    (hchild : (s.subject.items r.property)[i]? = some child) :
    KeepsFrom Session.subject store.model extra s (Work.onItem r.property i child do
      Work.assignField r.foreignKey key
      Work.framed frame work) := by
  refine .onItem hchild (.bind (.assignField (.inr ?_)) fun _ _ _ _ => .framed (hwork _ _))
  exact ⟨map, r, hmap, hr, rfl, rfl⟩

theorem keepsFrom_insertItem {target : EntityMap} {key : Value} {i : Nat}
    (hcascade : store.KeepsAll cascade)
    (hmap : store.model.entityMap s.subject.type = .ok map) (hr : r ∈ map.relationsOf .oneToMany) :
    KeepsFrom Session.subject store.model extra s (insertItem cascade map target r key i) := by
  unfold insertItem
  refine .bind (.of_leaves .subject) fun record s₁ hrecord _ => ?_
  obtain ⟨rfl, rfl⟩ := Work.ok_of_subject hrecord
  split
  next => exact .pure _
  next child hchild =>
    refine .bind (.of_leaves (.ofExcept _)) fun new s₂ hcheck _ => ?_
    obtain ⟨-, hsubject, -⟩ := Work.ok_of_ofExcept hcheck
    rw [← hsubject] at hmap hchild
    split
    · exact .pure _
    · exact keepsFrom_item hcascade hmap hr hchild

theorem keepsFrom_insertCollection (hcascade : store.KeepsAll cascade)
    (hmap : store.model.entityMap s.subject.type = .ok map) (hr : r ∈ map.relationsOf .oneToMany) :
    KeepsFrom Session.subject store.model extra s (store.insertCollection cascade map r) := by
  unfold insertCollection
  refine .bind (.of_leaves (.ofExcept _)) fun target s₁ _ h₁ => ?_
  refine .bind (.of_leaves .subject) fun record s₂ _ h₂ => ?_
  refine .bind (.of_leaves (.ofExcept _)) fun key s₃ _ h₃ => ?_
  refine .bind (.of_leaves .subject) fun record s₄ _ h₄ => ?_
  split
  · exact .pure _
  · refine .forM fun i _ t ht => keepsFrom_insertItem hcascade ?_ hr
    rw [ht.type_eq, h₄.type_eq, h₃.type_eq, h₂.type_eq, h₁.type_eq, hmap]

theorem keepsFrom_insertRow {st : InsertStatement}
    (hkey : ∀ key, st.generatedKey = some key → store.model.Assigns s.subject key.property) :
    KeepsFrom Session.subject store.model extra s (store.insertRow st) := by
  unfold insertRow
  split
  next key hsome =>
    refine .bind (.of_leaves (.insertReturningKey store st)) fun v t hreturned _ =>
      .assignField (.inl ?_)
    have hsubject := LeavesSubject.insertReturningKey store st s
    rw [hreturned] at hsubject
    simp only [stateAfter] at hsubject
    rw [hsubject]
    exact hkey key hsome
  next =>
    exact .bind (.of_leaves (.executeStatement store _)) fun _ _ _ _ => .pure _

theorem leavesSubject_isStored : LeavesSubject (isStored map : Work σ Record Bool) := by
  unfold isStored
  split
  · exact .pure _
  · exact .bind .subject fun _ => .bind (.ofExcept _) fun _ => .pure _

/-- The cascade keeps the graph, however deep it goes and however it ends. -/
theorem keepsAll_insertLevels (store : Store σ) (levels : Nat) (forced : Bool) :
    store.KeepsAll (store.insertLevels levels forced) := by
  induction levels generalizing forced with
  | zero =>
      intro s extra
      exact .bind (.of_leaves .subject) fun _ _ _ _ => .of_leaves (.throw _)
  | succ levels ih =>
      intro s extra
      unfold insertLevels
      refine .bind (.of_leaves .subject) fun record s₁ hrecord _ => ?_
      obtain ⟨rfl, rfl⟩ := Work.ok_of_subject hrecord
      refine .bind (.of_leaves (.ofExcept _)) fun map s₂ hmapOf h₂ => ?_
      obtain ⟨hmap, -, -⟩ := Work.ok_of_ofExcept hmapOf
      refine .bind (.of_leaves leavesSubject_isStored) fun stored s₃ _ h₃ => ?_
      split
      · exact .pure _
      · have hmap₃ : store.model.entityMap s₃.subject.type = .ok map := by
          rw [h₃.type_eq, h₂.type_eq, hmap]
        refine .bind (.forM fun r hr t ht => keepsFrom_insertReference (ih false) ?_ hr)
          fun _ s₄ _ h₄ => ?_
        · rw [ht.type_eq, hmap₃]
        have hmap₄ : store.model.entityMap s₄.subject.type = .ok map := by rw [h₄.type_eq, hmap₃]
        refine .bind (.ofEdit (.editInsert hmap₄)) fun outcome s₅ hedit h₅ => ?_
        split
        next => exact .pure _
        next st =>
          obtain ⟨b, hinsert, hsubject, -⟩ := Work.ok_of_ofEdit hedit
          refine .bind (keepsFrom_insertRow fun key hkey => ?_) fun _ s₆ _ h₆ => ?_
          · rw [hsubject]
            exact Edit.assigns_of_insert (b := ⟨s₄.subject, s₄.supply⟩) hmap₄ hinsert hkey
          -- the collections see a record of the type that the map was derived for
          · refine .forM fun r hr t ht => keepsFrom_insertCollection (ih false) ?_ hr
            rw [ht.type_eq, h₆.type_eq, h₅.type_eq, hmap₄]

theorem keepsAll_insertRecord (store : Store σ) (forced : Bool) :
    store.KeepsAll (store.insertRecord forced) := by
  intro s extra
  exact .bind (.of_leaves .subject) fun _ _ _ _ => keepsAll_insertLevels store _ forced _ _

/-! ## Updating -/

theorem keepsFrom_editUpdate {b : Bench} {fields : Option (List String)}
    (hmap : store.model.entityMap b.record.type = .ok map) :
    KeepsFrom Bench.record store.model extra b (Edit.update map fields) := by
  unfold Edit.update
  refine .bind (.of_same rfl) fun r b₁ hrecord _ => ?_
  cases hrecord
  refine .bind (.editOfExcept _) fun empty b₂ hempty _ => ?_
  obtain ⟨-, rfl⟩ := Edit.ok_of_ofExcept hempty
  by_cases hkeyless : empty = true
  · rw [if_pos hkeyless]
    exact .of_same rfl
  · rw [if_neg hkeyless]
    refine .bind (.editOfExcept _) fun _ b₃ hcheck _ => ?_
    obtain ⟨-, rfl⟩ := Edit.ok_of_ofExcept hcheck
    refine .bind (.stamp hmap) fun _ _ _ _ => .bind (.of_same rfl) fun _ _ _ _ => ?_
    refine .bind (.editOfExcept _) fun values _ _ _ => ?_
    obtain ⟨set, context⟩ := values
    by_cases hset : set.isEmpty = true
    · simp only [hset, if_true]
      exact .of_same rfl
    · simp only [hset, Bool.false_eq_true, if_false]
      exact .bind (.of_same rfl) fun _ _ _ _ => .bind (.editOfExcept _) fun _ _ _ _ => .pure _

theorem keepsFrom_updateRow {fields : Option (List String)}
    (hmap : store.model.entityMap s.subject.type = .ok map) :
    KeepsFrom Session.subject store.model extra s (store.updateRow map fields) :=
  .bind (.ofEdit (keepsFrom_editUpdate hmap)) fun _ _ _ _ =>
    .bind (.of_leaves (.executeStatement store _)) fun _ _ _ _ => .of_leaves (.expectOne _ _ _)

theorem keepsAll_saveRecord (store : Store σ) : store.KeepsAll store.saveRecord := by
  intro s extra
  unfold saveRecord
  refine .bind (.of_leaves .subject) fun record s₁ hrecord _ => ?_
  obtain ⟨rfl, rfl⟩ := Work.ok_of_subject hrecord
  refine .bind (.of_leaves (.ofExcept _)) fun map s₂ hmapOf h₂ => ?_
  obtain ⟨hmap, -, -⟩ := Work.ok_of_ofExcept hmapOf
  refine .bind (.of_leaves .subject) fun record s₃ _ h₃ => ?_
  refine .bind (.of_leaves (.ofExcept _)) fun new s₄ _ h₄ => ?_
  split
  -- a new record below an update is inserted with its whole graph
  · exact keepsAll_insertRecord store false _ _
  · split
    · refine keepsFrom_updateRow ?_
      rw [h₄.type_eq, h₃.type_eq, h₂.type_eq, hmap]
    · exact .pure _

theorem keepsFrom_saveReference (hmap : store.model.entityMap s.subject.type = .ok map)
    (hr : r ∈ map.relationsOf .manyToOne) :
    KeepsFrom Session.subject store.model extra s (store.saveReference map r) := by
  unfold saveReference
  refine .bind (.of_leaves (.ofExcept _)) fun target s₁ _ h₁ => ?_
  refine .bind (.of_leaves .subject) fun record s₂ hrecord _ => ?_
  obtain ⟨rfl, rfl⟩ := Work.ok_of_subject hrecord
  split
  next => exact .pure _
  next child hchild =>
    exact keepsFrom_reference (keepsAll_saveRecord store) (by rw [h₁.type_eq, hmap]) hr hchild

theorem keepsFrom_saveItem {key : Value} {i : Nat}
    (hmap : store.model.entityMap s.subject.type = .ok map) (hr : r ∈ map.relationsOf .oneToMany) :
    KeepsFrom Session.subject store.model extra s (store.saveItem map r key i) := by
  unfold saveItem
  refine .bind (.of_leaves .subject) fun record s₁ hrecord _ => ?_
  obtain ⟨rfl, rfl⟩ := Work.ok_of_subject hrecord
  split
  next => exact .pure _
  next child hchild => exact keepsFrom_item (keepsAll_saveRecord store) hmap hr hchild

theorem keepsFrom_reconcile (hmap : store.model.entityMap s.subject.type = .ok map)
    (hr : r ∈ map.relationsOf .oneToMany) :
    KeepsFrom Session.subject store.model extra s (store.reconcile map r) := by
  unfold reconcile
  refine .bind (.of_leaves .subject) fun _ s₁ _ h₁ => ?_
  refine .bind (.of_leaves (.ofExcept _)) fun key s₂ _ h₂ => ?_
  refine .bind (.of_leaves .subject) fun _ s₃ _ h₃ => ?_
  refine .bind (.forM fun i _ t ht => keepsFrom_saveItem ?_ hr) fun _ _ _ _ => ?_
  · rw [ht.type_eq, h₃.type_eq, h₂.type_eq, h₁.type_eq, hmap]
  refine .bind (.of_leaves .subject) fun _ _ _ _ => ?_
  refine .bind (.of_leaves (.ofSupply _)) fun _ _ _ _ => ?_
  exact .bind (.of_leaves (.executeStatement store _)) fun _ _ _ _ => .of_leaves (.log _)

theorem leavesSubject_checkIncludes (includes : List String) :
    LeavesSubject (checkIncludes map includes : Work σ Record Unit) := by
  induction includes with
  | nil => exact .pure _
  | cons name rest ih =>
      unfold checkIncludes
      split
      · exact .bind (.reportedFailure _) fun _ => ih
      · exact ih

theorem keepsAll_updateRecord (store : Store σ) (includes : List String)
    (fields : Option (List String)) : store.KeepsAll (store.updateRecord includes fields) := by
  intro s extra
  unfold updateRecord
  refine .bind (.of_leaves .subject) fun record s₁ hrecord _ => ?_
  obtain ⟨rfl, rfl⟩ := Work.ok_of_subject hrecord
  refine .bind (.of_leaves (.ofExcept _)) fun map s₂ hmapOf h₂ => ?_
  obtain ⟨hmap, -, -⟩ := Work.ok_of_ofExcept hmapOf
  refine .bind (.of_leaves (leavesSubject_checkIncludes includes)) fun _ s₃ _ h₃ => ?_
  have hmap₃ : store.model.entityMap s₃.subject.type = .ok map := by
    rw [h₃.type_eq, h₂.type_eq, hmap]
  refine .bind (.forM fun r hr t ht => keepsFrom_saveReference ?_ (List.mem_filter.mp hr).1)
    fun _ s₄ _ h₄ => ?_
  · rw [ht.type_eq, hmap₃]
  have hmap₄ : store.model.entityMap s₄.subject.type = .ok map := by rw [h₄.type_eq, hmap₃]
  refine .bind (keepsFrom_updateRow hmap₄) fun _ s₅ _ h₅ => ?_
  refine .forM fun r hr t ht => keepsFrom_reconcile ?_ (List.mem_filter.mp hr).1
  rw [ht.type_eq, h₅.type_eq, hmap₄]

/-! ## Deleting -/

end Store

/-- The fields that a deletion may assign to mark a record: those of the columns that are named
like the mark or, where there is a mark, like the auto timestamp. -/
def EntityMap.Marks (map : EntityMap) (property : String) : Prop :=
  ∃ flag column, map.softDeleteColumn? = some flag ∧ column ∈ map.columns ∧
    column.property = property ∧
    (column.name = flag.name ∨
      ∃ time, map.autoTimestampColumn? = some time ∧ column.name = time.name)

/-- The fields of records of a type that a deletion may assign. -/
def Model.MarkedIn (m : Model) (type property : String) : Prop :=
  ∃ map, m.entityMap type = .ok map ∧ map.Marks property

section

variable {m : Model} {extra : String → Prop} {map : EntityMap} {b : Bench}

/-- What is assigned when rows are marked. -/
theorem columns_of_removeRows {filter : Fragment} {context : Context} {supply supply' : Supply}
    {st : UpdateStatement} (h : removeRows map filter context supply = (.update st, supply')) :
    ∃ flag, map.softDeleteColumn? = some flag ∧ ∀ a ∈ st.set, a.column = flag.name ∨
      ∃ time, map.autoTimestampColumn? = some time ∧ a.column = time.name := by
  cases EntityMap.removesRows_of_removeRows h with
  | marked hflag => exact ⟨_, hflag, List.forall_mem_singleton.mpr (.inl rfl)⟩
  | stamped hflag htime =>
      -- the mark comes first, then the time
      exact ⟨_, hflag, List.forall_mem_cons.mpr
        ⟨.inl rfl, List.forall_mem_singleton.mpr (.inr ⟨_, htime, rfl⟩)⟩⟩

theorem KeepsFrom.follow {set : List Assignment}
    (h : ∀ a ∈ set, ∀ column, map.columns.find? (·.name == a.column) = some column →
      extra column.property) : KeepsFrom Bench.record m extra b (Edit.follow map set) := by
  induction set generalizing b with
  | nil => exact .pure ()
  | cons a rest ih =>
      unfold Edit.follow
      have tail : ∀ b, KeepsFrom Bench.record m extra b (Edit.follow map rest) := fun b =>
        ih (b := b) fun a' ha' => h a' (List.mem_cons_of_mem a ha')
      split
      next column hcolumn =>
        exact .bind (.editAssign (.inr (h a (by simp) column hcolumn))) fun _ b _ _ => tail b
      next => exact tail b

theorem KeepsFrom.editDelete :
    KeepsFrom Bench.record m map.Marks b (Edit.delete map) := by
  unfold Edit.delete
  refine .bind (.of_same rfl) fun r b₁ _ _ => .bind (.editOfExcept _) fun empty b₂ _ _ => ?_
  by_cases hkeyless : empty = true
  · rw [if_pos hkeyless]
    exact .of_same rfl
  · rw [if_neg hkeyless]
    refine .bind (.of_same rfl) fun r b₃ _ _ => .bind (.editOfExcept _) fun filter b₄ _ _ => ?_
    refine .bind (.of_same rfl) fun st b₅ hremove _ => ?_
    have hrows : (removeRows map filter.1 filter.2 b₄.supply).1 = st := by
      injection hremove
    split
    next update =>
      refine .bind (.follow fun a ha column hcolumn => ?_) fun _ _ _ _ => .pure _
      -- the assignments of the statement are followed in memory
      obtain ⟨flag, hflag, names⟩ := columns_of_removeRows (Prod.ext hrows rfl)
      refine ⟨flag, column, hflag, List.mem_of_find?_eq_some hcolumn, rfl, ?_⟩
      have hname : column.name = a.column := by simpa using List.find?_some hcolumn
      rw [hname]
      exact names a ha
    next => exact .pure _

end

namespace Store

variable {σ : Type} {store : Store σ} {s : Session σ Record}

theorem keepsFrom_deleteRecord :
    KeepsFrom Session.subject store.model (store.model.MarkedIn s.subject.type) s
      store.deleteRecord := by
  unfold deleteRecord
  refine .bind (.of_leaves .subject) fun record s₁ hrecord _ => ?_
  obtain ⟨rfl, rfl⟩ := Work.ok_of_subject hrecord
  refine .bind (.of_leaves (.ofExcept _)) fun map s₂ hmapOf _ => ?_
  obtain ⟨hmap, -, -⟩ := Work.ok_of_ofExcept hmapOf
  refine .bind (.mono (.ofEdit .editDelete) fun property hmarks => ⟨map, hmap, hmarks⟩)
    fun st _ _ _ => ?_
  exact .bind (.of_leaves (.executeStatement store _)) fun _ _ _ _ => .of_leaves (.expectOne _ _ _)

/-! ## Transactions -/

theorem leavesSubject_transactionCall {ρ : Type} (call : σ → Answer σ (Except Error Unit))
    (note : Except Error Unit → Call) :
    LeavesSubject (transactionCall call note : Work σ ρ Unit) := by
  intro s
  unfold transactionCall
  simp only
  cases (call s.link).value <;> rfl

/-- The subject of a transaction that is begun is what its body has made of it by its end, well or
not: nothing of that is taken back. -/
theorem subject_transaction {ρ α : Type} (body : Work σ ρ α) {s t : Session σ ρ}
    (h : store.begin s = .ok () t) :
    t.subject = s.subject ∧
      (stateAfter (store.transaction body s)).subject = (stateAfter (body t)).subject := by
  have hbegin := leavesSubject_transactionCall store.connection.begin .begin s
  unfold begin at h
  rw [h] at hbegin
  refine ⟨hbegin, ?_⟩
  unfold transaction begin
  simp only [h]
  cases body t with
  | ok a u =>
      have hcommit := leavesSubject_transactionCall store.connection.commit .commit u
      simp only [commit]
      cases h₃ : transactionCall store.connection.commit .commit u <;>
        (rw [h₃] at hcommit; exact hcommit)
  | error e u =>
      have hrollback := leavesSubject_transactionCall store.connection.rollback .rollback u
      simp only [rollback]
      cases h₃ : transactionCall store.connection.rollback .rollback u <;>
        (rw [h₃] at hrollback; exact hrollback)

/-- A transaction that cannot be begun leaves its subject alone. -/
theorem subject_transaction_of_refused {ρ α : Type} (body : Work σ ρ α) {s t : Session σ ρ}
    {e : Error} (h : store.begin s = .error e t) :
    (stateAfter (store.transaction body s)).subject = s.subject := by
  have hbegin := leavesSubject_transactionCall store.connection.begin .begin s
  unfold begin at h
  rw [h] at hbegin
  unfold transaction begin
  simp only [h]
  exact hbegin

/-- Beginning and ending a transaction does not touch the record. -/
theorem keepsFrom_transaction {α : Type} {m : Model} {extra : String → Prop}
    {body : Work σ Record α}
    (h : ∀ t : Session σ Record, t.subject = s.subject → KeepsFrom Session.subject m extra t body) :
    KeepsFrom Session.subject m extra s (store.transaction body) := by
  unfold KeepsFrom
  cases hbegin : store.begin s with
  | error e t =>
      rw [subject_transaction_of_refused body hbegin]
      exact .refl _
  | ok _ t =>
      obtain ⟨hsubject, hleft⟩ := subject_transaction body hbegin
      rw [hleft, ← hsubject]
      exact h t hsubject

end Store

end GraphStore
