import GraphStore.Proofs.Persist.NewRecords
import GraphStore.Proofs.Persist.SentRows
import GraphStore.Proofs.Persist.Transactions

/-!
# Failed writes

A write that fails is undone in the database and not in memory: it leaves the graph as its work had
made it by then (`Write.Fails`), every record with the keys, times and marks that were sent for it
(`SentRow.ShownIn`). A record that was given its key therefore counts as stored when the write is
tried again, although its row was never kept (`error_of_write`).
-/

set_option autoImplicit false

namespace GraphStore

/-- The writes of a graph. -/
inductive Write where
  | insert (forced : Bool)
  | update (includes : List String)
  | updateFields (fields : List String)
  | delete

/-- Performs a write in a transaction of its own. -/
def Store.write {σ : Type} (store : Store σ) : Write → Work σ Record Unit
  | .insert forced => store.insert forced
  | .update includes => store.update includes
  | .updateFields fields => store.updateFields fields
  | .delete => store.delete

/-- The same as a part of a transaction. -/
def Store.work {σ : Type} (store : Store σ) : Write → Work σ Record Unit
  | .insert forced => store.insertRecord forced
  | .update includes => store.updateRecord includes none
  | .updateFields fields => store.updateRecord [] (some fields)
  | .delete => store.deleteRecord

/-! ## What a write may assign -/

namespace Write

/-- The fields of the root that a deletion may mark. -/
def Marks (w : Write) (m : Model) (root : Record) (property : String) : Prop :=
  w = .delete ∧ m.MarkedIn root.type property

/-- The fields that a write may assign to the record at a place: on the account of the record
itself or of its owner, or as the mark of a deletion. -/
def MayAssign (w : Write) (m : Model) (root : Record) (place : Place) (record : Record)
    (property : String) : Prop :=
  m.Assigns record property ∨ Keeps.givenAt m (w.Marks m root) root place property

end Write

/-- The fields of the record at a place that keys are copied into: the local keys of its
references, and the foreign keys of a collection that it is an item of. -/
def Model.CopiesInto (m : Model) (root : Record) (place : Place) (record : Record)
    (property : String) : Prop :=
  (∃ map r child, m.entityMap record.type = .ok map ∧ r ∈ map.relationsOf .manyToOne ∧
    r.localKey = property ∧ record.reference? r.property = some child) ∨
  ∃ front slot i owner, place = front ++ [(slot, i)] ∧ root.at? front = some owner ∧
    m.GivesKey owner slot property

variable {m : Model} {w : Write} {root record : Record} {place : Place} {map : EntityMap}

/-- The mark of deletion is assigned by the deletion of the record, or because a key is copied
into it. -/
theorem Write.MayAssign.softDelete (h : m.entityMap record.type = .ok map) {flag : ColumnDef}
    (hflag : map.softDeleteColumn? = some flag)
    (hassign : w.MayAssign m root place record flag.property) :
    (w = .delete ∧ place = []) ∨ m.CopiesInto root place record flag.property := by
  have hderived := Model.derived_of_entityMap h
  rcases hassign with hown | ⟨rfl, hmark⟩ | hgiven
  · cases hown with
    | generatedKey hmap hcolumn hproperty =>
        rw [h] at hmap
        cases hmap
        exact absurd hproperty (hderived.softDelete_ne hflag (.inl hcolumn))
    | timestamp hmap hcolumn hproperty =>
        rw [h] at hmap
        cases hmap
        exact absurd hproperty (hderived.softDelete_ne hflag (.inr hcolumn))
    | localKey hmap hr hproperty hchild =>
        exact .inr (.inl ⟨_, _, _, hmap, hr, hproperty, hchild⟩)
  · exact .inl ⟨hmark.1, rfl⟩
  · exact .inr (.inr hgiven)

/-- What a failed write leaves of the record at a place. -/
structure Write.LeavesRecord (w : Write) (m : Model) (root : Record) (place : Place)
    (record record' : Record) : Prop where
  shape : Record.SameShape record record'
  field : ∀ property, record'.field? property ≠ record.field? property →
    w.MayAssign m root place record property
  /-- The key is as empty as it was unless one of its columns was assigned. -/
  key : ∀ map, m.entityMap record.type = .ok map →
    map.hasEmptyKey record' = map.hasEmptyKey record ∨
    ∃ c ∈ map.keyColumns, record'.field? c.property ≠ record.field? c.property ∧
      w.MayAssign m root place record c.property
  /-- The mark of deletion is as it was unless this is the record to be deleted, or a key was
  copied into the mark. -/
  mark : ∀ map flag, m.entityMap record.type = .ok map → map.softDeleteColumn? = some flag →
    record'.field? flag.property = record.field? flag.property ∨
    (w = .delete ∧ place = []) ∨ m.CopiesInto root place record flag.property

theorem Write.LeavesRecord.of_assigned {record' : Record} (hshape : Record.SameShape record record')
    (hassigned : ∀ property, record'.field? property ≠ record.field? property →
      w.MayAssign m root place record property) : w.LeavesRecord m root place record record' where
  shape := hshape
  field := hassigned
  key map hmap := by
    by_cases same : ∀ c ∈ map.keyColumns, record'.field? c.property = record.field? c.property
    · exact .inl (EntityMap.hasEmptyKey_eq_of_keys same)
    · simp only [not_forall] at same
      obtain ⟨c, hc, hchanged⟩ := same
      exact .inr ⟨c, hc, hchanged, hassigned c.property hchanged⟩
  mark map flag hmap hflag := by
    by_cases same : record'.field? flag.property = record.field? flag.property
    · exact .inl same
    · exact .inr ((hassigned flag.property same).softDelete hmap hflag)

/-! ## How a write fails -/

/-- How a write fails, and what it leaves. No transaction was begun, and nothing has changed; or one
was, and it is closed for this error. Then the graph is what the work had made of it by then, and
the calls between the start and the end of the transaction are those for the rows. -/
inductive Write.Fails {σ : Type} (w : Write) (store : Store σ) (s : Session σ Record) (e : Error)
    (s' : Session σ Record) (rows : List SentRow) : Prop where
  | refused (hrows : rows = []) (hcalls : s'.calls = s.calls ++ [.begin (.error e)])
      (hleft : s'.subject = s.subject) : Fails w store s e s' rows
  | begun {t : Session σ Record} {last : Call} (hbegin : store.begin s = .ok () t)
      (hstart : t.subject = s.subject)
      (hcloses : Closes (outcome (store.work w t)) last (.error e))
      (hcalls : s'.calls =
        s.calls ++ .begin (.ok ()) :: rows.flatMap (·.calls) ++ [last])
      (hleft : s'.subject = (stateAfter (store.work w t)).subject) : Fails w store s e s' rows

namespace Store

variable {σ τ : Type} {store : Store σ} {s s' : Session σ Record} {e : Error}

theorem write_eq_transaction (store : Store σ) (w : Write) :
    store.write w = store.transaction (store.work w) := by
  cases w <;> rfl

/-- However a write ends, the records of the graph show what was sent for them. -/
theorem accounts_work (store : Store σ) (w : Write) (s : Session σ Record) :
    Did s (store.work w) fun final calls => store.Accounts final calls := by
  cases w with
  | insert forced => exact accounts_insertRecord store forced s
  | update includes => exact accounts_updateRecord store includes none s
  | updateFields fields => exact accounts_updateRecord store [] (some fields) s
  | delete => exact accounts_deleteRecord store s

theorem fails_of_error (h : store.write w s = .error e s') :
    ∃ rows, w.Fails store s e s' rows ∧ ∀ x ∈ rows, x.ShownIn store s'.subject := by
  rw [write_eq_transaction] at h
  cases hbegin : (store.connection.begin s.link).value with
  | error e' =>
      obtain ⟨houtcome, hcalls⟩ := store.transaction_of_refused (store.work w) hbegin
      obtain ⟨t, hrefused⟩ : ∃ t, store.begin s = .error e' t := by
        unfold begin transactionCall
        simp only [hbegin]
        exact ⟨_, rfl⟩
      have hleft := subject_transaction_of_refused (store.work w) hrefused
      rw [h] at houtcome hcalls hleft
      cases houtcome
      exact ⟨[], .refused rfl hcalls hleft, List.forall_mem_nil _⟩
  | ok _ =>
      obtain ⟨t, begun, -, -, -, ht⟩ := store.begin_of_ok hbegin
      obtain ⟨hstart, hleft⟩ := subject_transaction (store.work w) begun
      obtain ⟨last, hcloses, hcalls⟩ := store.closes_transaction (store.work w) begun
      obtain ⟨_, hmade, rows, rfl, hrows⟩ := accounts_work store w t
      rw [h] at hcloses hcalls hleft
      refine ⟨rows, .begun begun hstart hcloses ?_ hleft, fun x hx => ?_⟩
      · rw [stateAfter, hmade, ht] at hcalls
        simpa using hcalls
      · rw [show s'.subject = _ from hleft]
        exact hrows x hx

/-- A write keeps the graph, however it ends. -/
theorem keeps_write (s : Session σ Record) :
    Keeps store.model (w.Marks store.model s.subject) s.subject
      (stateAfter (store.write w s)).subject := by
  cases w with
  | insert forced =>
      exact keepsFrom_transaction fun t _ => keepsAll_insertRecord store forced t _
  | update includes =>
      exact keepsFrom_transaction fun t _ => keepsAll_updateRecord store includes none t _
  | updateFields fields =>
      exact keepsFrom_transaction fun t _ => keepsAll_updateRecord store [] (some fields) t _
  | delete =>
      -- only a deletion assigns more than every write may: the marks
      refine keepsFrom_transaction fun t ht => .mono keepsFrom_deleteRecord fun property hmark => ?_
      rw [ht] at hmark
      exact ⟨rfl, hmark⟩

end Store

/-! ## Records that count as stored -/

/-- The insert binds a value to every key column, and none of these values is empty. -/
def EntityMap.BindsKey (map : EntityMap) (st : InsertStatement) : Prop :=
  map.keys.isEmpty = false ∧ st.generatedKey = none ∧
    ∀ c ∈ map.keyColumns, ∀ a ∈ st.values, a.column = c.name → a.param.value.isEmptyKey = false

namespace Model

/-- A record in the slot of a relation has the type that the relation leads to. -/
def SuitsPlace (m : Model) (root : Record) (place : Place) (record : Record) : Prop :=
  ∀ front i owner map r, place = front ++ [(r.property, i)] → root.at? front = some owner →
    m.entityMap owner.type = .ok map → r ∈ map.relations → record.type = r.target

/-- The record at the place counts as stored: it has a key that is not empty. -/
def StoredAt (m : Model) (root : Record) (place : Place) : Prop :=
  ∃ record map, root.at? place = some record ∧ m.SuitsPlace root place record ∧
    m.entityMap record.type = .ok map ∧ map.hasEmptyKey record = .ok false

variable {m : Model} {start final : Record} {place : Place}

/-- A record that was inserted with a key counts as stored. -/
theorem Describes.hasEmptyKey {st : InsertStatement} {record : Record} {map : EntityMap}
    (h : m.Describes st record) (hmap : m.entityMap record.type = .ok map)
    (hbinds : map.BindsKey st) : map.hasEmptyKey record = .ok false := by
  obtain ⟨hkeyed, hgenerated, hbound⟩ := hbinds
  obtain ⟨map', hmap', -, hvalues⟩ := h
  rw [hmap] at hmap'
  cases hmap'
  refine EntityMap.hasEmptyKey_eq_false.mpr ⟨hkeyed, fun c hc => ?_⟩
  -- no column is left out, so the key column is among those that are bound
  have pair : (c.name, record.field? c.property) ∈
      st.values.map fun a => (a.column, some a.param.value) := by
    rw [hvalues, hgenerated]
    refine List.mem_map_of_mem (f := fun c : ColumnDef => (c.name, record.field? c.property)) ?_
    simpa using ((Model.derived_of_entityMap hmap).mem_keyColumns.mp hc).1
  obtain ⟨a, ha, equal⟩ := List.mem_map.mp pair
  obtain ⟨hname, hvalue⟩ := Prod.mk.inj equal
  exact ⟨a.param.value, hvalue.symm, hbound c hc a ha hname⟩

/-- A record below the root is inserted only if a key is empty in it, by the map of the relation
that it is in. -/
theorem hasEmptyKey_of_inserts {forced : Bool} {given : Record} (hplace : place ≠ [])
    (h : m.inserts place forced given final = .ok true) :
    ∃ front i owner map r record target, place = front ++ [(r.property, i)] ∧
      given.at? front = some owner ∧ m.entityMap owner.type = .ok map ∧ r ∈ map.relations ∧
      given.at? place = some record ∧ m.target r = .ok target ∧
      target.hasEmptyKey record = .ok true := by
  induction place generalizing forced given final with
  | nil => exact absurd rfl hplace
  | cons step rest ih =>
      obtain ⟨slot, i⟩ := step
      obtain ⟨map, r, child, child', given', hmap, hr, hchild, -, ⟨target, htarget, hnew⟩, htype,
        hslots, hrest, -⟩ := exists_of_inserts_cons h
      obtain ⟨hmem, rfl⟩ := (derived_of_entityMap hmap).relation?_eq_some.mp hr
      have item := RelationDef.items_of_related hchild
      have below (place : Place) : given.at? ((r.property, i) :: place) = child.at? place := by
        rw [Record.at?_cons, item, Option.bind_some]
      cases rest with
      | nil =>
          exact ⟨[], i, given, map, r, child, target, rfl, rfl, hmap, hmem, below [], htarget,
            hnew⟩
      | cons step' rest' =>
          obtain ⟨front, j, owner, map', r', record, target', hplace', howner, hmap', hmem',
            hrecord, htarget', hnew'⟩ := ih (List.cons_ne_nil _ _) hrest
          -- the item was worked on with a key assigned, below which nothing is different
          obtain ⟨owner₀, howner₀, htype₀, -⟩ := Record.at?_of_slots htype hslots howner
          obtain ⟨slot', k⟩ := step'
          rw [Record.at?_congr (Record.slot?_congr hslots slot')] at hrecord
          refine ⟨(r.property, i) :: front, j, owner₀, map', r', record, target', ?_, ?_,
            htype₀ ▸ hmap', hmem', (below _).trans hrecord, htarget', hnew'⟩
          · rw [hplace', List.cons_append]
          · rw [below, howner₀]

/-- What counts as stored is not inserted, wherever it is. -/
theorem not_storedAt_of_mem {issued : IssuedInserts} (h : Cascaded m false start final issued)
    (hplace : place ∈ issued.places) : ¬ m.StoredAt start place := by
  rintro ⟨record, map, hrecord, hsuits, hmap, hstored⟩
  have inserted := h.decided place
  rw [decide_eq_true hplace] at inserted
  by_cases hroot : place = []
  · subst hroot
    cases hrecord
    rw [inserts_nil hmap] at inserted
    rcases (chosen_iff inserted).mp rfl with impossible | ⟨hkeyless | hempty, -⟩
    · cases impossible
    · rw [(EntityMap.hasEmptyKey_eq_false.mp hstored).1] at hkeyless
      cases hkeyless
    · rw [hstored] at hempty
      cases hempty
  · obtain ⟨front, i, owner, map', r, record', target, hplace', howner, hmap', hmem, hrecord',
      htarget, hempty⟩ := hasEmptyKey_of_inserts hroot inserted
    rw [hrecord] at hrecord'
    cases hrecord'
    have htype := hsuits front i owner map' r hplace' howner hmap' hmem
    rw [htype, show m.entityMap r.target = .ok target from htarget] at hmap
    cases hmap
    rw [hstored] at hempty
    cases hempty

end Model

/-! ## Trying again -/

namespace Store

variable {σ τ : Type} {store : Store σ}

theorem isStored_of_hasKey {map : EntityMap} {s : Session σ Record}
    (h : map.hasEmptyKey s.subject = .ok false) :
    isStored map s = .ok true { s with journal := s.journal ++ journalOf (.ok false) } := by
  have hkeys := (EntityMap.hasEmptyKey_eq_false.mp h).1
  unfold isStored
  rw [if_neg (by simp [hkeys])]
  refine (bind_of_ok (t := s) rfl).trans ?_
  rw [h]
  rfl

/-- A stored record is left alone without a call. -/
theorem insertLevels_of_stored {map : EntityMap} {s : Session σ Record} (levels : Nat)
    (hmap : store.model.entityMap s.subject.type = .ok map)
    (hstored : map.hasEmptyKey s.subject = .ok false) :
    ∃ s', store.insertLevels (levels + 1) false s = .ok () s' ∧ s'.subject = s.subject ∧
      s'.calls = s.calls ∧ s'.link = s.link := by
  let t : Session σ Record := { s with journal := s.journal ++ journalOf (.ok map) }
  have hmapOf : store.mapOf s.subject.type s = .ok map t := by
    unfold mapOf
    rw [hmap]
    rfl
  have hcheck := isStored_of_hasKey (s := t) hstored
  refine ⟨{ t with journal := t.journal ++ journalOf (.ok false : Except Error Bool) }, ?_, rfl,
    rfl, rfl⟩
  exact (bind_of_ok (t := s) rfl).trans ((bind_of_ok hmapOf).trans ((bind_of_ok hcheck).trans rfl))

theorem insertRecord_of_stored {map : EntityMap} {s : Session σ Record}
    (hmap : store.model.entityMap s.subject.type = .ok map)
    (hstored : map.hasEmptyKey s.subject = .ok false) :
    ∃ s', store.insertRecord false s = .ok () s' ∧ s'.subject = s.subject ∧
      s'.calls = s.calls ∧ s'.link = s.link := by
  -- the levels of a run are the height of the graph, which is never zero
  obtain ⟨levels, hlevels⟩ : ∃ levels, s.subject.height = levels + 1 := by
    cases s.subject
    exact ⟨_, rfl⟩
  obtain ⟨s', hs', kept⟩ := insertLevels_of_stored levels hmap hstored
  refine ⟨s', ?_, kept⟩
  refine (bind_of_ok (t := s) rfl).trans ?_
  rw [hlevels]
  exact hs'

/-- The insertion of a graph that is tried again after the rows have been sent for it. -/
structure Reinserts (store : Store σ) (s : Session σ Record) (sent : List SentRow) : Prop where
  /-- A record whose row was sent with its key counts as stored. -/
  keyed : ∀ x ∈ sent, ∀ st record map, x.statement = .insertion st →
    s.subject.at? x.place = some record → store.model.SuitsPlace s.subject x.place record →
    store.model.entityMap record.type = .ok map → map.BindsKey st →
    store.model.StoredAt s.subject x.place
  /-- An insertion that ends well inserts the records that are new and stay so, and none that counts
  as stored. -/
  inserts : ∀ s', store.insert false s = .ok () s' →
    ∃ (issued : IssuedInserts) (calls : List Call),
      RanQueries (s.calls ++ [.begin (.ok ())]) calls (issued.queries store) ∧
      s'.calls = calls ++ [.commit (.ok ())] ∧
      InsertsNew store.model false s.subject s'.subject issued ∧
      ∀ place ∈ issued.places, ¬ store.model.StoredAt s.subject place
  /-- A root with a key is not inserted: a connection that works is not asked for anything. -/
  stored : ∀ map, store.model.entityMap s.subject.type = .ok map →
    map.hasEmptyKey s.subject = .ok false →
    (store.connection.begin s.link).value = .ok () →
    (store.connection.commit (store.connection.begin s.link).state).value = .ok () →
    ∃ s', store.insert false s = .ok () s' ∧ s'.subject = s.subject ∧
      s'.calls = s.calls ++ [.begin (.ok ()), .commit (.ok ())]

/-- The connection that the rows were sent on may be another one. -/
theorem reinserts (first : Store τ) {s : Session σ Record} {sent : List SentRow}
    (hmodel : first.model = store.model) (hsent : ∀ x ∈ sent, x.ShownIn first s.subject) :
    store.Reinserts s sent where
  keyed x hx st record map hst hrecord hsuits hmap hbinds := by
    obtain ⟨record', hrecord', shows⟩ := hsent x hx
    rw [hrecord] at hrecord'
    cases hrecord'
    rw [hst] at shows
    cases shows with
    | inserted hvalues =>
        rw [hmodel] at hvalues
        exact ⟨record, map, hrecord, hsuits, hmap, hvalues.hasEmptyKey hmap hbinds⟩
  inserts s' h := by
    obtain ⟨t, u, ht, hcalls, hbody, hsubject, hcalls'⟩ := ok_of_transaction h
    obtain ⟨record, t₁, hrecord, hlevels⟩ := ends_of_bind hbody
    obtain ⟨rfl, rfl⟩ := Work.ok_of_subject hrecord
    obtain ⟨issued, cascaded, ran⟩ := inserting_insertLevels store _ _ _ _ hlevels
    rw [ht, ← hsubject] at cascaded
    rw [hcalls] at ran
    exact ⟨issued, u.calls, ran, hcalls', cascaded.insertsNew,
      fun place hplace => Model.not_storedAt_of_mem cascaded hplace⟩
  stored map hmap hstored hbegin hcommit :=
    transaction_of_ok hbegin hcommit fun t ht => by
      rw [← ht] at hmap hstored
      exact insertRecord_of_stored hmap hstored

/-- **A failed write leaves what it had assigned, and nothing else.** The graph is as the work had
made it when it failed: for every statement that was sent there is the record, at its place, and
shows what the statement assigns and the key that was handed back. There are records at the same
places as before, and each is as it was but for what the write may have assigned to it. When the
insertion of the graph is tried again, on any connection, the records that still count as new are
inserted. Those whose rows were sent with their keys are not among them, and if the root does not
count as new, nothing is inserted. -/
theorem error_of_write {s s' : Session σ Record} {e : Error} (h : store.write w s = .error e s') :
    ∃ sent : List SentRow, w.Fails store s e s' sent ∧
      (∀ x ∈ sent, x.ShownIn store s'.subject) ∧
      (∀ place, (s'.subject.at? place).isSome = (s.subject.at? place).isSome) ∧
      (∀ place record, s.subject.at? place = some record →
        ∃ record', s'.subject.at? place = some record' ∧
          w.LeavesRecord store.model s.subject place record record') ∧
      ∀ {τ : Type} (again : Connection τ) (t : Session τ Record), t.subject = s'.subject →
        Reinserts ⟨store.model, again⟩ t sent := by
  obtain ⟨sent, fails, shown⟩ := fails_of_error h
  have kept : Keeps store.model (w.Marks store.model s.subject) s.subject
      (stateAfter (store.write w s)).subject := keeps_write s
  rw [h] at kept
  refine ⟨sent, fails, shown, kept.isSome_at?, fun place record hrecord => ?_,
    fun again t ht => reinserts store rfl (ht ▸ shown)⟩
  obtain ⟨record', hrecord', hkept⟩ := kept.at? hrecord
  -- what is kept at a place is kept of the record itself
  have assigned : ∀ property, record'.field? property ≠ record.field? property →
      w.MayAssign store.model s.subject place record property := fun _ => hkept.assigned
  exact ⟨record', hrecord', .of_assigned hkept.sameShape assigned⟩

/-- A new book whose row is refused keeps the identifier that was sent for it. The insertion is
tried again on the same connection, which is not asked for anything then. -/
theorem error_of_write_refused :
    let id : Value := .uuid (some (NumberedSupply.uuid 0).markRandom)
    ∃ e s' sent, Sample.store.write (.insert false) Sample.refused = .error e s' ∧
      Write.Fails (.insert false) Sample.store Sample.refused e s' sent ∧
      (∀ x ∈ sent, x.ShownIn Sample.store s'.subject) ∧
      (s'.calls.filterMap Call.query?).map (·.params) = [[⟨"id_0", id⟩,
        ⟨"title_1", .varchar (some "Ode")⟩, ⟨"author_id_2", .int32 none⟩,
        ⟨"deleted_3", .boolean (some false)⟩]] ∧
      Sample.newBook.field? "id" = some (.uuid (some .nil)) ∧
      s'.subject.field? "id" = some id ∧
      Write.LeavesRecord (.insert false) Sample.store.model Sample.newBook [] Sample.newBook
        s'.subject ∧
      ∃ t', Sample.store.insert false s' = .ok () t' ∧ t'.subject = s'.subject ∧
        t'.calls = s'.calls ++ [.begin (.ok ()), .commit (.ok ())] := by
  intro id
  obtain ⟨e, failed⟩ := error_of_not_endedWell
    (Sample.store.write (.insert false) Sample.refused) (by decide +kernel)
  obtain ⟨sent, fails, shown, -, records, again⟩ := error_of_write failed
  obtain ⟨record', hrecord', leaves⟩ := records [] Sample.newBook rfl
  cases hrecord'
  refine ⟨e, _, sent, failed, fails, shown, by decide +kernel, by decide +kernel,
    by decide +kernel, leaves, ?_⟩
  exact (again Sample.store.connection _ rfl).stored _ rfl (by decide +kernel) rfl rfl

/-- The book keeps the identifier that it was given before its row was refused, and the second
insertion ends well without a query. -/
theorem insert_refused_again :
    ∃ e s' t' map, Sample.store.insert false Sample.refused = .error e s' ∧
      Sample.store.model.entityMap Sample.newBook.type = .ok map ∧
      map.hasEmptyKey Sample.newBook = .ok true ∧ map.hasEmptyKey s'.subject = .ok false ∧
      Sample.store.insert false s' = .ok () t' ∧
      t'.calls.filterMap Call.query? = s'.calls.filterMap Call.query? := by
  obtain ⟨e, failed⟩ := error_of_not_endedWell (Sample.store.insert false Sample.refused)
    (by decide +kernel)
  have again := ok_of_endedWell
    (Sample.store.insert false (stateAfter (Sample.store.insert false Sample.refused)))
    (by decide +kernel)
  exact ⟨e, _, _, _, failed, rfl, by decide +kernel, by decide +kernel, again, by decide +kernel⟩

end Store

end GraphStore
