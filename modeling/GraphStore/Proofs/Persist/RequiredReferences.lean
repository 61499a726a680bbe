import GraphStore.Proofs.Persist.NewRecords
import GraphStore.Proofs.Persist.StoredKeys

/-!
# Required references

Before the row of a record is inserted, its references are worked on one by one. The key of a
record in a slot is copied, whatever it is; when nothing is in the slot of a required reference,
its local key must have been set otherwise. So the local key of a required reference is not empty
when the row is inserted, unless an empty value was copied into it (`Model.Supplied`), and a record
that lacks it is not inserted at all.
-/

set_option autoImplicit false

namespace GraphStore

variable {σ : Type}

namespace Model

/-- The reference is set, but the column that it refers to is empty in the record of its slot, or
becomes so as a local key. -/
def CopiesEmpty (m : Model) (record : Record) (r : RelationDef) : Prop :=
  ∃ child target key type v, record.reference? r.property = some child ∧
    m.target r = .ok target ∧ target.read child r.foreignKey = .ok key ∧
    record.fieldType? r.localKey = some type ∧ type.convert key = .ok v ∧ v.isEmptyKey = true

/-- The local key is not empty, unless a reference that has it copies an empty value into it. -/
def Supplied (m : Model) (map : EntityMap) (record : Record) (localKey : String) : Prop :=
  ∃ v, record.field? localKey = some v ∧ (v.isEmptyKey = true →
    ∃ r ∈ map.relationsOf .manyToOne, r.localKey = localKey ∧ m.CopiesEmpty record r)

/-- The local key is empty, and no reference that has it is set. -/
def Lacks (map : EntityMap) (record : Record) (localKey : String) : Prop :=
  (∀ v, record.field? localKey = some v → v.isEmptyKey = true) ∧
    ∀ r ∈ map.relationsOf .manyToOne, r.localKey = localKey →
      record.reference? r.property = none

variable {m : Model} {map : EntityMap} {record record' : Record} {r : RelationDef}
  {localKey : String}

theorem CopiesEmpty.congr (h : m.CopiesEmpty record r)
    (hslot : record'.slot? r.property = record.slot? r.property)
    (htype : record'.fieldType? r.localKey = record.fieldType? r.localKey) :
    m.CopiesEmpty record' r := by
  obtain ⟨child, target, key, type, v, hchild, htarget, hread, ht, hv, hempty⟩ := h
  exact ⟨child, target, key, type, v, (Record.reference?_congr hslot).trans hchild, htarget, hread,
    htype.trans ht, hv, hempty⟩

theorem Supplied.of_nonempty {v : Value} (hfield : record.field? localKey = some v)
    (h : v.isEmptyKey = false) : m.Supplied map record localKey :=
  ⟨v, hfield, fun hempty => absurd hempty (Bool.eq_false_iff.mp h)⟩

/-- It does not matter what else is changed in the record, if the references that are set and have
the local key keep their slots. -/
theorem Supplied.congr (h : m.Supplied map record localKey)
    (hfield : record'.field? localKey = record.field? localKey)
    (htype : record'.fieldType? localKey = record.fieldType? localKey)
    (hslots : ∀ r ∈ map.relationsOf .manyToOne, r.localKey = localKey → m.CopiesEmpty record r →
      record'.slot? r.property = record.slot? r.property) : m.Supplied map record' localKey := by
  obtain ⟨v, hv, hcopied⟩ := h
  refine ⟨v, hfield.trans hv, fun hempty => ?_⟩
  obtain ⟨r, hr, rfl, hcopies⟩ := hcopied hempty
  exact ⟨r, hr, rfl, hcopies.congr (hslots r hr rfl hcopies) htype⟩

/-- An identifier or a time that is assigned is not empty. -/
theorem Supplied.of_setField {property : String} {v : Value} (h : m.Supplied map record localKey)
    (hassign : record.setField property v = .ok record')
    (hv : (∃ u, v = .uuid (some u)) ∨ ∃ x, v = .timestamp (some x))
    (hnonempty : v.isEmptyKey = false) : m.Supplied map record' localKey := by
  by_cases hproperty : localKey = property
  · subst hproperty
    exact .of_nonempty (Record.field?_of_setField_same hv hassign) hnonempty
  · exact h.congr (Record.field?_of_setField hassign hproperty)
      (Record.fieldType?_of_setField hassign localKey)
      fun r _ _ _ => Record.slot?_congr (Record.slots_of_setField hassign) r.property

/-- Making the statement for a record generates fields only, which empties none. -/
theorem Supplied.of_insert {forced : Bool} {b b' : Bench} {st : InsertStatement}
    (h : m.Supplied map b.record localKey)
    (hinsert : Edit.insert map forced b = .ok (some st) b') :
    m.Supplied map b'.record localKey := by
  obtain ⟨-, b₁, stamped, context, hkey, hstamp, -, -⟩ := Edit.steps_of_insert_some hinsert
  generalize st.generatedKey = key at hkey
  have provided : m.Supplied map b₁.record localKey := by
    cases Edit.providesKey_of_provideKey hkey with
    | drawn hcolumn hassign => exact h.of_setField hassign (.inl ⟨_, rfl⟩) (Uuid.isNil_markRandom _)
    | _ => exact h
  cases Edit.stamps_of_stamp hstamp with
  | without hcolumn => exact provided
  | stamped hcolumn hassign => exact provided.of_setField hassign (.inr ⟨_, rfl⟩) rfl

/-! ### The work on one reference -/

/-- The work on a reference that is not set, which may change its slot only. -/
theorem Supplied.of_unset (h : m.Supplied map record localKey)
    (hunset : record.reference? r.property = none) (hfields : record'.fields = record.fields)
    (others : ∀ r' ∈ map.relationsOf .manyToOne, r' ≠ r →
      record'.slot? r'.property = record.slot? r'.property) : m.Supplied map record' localKey := by
  refine h.congr (Record.field?_congr hfields localKey)
    (by rw [Record.fieldType?, Record.fieldType?, hfields]) fun r' hr' _ hcopies => ?_
  refine others r' hr' ?_
  rintro rfl
  obtain ⟨child, -, -, -, -, hset, -⟩ := hcopies
  rw [hunset] at hset
  cases hset

/-- The work on a reference that is set, whose key is copied. -/
theorem supplied_of_copied {child copied : Record} {target : EntityMap} {key : Value}
    (hr : r ∈ map.relationsOf .manyToOne) (hchild : record'.reference? r.property = some child)
    (htarget : m.target r = .ok target) (hkey : target.read child r.foreignKey = .ok key)
    (hassign : record.setField r.localKey key = .ok copied)
    (hfields : copied.fields = record'.fields)
    (others : ∀ r' ∈ map.relationsOf .manyToOne, r' ≠ r →
      record'.slot? r'.property = record.slot? r'.property) :
    m.Supplied map record' r.localKey ∧
      ∀ localKey, m.Supplied map record localKey → m.Supplied map record' localKey := by
  obtain ⟨type, v, htype, hv, hfield⟩ := Record.exists_field?_of_setField hassign
  have types : ∀ p, record'.fieldType? p = record.fieldType? p := by
    intro p
    rw [← Record.fieldType?_of_setField hassign, Record.fieldType?, Record.fieldType?, hfields]
  have here : m.Supplied map record' r.localKey := by
    refine ⟨v, (Record.field?_congr hfields.symm _).trans hfield, fun hempty => ?_⟩
    exact ⟨r, hr, rfl, child, target, key, type, v, hchild, htarget, hkey, (types _).trans htype,
      hv, hempty⟩
  refine ⟨here, fun localKey hsupplied => ?_⟩
  by_cases hlocal : localKey = r.localKey
  · exact hlocal ▸ here
  · -- another local key is not assigned, and is that of other references
    have same : record'.field? localKey = record.field? localKey :=
      (Record.field?_congr hfields.symm localKey).trans (Record.field?_of_setField hassign hlocal)
    refine hsupplied.congr same (types localKey) fun r' hr' hlocal' _ => others r' hr' ?_
    rintro rfl
    exact hlocal hlocal'.symm

end Model

/-! ## The references of a record -/

namespace Store

variable {store : Store σ} {map : EntityMap} {r : RelationDef} {rs : List RelationDef}
  {cascade : Work σ Record Unit} {s s' : Session σ Record}

/-- A required reference that is not set passes the check only with a local key. -/
theorem exists_localKey_of_insertReference (hrequired : r.nullable = false)
    (habsent : s.subject.reference? r.property = none)
    (h : store.insertReference cascade map r s = .ok () s') :
    ∃ v, s.subject.field? r.localKey = some v ∧ v.isEmptyKey = false := by
  unfold insertReference at h
  obtain ⟨target, s₁, htargetOf, h₁⟩ := ends_of_bind h
  obtain ⟨-, hsubject₁, -⟩ := ok_of_targetOf htargetOf
  obtain ⟨record, s₂, hrecord, h₂⟩ := ends_of_bind h₁
  obtain ⟨rfl, rfl⟩ := Work.ok_of_subject hrecord
  rw [← hsubject₁] at habsent ⊢
  simp only [habsent, hrequired, Bool.false_eq_true, if_false] at h₂
  obtain ⟨record, s₃, hrecord, h₃⟩ := ends_of_bind h₂
  obtain ⟨rfl, rfl⟩ := Work.ok_of_subject hrecord
  obtain ⟨key, s₄, hread, h₄⟩ := ends_of_bind h₃
  obtain ⟨hkey, -, -⟩ := Work.ok_of_ofExcept hread
  refine ⟨key, EntityMap.read_eq_ok hkey, Bool.eq_false_iff.mpr fun hempty => ?_⟩
  -- with an empty key the work would have failed
  rw [hempty] at h₄
  exact Work.not_ok_reportedFailure h₄

/-- The work on one reference copies its key if it is set, and changes no other slot. -/
theorem copied_of_insertReference {levels : Nat} (hr : r ∈ map.relationsOf .manyToOne)
    (h : store.insertReference (store.insertLevels levels false) map r s = .ok () s') :
    (∃ completed, store.model.withReferenceKeys s'.subject [r] s.subject = .ok completed ∧
      completed.fields = s'.subject.fields) ∧
    ∀ q, q ≠ r.property → s'.subject.slot? q = s.subject.slot? q := by
  obtain ⟨_, hbelow, copied, -⟩ :
      ∃ issued, BelowRelations store.model map s.subject [r] s.subject s'.subject issued ∧ _ ∧ _ :=
    ok_of_insertReference (inserting_insertLevels store levels false)
      (kind_of_mem_relationsOf hr) h
  exact ⟨copied, fun q hq => hbelow.slot_eq q fun hmem => hq (List.mem_singleton.mp hmem)⟩

/-- The work on one reference supplies its local key if it is required, and takes away none. -/
theorem supplied_of_insertReference {levels : Nat}
    (hmap : store.model.entityMap s.subject.type = .ok map) (hr : r ∈ map.relationsOf .manyToOne)
    (h : store.insertReference (store.insertLevels levels false) map r s = .ok () s') :
    (r.nullable = false → store.model.Supplied map s'.subject r.localKey) ∧
      ∀ localKey, store.model.Supplied map s.subject localKey →
        store.model.Supplied map s'.subject localKey := by
  have hderived := Model.derived_of_entityMap hmap
  have kept : Keeps store.model (fun _ => False) s.subject s'.subject :=
    (keepsFrom_insertReference (keepsAll_insertLevels store levels false) hmap hr).of_ok h
  obtain ⟨⟨completed, hcompleted, hfields⟩, slots⟩ := copied_of_insertReference hr h
  have others : ∀ r' ∈ map.relationsOf .manyToOne, r' ≠ r →
      s'.subject.slot? r'.property = s.subject.slot? r'.property := fun r' hr' apart =>
    slots _ fun same =>
      apart (List.inj_on_of_nodup_map (nodup_relationsOf hderived .manyToOne) hr' hr same)
  cases hchild : s'.subject.reference? r.property with
  | none =>
      simp only [Model.withReferenceKeys, hchild] at hcompleted
      cases hcompleted
      have hunset := (kept.sameShape.reference?_eq_none r.property).mp hchild
      refine ⟨fun hrequired => ?_, fun localKey hsupplied => ?_⟩
      · obtain ⟨v, hv, hnonempty⟩ := exists_localKey_of_insertReference hrequired hunset h
        exact (Model.Supplied.of_nonempty hv hnonempty).of_unset hunset hfields.symm others
      · exact hsupplied.of_unset hunset hfields.symm others
  | some child =>
      simp only [Model.withReferenceKeys, hchild] at hcompleted
      obtain ⟨target, htarget, h₁⟩ := ok_of_bind hcompleted
      obtain ⟨key, hkey, h₂⟩ := ok_of_bind h₁
      obtain ⟨copied, hassign, h₃⟩ := ok_of_bind h₂
      cases h₃
      obtain ⟨here, stays⟩ :=
        Model.supplied_of_copied hr hchild htarget hkey hassign hfields others
      exact ⟨fun _ => here, stays⟩

/-- When all references have been worked on, the local keys of those that are required are
supplied. -/
theorem supplied_of_insertReferences {levels : Nat}
    (hmap : store.model.entityMap s.subject.type = .ok map)
    (hrs : ∀ r ∈ rs, r ∈ map.relationsOf .manyToOne)
    (h : rs.forM (store.insertReference (store.insertLevels levels false) map) s = .ok () s') :
    (∀ r ∈ rs, r.nullable = false → store.model.Supplied map s'.subject r.localKey) ∧
      ∀ localKey, store.model.Supplied map s.subject localKey →
        store.model.Supplied map s'.subject localKey := by
  induction rs generalizing s with
  | nil =>
      obtain ⟨-, rfl⟩ := ends_of_pure h
      exact ⟨List.forall_mem_nil _, fun _ hsupplied => hsupplied⟩
  | cons r rs ih =>
      obtain ⟨t, hfirst, hrest⟩ := ends_of_forM_cons h
      have hr := hrs r (by simp)
      obtain ⟨here, stays⟩ := supplied_of_insertReference hmap hr hfirst
      have kept : Keeps store.model (fun _ => False) s.subject t.subject :=
        (keepsFrom_insertReference (keepsAll_insertLevels store levels false) hmap hr).of_ok hfirst
      rw [← kept.type_eq] at hmap
      obtain ⟨there, stays'⟩ := ih hmap (fun r' hr' => hrs r' (List.mem_cons_of_mem r hr')) hrest
      refine ⟨List.forall_mem_cons.mpr ⟨fun hrequired => ?_, there⟩, fun localKey hsupplied => ?_⟩
      · exact stays' _ (here hrequired)
      · exact stays' _ (stays _ hsupplied)

/-- With a required reference whose local key is lacking they cannot all be worked on. -/
theorem not_ok_of_lacks {levels : Nat} (hmap : store.model.entityMap s.subject.type = .ok map)
    (hr : r ∈ map.relationsOf .manyToOne) (hrequired : r.nullable = false)
    (hlacks : Model.Lacks map s.subject r.localKey) :
    ¬ (map.relationsOf .manyToOne).forM
      (store.insertReference (store.insertLevels levels false) map) s = .ok () s' := by
  intro h
  have hderived := Model.derived_of_entityMap hmap
  have kept : Keeps store.model (fun _ => False) s.subject s'.subject := by
    refine KeepsFrom.of_ok (.forM fun r hr t ht => ?_) h
    exact keepsFrom_insertReference (keepsAll_insertLevels store levels false)
      (ht.type_eq ▸ hmap) hr
  have unset : ∀ r' ∈ map.relationsOf .manyToOne, r'.localKey = r.localKey →
      s'.subject.reference? r'.property = none := fun r' hr' hlocal =>
    (kept.sameShape.reference?_eq_none r'.property).mpr (hlacks.2 r' hr' hlocal)
  -- so nothing is copied into the local key, and it is as empty as it was
  obtain ⟨v, hv, hcopied⟩ := (supplied_of_insertReferences hmap (fun _ h => h) h).1 r hr hrequired
  obtain ⟨_, -, ⟨completed, hcompleted, hfields⟩, -⟩ := ok_of_insertReferences s.subject
    (inserting_insertLevels store levels false) (fun _ => kind_of_mem_relationsOf)
    (nodup_relationsOf hderived .manyToOne) h
  rw [Record.field?_congr hfields.symm, Model.field?_of_withReferenceKeys unset hcompleted] at hv
  obtain ⟨r', hr', hlocal, child, -, -, -, -, hset, -⟩ := hcopied (hlacks.1 v hv)
  rw [unset r' hr' hlocal] at hset
  cases hset

/-! ## Whole insertions -/

/-- When the row of a record is inserted, the local keys of its required references are supplied. -/
theorem supplied_of_referred {x : RowInsertion σ} {forced : Bool} {extra : String → Prop}
    {root : Record} (hbelow : x.IsBelow store forced extra root) (hreferred : x.Referred store)
    (hr : r ∈ x.map.relationsOf .manyToOne) (hrequired : r.nullable = false) :
    store.model.Supplied x.map x.begun.subject r.localKey := by
  obtain ⟨levels, s, t, hmap, hreferences, hgiven⟩ := hreferred
  obtain ⟨supply, b, hinsert, hsubject⟩ := hbelow.made
  have referred := (supplied_of_insertReferences hmap (fun _ h => h) hreferences).1 r hr hrequired
  rw [hgiven] at referred
  rw [hsubject]
  exact referred.of_insert (b := ⟨x.given, supply⟩) hinsert

/-- A run on a record that counts as new ends well only if all its references were worked on. -/
theorem exists_references_of_insertLevels {levels : Nat} {forced : Bool}
    (hmap : store.model.entityMap s.subject.type = .ok map)
    (hentered : Model.entered map forced s.subject = .ok true)
    (h : store.insertLevels levels forced s = .ok () s') :
    ∃ below t t', t.subject = s.subject ∧ (map.relationsOf .manyToOne).forM
      (store.insertReference (store.insertLevels below false) map) t = .ok () t' := by
  cases levels with
  | zero => cases h
  | succ below =>
      obtain ⟨map', t, hmap', hsubject, -, begun⟩ := begun_of_insertLevels h
      rw [hsubject] at hmap' begun
      cases hmap'.symm.trans hmap
      rcases begun with ⟨unentered, -⟩ | ⟨-, h⟩
      · rw [hentered] at unentered
        cases unentered
      · obtain ⟨_, t', hreferences, -⟩ := ends_of_bind h
        exact ⟨below, t, t', hsubject, hreferences⟩

/-- Until a required reference is found lacking, rows of records below the references are inserted
at most. -/
theorem onlyInserts_of_lacks {levels : Nat} {forced : Bool} {extra : String → Prop}
    (hmap : store.model.entityMap s.subject.type = .ok map)
    (hr : r ∈ map.relationsOf .manyToOne) (hrequired : r.nullable = false)
    (hlacks : Model.Lacks map s.subject r.localKey) :
    OnlyInsertsOf (·.place ≠ []) store forced extra s (store.insertLevels levels forced) := by
  cases levels with
  | zero => exact .subject_bind (.of_quiet (.throw _))
  | succ below =>
      have keeps := keepsAll_insertLevels store below false
      unfold insertLevels
      refine .subject_bind (.quiet_bind (.ofExcept _) fun map' s₁ hmapOf h₁ => ?_)
      obtain ⟨hmap', -, -⟩ := Work.ok_of_ofExcept hmapOf
      cases hmap'.symm.trans hmap
      refine .quiet_bind (.isStored map) fun stored s₂ _ h₂ => ?_
      rw [← h₁, ← h₂] at hmap hlacks
      split
      · exact .of_quiet (.pure _)
      · refine .bind (.forM ?_ fun r hr t ht => onlyInserts_insertReference keeps
          (onlyInserts_insertLevels store below false) fun _ _ => List.cons_ne_nil _ _)
          (.forM ?_) fun _ s₃ hreferences _ => ?_
        iterate 2
          exact fun r hr t ht => keepsFrom_insertReference keeps (by rw [ht.type_eq, hmap]) hr
        exact absurd hreferences (not_ok_of_lacks hmap hr hrequired hlacks)

/-- **Required references are supplied.** However an insertion ends, every call that it made was
for the row of a record of the graph, and the local keys of the required references of that record
were not empty, unless an empty value was copied from a record in a slot. Wherever the cascade
comes to a record that lacks the local key of a required reference, the row of that record is not
inserted, and if the record counts as new the cascade ends in an error. -/
theorem supplied_of_insertRecord (store : Store σ) :
    (∀ (forced : Bool) (s : Session σ Record), Did s (store.insertRecord forced) fun _ calls =>
      ∃ rows : List (RowInsertion σ), calls = rows.flatMap (·.calls) ∧
        ∀ x ∈ rows, x.IsBelow store forced (fun _ => False) s.subject ∧
          ∀ r ∈ x.map.relationsOf .manyToOne, r.nullable = false →
            store.model.Supplied x.map x.begun.subject r.localKey) ∧
    ∀ (levels : Nat) (forced : Bool) (s : Session σ Record) (map : EntityMap) (r : RelationDef),
      store.model.entityMap s.subject.type = .ok map →
      r ∈ map.relationsOf .manyToOne → r.nullable = false →
      Model.Lacks map s.subject r.localKey →
      (Did s (store.insertLevels levels forced) fun _ calls =>
        ∃ rows : List (RowInsertion σ), calls = rows.flatMap (·.calls) ∧
          ∀ x ∈ rows, x.IsBelow store forced (fun _ => False) s.subject ∧ x.place ≠ []) ∧
      (Model.entered map forced s.subject = .ok true →
        ∃ e s', store.insertLevels levels forced s = .error e s') := by
  refine ⟨fun forced s => ?_, fun levels forced s map r hmap hr hrequired hlacks => ?_⟩
  · have inserts := onlyInserts_insertLevels store s.subject.height forced s fun _ => False
    refine Did.subject_bind (inserts.mono ?_)
    rintro _ _ ⟨rows, rfl, hrows⟩
    exact ⟨rows, rfl, fun x hx => ⟨(hrows x hx).1, fun r hr hrequired =>
      supplied_of_referred (hrows x hx).1 (hrows x hx).2 hr hrequired⟩⟩
  · refine ⟨onlyInserts_of_lacks hmap hr hrequired hlacks, fun hentered => ?_⟩
    cases hrun : store.insertLevels levels forced s with
    | error e s' => exact ⟨e, s', rfl⟩
    | ok _ s' =>
        obtain ⟨below, t, t', hsubject, hreferences⟩ :=
          exists_references_of_insertLevels hmap hentered hrun
        rw [← hsubject] at hmap hlacks
        exact absurd hreferences (not_ok_of_lacks hmap hr hrequired hlacks)

end Store

namespace Sample

/-- Main records that refer to a peer by its number, which may be missing. -/
def numberedPeers : Store Script where
  model := model
    (some {
      table := "mains"
      columns := [generatedColumn "id", column "peer_id"]
      relations := [manyToOne "peer" "Peer" "peer_id" "onum"] })
    (some { table := "peers", columns := [generatedColumn "id", column "onum"] })
  connection := Script.connection .sqlite

/-- A new main record of a stored peer that has no number. -/
def mainOfNumberless : Record :=
  mainPrototype.withItems "peer" [peerPrototype.withValue "id" (.int32 (some 7))]

/-- A main record without a peer is not inserted: it has no number of a peer, either. -/
theorem supplied_of_insertRecord_peerless :
    let s := session mainPrototype []
    ∃ map r, numberedPeers.model.entityMap s.subject.type = .ok map ∧
      r ∈ map.relationsOf .manyToOne ∧ r.nullable = false ∧
      Model.Lacks map s.subject r.localKey ∧ Model.entered map false s.subject = .ok true ∧
      ∃ e s', numberedPeers.insertLevels 1 false s = .error e s' := by
  intro s
  obtain ⟨map, r, hmap, hrelations, hrequired, hlocal, hproperty, hentered⟩ : ∃ map r,
      numberedPeers.model.entityMap s.subject.type = .ok map ∧
      map.relationsOf .manyToOne = [r] ∧ r.nullable = false ∧ r.localKey = "peer_id" ∧
      r.property = "peer" ∧ Model.entered map false s.subject = .ok true :=
    ⟨_, _, rfl, rfl, rfl, rfl, rfl, rfl⟩
  have hr : r ∈ map.relationsOf .manyToOne := by simp [hrelations]
  have lacks : Model.Lacks map s.subject r.localKey := by
    refine ⟨fun v hv => ?_, fun r' hr' _ => ?_⟩
    · rw [hlocal] at hv
      cases (show some (Value.int32 none) = some v from hv)
      rfl
    · rw [hrelations, List.mem_singleton] at hr'
      rw [hr', hproperty]
      rfl
  exact ⟨map, r, hmap, hr, hrequired, lacks, hentered,
    ((Store.supplied_of_insertRecord numberedPeers).2 1 false s map r hmap hr hrequired lacks).2
      hentered⟩

/-- The column that the main record refers to is empty in its peer. Its row is inserted although
the peer is required, and the number of a peer is missing in it. -/
theorem insertRecord_mainOfNumberless :
    let s := session mainOfNumberless []
    ∃ map r s', numberedPeers.model.entityMap s.subject.type = .ok map ∧
      r ∈ map.relationsOf .manyToOne ∧ r.nullable = false ∧
      numberedPeers.insertRecord false s = .ok () s' ∧
      RanQueries s.calls s'.calls
        [⟨"INSERT INTO \"mains\" (\"peer_id\") VALUES (:peer_id_0);",
            [⟨"peer_id_0", .int32 none⟩]⟩,
          ⟨"SELECT last_insert_rowid();", []⟩] ∧
      ∃ v, s'.subject.field? r.localKey = some v ∧ v.isEmptyKey = true := by
  have ended := ok_of_endedWell (numberedPeers.insertRecord false (session mainOfNumberless []))
    (by decide +kernel)
  exact ⟨_, _, _, rfl, .head _, rfl, ended, .of_map (by decide +kernel), .int32 none,
    by decide +kernel, rfl⟩

end Sample

end GraphStore
