import GraphStore.Proofs.Persist.Effects
import GraphStore.Proofs.Persist.JoinedRows
import GraphStore.Proofs.Persist.LinkedRows
import GraphStore.Proofs.Statement.Acceptance

/-!
# The keys of inserted rows

A row whose key is empty is never selected, and the record is neither updated nor deleted
(`EntityMap.OutOfReach`); all other rows can be reached by their key (`EntityMap.InReach`). Keys
that are generated are never empty, so that an inserted row is out of reach just when a key that
nothing generates was empty in the record (`RowInsertion.Stored`). Nothing keeps such a record from
being inserted.
-/

set_option autoImplicit false

namespace GraphStore

variable {σ : Type}

/-! ## Rows in reach -/

/-- The cells of the key columns are empty where the keys of the record are. They need not have the
types of the fields, as a database may keep identifiers as text. -/
def Segment.AgreesOnKeys (seg : Segment) (row : Row) (record : Record) : Prop :=
  ∀ c ∈ seg.map.keyColumns, ∀ v, record.field? c.property = some v →
    ∃ w, seg.cell? row c.property = some w ∧ w.isEmptyKey = v.isEmptyKey

/-- Then the row shows a record in the segment if and only if no key of the record is empty. -/
theorem Segment.AgreesOnKeys.isPresent_iff {seg : Segment} {row : Row} {record : Record}
    (h : seg.AgreesOnKeys row record) (hkeyed : seg.map.keys.isEmpty = false)
    (hfields : ∀ c ∈ seg.map.keyColumns, ∃ v, record.field? c.property = some v) :
    seg.isPresent row = true ↔ seg.map.hasEmptyKey record = .ok false := by
  rw [Segment.isPresent_iff, EntityMap.hasEmptyKey_eq_false]
  constructor
  · intro present
    refine ⟨hkeyed, fun c hc => ?_⟩
    obtain ⟨v, hv⟩ := hfields c hc
    obtain ⟨w, hw, hsame⟩ := h c hc v hv
    obtain ⟨w', hw', hnonempty⟩ := present c hc
    cases hw.symm.trans hw'
    exact ⟨v, hv, hsame.symm.trans hnonempty⟩
  · rintro ⟨-, nonempty⟩ c hc
    obtain ⟨v, hv, hv'⟩ := nonempty c hc
    obtain ⟨w, hw, hsame⟩ := h c hc v hv
    exact ⟨w, hw, hsame.trans hv'⟩

/-- The row of the record is there for all operations: no select skips it, and the record can be
updated and deleted. -/
structure EntityMap.InReach (map : EntityMap) (record : Record) : Prop where
  keyed : map.hasEmptyKey record = .ok false
  selected : ∀ (seg : Segment) (row : Row), seg.map = map → seg.AgreesOnKeys row record →
    seg.readRow row ≠ .ok none
  updated : ∀ fields supply, map.checkFields (fields.getD []) = .ok () →
    map.written fields ≠ [] → ∃ st b, Edit.update map fields ⟨record, supply⟩ = .ok st b
  deleted : ∀ supply, (map.columns.map (·.name)).Nodup →
    ∃ st b, Edit.delete map ⟨record, supply⟩ = .ok st b

/-- The row of the record is as good as lost: every select skips it, and updates and deletions of
the record are refused. -/
structure EntityMap.OutOfReach (map : EntityMap) (record : Record) : Prop where
  keyless : map.hasEmptyKey record = .ok true
  skipped : ∀ (seg : Segment) (row : Row), seg.map = map → seg.AgreesOnKeys row record →
    seg.readRow row = .ok none
  update_refused : ∀ fields supply, Edit.update map fields ⟨record, supply⟩ =
    .error (.of (.keylessUpdate map.table.name)) ⟨record, supply⟩
  delete_refused : ∀ supply, Edit.delete map ⟨record, supply⟩ =
    .error (.of (.keylessDelete map.table.name)) ⟨record, supply⟩

namespace EntityMap

variable {map : EntityMap} {record : Record}

/-- A row without an empty key is in reach. -/
theorem inReach_of_keyed (hderived : map.Derived) (htypes : map.HasTypes record)
    (h : map.hasEmptyKey record = .ok false) : map.InReach record where
  keyed := h
  selected seg row hmap hagrees := by
    subst hmap
    obtain ⟨hkeyed, nonempty⟩ := hasEmptyKey_eq_false.mp h
    have fields : ∀ c ∈ seg.map.keyColumns, ∃ v, record.field? c.property = some v := fun c hc =>
      (nonempty c hc).imp fun _ hv => hv.1
    rw [ne_eq, Segment.readRow_eq_none, (hagrees.isPresent_iff hkeyed fields).mpr h]
    decide
  updated fields supply hfields hwritten :=
    Edit.exists_update (b := ⟨record, supply⟩) hderived htypes h hfields hwritten
  deleted supply hnames := Edit.exists_delete (b := ⟨record, supply⟩) hderived hnames htypes h

/-- A row with an empty key is out of reach. -/
theorem outOfReach_of_empty {c : ColumnDef} {v : Value} (hkeyed : map.keys.isEmpty = false)
    (hfields : ∀ c ∈ map.keyColumns, ∃ v, record.field? c.property = some v)
    (hc : c ∈ map.keyColumns) (hv : record.field? c.property = some v)
    (hempty : v.isEmptyKey = true) : map.OutOfReach record := by
  obtain ⟨empty, hcheck⟩ := exists_hasEmptyKey hkeyed hfields
  have keyless := hasEmptyKey_of_mem hc (read_of_field? hv) hempty hcheck
  subst keyless
  refine ⟨hcheck, fun seg row hmap hagrees => ?_, fun fields supply => ?_, fun supply => ?_⟩
  · subst hmap
    rw [Segment.readRow_eq_none, ← Bool.not_eq_true, hagrees.isPresent_iff hkeyed hfields, hcheck]
    intro heq
    cases heq
  · exact Edit.update_of_keyless (b := ⟨record, supply⟩) fields hcheck
  · exact Edit.delete_of_keyless (b := ⟨record, supply⟩) hcheck

end EntityMap

/-! ## Generated fields -/

/-- A random identifier is not the nil identifier. -/
theorem Uuid.isNil_markRandom (u : Uuid) : u.markRandom.isNil = false := by
  have inside : 6 < u.bytes.length := by rw [u.length_eq]; decide
  have version : (u.bytes[6] &&& 0x0f ||| 0x40) ∈ u.markRandom.bytes := by
    refine List.mem_of_getElem? (i := 6) ?_
    simp [markRandom, inside]
  refine List.all_eq_false.mpr ⟨_, version, ?_⟩
  simp

namespace Edit

variable {map : EntityMap} {b b' : Bench} {c : ColumnDef}

/-- A generated field is filled in by the edit, where the database leaves it alone, or it is that of
the key that is left to the database. -/
theorem generated_of_insert_some {forced : Bool} {st : InsertStatement} (hderived : map.Derived)
    (h : insert map forced b = .ok (some st) b')
    (hc : map.generatedKeyColumn? = some c ∨ map.autoTimestampColumn? = some c) :
    ((∀ key, st.generatedKey = some key → key.property ≠ c.property) ∧
      ∃ v, b'.record.field? c.property = some v ∧ v.isEmptyKey = false) ∨
    (map.generatedKeyColumn? = some c ∧ st.generatedKey = some ⟨c.property, c.name⟩ ∧
      ∃ v, b.record.field? c.property = some v ∧ ∀ u, v ≠ .uuid u) := by
  obtain ⟨-, b₁, stamped, context, hkey, hstamp, -, -⟩ := steps_of_insert_some h
  generalize st.generatedKey = key at hkey
  rcases hc with hc | hc
  · have kept : b'.record.field? c.property = b₁.record.field? c.property :=
      (assignsAt_of_stamp hstamp).field?_eq fun c' hc' =>
        (hderived.autoTimestamp_ne hc hc').symm
    cases providesKey_of_provideKey hkey with
    | without hcolumn =>
        rw [hc] at hcolumn
        cases hcolumn
    | present hcolumn hfield hpresent =>
        cases hc.symm.trans hcolumn
        exact .inl ⟨nofun, _, kept.trans hfield, hpresent⟩
    | drawn hcolumn hassign =>
        cases hc.symm.trans hcolumn
        have assigned := Record.field?_of_setField_same (.inl ⟨_, rfl⟩) hassign
        exact .inl ⟨nofun, _, kept.trans assigned, Uuid.isNil_markRandom _⟩
    | left hcolumn hfield hempty hother =>
        cases hc.symm.trans hcolumn
        exact .inr ⟨hc, rfl, _, hfield, hother⟩
  · cases stamps_of_stamp hstamp with
    | without hcolumn =>
        rw [hc] at hcolumn
        cases hcolumn
    | stamped hcolumn hassign =>
        cases hc.symm.trans hcolumn
        have assigned := Record.field?_of_setField_same (.inr ⟨_, rfl⟩) hassign
        refine .inl ⟨fun key' hkey' => ?_, _, assigned, rfl⟩
        subst hkey'
        cases providesKey_of_provideKey hkey with
        | left hcolumn' => exact (hderived.autoTimestamp_ne hcolumn' hc).symm

end Edit

/-! ## Inserted rows -/

namespace RowInsertion

/-- A key column is empty in the row: it was empty in the record and is not generated, or the
database generated an empty key, which only a field that takes any value can hold. -/
def LeavesEmpty (x : RowInsertion σ) (stored : Record) (c : ColumnDef) : Prop :=
  ∃ v, stored.field? c.property = some v ∧ v.isEmptyKey = true ∧
    ((¬ x.map.Generates c.property ∧ x.given.field? c.property = some v) ∨
      (x.statement.generatedKey = some ⟨c.property, c.name⟩ ∧
        ∃ t, x.given.fieldType? c.property = some t ∧ t.base = .any))

/-- What is known of a record when its row has been inserted. -/
structure Stored (m : Model) (x : RowInsertion σ) (stored : Record) : Prop where
  /-- Only what counted as new is inserted, unless the insertion was forced. -/
  new : x.forced = true ∨ x.map.keys.isEmpty = true ∨ x.map.hasEmptyKey x.given = .ok true
  /-- The statement binds the values of the record, but for the key that was read back. -/
  describes : m.Describes x.statement stored
  given : ∀ property, ¬ x.map.Generates property →
    stored.field? property = x.given.field? property
  inReach : x.map.keys.isEmpty = false → (∀ c ∈ x.map.keyColumns, ¬ x.LeavesEmpty stored c) →
    x.map.InReach stored
  outOfReach : ∀ c ∈ x.map.keyColumns, x.LeavesEmpty stored c → x.map.OutOfReach stored

end RowInsertion

namespace Store

variable {store : Store σ} {map : EntityMap} {given : Record} {st : InsertStatement}
  {s t : Session σ Record}

/-- A generated key column is not empty once the row has been inserted, unless the database gave an
empty key to a field that takes any value. -/
theorem generated_of_insertRow {forced : Bool} {b b' : Bench} {c : ColumnDef}
    (hderived : map.Derived) (htypes : map.HasTypes b.record)
    (hinsert : Edit.insert map forced b = .ok (some st) b')
    (hkept : Record.KeepsTypes b.record s.subject) (hsubject : s.subject = b'.record)
    (hrow : store.insertRow st s = .ok () t) (hmem : c ∈ map.columns)
    (hc : map.Generates c.property) :
    ∃ v, t.subject.field? c.property = some v ∧ (v.isEmptyKey = false ∨
      st.generatedKey = some ⟨c.property, c.name⟩ ∧
        ∃ type, b.record.fieldType? c.property = some type ∧ type.base = .any) := by
  obtain ⟨c', hrole, hproperty⟩ := hc
  have same : c' = c := by
    refine hderived.eq_of_property ?_ hmem hproperty
    rcases hrole with hrole | hrole
    · exact (EntityMap.Derived.exists_of_role hderived.generatedKey hrole).1
    · exact (EntityMap.Derived.exists_of_role hderived.autoTimestamp hrole).1
  subst same
  have hassigned := (ok_of_insertRow hrow).2
  rcases Edit.generated_of_insert_some hderived hinsert hrole with
    ⟨hothers, v, hv, hempty⟩ | ⟨hgenerated, hkey, v₀, hv₀, hleft⟩
  · refine ⟨v, ?_, .inl hempty⟩
    rw [← hsubject] at hv
    cases hkey : st.generatedKey with
    | none =>
        simp only [hkey] at hassigned
        rw [hassigned, hv]
    | some key =>
        simp only [hkey] at hassigned
        obtain ⟨w, -, hassign⟩ := hassigned
        rw [Record.field?_of_setField hassign (hothers key hkey).symm, hv]
  · simp only [hkey] at hassigned
    obtain ⟨v, hnull, hassign⟩ := hassigned
    obtain ⟨type, w, htype, hw, hfield⟩ := Record.exists_field?_of_setField hassign
    rw [hkept.fieldType?_eq] at htype
    refine ⟨w, hfield, ?_⟩
    obtain ⟨type', htype', hbase⟩ := htypes.base_of_generatedKey hderived hgenerated
    rw [htype] at htype'
    cases htype'
    rcases hbase with huuid | hint | hany
    · -- a field for identifiers is not left to the database
      obtain ⟨u, hu⟩ := FieldType.exists_uuid_of_holds huuid (htypes.typed _ _ _ htype hv₀)
      exact absurd hu (hleft u)
    · exact .inl (FieldType.isEmptyKey_of_int32 hint hnull hw)
    · exact .inr ⟨hkey, type, htype, hany⟩

theorem keepsTypes_of_insertRow (hrow : store.insertRow st s = .ok () t) :
    Record.KeepsTypes s.subject t.subject := by
  have hassigned := (ok_of_insertRow hrow).2
  cases hkey : st.generatedKey with
  | none =>
      simp only [hkey] at hassigned
      exact .of_fields (by rw [hassigned])
  | some key =>
      simp only [hkey] at hassigned
      obtain ⟨v, -, hassign⟩ := hassigned
      exact .of_setField hassign

/-- What holds of a record when its row has been inserted. -/
theorem stored_of_insertRow {x : RowInsertion σ}
    (hmap : store.model.entityMap x.given.type = .ok x.map) (htypes : x.map.HasTypes x.given)
    (hmade : ∃ supply b, Edit.insert x.map x.forced ⟨x.given, supply⟩ = .ok (some x.statement) b ∧
      x.begun.subject = b.record)
    (hrow : store.insertRow x.statement x.begun = .ok () t) : x.Stored store.model t.subject := by
  obtain ⟨supply, b, hinsert, hsubject⟩ := hmade
  have hderived := Model.derived_of_entityMap hmap
  have prepared := Edit.ok_of_insert_some (b := ⟨x.given, supply⟩) hmap hinsert
  rw [← hsubject] at prepared
  have stored := prepares_of_insertRow prepared hrow
  have kept : Keeps store.model (fun _ => False) x.given b.record :=
    (KeepsFrom.editInsert (b := ⟨x.given, supply⟩) hmap).of_ok hinsert
  have begun : Record.KeepsTypes x.given x.begun.subject := hsubject ▸ kept.keepsTypes
  have storedTypes := htypes.of_keepsTypes (begun.trans (keepsTypes_of_insertRow hrow))
  have mem_columns {c : ColumnDef} (hc : c ∈ x.map.keyColumns) := (hderived.mem_of_keyColumns hc).1
  exact {
    new := stored.new
    describes := stored.describes
    given := stored.field?_eq
    inReach := fun hkeyed hfilled => by
      refine EntityMap.inReach_of_keyed hderived storedTypes
        (EntityMap.hasEmptyKey_eq_false.mpr ⟨hkeyed, fun c hc => ?_⟩)
      by_cases hgenerated : x.map.Generates c.property
      · obtain ⟨v, hv, hnonempty | ⟨hkey, htype⟩⟩ := generated_of_insertRow hderived htypes hinsert
          begun hsubject hrow (mem_columns hc) hgenerated
        · exact ⟨v, hv, hnonempty⟩
        · refine ⟨v, hv, Bool.eq_false_iff.mpr fun hempty => hfilled c hc ?_⟩
          exact ⟨v, hv, hempty, .inr ⟨hkey, htype⟩⟩
      · obtain ⟨v, hv⟩ := htypes.exists_field? hderived (mem_columns hc)
        have same := (stored.field?_eq _ hgenerated).trans hv
        refine ⟨v, same, Bool.eq_false_iff.mpr fun hempty => hfilled c hc ?_⟩
        exact ⟨v, same, hempty, .inl ⟨hgenerated, hv⟩⟩
    outOfReach := fun c hc => by
      rintro ⟨v, hv, hempty, -⟩
      have hkeyed : x.map.keys.isEmpty = false := by
        rw [List.isEmpty_eq_false_iff]
        intro none
        rw [EntityMap.keyColumns, none] at hc
        cases hc
      exact EntityMap.outOfReach_of_empty hkeyed
        (fun c hc => storedTypes.exists_field? hderived (mem_columns hc)) hc hv hempty }

end Store

/-! ## Whole insertions -/

/-- Every record of the graph has the types of its entity. -/
def Model.HasTypes (m : Model) (root : Record) : Prop :=
  ∀ place record map, root.at? place = some record → m.entityMap record.type = .ok map →
    map.HasTypes record

namespace Store

/-- **The keys of inserted rows.** Whatever becomes of an insertion, all its calls are made to
insert the rows of records of the graph, and of every row that was inserted it is known from its
record whether it can be reached: it can unless a key that nothing generates was empty in the
record, or the database gave an empty key to a field that takes any value; then it can not. -/
theorem stored_of_insertRecord (store : Store σ) (forced : Bool) (s : Session σ Record)
    (htypes : store.model.HasTypes s.subject) :
    Did s (store.insertRecord forced) fun _ calls => ∃ rows : List (RowInsertion σ),
      calls = rows.flatMap (·.calls) ∧
      ∀ x ∈ rows, x.IsBelow store forced (fun _ => False) s.subject ∧
        ∀ t, store.insertRow x.statement x.begun = .ok () t → x.Stored store.model t.subject := by
  refine (onlyInserts_insertRecord store forced s fun _ => False).mono ?_
  rintro _ _ ⟨rows, rfl, hrows⟩
  refine ⟨rows, rfl, fun x hx => ⟨hrows x hx, fun t hrow => ?_⟩⟩
  obtain ⟨record, hrecord, hkept⟩ := (hrows x hx).kept
  have hmap := (hrows x hx).map_eq
  have before := htypes x.place record x.map hrecord (hkept.type_eq ▸ hmap)
  exact stored_of_insertRow hmap (before.of_keepsTypes hkept.keepsTypes) (hrows x hx).made hrow

end Store

namespace Sample

theorem hasTypes_newAuthor : (model none none).HasTypes newAuthor := by
  intro place record map hrecord
  refine Record.forall_at?_of_items
    (P := fun record => (model none none).entityMap record.type = .ok map → map.HasTypes record)
    (fun hmap => ?_) (fun slot hslot child hchild => ?_) place record hrecord
  · cases (show (model none none).entityMap newAuthor.type = .ok _ from rfl).symm.trans hmap
    exact {
      prototype := Record.typed_of_fields (by decide)
      fieldType?_eq := fun _ => Record.fieldType?_withValue ..
      typed := typed_newAuthor }
  · cases List.mem_singleton.mp hslot
    cases List.mem_singleton.mp hchild
    refine Record.forall_at?_of_items (fun hmap => ?_) fun slot hslot child hchild => ?_
    · cases (show (model none none).entityMap newBook.type = .ok _ from rfl).symm.trans hmap
      exact {
        prototype := Record.typed_of_fields (by decide)
        fieldType?_eq := fun _ => Record.fieldType?_withValue ..
        typed := typed_newBook }
    · cases List.mem_singleton.mp hslot
      cases hchild

end Sample

namespace Store

/-- A new author and a book of the author: both rows are inserted, and known about. -/
theorem stored_of_insertRecord_newAuthor :
    let s := Sample.session Sample.newAuthor []
    Sample.store.model.HasTypes s.subject ∧ ∃ rows : List (RowInsertion Script), rows ≠ [] ∧
      (stateAfter (Sample.store.insertRecord false s)).calls = rows.flatMap (·.calls) ∧
      ∀ x ∈ rows, x.IsBelow Sample.store false (fun _ => False) s.subject ∧
        ∀ t, Sample.store.insertRow x.statement x.begun = .ok () t →
          x.Stored Sample.store.model t.subject := by
  intro s
  obtain ⟨calls, hcalls, rows, rfl, hrows⟩ :=
    stored_of_insertRecord Sample.store false s Sample.hasTypes_newAuthor
  refine ⟨Sample.hasTypes_newAuthor, rows, ?_, hcalls, hrows⟩
  rintro rfl
  have none := congrArg List.length hcalls
  exact absurd none (by decide +kernel)

/-- The enrollment of nobody in a course counts as new, since one of its keys is empty, and its row
is inserted like that. The row is out of reach: no select shows it. -/
theorem insert_enrollment_of_nobody :
    let s := Sample.session (Sample.newEnrollment "OPT" "") []
    ∃ s', Sample.store.insertRecord false s = .ok () s' ∧
      RanQueries s.calls s'.calls
        [⟨"INSERT INTO \"enrollments\" (\"course\", \"student\", \"grade\") " ++
            "VALUES (:course_0, :student_1, :grade_2);",
          [⟨"course_0", .varchar (some "OPT")⟩, ⟨"student_1", .varchar (some "")⟩,
            ⟨"grade_2", .float64 none⟩]⟩] ∧
      (Sample.mapOf Sample.enrollment).OutOfReach s'.subject ∧
      Sample.store.model.graphs [Sample.enrollments] [Sample.enrollmentRow "OPT" ""] = .ok [] := by
  have ended := ok_of_endedWell
    (Sample.store.insertRecord false (Sample.session (Sample.newEnrollment "OPT" "") []))
    (by decide +kernel)
  obtain ⟨c, hc, hstudent⟩ : ∃ c ∈ (Sample.mapOf Sample.enrollment).keyColumns,
      (stateAfter (Sample.store.insertRecord false
        (Sample.session (Sample.newEnrollment "OPT" "") []))).subject.field? c.property =
        some (.varchar (some "")) := by decide +kernel
  have fields : ∀ c ∈ (Sample.mapOf Sample.enrollment).keyColumns,
      ((stateAfter (Sample.store.insertRecord false
        (Sample.session (Sample.newEnrollment "OPT" "") []))).subject.field? c.property).isSome =
        true := by decide +kernel
  refine ⟨_, ended, .of_map (by decide +kernel), ?_, rfl⟩
  exact EntityMap.outOfReach_of_empty rfl
    (fun c hc => Option.isSome_iff_exists.mp (fields c hc)) hc hstudent rfl

end Store

end GraphStore
