import GraphStore.Proofs.Persist.Identities
import GraphStore.Proofs.Statement.Built

/-!
# The records in any rows

What comes out of the rows of a select is determined by what each row shows in each segment
(`Segment.decode?`): the first row of every key of the entity gives the fields of a record, and the
rows of that key fill its slots (`AssembledFrom`). Nothing is asked of the rows, which may be in
any order, repeated or too short, but that they were put together without an error.
-/

set_option autoImplicit false

namespace GraphStore

/-! ## What a row shows in a segment -/

namespace Segment

/-- The cell of a property; a short row may not have it. -/
def cell? (seg : Segment) (row : Row) (property : String) : Option Value :=
  (seg.position? property).bind (row.values[·]?)

/-- The row has a value in every key column of the segment. -/
def HasKey (seg : Segment) (row : Row) : Prop :=
  ∀ c ∈ seg.map.keyColumns, ∃ v, seg.cell? row c.property = some v ∧ v.isEmptyKey = false

/-- The record is a new one with the cells of the row in its fields. -/
structure Decodes (seg : Segment) (row : Row) (r : Record) : Prop where
  type_eq : r.type = seg.map.prototype.type
  slots_eq : r.slots = seg.map.prototype.slots
  /-- A cell is converted to the type of its field. -/
  field_of_cell : ∀ p v, seg.cell? row p = some v → ∃ type w,
    seg.map.prototype.fieldType? p = some type ∧ type.convert v = .ok w ∧ r.field? p = some w
  /-- A field without a cell holds what it holds in a new record. -/
  field_without_cell : ∀ p, seg.cell? row p = none → r.field? p = seg.map.prototype.field? p

/-- The record that the row shows in the segment, with the text of its key. -/
def decode? (seg : Segment) (row : Row) : Option (Record × String) :=
  match seg.readRow row with
  | .ok (some r) => (seg.map.keyString r).toOption.map fun key => (r, key)
  | _ => none

variable {seg : Segment} {row : Row} {r : Record}

theorem isPresent_iff : seg.isPresent row = true ↔ seg.HasKey row := by
  unfold isPresent HasKey cell?
  rw [List.all_eq_true]
  refine forall_congr' fun c => forall_congr' fun _ => ?_
  cases (seg.position? c.property).bind (row.values[·]?) with
  | none => simp
  | some v => simp

/-- The cell of a property among those from place `i` on. -/
def cellFrom? (row : Row) (i : Nat) (properties : List String) (p : String) : Option Value :=
  (properties.findIdx? (· == p)).bind fun k => row.values[i + k]?

theorem cellFrom?_cons (row : Row) (i : Nat) (q : String) (rest : List String) (p : String) :
    cellFrom? row i (q :: rest) p =
      if q = p then row.values[i]? else cellFrom? row (i + 1) rest p := by
  unfold cellFrom?
  rw [List.findIdx?_cons]
  by_cases hq : q = p
  · rw [if_pos hq, beq_iff_eq.mpr hq]
    rfl
  · rw [if_neg hq, beq_eq_false_iff_ne.mpr hq]
    cases rest.findIdx? (· == p) with
    | none => rfl
    | some k =>
        change row.values[i + (k + 1)]? = row.values[i + 1 + k]?
        rw [Nat.add_assoc, Nat.add_comm 1 k]

theorem cellFrom?_of_not_mem {i : Nat} {properties : List String} {p : String}
    (h : p ∉ properties) : cellFrom? row i properties p = none := by
  have absent : properties.findIdx? (· == p) = none := by
    rw [List.findIdx?_eq_none_iff]
    intro q hq
    rw [beq_eq_false_iff_ne]
    rintro rfl
    exact h hq
  rw [cellFrom?, absent]
  rfl

/-- Reading the cells from place `i` on assigns each to its property. -/
theorem field_of_readCells {record : Record} {i : Nat} {properties : List String}
    (hnodup : properties.Nodup) (h : seg.readCells row record i properties = .ok r) (p : String) :
    match cellFrom? row i properties p with
    | none => r.field? p = record.field? p
    | some v => ∃ type w, record.fieldType? p = some type ∧ type.convert v = .ok w ∧
        r.field? p = some w := by
  induction properties generalizing record i with
  | nil =>
      cases h
      rfl
  | cons q rest ih =>
      rw [List.nodup_cons] at hnodup
      rw [cellFrom?_cons]
      unfold readCells at h
      split at h
      next hcell =>
        have later := ih hnodup.2 h
        by_cases hq : q = p
        · subst hq
          rw [cellFrom?_of_not_mem hnodup.1] at later
          rw [if_pos rfl, hcell]
          exact later
        · rw [if_neg hq]
          exact later
      next v hcell =>
        obtain ⟨assigned, hassigned, h⟩ := ok_of_bind h
        have hset : record.setField q v = .ok assigned := ok_of_mapError hassigned
        have later := ih hnodup.2 h
        by_cases hq : q = p
        · -- no later property is the same, so the field keeps what it was assigned
          subst hq
          rw [cellFrom?_of_not_mem hnodup.1] at later
          rw [if_pos rfl, hcell]
          obtain ⟨type, w, htype, hw, hfield⟩ := Record.exists_field?_of_setField hset
          exact ⟨type, w, htype, hw, later.trans hfield⟩
        · rw [if_neg hq]
          rw [Record.field?_of_setField hset (Ne.symm hq),
            Record.fieldType?_of_setField hset p] at later
          exact later

theorem cell?_eq (seg : Segment) (row : Row) (p : String) :
    seg.cell? row p = cellFrom? row (seg.start + 1) seg.properties p := by
  unfold cell? cellFrom? position?
  cases seg.properties.findIdx? (· == p) <;> rfl

/-- The record that a row shows is decoded from its cells. -/
theorem decodes_of_readRow (hnodup : seg.properties.Nodup)
    (h : seg.readRow row = .ok (some r)) : seg.HasKey row ∧ seg.Decodes row r := by
  unfold readRow at h
  split at h
  next present =>
    obtain ⟨record, hrecord, heq⟩ := ok_of_map h
    cases heq
    obtain ⟨htype, hslots, -⟩ := keeps_of_readCells hrecord
    have fields := field_of_readCells hnodup hrecord
    refine ⟨isPresent_iff.mp present, htype, hslots, fun p v hcell => ?_, fun p hcell => ?_⟩
    · have field := fields p
      rw [← cell?_eq, hcell] at field
      exact field
    · have field := fields p
      rw [← cell?_eq, hcell] at field
      exact field
  next => cases h

theorem decode?_eq_some {x : Record × String} (h : seg.decode? row = some x) :
    seg.readRow row = .ok (some x.1) ∧ seg.map.keyString x.1 = .ok x.2 := by
  unfold decode? at h
  split at h
  next r hread =>
    cases hkey : seg.map.keyString r with
    | error e =>
        rw [hkey] at h
        cases h
    | ok key =>
        rw [hkey] at h
        cases h
        exact ⟨hread, hkey⟩
  next => cases h

theorem decode?_of_not_present (h : seg.isPresent row = false) : seg.decode? row = none := by
  unfold decode? readRow
  rw [h]
  rfl

/-- What a segment shows in a row, where it has keys. -/
theorem decode?_of_showsChild (keyed : seg.map.keys.isEmpty = false) {x : Row × Nat}
    {shown : Option (Record × String)} (h : seg.ShowsChild x shown) :
    seg.decode? x.1 = shown := by
  unfold decode?
  cases shown with
  | none =>
      have hread : seg.readRow x.1 = .ok none := h
      rw [hread]
  | some c =>
      have record : seg.ShowsRecord x c.1 c.2 := h
      simp only [record.1, record.keyString_eq keyed]
      rfl

/-- The rows that show the record of the entity with this key. -/
def rowsOf (root : Segment) (rows : List Row) (key : String) : List Row :=
  rows.filter fun row => (root.decode? row).any (·.2 == key)

theorem mem_rowsOf {root : Segment} {rows : List Row} {key : String} :
    row ∈ root.rowsOf rows key ↔ row ∈ rows ∧ ∃ r, root.decode? row = some (r, key) := by
  rw [rowsOf, List.mem_filter]
  refine and_congr_right fun _ => ?_
  cases root.decode? row with
  | none => simp
  | some x =>
      obtain ⟨r, key'⟩ := x
      simp

end Segment

/-! ## What rows make of a record -/

/-- The record is the new record `base` with what the rows show put into its slots. A collection has
the first record of each key that the rows show, after what it holds in a new record. A single
reference is as in a new record if no row shows a key for it, and otherwise a record that one of
the rows shows. -/
structure AssembledFrom (related : List Segment) (rows : List Row) (base record : Record) :
    Prop where
  type_eq : record.type = base.type
  fields_eq : record.fields = base.fields
  collection_eq : ∀ seg ∈ related, ∀ r, seg.relation = some r → r.kind = .oneToMany →
    record.collection? r.property =
      some (base.items r.property ++ (firsts (rows.filterMap seg.decode?)).map (·.1))
  reference_eq : ∀ seg ∈ related, ∀ r, seg.relation = some r → r.kind = .manyToOne →
    ((∀ row ∈ rows, ¬ seg.HasKey row) ∧
      record.reference? r.property = base.reference? r.property) ∨
    ∃ row ∈ rows, seg.HasKey row ∧ ∃ x, seg.decode? row = some x ∧
      record.reference? r.property = some x.1
  slot_eq : ∀ q, (∀ seg ∈ related, ∀ r, seg.relation = some r → r.property ≠ q) →
    record.slot? q = base.slot? q

/-- The records are those that the rows show: one for every key of the entity, in the order in which
the keys first appear, made of the rows with that key. -/
structure Demultiplexed (root : Segment) (related : List Segment) (rows : List Row)
    (records : List Record) : Prop where
  /-- What a row shows has a key and is decoded from the cells of the row. -/
  sound : ∀ seg ∈ root :: related, ∀ row x, seg.decode? row = some x →
    seg.HasKey row ∧ seg.Decodes row x.1 ∧ seg.map.keyString x.1 = .ok x.2
  /-- A row with a key of the entity shows a record of it, and so does every other segment in which
  it has a key. -/
  complete : ∀ row ∈ rows, root.HasKey row → ∀ seg ∈ root :: related, seg.HasKey row →
    ∃ x, seg.decode? row = some x
  records_eq : List.Forall₂
    (fun x record => AssembledFrom related (root.rowsOf rows x.2) x.1 record)
    (firsts (rows.filterMap root.decode?)) records

section

variable {m : Model} {rs : List RelationDef} {root seg : Segment} {related : List Segment}
  {rows : List Row} {records : List Record} {ws : List Shown} {gs : List Gathered} {i : Nat}

theorem Shows.decode?_eq (keyed : root.map.keys.isEmpty = false) {x : Row × Nat} {w : Shown}
    (h : Shows root related x w) : root.decode? x.1 = some (w.root, w.key) := by
  have shown : root.ShowsChild x (some (w.root, w.key)) := h.root
  exact Segment.decode?_of_showsChild keyed shown

/-- What is collected from the rows that show a record of the entity is collected from all rows. -/
theorem filterMap_of_shows {β : Type} {f : Row → Option β} {g : Shown → Option β} {n : Nat}
    (hws : List.Forall₂ (Shows root related) (root.presentRows n rows) ws)
    (hshows : ∀ x w, Shows root related x w → f x.1 = g w)
    (hnone : ∀ row, root.isPresent row = false → f row = none) :
    rows.filterMap f = ws.filterMap g := by
  induction rows generalizing ws n with
  | nil =>
      cases hws
      rfl
  | cons row rows ih =>
      cases hpresent : root.isPresent row with
      | false =>
          rw [Segment.presentRows_cons_of_absent hpresent] at hws
          rw [List.filterMap_cons_none (hnone row hpresent), ih hws]
      | true =>
          rw [Segment.presentRows_cons_of_present hpresent] at hws
          cases hws with
          | @cons _ w _ ws hw hrest =>
              rw [List.filterMap_cons, List.filterMap_cons, hshows _ w hw, ih hrest]

theorem rootsOf_eq (keyed : root.map.keys.isEmpty = false)
    (hws : List.Forall₂ (Shows root related) (root.presentRows 0 rows) ws) :
    rootsOf ws = rows.filterMap root.decode? := by
  have collected := filterMap_of_shows (f := root.decode?) (g := fun w => some (w.root, w.key)) hws
    (fun x w hw => hw.decode?_eq keyed) fun row => Segment.decode?_of_not_present
  rw [collected, rootsOf, List.filterMap_eq_map']

theorem childrenOf_eq (keyed : ∀ seg ∈ root :: related, seg.map.keys.isEmpty = false)
    (hws : List.Forall₂ (Shows root related) (root.presentRows 0 rows) ws)
    (hseg : related[i]? = some seg) (key : String) :
    childrenOf ws key i = (root.rowsOf rows key).filterMap seg.decode? := by
  have hkeyed := keyed seg (List.mem_cons_of_mem _ (List.mem_of_getElem? hseg))
  rw [childrenOf, Segment.rowsOf, List.filterMap_filter, List.filterMap_filter]
  symm
  refine filterMap_of_shows hws (fun x w hw => ?_) fun row habsent => ?_
  · obtain ⟨shown, hshown, hchild⟩ := hw.showsChild hseg
    rw [hw.decode?_eq (keyed root List.mem_cons_self), Segment.decode?_of_showsChild hkeyed hchild,
      hshown]
    rfl
  · rw [Segment.decode?_of_not_present habsent]
    rfl

/-- A row in which a segment has a key shows a record there. -/
theorem exists_decode? (keyed : ∀ seg ∈ root :: related, seg.map.keys.isEmpty = false)
    (hws : List.Forall₂ (Shows root related) (root.presentRows 0 rows) ws) {row : Row}
    (hrow : row ∈ rows) (hroot : root.HasKey row) (hseg : seg ∈ root :: related)
    (hkey : seg.HasKey row) : ∃ x, seg.decode? row = some x := by
  obtain ⟨n, hn⟩ := Segment.exists_mem_presentRows hrow (Segment.isPresent_iff.mpr hroot) 0
  obtain ⟨w, -, hw⟩ := exists_of_mem_forall₂ hws.flip hn
  rcases List.mem_cons.mp hseg with rfl | hmem
  · exact ⟨_, hw.decode?_eq (keyed seg hseg)⟩
  · obtain ⟨i, hi⟩ := List.mem_iff_getElem?.mp hmem
    obtain ⟨shown, -, hchild⟩ := hw.showsChild hi
    have decoded := Segment.decode?_of_showsChild (keyed seg hseg) hchild
    cases shown with
    | some c => exact ⟨c, decoded⟩
    | none =>
        -- the row is present in the segment, so that something is shown
        have absent := Segment.readRow_eq_none.mp hchild
        rw [Segment.isPresent_iff.mpr hkey] at absent
        cases absent

/-- A slot of the kind of the relation, filled with what is shown for it. -/
theorem Filled.exists_slot (hderived : root.map.Derived)
    (hrs : ∀ r ∈ rs, r ∈ root.map.relations) {base : Record}
    (hslots : base.slots = root.map.prototype.slots) {shown : Nat → List (Record × String)}
    {g : Gathered} (h : Filled rs base shown g) {r : RelationDef} (hr : rs[i]? = some r) :
    ∃ s, base.slot? r.property = some s ∧ s.kind = r.kind ∧ g.root.slot? r.property =
      some { s with
        items := r.kind.filled s.items (r.kind.latest ((firsts (shown i)).map (·.1))) } := by
  have hslot := hderived.slot r (hrs r (List.mem_of_getElem? hr))
  unfold EntityType.hasSlot at hslot
  rw [← Record.slot?_congr hslots] at hslot
  have filled := h.slot i r hr
  cases hs : base.slot? r.property with
  | none =>
      rw [hs] at hslot
      cases hslot
  | some s =>
      rw [hs] at hslot filled
      have kind : s.kind = r.kind := beq_iff_eq.mp hslot
      refine ⟨s, rfl, kind, ?_⟩
      rw [← kind, filled]
      rfl

/-- A root that has been filled with what its rows show is assembled from these rows. -/
theorem Filled.assembledFrom (hderived : root.map.Derived)
    (hrs : ∀ r ∈ rs, r ∈ root.map.relations)
    (hrelations : List.Forall₂ (fun seg r => seg.relation = some r) related rs) {base : Record}
    (hslots : base.slots = root.map.prototype.slots) {shown : Nat → List (Record × String)}
    {g : Gathered} (h : Filled rs base shown g)
    (hshown : ∀ i seg, related[i]? = some seg → shown i = rows.filterMap seg.decode?)
    (hkey : ∀ row ∈ rows, ∀ seg ∈ related, seg.HasKey row ↔ ∃ x, seg.decode? row = some x) :
    AssembledFrom related rows base g.root := by
  refine ⟨h.type_eq, h.fields_eq, fun seg hseg r hr hkind => ?_, fun seg hseg r hr hkind => ?_,
    fun q hq => h.slot_eq q fun hmem => ?_⟩
  · obtain ⟨i, hi, hri⟩ := exists_place_of_relation hrelations hseg hr
    obtain ⟨s, hs, hskind, hslot⟩ := h.exists_slot hderived hrs hslots hri
    rw [hkind] at hskind hslot
    simp only [Record.collection?, hslot, hskind, if_true, Record.items, hs, ← hshown i seg hi]
    rfl
  · obtain ⟨i, hi, hri⟩ := exists_place_of_relation hrelations hseg hr
    obtain ⟨s, hs, hskind, hslot⟩ := h.exists_slot hderived hrs hslots hri
    rw [hkind, hshown i seg hi] at hslot
    rw [hkind] at hskind
    rcases List.eq_nil_or_concat ((firsts (rows.filterMap seg.decode?)).map (·.1)) with
      hnil | ⟨others, last, hlast⟩
    · -- no row shows a record here, so that no row has a key here
      have nothing : rows.filterMap seg.decode? = [] :=
        (firsts_eq_nil_iff _).mp (List.map_eq_nil_iff.mp hnil)
      refine .inl ⟨fun row hrow hpresent => ?_, ?_⟩
      · obtain ⟨x, hx⟩ := (hkey row hrow seg hseg).mp hpresent
        rw [List.filterMap_eq_nil_iff.mp nothing row hrow] at hx
        cases hx
      · simp only [Record.reference?, hslot, hs, hnil]
        rfl
    · -- the record that was attached last is one that a row shows
      obtain ⟨x, hx, rfl⟩ : ∃ x ∈ firsts (rows.filterMap seg.decode?), x.1 = last := by
        refine List.mem_map.mp ?_
        rw [hlast, List.concat_eq_append]
        exact List.mem_append_right _ (List.mem_singleton_self last)
      obtain ⟨row, hrow, hdecode⟩ := List.mem_filterMap.mp (mem_of_mem_firsts hx)
      refine .inr ⟨row, hrow, (hkey row hrow seg hseg).mpr ⟨x, hdecode⟩, x, hdecode, ?_⟩
      simp [Record.reference?, hslot, hskind, hlast, RelationKind.filled, RelationKind.latest]
  · obtain ⟨r, hr, rfl⟩ := List.mem_map.mp hmem
    obtain ⟨seg, hseg, hrelation⟩ := exists_of_mem_forall₂ hrelations hr
    exact hq seg hseg r hrelation rfl

end

/-- The properties that a segment shows are different. -/
theorem Segment.ShowsColumns.nodup {seg : Segment} (h : seg.ShowsColumns)
    (hderived : seg.map.Derived) : seg.properties.Nodup := by
  rw [Segment.ShowsColumns] at h
  rw [h]
  exact hderived.columns_nodup.sublist (List.filter_sublist.map _)

/-- **The records in any rows.** Take any select of keyed entities and any rows that its result is
put together from without an error. There is one record for every key of the entity that a row has,
in the order in which the keys first appear, with the fields that its first row shows; a collection
lists the records that the rows of its owner show, the first one of every key in the order in which
these first appear; and a single reference is set when a row of its owner has a key for it, to a
record that one of these rows shows. -/
theorem demultiplexed_of_select {m : Model} {type : String} {map : EntityMap} {p : Predicate}
    {includes : List String} {options : SelectOptions} {st : SelectStatement} {rows : List Row}
    {records : List Record} (hmap : m.entityMap type = .ok map)
    (hselect : m.select map p includes options = .ok st)
    (keyed : ∀ seg ∈ st.segments, seg.map.keys.isEmpty = false)
    (hok : m.graphs st.segments rows = .ok records) :
    ∃ root related, st.segments = root :: related ∧ root.map = map ∧
      List.Forall₂ (fun name seg => ∃ r, map.relation name = .ok r ∧ seg.relation = some r ∧
        m.entityMap r.target = .ok seg.map) includes related ∧
      Demultiplexed root related rows records := by
  obtain ⟨root, related, rs, hsegments, rfl, hcolumns, hnamed, hshown, hnodup⟩ :=
    segments_of_select hselect
  rw [hsegments] at keyed hok
  have hderived := Model.derived_of_entityMap hmap
  have nodup : ∀ seg ∈ root :: related, seg.properties.Nodup := by
    intro seg hseg
    rcases List.mem_cons.mp hseg with rfl | hseg
    · exact hcolumns.nodup hderived
    · obtain ⟨r, -, hr⟩ := exists_of_mem_forall₂ hshown.flip hseg
      exact hr.columns.nodup (Model.derived_of_entityMap hr.target_eq)
  have relations : ∀ r ∈ rs, r ∈ root.map.relations := by
    intro r hr
    obtain ⟨name, -, hname⟩ := exists_of_mem_forall₂ hnamed hr
    unfold EntityMap.relation orFail at hname
    split at hname
    next found =>
      cases hname
      exact (hderived.relation?_eq_some.mp found).1
    next => cases hname
  have hrelations := hshown.imp fun _ _ hr => hr.relation_eq
  obtain ⟨ws, gs, hws, hgathers, rfl⟩ := gathersFrom_of_graphs hnodup hrelations hok
  have sound : ∀ seg ∈ root :: related, ∀ row x, seg.decode? row = some x →
      seg.HasKey row ∧ seg.Decodes row x.1 ∧ seg.map.keyString x.1 = .ok x.2 := by
    intro seg hseg row x hx
    obtain ⟨hread, hkey⟩ := Segment.decode?_eq_some hx
    obtain ⟨present, decodes⟩ := Segment.decodes_of_readRow (nodup seg hseg) hread
    exact ⟨present, decodes, hkey⟩
  have complete : ∀ row ∈ rows, root.HasKey row → ∀ seg ∈ root :: related, seg.HasKey row →
      ∃ x, seg.decode? row = some x := fun row hrow hroot seg hseg hkey =>
    exists_decode? keyed hws hrow hroot hseg hkey
  refine ⟨root, related, hsegments, rfl, ?_, sound, complete, ?_⟩
  · refine (forall₂_comp hnamed hshown.flip).imp fun name seg => ?_
    rintro ⟨r, hname, hseg⟩
    exact ⟨r, hname, hseg.relation_eq, hseg.target_eq⟩
  · rw [List.forall₂_map_right_iff]
    unfold GathersFrom at hgathers
    rw [rootsOf_eq (keyed root List.mem_cons_self) hws] at hgathers
    refine forall₂_imp_of_mem hgathers fun x hx g => ?_
    rintro ⟨-, hfilled⟩
    obtain ⟨row, hrow, hdecode⟩ := List.mem_filterMap.mp (mem_of_mem_firsts hx)
    have slots := (sound root List.mem_cons_self row x hdecode).2.1.slots_eq
    refine hfilled.assembledFrom hderived relations hrelations slots
      (fun i seg hseg => childrenOf_eq keyed hws hseg x.2) fun row' hrow' seg hseg => ?_
    obtain ⟨hmem, r, hr⟩ := Segment.mem_rowsOf.mp hrow'
    have member := List.mem_cons_of_mem root hseg
    constructor
    · exact complete row' hmem (sound root List.mem_cons_self row' _ hr).1 seg member
    · rintro ⟨y, hy⟩
      exact (sound seg member row' y hy).1

namespace Sample

/-- A course of two tags, one of them shown twice and the other after the row of another course. -/
theorem demultiplexed_of_select_courses : ∃ st records,
    (model none none).select courses (.constant true) ["tags"] {} = .ok st ∧
    (∀ seg ∈ st.segments, seg.map.keys.isEmpty = false) ∧
    (model none none).graphs st.segments [courseRow "OPT" (some "lenses"),
      courseRow "OPT" (some "lenses"), courseRow "ALG" none, courseRow "OPT" (some "waves")] =
      .ok records ∧
    (records.map fun r => (r.items "tags").length) = [2, 0] ∧
    ∃ root related, st.segments = root :: related ∧
      Demultiplexed root related [courseRow "OPT" (some "lenses"),
        courseRow "OPT" (some "lenses"), courseRow "ALG" none, courseRow "OPT" (some "waves")]
        records := by
  have mapped : (model none none).entityMap "enr::Course" = .ok courses := rfl
  obtain ⟨st, hst, keyed, records, hrecords, hlengths⟩ : ∃ st,
      (model none none).select courses (.constant true) ["tags"] {} = .ok st ∧
      (∀ seg ∈ st.segments, seg.map.keys.isEmpty = false) ∧ ∃ records,
      (model none none).graphs st.segments [courseRow "OPT" (some "lenses"),
        courseRow "OPT" (some "lenses"), courseRow "ALG" none, courseRow "OPT" (some "waves")] =
        .ok records ∧ (records.map fun r => (r.items "tags").length) = [2, 0] := by
    refine ⟨_, rfl, fun seg hseg => ?_, _, rfl, rfl⟩
    rcases List.mem_cons.mp hseg with rfl | hseg
    · rfl
    · rw [List.mem_singleton.mp hseg]
      rfl
  obtain ⟨root, related, hsegments, -, -, h⟩ := demultiplexed_of_select mapped hst keyed hrecords
  exact ⟨st, records, hst, keyed, hrecords, hlengths, root, related, hsegments, h⟩

end Sample

end GraphStore
