import GraphStore.Proofs.Persist.Demultiplexing
import GraphStore.Sample.Tables

/-!
# Rows and keys

Rows are put together by the identities of the records in them. Where identities tell keys apart
(`Segment.TellsApart`), this is putting them together by key: the rows of one key make up one
record, and the rows of another key another one.
-/

set_option autoImplicit false

namespace GraphStore

/-! ## Records shown by rows -/

namespace Segment

variable {seg : Segment} {row : Row} {rows : List Row} {r : Record}

/-- Reading cells changes fields only, and keeps their types. -/
theorem keeps_of_readCells {record : Record} {i : Nat} {properties : List String}
    (h : seg.readCells row record i properties = .ok r) :
    r.type = record.type ∧ r.slots = record.slots ∧ Record.KeepsTypes record r := by
  induction properties generalizing record i with
  | nil =>
      cases h
      exact ⟨rfl, rfl, .of_fields rfl⟩
  | cons p rest ih =>
      unfold readCells at h
      split at h
      next => exact ih h
      next v _ =>
        obtain ⟨assigned, hassigned, h⟩ := ok_of_bind h
        have hset : record.setField p v = .ok assigned := ok_of_mapError hassigned
        obtain ⟨htype, hslots, htypes⟩ := ih h
        exact ⟨htype.trans (Record.type_of_setField hset),
          hslots.trans (Record.slots_of_setField hset), .trans (.of_setField hset) htypes⟩

/-- The slots of a record that a segment shows are those of a new one. -/
theorem slots_of_readRow (h : seg.readRow row = .ok (some r)) :
    r.slots = seg.map.prototype.slots := by
  unfold readRow at h
  split at h
  · obtain ⟨record, hrecord, hr⟩ := ok_of_map h
    cases hr
    exact (keeps_of_readCells hrecord).2.1
  · cases h

/-- The record that a segment shows has the types and the slots of a new one. -/
theorem typed_of_readRow (typed : seg.map.prototype.Typed) (h : seg.readRow row = .ok (some r)) :
    r.Typed ∧ (∀ p, r.fieldType? p = seg.map.prototype.fieldType? p) ∧
      r.slots = seg.map.prototype.slots := by
  unfold readRow at h
  split at h
  · obtain ⟨record, hrecord, hr⟩ := ok_of_map h
    cases hr
    obtain ⟨-, hslots, htypes⟩ := keeps_of_readCells hrecord
    exact ⟨htypes.typed typed, htypes.fieldType?_eq, hslots⟩
  · cases h

/-- Some row shows the record. -/
def ShownIn (seg : Segment) (rows : List Row) (r : Record) : Prop :=
  ∃ row ∈ rows, seg.readRow row = .ok (some r)

/-- The identities of the records that the rows show in this segment tell their keys apart. -/
structure TellsApart (seg : Segment) (rows : List Row) : Prop where
  typed : seg.map.prototype.Typed
  hasIdentity : seg.map.HasIdentity
  nonempty : ∀ r, seg.ShownIn rows r → seg.map.hasEmptyKey r = .ok false
  separates : seg.map.Separates (seg.ShownIn rows)
  keyed : seg.map.keys.isEmpty = false

namespace TellsApart

open EntityMap

theorem identifies (h : seg.TellsApart rows) (hr : seg.ShownIn rows r) : seg.map.Identifies r := by
  refine have ⟨row, _, hread⟩ := hr; ?_
  obtain ⟨typed, types, -⟩ := typed_of_readRow h.typed hread
  exact ⟨typed, types, h.nonempty r hr⟩

/-- Among records of different identities, each with the fields of one that is shown, exactly one
has the key of a record that is shown and whose identity is among theirs. -/
theorem existsUnique (h : seg.TellsApart rows) {xs : List (Record × String)}
    (hnodup : (xs.map (·.2)).Nodup)
    (hxs : ∀ x ∈ xs, ∃ r', seg.ShownIn rows r' ∧ x.1.fields = r'.fields ∧
      seg.map.keyString r' = .ok x.2)
    {key : String} (hr : seg.ShownIn rows r) (hkey : seg.map.keyString r = .ok key)
    (hmem : key ∈ xs.map (·.2)) :
    ∃! i : Nat, ∃ x : Record, (xs.map (·.1))[i]? = some x ∧ seg.map.SameKey r x := by
  have fields : ∀ {x r' : Record}, x.fields = r'.fields → seg.map.SameKey r' x := fun hx c _ =>
    Record.field?_congr hx c.property
  obtain ⟨i, hi⟩ := List.mem_iff_getElem?.mp hmem
  refine ⟨i, ?_, fun j hj => ?_⟩
  · rw [List.getElem?_map] at hi
    obtain ⟨x, hx, rfl⟩ := Option.map_eq_some_iff.mp hi
    obtain ⟨r', hr', hfields, hkey'⟩ := hxs x (List.mem_of_getElem? hx)
    refine ⟨x.1, by rw [List.getElem?_map, hx]; rfl, SameKey.trans ?_ (fields hfields)⟩
    exact sameKey_of_keyString h.hasIdentity h.separates hr hr' (h.identifies hr)
      (h.identifies hr') (hkey'.trans hkey.symm)
  · -- a record with the same key has the same identity, and there is one of that identity
    obtain ⟨x, hj, hsame⟩ := hj
    rw [List.getElem?_map] at hj
    obtain ⟨p, hp, rfl⟩ := Option.map_eq_some_iff.mp hj
    obtain ⟨r', -, hfields, hkey'⟩ := hxs p (List.mem_of_getElem? hp)
    have identity := keyString_congr (hsame.trans (fields hfields).symm)
    rw [hkey, hkey'] at identity
    cases identity
    have inside : j < (xs.map (·.2)).length := by
      simpa using (List.getElem?_eq_some_iff.mp hp).1
    refine (List.getElem?_inj inside hnodup).mp ?_
    rw [hi, List.getElem?_map, hp]
    rfl

end TellsApart

end Segment

/-! ## Graphs -/

/-- The records are what the rows show, put together by key. -/
structure GroupedByKey (root : Segment) (related : List Segment) (rows : List Row)
    (records : List Record) : Prop where
  /-- A row goes to exactly one record: the one with the key that it shows. -/
  rooted : ∀ r, root.ShownIn rows r →
    ∃! i : Nat, ∃ record, records[i]? = some record ∧ root.map.SameKey r record
  /-- The fields of a record are those that a row shows. -/
  fields_eq : ∀ record ∈ records, ∃ r, root.ShownIn rows r ∧ record.fields = r.fields
  /-- In the collections, too, a related record goes to exactly one item. -/
  collected : ∀ seg ∈ related, ∀ relation, seg.relation = some relation →
    root.map.prototype.collection? relation.property = some [] →
    ∀ record ∈ records, ∀ row ∈ rows, ∀ r child, root.readRow row = .ok (some r) →
      root.map.SameKey r record → seg.readRow row = .ok (some child) →
      ∃! i : Nat, ∃ item, (record.items relation.property)[i]? = some item ∧
        seg.map.SameKey child item
  /-- The items of a record are those that its rows show. -/
  items_eq : ∀ seg ∈ related, ∀ relation, seg.relation = some relation →
    root.map.prototype.collection? relation.property = some [] →
    ∀ record ∈ records, ∀ item ∈ record.items relation.property, ∃ row ∈ rows, ∃ r,
      root.readRow row = .ok (some r) ∧ root.map.SameKey r record ∧
      seg.readRow row = .ok (some item)

section

variable {m : Model} {rs : List RelationDef} {root : Segment} {related : List Segment}
  {rows : List Row} {records : List Record} {ws : List Shown} {gs : List Gathered}

/-- A row that shows a root is among those that roots have been gathered from. -/
theorem exists_shows (hws : List.Forall₂ (Shows root related) (root.presentRows 0 rows) ws)
    {row : Row} (hrow : row ∈ rows) {r : Record} (hread : root.readRow row = .ok (some r)) :
    ∃ w ∈ ws, ∃ n, Shows root related (row, n) w ∧ w.root = r := by
  obtain ⟨n, hn⟩ := Segment.exists_mem_presentRows hrow (Segment.isPresent_of_readRow hread) 0
  obtain ⟨w, hw, hshows⟩ := exists_of_mem_forall₂ hws.flip hn
  refine ⟨w, hw, n, hshows, ?_⟩
  simpa using hshows.root.1.symm.trans hread

theorem shownIn_of_shows (hws : List.Forall₂ (Shows root related) (root.presentRows 0 rows) ws)
    {w : Shown} (hw : w ∈ ws) : ∃ row ∈ rows, ∃ n, Shows root related (row, n) w := by
  obtain ⟨x, hx, hshows⟩ := exists_row_of_shows hws hw
  exact ⟨x.1, List.fst_mem_of_mem_zipIdx hx, x.2, hshows⟩

/-- The slots of what is gathered: a collection that was empty holds the first record of each
identity that the rows of its root show. -/
theorem Filled.items_eq {base : Record} {shown : Nat → List (Record × String)} {g : Gathered}
    (h : Filled rs base shown g) {i : Nat} {r : RelationDef} (hr : rs[i]? = some r)
    (hempty : base.collection? r.property = some []) :
    g.root.items r.property = (firsts (shown i)).map (·.1) := by
  unfold Record.collection? at hempty
  split at hempty
  next s hs =>
    split at hempty
    next hkind =>
      cases s
      cases hempty
      cases hkind
      have hslot := h.slot i r hr
      rw [hs, Option.map_some] at hslot
      exact Record.items_of_slot? hslot
    next => cases hempty
  next => cases hempty

/-- What is read from a row is what a segment shows there. -/
theorem Segment.ShowsChild.exists_of_readRow {seg : Segment} {x : Row × Nat}
    {shown : Option (Record × String)} (h : seg.ShowsChild x shown) {child : Record}
    (hread : seg.readRow x.1 = .ok (some child)) :
    ∃ key, shown = some (child, key) ∧ seg.ShowsRecord x child key := by
  cases shown with
  | none =>
      have nothing : seg.readRow x.1 = .ok none := h
      rw [hread] at nothing
      cases nothing
  | some c =>
      have record : seg.ShowsRecord x c.1 c.2 := h
      obtain rfl : c.1 = child := by simpa using record.1.symm.trans hread
      exact ⟨c.2, rfl, record⟩

/-- With keys, the identity of what a row shows is the text of its key. -/
theorem Segment.ShowsRecord.keyString_eq {seg : Segment} (keyed : seg.map.keys.isEmpty = false)
    {x : Row × Nat} {r : Record} {key : String} (h : seg.ShowsRecord x r key) :
    seg.map.keyString r = .ok key := by
  rw [← EntityMap.identity_of_keyed keyed r x.2]
  exact h.2

/-- A record that the rows of a root show for a relation is shown by one of them. -/
theorem exists_row_of_mem_childrenOf
    (hws : List.Forall₂ (Shows root related) (root.presentRows 0 rows) ws) {i : Nat}
    {seg : Segment} (hseg : related[i]? = some seg) (keyed : seg.map.keys.isEmpty = false)
    {key : String} {x : Record × String} (hx : x ∈ childrenOf ws key i) :
    ∃ row ∈ rows, ∃ w ∈ ws, w.key = key ∧ (∃ n, Shows root related (row, n) w) ∧
      seg.readRow row = .ok (some x.1) ∧ seg.map.keyString x.1 = .ok x.2 := by
  obtain ⟨w, hw, hkey, hchild⟩ := mem_childrenOf.mp hx
  obtain ⟨row, hrow, n, hshows⟩ := shownIn_of_shows hws hw
  obtain ⟨shown, hshown, hchild'⟩ := hshows.showsChild hseg
  cases hshown.symm.trans hchild
  have record : seg.ShowsRecord (row, n) x.1 x.2 := hchild'
  exact ⟨row, hrow, w, hw, hkey, ⟨n, hshows⟩, record.1, record.keyString_eq keyed⟩

/-- The roots that rows show, with their identities. -/
theorem shownIn_of_mem (keyed : root.map.keys.isEmpty = false)
    (hws : List.Forall₂ (Shows root related) (root.presentRows 0 rows) ws) {w : Shown}
    (hw : w ∈ ws) : root.ShownIn rows w.root ∧ root.map.keyString w.root = .ok w.key := by
  obtain ⟨row, hrow, n, hshows⟩ := shownIn_of_shows hws hw
  exact ⟨⟨row, hrow, hshows.root.1⟩, hshows.root.keyString_eq keyed⟩

namespace GathersFrom

variable {g : Gathered}

open EntityMap in
/-- The key of what is gathered is that of the rows it is gathered from. -/
theorem sameKey_iff (h : GathersFrom rs (rootsOf ws) ws gs) (hroot : root.TellsApart rows)
    (hws : List.Forall₂ (Shows root related) (root.presentRows 0 rows) ws) (hg : g ∈ gs)
    {w : Shown} (hw : w ∈ ws) : root.map.SameKey w.root g.root ↔ w.key = g.key := by
  obtain ⟨w₀, hw₀, hkey, hfilled⟩ := h.exists_of_mem hg
  have same : root.map.SameKey w₀.root g.root := fun c _ =>
    Record.field?_congr hfilled.fields_eq c.property
  obtain ⟨hshown, htext⟩ := shownIn_of_mem hroot.keyed hws hw
  obtain ⟨hshown₀, htext₀⟩ := shownIn_of_mem hroot.keyed hws hw₀
  rw [← hkey]
  constructor
  · intro hsame
    have := keyString_congr (hsame.trans same.symm)
    rw [htext₀, htext] at this
    exact (Except.ok.inj this).symm
  · intro equal
    refine SameKey.trans ?_ same
    exact sameKey_of_keyString hroot.hasIdentity hroot.separates hshown hshown₀
      (hroot.identifies hshown) (hroot.identifies hshown₀) (by rw [htext₀, htext, equal])

/-- The items of a collection that is empty in a new root. -/
theorem items_eq (h : GathersFrom rs (rootsOf ws) ws gs) (typed : root.map.prototype.Typed)
    (hws : List.Forall₂ (Shows root related) (root.presentRows 0 rows) ws)
    (hrelations : List.Forall₂ (fun seg r => seg.relation = some r) related rs)
    {seg : Segment} (hseg : seg ∈ related) {relation : RelationDef}
    (hrelation : seg.relation = some relation)
    (hempty : root.map.prototype.collection? relation.property = some []) :
    ∃ i, related[i]? = some seg ∧
      ∀ g ∈ gs, g.root.items relation.property = (firsts (childrenOf ws g.key i)).map (·.1) := by
  obtain ⟨i, hi, hr⟩ := exists_place_of_relation hrelations hseg hrelation
  refine ⟨i, hi, fun g hg => ?_⟩
  obtain ⟨w, hw, -, hfilled⟩ := h.exists_of_mem hg
  obtain ⟨row, -, n, hshows⟩ := shownIn_of_shows hws hw
  obtain ⟨-, -, hslots⟩ := Segment.typed_of_readRow typed hshows.root.1
  refine hfilled.items_eq hr ?_
  rw [Record.collection?, Record.slot?_congr hslots]
  exact hempty

end GathersFrom

/-- The row of a key goes to the one record with that key. -/
theorem GathersFrom.existsUnique_root (h : GathersFrom rs (rootsOf ws) ws gs)
    (hroot : root.TellsApart rows)
    (hws : List.Forall₂ (Shows root related) (root.presentRows 0 rows) ws) {r : Record}
    (hr : root.ShownIn rows r) :
    ∃! i : Nat, ∃ record, (gs.map (·.root))[i]? = some record ∧ root.map.SameKey r record := by
  have roots : gs.map (·.root) = (gs.map fun g => (g.root, g.key)).map (·.1) := by simp
  have keys : (gs.map fun g => (g.root, g.key)).map (·.2) = gs.map (·.key) := by simp
  obtain ⟨row, hrow, hread⟩ := id hr
  obtain ⟨w, hw, n, hshows, rfl⟩ := exists_shows hws hrow hread
  rw [roots]
  refine hroot.existsUnique ?_ ?_ hr (hshows.root.keyString_eq hroot.keyed) ?_
  · rw [keys]
    exact h.keys_nodup
  · intro x hx
    obtain ⟨g, hg, rfl⟩ := List.mem_map.mp hx
    obtain ⟨w₀, hw₀, hkey, hfilled⟩ := h.exists_of_mem hg
    obtain ⟨hshown, htext⟩ := shownIn_of_mem hroot.keyed hws hw₀
    exact ⟨w₀.root, hshown, hfilled.fields_eq, hkey ▸ htext⟩
  · rw [keys]
    exact h.mem_keys.mpr ⟨w, hw, rfl⟩

/-- A related record goes to the one item with its key. -/
theorem existsUnique_child
    (hws : List.Forall₂ (Shows root related) (root.presentRows 0 rows) ws) {i : Nat}
    {seg : Segment} (hi : related[i]? = some seg) (hseg : seg.TellsApart rows) {w : Shown}
    (hw : w ∈ ws) {row : Row} (hrow : row ∈ rows) {n : Nat} (hshows : Shows root related (row, n) w)
    {child : Record} (hchild : seg.readRow row = .ok (some child)) :
    ∃! j : Nat, ∃ item, ((firsts (childrenOf ws w.key i)).map (·.1))[j]? = some item ∧
      seg.map.SameKey child item := by
  obtain ⟨shown, hshown, hfirst⟩ := hshows.showsChild hi
  obtain ⟨key, rfl, record⟩ := hfirst.exists_of_readRow hchild
  have identity := record.keyString_eq hseg.keyed
  refine hseg.existsUnique (nodup_firsts _) (fun x hx => ?_) ⟨row, hrow, hchild⟩ identity ?_
  · obtain ⟨row', hrow', -, -, -, -, hread', htext⟩ :=
      exists_row_of_mem_childrenOf hws hi hseg.keyed (mem_of_mem_firsts hx)
    exact ⟨x.1, ⟨row', hrow', hread'⟩, rfl, htext⟩
  · rw [mem_keys_firsts]
    exact List.mem_map.mpr ⟨(child, key), mem_childrenOf.mpr ⟨w, hw, rfl, hshown⟩, rfl⟩

/-- Rows are put together by key where identities tell keys apart. -/
theorem groupedByKey_of_graphs (hroot : root.TellsApart rows)
    (hrelated : ∀ seg ∈ related, seg.TellsApart rows) (hnodup : (rs.map (·.property)).Nodup)
    (hrelations : List.Forall₂ (fun seg r => seg.relation = some r) related rs)
    (hok : m.graphs (root :: related) rows = .ok records) :
    GroupedByKey root related rows records := by
  obtain ⟨ws, gs, hws, h, rfl⟩ := gathersFrom_of_graphs hnodup hrelations hok
  refine ⟨fun r hr => h.existsUnique_root hroot hws hr, ?_, ?_, ?_⟩
  · intro record hrecord
    obtain ⟨g, hg, rfl⟩ := List.mem_map.mp hrecord
    obtain ⟨w, hw, -, hfilled⟩ := h.exists_of_mem hg
    exact ⟨w.root, (shownIn_of_mem hroot.keyed hws hw).1, hfilled.fields_eq⟩
  · intro seg hseg relation hrelation hempty record hrecord row hrow r child hread hsame hchild
    obtain ⟨g, hg, rfl⟩ := List.mem_map.mp hrecord
    obtain ⟨i, hi, hitems⟩ := h.items_eq hroot.typed hws hrelations hseg hrelation hempty
    obtain ⟨w, hw, n, hshows, rfl⟩ := exists_shows hws hrow hread
    rw [hitems g hg, ← (h.sameKey_iff hroot hws hg hw).mp hsame]
    exact existsUnique_child hws hi (hrelated seg hseg) hw hrow hshows hchild
  · intro seg hseg relation hrelation hempty record hrecord item hitem
    obtain ⟨g, hg, rfl⟩ := List.mem_map.mp hrecord
    obtain ⟨i, hi, hitems⟩ := h.items_eq hroot.typed hws hrelations hseg hrelation hempty
    rw [hitems g hg] at hitem
    obtain ⟨x, hx, rfl⟩ := List.mem_map.mp hitem
    obtain ⟨row, hrow, w, hw, hkey, ⟨n, hshows⟩, hread, -⟩ :=
      exists_row_of_mem_childrenOf hws hi (hrelated seg hseg).keyed (mem_of_mem_firsts hx)
    exact ⟨row, hrow, w.root, hshows.root.1, (h.sameKey_iff hroot hws hg hw).mpr hkey, hread⟩

end

/-! ## Identities -/

/-- **Identities tell keys apart as long as texts do not get in the way.** Records with the same key
have the same identity. Records with different keys have different ones if no text before a certain
key column has a semicolon in it, and none after it an equality sign, which is always so for a
single key and for keys with one text at most. Then the rows of one key are put together to one
record, and the rows of other keys to others, among the roots and in every collection. -/
theorem identities_tell_keys_apart (m : Model) (rs : List RelationDef) (root : Segment)
    (related : List Segment) (rows : List Row) (records : List Record) :
    (∀ (map : EntityMap) (r r' : Record), map.SameKey r r' →
      map.keyString r' = map.keyString r) ∧
    (∀ (map : EntityMap) (r r' : Record), map.HasIdentity → map.Identifies r → map.Identifies r' →
      map.Separates (fun s => s = r ∨ s = r') → map.keyString r' = map.keyString r →
      map.SameKey r r') ∧
    (root.TellsApart rows → (∀ seg ∈ related, seg.TellsApart rows) →
      (rs.map (·.property)).Nodup →
      List.Forall₂ (fun seg r => seg.relation = some r) related rs →
      m.graphs (root :: related) rows = .ok records → GroupedByKey root related rows records) :=
  ⟨fun _ _ _ => EntityMap.keyString_congr,
    fun _ _ _ hmap h h' hseparates =>
      EntityMap.sameKey_of_keyString hmap hseparates (.inl rfl) (.inr rfl) h h',
    groupedByKey_of_graphs⟩

namespace Sample

/-- Enrollments are told apart by a course and a student. -/
theorem mem_keyColumns_enrollments {c : ColumnDef} (h : c ∈ enrollments.map.keyColumns) :
    c.property = "course" ∨ c.property = "student" := by
  have columns : enrollments.map.keyColumns.map (·.property) = ["course", "student"] := rfl
  have := List.mem_map_of_mem (f := (·.property)) h
  rw [columns] at this
  simpa using this

theorem hasIdentity_enrollments : enrollments.map.HasIdentity := by
  intro c hc
  rcases mem_keyColumns_enrollments hc with h | h <;> rw [h] <;>
    exact ⟨.text, rfl, .inl (by decide)⟩

theorem typed_enrollment : enrollments.map.prototype.Typed :=
  Record.typed_of_fields (by decide)

theorem identifies_newEnrollment {course student : String}
    (h : enrollments.map.hasEmptyKey (newEnrollment course student) = .ok false) :
    enrollments.map.Identifies (newEnrollment course student) where
  typed := by
    have first : enrollments.map.prototype.setField "course" (.varchar (some course)) =
        .ok (enrollments.map.prototype.withValue "course" (.varchar (some course))) := rfl
    have second : (enrollments.map.prototype.withValue "course" (.varchar (some course))).setField
        "student" (.varchar (some student)) = .ok (newEnrollment course student) := rfl
    exact (typed_enrollment.of_setField first).of_setField second
  fieldType?_eq p := by
    rw [newEnrollment, Record.fieldType?_withValue, Record.fieldType?_withValue]
    rfl
  nonempty := h

/-- Two enrollments with different keys and the same identity: of their two rows one is lost. -/
theorem graphs_of_delimiters_in_keys :
    enrollments.map.HasIdentity ∧
    enrollments.map.Identifies (newEnrollment "a;student=b" "c") ∧
    enrollments.map.Identifies (newEnrollment "a" "b;student=c") ∧
    ¬ enrollments.map.SameKey (newEnrollment "a;student=b" "c") (newEnrollment "a" "b;student=c") ∧
    enrollments.map.keyString (newEnrollment "a;student=b" "c") =
      enrollments.map.keyString (newEnrollment "a" "b;student=c") ∧
    ∃ records, (model none none).graphs [enrollments]
      [enrollmentRow "a;student=b" "c", enrollmentRow "a" "b;student=c"] = .ok records ∧
      records.length = 1 := by
  refine ⟨hasIdentity_enrollments, identifies_newEnrollment (by decide +kernel),
    identifies_newEnrollment (by decide +kernel), fun same => ?_, by decide +kernel, _, rfl, rfl⟩
  obtain ⟨c, hc, hcourse⟩ : ∃ c ∈ enrollments.map.keyColumns, c.property = "course" := by decide
  have courses := same c hc
  rw [hcourse] at courses
  exact absurd courses (by decide +kernel)

/-- Two students of one course, whose rows are kept apart. -/
theorem identities_tell_keys_apart_enrollments :
    enrollments.TellsApart [enrollmentRow "OPT" "ada", enrollmentRow "OPT" "bob"] ∧
    ∃ records, (model none none).graphs [enrollments]
      [enrollmentRow "OPT" "ada", enrollmentRow "OPT" "bob"] = .ok records ∧
      records.length = 2 ∧ GroupedByKey enrollments []
        [enrollmentRow "OPT" "ada", enrollmentRow "OPT" "bob"] records := by
  have shown : ∀ r, enrollments.ShownIn [enrollmentRow "OPT" "ada", enrollmentRow "OPT" "bob"] r →
      r = newEnrollment "OPT" "ada" ∨ r = newEnrollment "OPT" "bob" := by
    rintro r ⟨row, hrow, hread⟩
    simp only [List.mem_cons, List.not_mem_nil, or_false] at hrow
    rcases hrow with rfl | rfl
    · cases hread
      exact .inl rfl
    · cases hread
      exact .inr rfl
  have apart : enrollments.TellsApart [enrollmentRow "OPT" "ada", enrollmentRow "OPT" "bob"] :=
    { typed := typed_enrollment
      hasIdentity := hasIdentity_enrollments
      nonempty := fun r hr => by
        rcases shown r hr with rfl | rfl <;> decide +kernel
      separates := by
        refine ⟨[_], _, [], rfl, fun r hr => ⟨fun d hd s hs => ?_, fun d hd => ?_⟩⟩
        · obtain rfl := List.mem_singleton.mp hd
          have course : r.field? "course" = some (.varchar (some "OPT")) := by
            rcases shown r hr with rfl | rfl <;> rfl
          cases course.symm.trans hs
          decide
        · cases hd
      keyed := rfl }
  obtain ⟨records, hrecords⟩ : ∃ records, (model none none).graphs [enrollments]
    [enrollmentRow "OPT" "ada", enrollmentRow "OPT" "bob"] = .ok records := ⟨_, rfl⟩
  refine ⟨apart, records, hrecords, ?_, ?_⟩
  · cases hrecords
    rfl
  · exact (identities_tell_keys_apart _ [] _ _ _ _).2.2 apart (by simp) List.nodup_nil .nil hrecords

end Sample

end GraphStore
