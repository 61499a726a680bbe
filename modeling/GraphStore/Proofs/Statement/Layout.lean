import GraphStore.Proofs.Statement.Scoping

/-!
# The layout of a select

The columns of a select are the blocks of its segments, one after another: a marker and then the
columns of the segment's entity that can be selected (`Tiles`). Each relation that is joined adds
one block at the end, so that a segment that was put where the columns ended stays right about its
own (`laidOut_of_select`). The place that a segment gives for a property is where its column is.
-/

set_option autoImplicit false

namespace GraphStore

/-- The columns for a segment that is the one at place `i`: its marker, and one column for each of
its entity that can be selected, in order of declaration. -/
def Segment.block (i : Nat) (seg : Segment) : List SelectColumn :=
  .split ("split_" ++ toString i) ::
    seg.map.shownColumns.map fun c => .column seg.label c.name (seg.label ++ "__" ++ c.name)

/-- What a segment says of the columns of a select. It is the one at place `i`, and `finish` is
where the next one starts. -/
structure Segment.Describes (columns : List SelectColumn) (i finish : Nat) (seg : Segment) :
    Prop where
  marker : columns[seg.start]? = some (.split ("split_" ++ toString i))
  /-- The columns that can be selected follow in order of declaration. -/
  shown : ∀ k c, seg.map.shownColumns[k]? = some c → columns[seg.start + 1 + k]? =
    some (.column seg.label c.name (seg.label ++ "__" ++ c.name))
  finish_eq : finish = seg.start + 1 + seg.map.shownColumns.length
  position_of_mem : ∀ c ∈ seg.map.columns, c.selectable = true → ∃ n,
    seg.position? c.property = some n ∧ seg.start < n ∧ n < finish ∧
      columns[n]? = some (.column seg.label c.name (seg.label ++ "__" ++ c.name))
  position_inj : ∀ p q n, seg.position? p = some n → seg.position? q = some n → p = q
  position_eq_none : ∀ p, seg.position? p = none ↔
    ∀ c ∈ seg.map.columns, c.selectable = true → c.property ≠ p

namespace SelectStatement

/-- Where the segment after the one at place `i` starts, or else the row ends. -/
def startAfter (st : SelectStatement) (i : Nat) : Nat :=
  (st.segments[i + 1]?).elim st.columns.length (·.start)

/-- The segments and the joins are those of the entity and of the relations that are included, and
the segments describe the columns without a gap. -/
structure LaidOut (m : Model) (map : EntityMap) (includes : List String) (st : SelectStatement) :
    Prop where
  root : ∃ seg, st.segments[0]? = some seg ∧ seg.relation = none ∧ seg.map = map ∧
    seg.label = st.label ∧ seg.start = 0
  length_joins : st.joins.length = includes.length
  length_segments : st.segments.length = includes.length + 1
  related : ∀ i name, includes[i]? = some name → ∃ r j seg, map.relation? name = some r ∧
    st.joins[i]? = some j ∧ st.segments[i + 1]? = some seg ∧ seg.relation = some r ∧
    m.target r = .ok seg.map ∧ j.table = seg.map.table ∧ j.label = seg.label
  describes : ∀ (i : Nat) (seg : Segment), st.segments[i]? = some seg →
    seg.Describes st.columns i (st.startAfter i)

end SelectStatement

/-! ## Blocks one after another -/

/-- The columns are the blocks of the segments, which are numbered from `i` and of which the first
starts at `start`. -/
inductive Tiles : Nat → Nat → List Segment → List SelectColumn → Prop where
  | nil (start i : Nat) : Tiles start i [] []
  | cons {start i : Nat} {seg : Segment} {segs : List Segment} {columns : List SelectColumn}
      (starts : seg.start = start) (shows : seg.ShowsColumns)
      (rest : Tiles (start + (seg.block i).length) (i + 1) segs columns) :
      Tiles start i (seg :: segs) (seg.block i ++ columns)

namespace Tiles

variable {start i k : Nat} {seg : Segment} {segs : List Segment} {columns : List SelectColumn}

theorem start_eq (h : Tiles start i (seg :: segs) columns) : seg.start = start := by
  cases h with
  | cons starts => exact starts

/-- One more block at the end. -/
theorem concat (h : Tiles start i segs columns) (seg : Segment)
    (starts : seg.start = start + columns.length) (shows : seg.ShowsColumns) :
    Tiles start i (segs ++ [seg]) (columns ++ seg.block (i + segs.length)) := by
  induction h with
  | nil start i =>
      have alone := Tiles.cons (i := i) starts shows (.nil _ _)
      rwa [List.append_nil] at alone
  | @cons start i first segs columns hfirst hshows rest ih =>
      rw [List.length_append, ← Nat.add_assoc] at starts
      have later := ih starts
      rw [show i + 1 + segs.length = i + (first :: segs).length by
        rw [List.length_cons]
        omega] at later
      rw [List.cons_append, List.append_assoc]
      exact .cons hfirst hshows later

/-- Where the block of a segment is: it starts where the segment says, and it ends where the next
one starts, or with the columns. -/
theorem exists_block (h : Tiles start i segs columns) (hseg : segs[k]? = some seg) :
    seg.ShowsColumns ∧ ∃ before after, columns = before ++ seg.block (i + k) ++ after ∧
      seg.start = start + before.length ∧
      (segs[k + 1]?).elim (start + columns.length) (·.start) =
        seg.start + (seg.block (i + k)).length := by
  induction h generalizing k with
  | nil start i => cases hseg
  | @cons start i first segs columns hfirst hshows rest ih =>
      cases k with
      | zero =>
          obtain rfl : first = seg := Option.some.inj hseg
          refine ⟨hshows, [], columns, rfl, hfirst, ?_⟩
          rw [hfirst, List.getElem?_cons_succ, Nat.add_zero, List.length_append]
          cases rest with
          | nil => rfl
          | cons hnext => exact hnext
      | succ k =>
          rw [List.getElem?_cons_succ] at hseg
          obtain ⟨shows, before, after, rfl, hstart, hnext⟩ := ih hseg
          rw [show i + 1 + k = i + (k + 1) by omega] at hnext ⊢
          refine ⟨shows, first.block i ++ before, after, by simp only [List.append_assoc], ?_, ?_⟩
          · rw [hstart, List.length_append, Nat.add_assoc]
          · rw [List.getElem?_cons_succ, List.length_append, ← Nat.add_assoc]
            exact hnext

end Tiles

/-! ## Places of properties -/

namespace Segment

variable {seg : Segment} {columns : List SelectColumn} {i finish : Nat}

/-- One place is given for one property only. -/
theorem eq_of_position? {p q : String} {n : Nat} (hp : seg.position? p = some n)
    (hq : seg.position? q = some n) : p = q := by
  obtain ⟨j, hj, hnj⟩ := Option.map_eq_some_iff.mp hp
  obtain ⟨k, hk, hnk⟩ := Option.map_eq_some_iff.mp hq
  obtain rfl : j = k := by omega
  obtain ⟨inside, hjp, -⟩ := List.findIdx?_eq_some_iff_getElem.mp hj
  obtain ⟨_, hkq, -⟩ := List.findIdx?_eq_some_iff_getElem.mp hk
  exact (beq_iff_eq.mp hjp).symm.trans (beq_iff_eq.mp hkq)

/-- No place is given for the properties that are not selected. -/
theorem ShowsColumns.position?_eq_none (h : seg.ShowsColumns) (p : String) :
    seg.position? p = none ↔ ∀ c ∈ seg.map.columns, c.selectable = true → c.property ≠ p := by
  rw [position?, Option.map_eq_none_iff, List.findIdx?_eq_none_iff, h, List.forall_mem_map]
  simp [EntityMap.shownColumns]

/-- A segment is right about the columns among which its block starts where it says. -/
theorem describes_of_block (hshows : seg.ShowsColumns) (hderived : seg.map.Derived)
    {before after : List SelectColumn} (hcolumns : columns = before ++ seg.block i ++ after)
    (hstart : seg.start = before.length) (hfinish : finish = seg.start + (seg.block i).length) :
    seg.Describes columns i finish := by
  have laid : seg.Laid columns :=
    ⟨⟨before, after, "split_" ++ toString i, hstart.symm, hcolumns⟩, hshows⟩
  have finish_eq : finish = seg.start + 1 + seg.map.shownColumns.length := by
    rw [hfinish, block, List.length_cons, List.length_map]
    omega
  have shown : ∀ k c, seg.map.shownColumns[k]? = some c → columns[seg.start + 1 + k]? =
      some (.column seg.label c.name (seg.label ++ "__" ++ c.name)) := by
    intro k c hc
    have inside := (List.getElem?_eq_some_iff.mp hc).1
    -- column `k` of the entity is the one after `k` others and the marker
    rw [hcolumns, hstart, List.append_assoc, List.getElem?_append_right (by omega),
      show before.length + 1 + k - before.length = k + 1 by omega, block, List.cons_append,
      List.getElem?_cons_succ, List.getElem?_append_left (by rwa [List.length_map]),
      List.getElem?_map, hc]
    rfl
  refine ⟨?_, shown, finish_eq, fun c hc hselectable => ?_, fun p q n => eq_of_position?,
    hshows.position?_eq_none⟩
  · rw [hcolumns, hstart, List.append_assoc, List.getElem?_append_right (Nat.le_refl _),
      Nat.sub_self]
    rfl
  · have shows := List.mem_filter.mpr ⟨hc, hselectable⟩
    obtain ⟨k, hk, hposition⟩ := laid.exists_position hderived shows
    have inside := (List.getElem?_eq_some_iff.mp hk).1
    exact ⟨_, hposition, by omega, by omega, shown k c hk⟩

end Segment

/-! ## Selects that were built -/

namespace SelectDraft

variable {m : Model} {map : EntityMap} {includeDeleted : Bool} {d d' : SelectDraft}

/-- The columns of a table are added behind those that are there, with a segment that says so. -/
theorem tiles_addSegment (h : Tiles 0 0 d.segments d.columns) (relation : Option RelationDef)
    (map : EntityMap) (label : String) :
    Tiles 0 0 (d.addSegment relation map label).segments
      (d.addSegment relation map label).columns := by
  have added := h.concat
    { relation, map, label, start := d.columns.length
      properties := (map.columns.filter (·.selectable)).map (·.property) }
    (Nat.zero_add _).symm rfl
  rwa [Nat.zero_add] at added

theorem tiles_includeRelation {root name : String} (h : Tiles 0 0 d.segments d.columns)
    (hd : m.includeRelation map root includeDeleted d name = .ok d') :
    Tiles 0 0 d'.segments d'.columns := by
  obtain ⟨x, -, -, -, rfl⟩ := exists_included_of_includeRelation hd
  rw [withRelation]
  -- the join, the label and the condition leave the columns and the segments as they are
  refine tiles_addSegment ?_ (some x.relation) x.target _
  exact h

end SelectDraft

section

variable {m : Model} {map : EntityMap} {p : Predicate} {includes : List String}
  {options : SelectOptions} {st : SelectStatement}

theorem tiles_of_select (h : m.select map p includes options = .ok st) :
    Tiles 0 0 st.segments st.columns := by
  obtain ⟨d, -, -, -, hd, -, -, rfl⟩ := steps_of_select h
  exact keeps_of_foldlM (P := fun d : SelectDraft => Tiles 0 0 d.segments d.columns)
    (fun _ _ _ kept hstep => SelectDraft.tiles_includeRelation kept hstep)
    (SelectDraft.tiles_addSegment (.nil 0 0) none map map.table.name) hd

/-- **The segments describe the select list.** For every entity that is mapped, and every list of
relations and options with which a select is built: there is a segment for the entity and one for
each relation, with the label of its join; one after another they say where their markers and
columns are, with nothing between them and nothing left over; and the place that a segment gives for
a property is where the select list has the column of that property, and of no other. -/
theorem laidOut_of_select {type : String} (hmap : m.entityMap type = .ok map)
    (h : m.select map p includes options = .ok st) : st.LaidOut m map includes := by
  have tiles := tiles_of_select h
  obtain ⟨d, f, context, orderBy, hd, -, -, rfl⟩ := steps_of_select h
  obtain ⟨ys, rfl, hosts⟩ := (SelectDraft.hosts_start m map options.includeDeleted
    { clause := .select }).includeRelations hd
  rw [List.nil_append] at hosts
  generalize filterOf map options.includeDeleted f context = filter at tiles ⊢
  obtain ⟨root, hsegments, hrelation, hmapped, hlabel⟩ := hosts.segments_eq
  have segments : (d.statement map filter orderBy options.limit).segments =
      root :: ys.map (·.segment) := hsegments
  have derived : ∀ seg ∈ root :: ys.map (·.segment), seg.map.Derived := by
    intro seg hseg
    rcases List.mem_cons.mp hseg with rfl | hseg
    · rw [hmapped]
      exact Model.derived_of_entityMap hmap
    · obtain ⟨y, hy, rfl⟩ := List.mem_map.mp hseg
      rw [(hosts.hosted y hy).map_eq]
      exact Model.derived_of_entityMap (hosts.hosted y hy).declared.target_eq
  refine
    { root := ⟨root, by rw [segments]; rfl, hrelation, hmapped, hlabel, ?_⟩
      length_joins := by rw [SelectDraft.statement, hosts.joins_eq, List.length_map, List.length_map]
      length_segments := by
        rw [segments, List.length_cons, List.length_map, List.length_map]
      related := fun i name hname => ?_
      describes := fun i seg hseg => ?_ }
  · rw [segments] at tiles
    exact tiles.start_eq
  · rw [List.getElem?_map] at hname
    obtain ⟨y, hy, rfl⟩ := Option.map_eq_some_iff.mp hname
    have place := hosts.statement_hosts filter orderBy options.limit hy
    exact ⟨_, _, _, place.declared, place.join_eq, place.segment_eq, place.relation_eq,
      place.target_eq, place.table_eq, place.label_eq.symm⟩
  · obtain ⟨shows, before, after, hcolumns, hstart, hnext⟩ := tiles.exists_block hseg
    rw [Nat.zero_add] at hcolumns hstart hnext
    rw [Nat.zero_add] at hnext
    have hmem := List.mem_of_getElem? hseg
    rw [segments] at hmem
    exact Segment.describes_of_block shows (derived seg hmem) hcolumns hstart hnext

end

namespace Sample

/-- A folder, with its parent folder and its notes. The code is not selected. -/
def folder : EntityType where
  prototype := .mk "Folder"
    [initialField "id" (.optional .int32), initialField "code" .text,
      initialField "parent_id" (.optional .int32), initialField "text" .text]
    [referenceSlot "parent" "Folder", collectionSlot "notes" "Note"]
  declaration :=
    { table := "folders"
      columns := [generatedColumn "id", { column "code" with selectable := false },
        column "parent_id", { column "text" with name := "title" }]
      relations := [(manyToOne "parent" "Folder" "parent_id" "id").orNone,
        oneToMany "notes" "Note" "id" "folder_id"] }

/-- A note in a folder. The text is not selected. -/
def note : EntityType where
  prototype := .mk "Note"
    [initialField "id" (.optional .int32), initialField "text" .text,
      initialField "folder_id" (.optional .int32), initialField "code" .text] []
  declaration :=
    { table := "notes"
      columns := [{ column "text" with selectable := false }, generatedColumn "id",
        column "folder_id", column "code"] }

/-- Folders are selected with their notes and then with their parents, which are folders again. -/
theorem laidOut_of_select_folders :
    let m : Model := ⟨[folder, note]⟩
    let options : SelectOptions := { limit := some 5, orderBy := [("parent.text", .asc)] }
    ∃ st, m.entityMap "Folder" = .ok (mapOf folder) ∧
      m.select (mapOf folder) (.constant true) ["notes", "parent"] options = .ok st ∧
      st.segments.map (·.start) = [0, 4, 8] ∧
      st.segments.map (·.position? "text") = [some 3, none, some 11] ∧
      st.columns[11]? = some (.column "folders__1" "title" "folders__1__title") ∧
      st.LaidOut m (mapOf folder) ["notes", "parent"] := by
  intro m options
  have mapped : m.entityMap "Folder" = .ok (mapOf folder) := rfl
  have parts : (m.select (mapOf folder) (.constant true) ["notes", "parent"] options).map
      (fun st => (st.segments.map (·.start), st.segments.map (·.position? "text"),
        st.columns[11]?)) =
      .ok ([0, 4, 8], [some 3, none, some 11],
        some (.column "folders__1" "title" "folders__1__title")) := by decide +kernel
  obtain ⟨st, h, heq⟩ := ok_of_map parts
  obtain ⟨hstarts, heq⟩ := Prod.mk.inj heq
  obtain ⟨hpositions, hcolumn⟩ := Prod.mk.inj heq
  exact ⟨st, mapped, h, hstarts, hpositions, hcolumn, laidOut_of_select mapped h⟩

end Sample

end GraphStore
