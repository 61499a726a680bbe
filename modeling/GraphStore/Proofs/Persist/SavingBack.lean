import GraphStore.Proofs.Persist.JoinedRows
import GraphStore.Proofs.Sqlite.StoredValues
import GraphStore.Proofs.Statement.Layout
import GraphStore.Proofs.Statement.Updating
import GraphStore.Proofs.Value.TimestampText

/-!
# Loading and saving back

A record that a select has read from a row, and that is not changed, is written back by an update.
A column that is selected gets the cell that was there, in the form in which the type of its field
reads it; the form is the same if the cell holds a value of that type, or what a value of that type
was stored as (`FieldType.ReadsBack`).

What is selected and what is written are declared apart. A column that is written but not selected
loses its value: it gets that of a new record (`Sample.update_of_unselected`).
-/

set_option autoImplicit false

namespace GraphStore

/-! ## Values that come back -/

namespace FieldType

variable {type : FieldType} {cell v w : Value}

/-- What a type without options and boxes reads of a cell is the value that the cell was made of. -/
theorem eq_of_convert_restored_base (hany : type.base ≠ .any) (hv : type.base.Holds v)
    (hnan : v.isNaN = false) (h : type.base.convert v.restored = .ok w) : w = v := by
  by_cases hstored : type.base ∈ storedTypes
  · rw [convert_restored_base hstored hv hnan] at h
    exact (Except.ok.inj h).symm
  induction type with
  | optional type ih => exact ih hany hv h hstored
  | boxed type ih => exact ih hany hv h hstored
  | timestamp =>
      obtain ⟨t, rfl⟩ := hv
      rw [Value.restored_timestamp] at h
      simp only [base, convert, readTimestamp, Timestamp.parse?_storedText] at h
      -- a text that is not read gives no value
      by_cases hshort : Timestamp.IsShortYear t.year
      · rw [if_pos hshort] at h
        cases h
      · rw [if_neg hshort] at h
        exact (Except.ok.inj h).symm
  | any => exact absurd rfl hany
  | borrowedText => cases h
  | _ => exact absurd (by decide) hstored

/-- What a field reads of a cell is the value that the cell was made of. -/
theorem eq_of_convert_restored (hany : type.base ≠ .any) (hv : type.Holds v)
    (hnan : v.isNaN = false) (h : type.convert v.restored = .ok w) : w = v := by
  by_cases hnull : v.isNull = true
  · rw [Value.restored_of_isNull hnull, convert_null hany hv hnull] at h
    exact (Except.ok.inj h).symm
  · have held : type.base.Holds v := (isNull_or_holds_base hv).resolve_left hnull
    rcases convert_base h with ⟨hrestored, -⟩ | h
    · rw [Value.isNull_restored hnan] at hrestored
      exact absurd hrestored hnull
    · exact eq_of_convert_restored_base hany held hnan h

/-- `v` is what a field of the type holds after it was read from the cell: the value of the cell, if
the type has it, and the value that was stored there, if it has come back in another form. -/
structure ReadsBack (type : FieldType) (cell v : Value) : Prop where
  convert_eq : type.convert cell = .ok v
  eq_of_holds : type.Holds cell → v = cell
  eq_of_restored : ∀ x : Value, type.Holds x → x.isNaN = false → cell = x.restored → v = x

theorem readsBack_of_convert (hany : type.base ≠ .any) (h : type.convert cell = .ok v) :
    type.ReadsBack cell v where
  convert_eq := h
  eq_of_holds hholds := (takes_of_convert rfl hholds h).resolve_right fun any => hany any.1
  eq_of_restored _ hholds hnan hcell := eq_of_convert_restored hany hholds hnan (hcell ▸ h)

end FieldType

namespace EntityMap

/-- No column is of a field that takes values of every type. -/
def IsConcrete (map : EntityMap) : Prop :=
  ∀ c ∈ map.columns, ∀ type ∈ map.prototype.fieldType? c.property, type.base ≠ .any

instance {map : EntityMap} : Decidable map.IsConcrete :=
  inferInstanceAs (Decidable (∀ c ∈ map.columns, ∀ type ∈ map.prototype.fieldType? c.property,
    type.base ≠ .any))

/-- The column is assigned `v` when a record that was read from the row `t` is saved back: what was
read of its cell, or what a new record has there if the column is not selected. -/
structure SavesBack (map : EntityMap) (t : TableRow) (c : ColumnDef) (v : Value) : Prop where
  selected : c.selectable = true → ∃ type, map.prototype.fieldType? c.property = some type ∧
    type.ReadsBack (t c.name) v
  unselected : c.selectable = false → v = c.value

end EntityMap

/-! ## The record of a row -/

namespace Segment

variable {seg : Segment} {columns : List SelectColumn} {j : JoinedRow} {row : Row} {t : TableRow}
  {record : Record} {c : ColumnDef}

/-- The cell of a column that is selected is that of the row of the table. -/
theorem Laid.cell?_of_selectable (h : seg.Laid columns) (hderived : seg.map.Derived)
    (hrow : row.values = columns.map (SelectColumn.output j))
    (hj : j.lookup seg.label = some (some t)) (hc : c ∈ seg.map.columns)
    (hselectable : c.selectable = true) : seg.cell? row c.property = some (t c.name) := by
  obtain ⟨i, hi, hposition⟩ :=
    h.exists_position hderived (List.mem_filter.mpr ⟨hc, hselectable⟩)
  rw [cell?, hposition, Option.bind_some, h.value_eq hrow hi, JoinedRow.cell_of_lookup hj]

/-- A column that is not selected has no cell. -/
theorem ShowsColumns.cell?_of_unselectable (h : seg.ShowsColumns) (hderived : seg.map.Derived)
    (hc : c ∈ seg.map.columns) (hhidden : c.selectable = false) :
    seg.cell? row c.property = none := by
  have absent : seg.position? c.property = none := by
    refine (h.position?_eq_none c.property).mpr fun c' hc' hselectable hproperty => ?_
    rw [hderived.eq_of_property hc' hc hproperty, hhidden] at hselectable
    cases hselectable
  rw [cell?, absent]
  rfl

/-- The record that the segment shows in a row of the table holds what is to be saved back. -/
theorem Laid.savesBack_of_readRow (h : seg.Laid columns) (hderived : seg.map.Derived)
    (hconcrete : seg.map.IsConcrete) (hrow : row.values = columns.map (SelectColumn.output j))
    (hj : j.lookup seg.label = some (some t)) (hread : seg.readRow row = .ok (some record))
    (hc : c ∈ seg.map.columns) {v : Value} (hv : record.field? c.property = some v) :
    seg.map.SavesBack t c v := by
  have hnodup : seg.properties.Nodup := by
    rw [h.properties_eq]
    exact EntityMap.Stores.shown_nodup hderived
  obtain ⟨-, hdecodes⟩ := decodes_of_readRow hnodup hread
  refine ⟨fun hselectable => ?_, fun hhidden => ?_⟩
  · have hcell := h.cell?_of_selectable hderived hrow hj hc hselectable
    obtain ⟨type, w, htype, hw, hfield⟩ := hdecodes.field_of_cell c.property _ hcell
    obtain rfl : w = v := Option.some.inj (hfield.symm.trans hv)
    exact ⟨type, htype, FieldType.readsBack_of_convert (hconcrete c hc type htype) hw⟩
  · have hcell : seg.cell? row c.property = none :=
      ShowsColumns.cell?_of_unselectable h.properties_eq hderived hc hhidden
    have hfield := hdecodes.field_without_cell c.property hcell
    rw [hv, hderived.field_of_column c hc] at hfield
    exact Option.some.inj hfield

end Segment

/-! ## The segment of the entity -/

/-- The first segment of a select is that of its entity, and says where the columns of its table
are. -/
theorem root_of_select {m : Model} {map : EntityMap} {p : Predicate} {includes : List String}
    {options : SelectOptions} {st : SelectStatement} {root : Segment}
    (h : m.select map p includes options = .ok st) (hroot : st.segments[0]? = some root) :
    root.map = map ∧ root.label = st.label ∧ root.Laid st.columns := by
  obtain ⟨shows, before, after, hcolumns, hstart, -⟩ := (tiles_of_select h).exists_block hroot
  rw [Nat.zero_add] at hcolumns hstart
  have laid : root.Laid st.columns := ⟨⟨before, after, _, hstart.symm, hcolumns⟩, shows⟩
  obtain ⟨d, f, context, orderBy, hd, -, -, rfl⟩ := steps_of_select h
  obtain ⟨ys, -, hosts⟩ := (SelectDraft.hosts_start m map options.includeDeleted
    { clause := .select }).includeRelations hd
  obtain ⟨first, hsegments, -, hmapped, hlabel⟩ := hosts.segments_eq
  have segments : d.segments[0]? = some root := hroot
  rw [hsegments] at segments
  obtain rfl : first = root := Option.some.inj segments
  exact ⟨hmapped, hlabel, laid⟩

namespace Edit

variable {map : EntityMap} {fields : Option (List String)} {b b' : Bench} {t : TableRow}

/-- Saving a record back assigns what it was read from, except to the column that is stamped. -/
theorem savesBack_of_update {st : UpdateStatement} (hderived : map.Derived)
    (htypes : map.HasTypes b.record)
    (hsaves : ∀ c ∈ map.columns, ∀ v, b.record.field? c.property = some v → map.SavesBack t c v)
    (h : update map fields b = .ok st b') :
    ∃ columns : List ColumnDef, columns.Sublist map.columns ∧
      (∀ c ∈ map.columns, c ∈ columns ↔ map.IsWritten fields c) ∧
      List.Forall₂ (fun c a => a.column = c.name ∧
        (map.autoTimestampColumn? ≠ some c → map.SavesBack t c a.param.value)) columns st.set := by
  have is := isUpdate_of_update hderived htypes h
  obtain ⟨columns, hsub, hwritten, hset⟩ := is.set_eq
  have pairs : List.Forall₂ (fun (c : ColumnDef) (a : Assignment) =>
      (c.name, b'.record.field? c.property) = (a.column, some a.param.value)) columns st.set :=
    map_eq_map_iff_forall₂.mp hset.symm
  refine ⟨columns, hsub, hwritten, forall₂_imp_of_mem pairs fun c hc a equal => ?_⟩
  obtain ⟨hname, hvalue⟩ := Prod.mk.inj equal
  refine ⟨hname.symm, fun hunstamped => ?_⟩
  -- the field has not changed since it was read
  have hmem : c ∈ map.columns := hsub.subset hc
  have kept : b'.record.field? c.property = b.record.field? c.property := by
    refine is.field?_eq c.property fun time htime equal => ?_
    have hmem' := (EntityMap.Derived.exists_of_role hderived.autoTimestamp htime).1
    obtain rfl : c = time := hderived.eq_of_property hmem hmem' equal
    exact hunstamped htime
  exact hsaves c hmem _ (kept.symm.trans hvalue)

/-- **Loading and saving back.** For every entity map without columns for values of every type,
every select of it and every row of its table: if the segment of the entity shows a record in the
row, then an update of that record is accepted whenever there are keys and columns for it, and
assigns to every column that is to be written, apart from the auto timestamp, what was read of its
cell, if the column is selected, and what a new record has there, if it is not. -/
theorem saves_back {m : Model} {type : String} {map : EntityMap} {p : Predicate}
    {includes : List String} {options : SelectOptions} {st : SelectStatement} {root : Segment}
    {j : JoinedRow} {t : TableRow} {record : Record} (hmap : m.entityMap type = .ok map)
    (htyped : map.prototype.Typed) (hconcrete : map.IsConcrete)
    (h : m.select map p includes options = .ok st) (hroot : st.segments[0]? = some root)
    (hj : j.lookup st.label = some (some t))
    (hread : root.readRow (st.output j) = .ok (some record))
    (fields : Option (List String)) (supply : Supply) :
    ((∃ u b, update map fields ⟨record, supply⟩ = .ok u b) ↔ map.Updatable fields record) ∧
    ∀ u b, update map fields ⟨record, supply⟩ = .ok u b →
      ∃ columns : List ColumnDef, columns.Sublist map.columns ∧
        (∀ c ∈ map.columns, c ∈ columns ↔ map.IsWritten fields c) ∧
        List.Forall₂ (fun c a => a.column = c.name ∧
          (map.autoTimestampColumn? ≠ some c → map.SavesBack t c a.param.value)) columns u.set := by
  have hderived := Model.derived_of_entityMap hmap
  obtain ⟨rfl, hlabel, hlaid⟩ := root_of_select h hroot
  have htypes : root.map.HasTypes record := by
    obtain ⟨typed, htypes, -⟩ := Segment.typed_of_readRow htyped hread
    exact ⟨htyped, htypes, typed⟩
  refine ⟨exists_update_iff (b := ⟨record, supply⟩) hderived htypes, fun u b hupdate => ?_⟩
  refine savesBack_of_update (b := ⟨record, supply⟩) hderived htypes (fun c hc v hv => ?_) hupdate
  exact hlaid.savesBack_of_readRow hderived hconcrete rfl (hlabel ▸ hj) hread hc hv

end Edit

namespace Sample

/-- Main records whose code is not selected. -/
def unselected : EntityType where
  prototype := mainPrototype
  declaration :=
    { table := "mains"
      columns := [generatedColumn "id", { column "code" with selectable := false },
        column "num", column "flag"] }

/-- A row with a code, and with a truth value that is neither of the numbers for one. -/
def unselectedRow : TableRow :=
  cells [("id", .int64 (some 1)), ("code", .varchar (some "A")), ("num", .int64 (some 5)),
    ("flag", .int64 (some 2))]

end Sample

namespace Edit

/-- A main record whose code was not selected is saved back with its number and its flag. -/
theorem saves_back_unselected : ∃ st root record u b,
    (Sample.model (some Sample.unselected.declaration) none).entityMap "Main" =
      .ok (Sample.mapOf Sample.unselected) ∧
    (Sample.mapOf Sample.unselected).prototype.Typed ∧
    (Sample.mapOf Sample.unselected).IsConcrete ∧
    (Sample.model (some Sample.unselected.declaration) none).select
      (Sample.mapOf Sample.unselected) (.constant true) [] {} = .ok st ∧
    st.segments[0]? = some root ∧
    root.readRow (st.output [(st.label, some Sample.unselectedRow)]) = .ok (some record) ∧
    update (Sample.mapOf Sample.unselected) (some ["num"]) ⟨record, NumberedSupply.supply⟩ =
      .ok u b ∧
    ∃ columns : List ColumnDef, columns.map (·.name) = ["num"] ∧
      List.Forall₂ (fun c a => a.column = c.name ∧
        ((Sample.mapOf Sample.unselected).autoTimestampColumn? ≠ some c →
          (Sample.mapOf Sample.unselected).SavesBack Sample.unselectedRow c a.param.value))
        columns u.set := by
  have hmap : (Sample.model (some Sample.unselected.declaration) none).entityMap "Main" =
      .ok (Sample.mapOf Sample.unselected) := rfl
  have hconcrete : (Sample.mapOf Sample.unselected).IsConcrete := by decide +kernel
  obtain ⟨st, root, record, u, b, h, hroot, hread, hupdate, hnames⟩ : ∃ st root record u b,
      (Sample.model (some Sample.unselected.declaration) none).select
        (Sample.mapOf Sample.unselected) (.constant true) [] {} = .ok st ∧
      st.segments[0]? = some root ∧
      root.readRow (st.output [(st.label, some Sample.unselectedRow)]) = .ok (some record) ∧
      update (Sample.mapOf Sample.unselected) (some ["num"]) ⟨record, NumberedSupply.supply⟩ =
        .ok u b ∧ u.set.map (·.column) = ["num"] := ⟨_, _, _, _, _, rfl, rfl, rfl, rfl, rfl⟩
  obtain ⟨-, saves⟩ := saves_back hmap Sample.typed_mainPrototype hconcrete h hroot
    (List.lookup_cons_self ..) hread (some ["num"]) NumberedSupply.supply
  obtain ⟨columns, -, -, hall⟩ := saves u b hupdate
  refine ⟨st, root, record, u, b, hmap, Sample.typed_mainPrototype, hconcrete, h, hroot, hread,
    hupdate, columns, ?_, hall⟩
  rw [← hnames]
  exact map_eq_map_iff_forall₂.mpr (hall.imp fun _ _ assigned => assigned.1.symm)

end Edit

namespace Sample

/-- The code of the row is lost, and its flag is written as the number for true. -/
theorem update_of_unselected : ∃ st root record u b,
    (model (some unselected.declaration) none).entityMap "Main" = .ok (mapOf unselected) ∧
    (model (some unselected.declaration) none).select (mapOf unselected) (.constant true) [] {} =
      .ok st ∧
    st.segments[0]? = some root ∧
    root.readRow (st.output [(st.label, some unselectedRow)]) = .ok (some record) ∧
    Edit.update (mapOf unselected) none ⟨record, NumberedSupply.supply⟩ = .ok u b ∧
    u.set.map (fun a => (a.column, a.param.value)) = [("code", .varchar (some "")),
      ("num", .int32 (some 5)), ("flag", .boolean (some true))] ∧
    unselectedRow "code" = .varchar (some "A") ∧ unselectedRow "flag" = .int64 (some 2) := by
  refine ⟨_, _, _, _, _, rfl, rfl, rfl, rfl, rfl, rfl, rfl, rfl⟩

end Sample

end GraphStore
