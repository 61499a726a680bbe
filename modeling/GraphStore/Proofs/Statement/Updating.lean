import GraphStore.Proofs.Statement.Orphans

/-!
# The update of a row

What an update is, said without the way in which it is put together. It is accepted if and only if
the record has a key of which no part is empty, every listed property is that of a column that may
be written, and there is a column to write (`EntityMap.Updatable`). It then assigns the columns that
are to be written, and no others, in the order of their declaration, and the record changes in its
auto timestamp alone (`EntityMap.IsUpdate`).

The filter asks for the key that the record has once it is stamped. That is the key it was given,
unless the auto timestamp is part of the key (`Sample.update_of_stampedKey`).
-/

set_option autoImplicit false

namespace GraphStore

namespace EntityMap

/-! ## What is asked of an update -/

/-- The column is to be written by an update with these fields: an update may write it, and it is
listed, or nothing is listed, or it is the auto timestamp. -/
def IsWritten (map : EntityMap) (fields : Option (List String)) (c : ColumnDef) : Prop :=
  c.isKey = false ∧ c.updatable = true ∧
    ((∀ listed, fields = some listed → c.property ∈ listed) ∨ map.autoTimestampColumn? = some c)

/-- What an update asks of the record and of the fields that are listed. -/
structure Updatable (map : EntityMap) (fields : Option (List String)) (record : Record) : Prop where
  keyed : ∃ c ∈ map.columns, c.isKey = true
  stored : ∀ c ∈ map.columns, c.isKey = true →
    ∃ v, record.field? c.property = some v ∧ v.isEmptyKey = false
  listed : ∀ listed, fields = some listed → ∀ property ∈ listed,
    ∃ c ∈ map.columns, c.property = property ∧ c.isKey = false ∧ c.updatable = true
  written : ∃ c ∈ map.columns, map.IsWritten fields c

/-- The statement writes what the record `final` holds to the row with its key: every column that is
to be written once, in the order of declaration. The edit found the record as `given` at the time
`time`, and changed the auto timestamp. -/
structure IsUpdate (map : EntityMap) (fields : Option (List String)) (time : Timestamp)
    (given final : Record) (st : UpdateStatement) : Prop where
  table_eq : st.table = map.table
  set_eq : ∃ columns : List ColumnDef, columns.Sublist map.columns ∧
    (∀ c ∈ map.columns, c ∈ columns ↔ map.IsWritten fields c) ∧
    st.set.map (fun a => (a.column, some a.param.value)) =
      columns.map fun c => (c.name, final.field? c.property)
  concerns_iff : ∀ s t, (Statement.update st).concerns s t = true ↔ map.SharesKey s final t
  stamped : ∀ c, map.autoTimestampColumn? = some c →
    final.field? c.property = some (.timestamp (some time))
  field?_eq : ∀ property, (∀ c, map.autoTimestampColumn? = some c → property ≠ c.property) →
    final.field? property = given.field? property
  onlyFields : Edit.OnlyFields given final

variable {map : EntityMap} {record : Record} {c : ColumnDef} {fields : Option (List String)}

/-! ## Columns that are written -/

theorem isWritable_iff : c.isWritable = true ↔ c.isKey = false ∧ c.updatable = true := by
  rw [ColumnDef.isWritable, Bool.and_eq_true, Bool.not_eq_true']

namespace Derived

/-- A column is found by the property that it has. -/
theorem column_eq_ok (h : map.Derived) {property : String} :
    map.column property = .ok c ↔ c ∈ map.columns ∧ c.property = property := by
  have found : map.column property = .ok c ↔ map.column? property = some c := by
    rw [column]
    constructor
    · exact ok_of_orFail
    · intro hc
      rw [hc]
      rfl
  rw [found]
  constructor
  · intro hc
    exact ⟨List.mem_of_find?_eq_some hc, by simpa using List.find?_some hc⟩
  · rintro ⟨hc, rfl⟩
    exact find?_of_nodup h.columns_nodup hc

/-- The listed properties pass the check if each of them is that of a column that may be written. -/
theorem checkFields_eq_ok (h : map.Derived) {listed : List String} :
    map.checkFields listed = .ok () ↔ ∀ property ∈ listed, ∃ c ∈ map.columns,
      c.property = property ∧ c.isKey = false ∧ c.updatable = true := by
  induction listed with
  | nil => exact iff_of_true rfl nofun
  | cons property rest ih =>
      rw [List.forall_mem_cons, ← ih, checkFields]
      constructor
      · intro hcheck
        obtain ⟨c, hc, hcheck⟩ := ok_of_bind hcheck
        obtain ⟨hmem, hproperty⟩ := h.column_eq_ok.mp hc
        obtain ⟨hwritable, hrest⟩ := ok_of_check hcheck
        have writable : c.isWritable = true := by simpa using hwritable
        exact ⟨⟨c, hmem, hproperty, isWritable_iff.mp writable⟩, hrest⟩
      · rintro ⟨⟨c, hmem, hproperty, hwritable⟩, hrest⟩
        have writable : c.isWritable = true := isWritable_iff.mpr hwritable
        rw [h.column_eq_ok.mpr ⟨hmem, hproperty⟩, ok_bind, writable]
        exact hrest

/-- The auto timestamp is the column with its property. -/
theorem autoTimestamp_iff (h : map.Derived) (hc : c ∈ map.columns) :
    map.autoTimestampColumn?.map (·.property) = some c.property ↔
      map.autoTimestampColumn? = some c := by
  constructor
  · intro hproperty
    obtain ⟨time, htime, equal⟩ := Option.map_eq_some_iff.mp hproperty
    have hmem : time ∈ map.columns := (exists_of_role h.autoTimestamp htime).1
    rw [htime, h.eq_of_property hmem hc equal]
  · intro htime
    rw [htime, Option.map_some]

theorem mem_written (h : map.Derived) (hc : c ∈ map.columns) :
    c ∈ map.written fields ↔ map.IsWritten fields c := by
  rw [written, List.mem_filter, Bool.and_eq_true, isWritable_iff, IsWritten]
  cases fields with
  | none => simp [hc]
  | some listed =>
      rw [Bool.or_eq_true, beq_iff_eq, h.autoTimestamp_iff hc]
      simp [hc, and_assoc]

theorem written_ne_nil (h : map.Derived) :
    map.written fields ≠ [] ↔ ∃ c ∈ map.columns, map.IsWritten fields c := by
  constructor
  · intro some_written
    obtain ⟨c, hc⟩ := List.exists_mem_of_ne_nil _ some_written
    have hmem : c ∈ map.columns := List.mem_of_mem_filter hc
    exact ⟨c, hmem, (h.mem_written hmem).mp hc⟩
  · rintro ⟨c, hmem, hc⟩
    exact List.ne_nil_of_mem ((h.mem_written hmem).mpr hc)

/-! ## Keys -/

theorem keyed_iff (h : map.Derived) :
    map.keys.isEmpty = false ↔ ∃ c ∈ map.columns, c.isKey = true := by
  constructor
  · intro hkeyed
    have required : map.requireKeys = .ok () := by
      rw [requireKeys, hkeyed]
      rfl
    obtain ⟨c, hc⟩ := List.exists_mem_of_ne_nil _ (h.keyColumns_ne_nil required)
    exact ⟨c, h.mem_keyColumns.mp hc⟩
  · rintro ⟨c, hc⟩
    have hmem : c ∈ map.keyColumns := h.mem_keyColumns.mpr hc
    -- a key column stands at one of the positions
    obtain ⟨position, hposition, -⟩ := List.mem_filterMap.mp hmem
    exact List.isEmpty_eq_false_iff.mpr (List.ne_nil_of_mem hposition)

end Derived

/-- The filter of a record is true on the rows with its key. -/
theorem hasKeyOf_eq_true {s : Semantics} {t : TableRow}
    (hfields : ∀ c ∈ map.keyColumns, ∃ v, record.field? c.property = some v) :
    map.hasKeyOf s record t = some true ↔ map.SharesKey s record t := by
  have all : map.hasKeyOf s record t = some true ↔ ∀ c ∈ map.keyColumns,
      s.test .equal (t c.name) ((record.field? c.property).getD .null) = some true := by
    rw [hasKeyOf, ← beq_iff_eq, Sqlite.Truth.all_beq_true, List.all_map, List.all_eq_true]
    simp only [Function.comp_apply, beq_iff_eq]
  rw [all]
  refine forall_congr' fun c => forall_congr' fun hc => ?_
  obtain ⟨v, hv⟩ := hfields c hc
  simp [hv]

/-- The key of a record is that of another one with the same values in its key columns. -/
theorem sharesKey_congr {record' : Record} {s : Semantics} {t : TableRow}
    (h : ∀ c ∈ map.keyColumns, record'.field? c.property = record.field? c.property) :
    map.SharesKey s record' t ↔ map.SharesKey s record t := by
  refine forall_congr' fun c => forall_congr' fun hc => ?_
  rw [h c hc]

end EntityMap

namespace Edit

variable {map : EntityMap} {fields : Option (List String)} {b b' : Bench}

/-- A stamped record holds the time that the clock showed. -/
theorem field?_of_stamp {stamped : Option String} {c : ColumnDef}
    (hcolumn : map.autoTimestampColumn? = some c) (h : stamp map b = .ok stamped b') :
    b'.record.field? c.property = some (.timestamp (some b.supply.takeTime.1)) := by
  unfold stamp at h
  simp only [hcolumn] at h
  obtain ⟨time, b₁, hnow, h₁⟩ := ends_of_bind h
  obtain ⟨_, b₂, hassign, h₂⟩ := ends_of_bind h₁
  cases hnow
  cases h₂
  exact Record.field?_of_setField_same (.inr ⟨_, rfl⟩) (ok_of_assignField hassign)

/-- An update is accepted when what it asks for is there, and at no other time. -/
theorem exists_update_iff (hderived : map.Derived) (htypes : map.HasTypes b.record) :
    (∃ st b', update map fields b = .ok st b') ↔ map.Updatable fields b.record := by
  have getD : (∀ property ∈ fields.getD [], ∃ c ∈ map.columns,
      c.property = property ∧ c.isKey = false ∧ c.updatable = true) ↔
      ∀ listed, fields = some listed → ∀ property ∈ listed, ∃ c ∈ map.columns,
        c.property = property ∧ c.isKey = false ∧ c.updatable = true := by
    cases fields <;> simp
  constructor
  · rintro ⟨st, b', h⟩
    obtain ⟨hstored, hfields, hset, -⟩ := steps_of_update h
    obtain ⟨hkeyed, hkeys⟩ := EntityMap.hasEmptyKey_eq_false.mp hstored
    have columns := (ok_of_update hderived h).2.2.set_eq
    have written : map.written fields ≠ [] := by
      intro none
      rw [none, List.map_nil, List.map_eq_nil_iff] at columns
      exact hset columns
    exact {
      keyed := hderived.keyed_iff.mp hkeyed
      stored := fun c hc hkey => hkeys c (hderived.mem_keyColumns.mpr ⟨hc, hkey⟩)
      listed := getD.mp (hderived.checkFields_eq_ok.mp hfields)
      written := hderived.written_ne_nil.mp written }
  · intro h
    have hkeyed : map.keys.isEmpty = false := hderived.keyed_iff.mpr h.keyed
    have hstored : map.hasEmptyKey b.record = .ok false := by
      refine EntityMap.hasEmptyKey_eq_false.mpr ⟨hkeyed, fun c hc => ?_⟩
      obtain ⟨hmem, hkey⟩ := hderived.mem_keyColumns.mp hc
      exact h.stored c hmem hkey
    have hfields : map.checkFields (fields.getD []) = .ok () :=
      hderived.checkFields_eq_ok.mpr (getD.mpr h.listed)
    exact exists_update hderived htypes hstored hfields (hderived.written_ne_nil.mpr h.written)

/-- What the statement is and what was done to the record. -/
theorem isUpdate_of_update {st : UpdateStatement} (hderived : map.Derived)
    (htypes : map.HasTypes b.record) (h : update map fields b = .ok st b') :
    map.IsUpdate fields b.supply.takeTime.1 b.record b'.record st := by
  obtain ⟨-, honly, hrow⟩ := ok_of_update hderived h
  obtain ⟨-, -, -, stamped, -, -, hstamp, -⟩ := steps_of_update h
  have htypes' : map.HasTypes b'.record := by
    obtain ⟨_, b₁, hstamp', h₁⟩ := exists_stamp hderived htypes
    rw [hstamp] at hstamp'
    cases hstamp'
    exact h₁
  refine {
    table_eq := hrow.table_eq
    set_eq := ⟨map.written fields, List.filter_sublist, fun c => hderived.mem_written, hrow.set_eq⟩
    concerns_iff := fun s t => ?_
    stamped := fun c hc => field?_of_stamp hc hstamp
    field?_eq := fun property => (assignsAt_of_stamp hstamp).field?_eq
    onlyFields := honly }
  rw [hrow.concerns_eq, beq_iff_eq]
  refine EntityMap.hasKeyOf_eq_true fun c hc => ?_
  exact htypes'.exists_field? hderived (hderived.mem_keyColumns.mp hc).1

/-- **The update of a row.** For every entity map, record and list of fields, an update is accepted
if and only if the record has a key that is nowhere empty, the listed fields are columns that may be
written, and there is a column to write. It assigns those columns what the record holds afterwards,
in the rows that have the key that the record has afterwards; nothing but the auto timestamp of the
record has changed. If that is no key, these are the rows that have the key which the record was
given. -/
theorem updates_row {m : Model} {map : EntityMap} {record : Record}
    (hmap : m.entityMap record.type = .ok map) (htypes : map.HasTypes record)
    (fields : Option (List String)) (supply : Supply) :
    ((∃ st b, update map fields ⟨record, supply⟩ = .ok st b) ↔ map.Updatable fields record) ∧
    ∀ st b, update map fields ⟨record, supply⟩ = .ok st b →
      map.IsUpdate fields supply.takeTime.1 record b.record st ∧
      ((∀ c, map.autoTimestampColumn? = some c → c.isKey = false) →
        ∀ s t, (Statement.update st).concerns s t = true ↔ map.SharesKey s record t) := by
  have hderived := Model.derived_of_entityMap hmap
  refine ⟨exists_update_iff (b := ⟨record, supply⟩) hderived htypes, fun st b h => ?_⟩
  have is := isUpdate_of_update hderived htypes h
  refine ⟨is, fun hkeyless s t => ?_⟩
  rw [is.concerns_iff]
  -- the key columns are not stamped
  refine EntityMap.sharesKey_congr fun c hc => is.field?_eq c.property fun time htime equal => ?_
  obtain ⟨hmem, hkey⟩ := hderived.mem_keyColumns.mp hc
  have hmem' := (EntityMap.Derived.exists_of_role hderived.autoTimestamp htime).1
  rw [hderived.eq_of_property hmem hmem' equal, hkeyless time htime] at hkey
  cases hkey

end Edit

namespace Sample

/-- Main records with a number and the time of the last write. -/
def timed : EntityType where
  prototype := mainPrototype
  declaration :=
    { table := "mains"
      columns := [generatedColumn "id", column "code", column "num",
        { column "at" with autoTimestamp := true }] }

/-- A stored main record. -/
def storedMain : Record := mainPrototype.withValue "id" (.int32 (some 1))

/-- Main records whose key is the time of the last write. -/
def timeKeyed : EntityType where
  prototype := mainPrototype
  declaration :=
    { table := "mains"
      columns := [{ keyColumn "at" with autoTimestamp := true }, column "num"] }

/-- A main record that was stored at the start of 1970. -/
def storedThen : Record := mainPrototype.withValue "at" (.timestamp (some .epoch))

theorem typed_mainPrototype : mainPrototype.Typed := Record.typed_of_fields (by decide)

theorem hasTypes_storedMain : (mapOf timed).HasTypes storedMain where
  prototype := typed_mainPrototype
  fieldType?_eq _ := Record.fieldType?_withValue ..
  typed := Record.typed_of_fields (by decide)

theorem hasTypes_storedThen : (mapOf timeKeyed).HasTypes storedThen where
  prototype := typed_mainPrototype
  fieldType?_eq _ := Record.fieldType?_withValue ..
  typed := Record.typed_of_fields (by decide)

end Sample

namespace Edit

/-- The number of a main record is updated, listed twice, and the time with it; the text is not. -/
theorem updates_row_numbers : ∃ st b,
    (Sample.model (some Sample.timed.declaration) none).entityMap Sample.storedMain.type =
      .ok (Sample.mapOf Sample.timed) ∧
    (Sample.mapOf Sample.timed).HasTypes Sample.storedMain ∧
    update (Sample.mapOf Sample.timed) (some ["num", "num"])
      ⟨Sample.storedMain, NumberedSupply.supply⟩ = .ok st b ∧
    (Sample.mapOf Sample.timed).IsUpdate (some ["num", "num"]) NumberedSupply.start
      Sample.storedMain b.record st ∧ st.set.map (·.column) = ["num", "at"] := by
  have hmap : (Sample.model (some Sample.timed.declaration) none).entityMap
      Sample.storedMain.type = .ok (Sample.mapOf Sample.timed) := rfl
  obtain ⟨st, b, h, hcolumns⟩ : ∃ st b, update (Sample.mapOf Sample.timed) (some ["num", "num"])
      ⟨Sample.storedMain, NumberedSupply.supply⟩ = .ok st b ∧
      st.set.map (·.column) = ["num", "at"] := ⟨_, _, rfl, rfl⟩
  obtain ⟨-, is⟩ := updates_row hmap Sample.hasTypes_storedMain (some ["num", "num"])
    NumberedSupply.supply
  exact ⟨st, b, hmap, Sample.hasTypes_storedMain, h, (is st b h).1, hcolumns⟩

end Edit

namespace Sample

/-- A record whose key is stamped is not found again: the update asks for the row of the new time,
and is not about the row that has the key of the record. -/
theorem update_of_stampedKey : ∃ st b s t,
    (model (some timeKeyed.declaration) none).entityMap storedThen.type = .ok (mapOf timeKeyed) ∧
    Edit.update (mapOf timeKeyed) none ⟨storedThen, NumberedSupply.supply⟩ = .ok st b ∧
    (mapOf timeKeyed).SharesKey s storedThen t ∧ (Statement.update st).concerns s t = false := by
  obtain ⟨st, b, h⟩ : ∃ st b, Edit.update (mapOf timeKeyed) none
      ⟨storedThen, NumberedSupply.supply⟩ = .ok st b := ⟨_, _, rfl⟩
  have key : (mapOf timeKeyed).keyColumns =
      [⟨"at", "at", .timestamp none, false, .key, true, true⟩] := rfl
  refine ⟨st, b, Semantics.byContent, cells [("at", .timestamp (some .epoch))], rfl, h, ?_, ?_⟩
  · intro c hc
    rw [key, List.mem_singleton] at hc
    subst hc
    exact ⟨_, rfl, by decide +kernel⟩
  · have hderived := Model.derived_of_entityMap
      (show (model (some timeKeyed.declaration) none).entityMap "Main" = .ok (mapOf timeKeyed)
        from rfl)
    have is := Edit.isUpdate_of_update (b := ⟨storedThen, NumberedSupply.supply⟩) hderived
      hasTypes_storedThen h
    rw [← Bool.not_eq_true, is.concerns_iff]
    intro shares
    obtain ⟨v, hv, hequal⟩ := shares _ (List.mem_singleton_self _)
    have stamped := is.stamped _ (show (mapOf timeKeyed).autoTimestampColumn? = some _ from rfl)
    cases hv.symm.trans stamped
    exact absurd hequal (by decide +kernel)

end Sample

end GraphStore
