import GraphStore.Persist.Graphs
import GraphStore.Proofs.Model.Derived
import GraphStore.Proofs.Record.Typing
import GraphStore.Proofs.Sql.Evaluation
import GraphStore.Proofs.Value.KeyText
import GraphStore.Statement.Select

/-!
# Loading records from rows

`EntityMap.load` is the record that a row of a table stands for. A table is stored well
(`EntityMap.Stores`) when all its cells can be read and its single key tells the rows apart; then
every row can be loaded and the text of its key determines it.
-/

set_option autoImplicit false

namespace GraphStore

/-! ## Loading -/

namespace EntityMap

/-- The record with the cells of a row assigned to the properties of columns. -/
def loadColumns (t : TableRow) : List ColumnDef → Record → Except Error Record
  | [], record => .ok record
  | c :: rest, record => do
      let record ← record.setField c.property (t c.name)
      loadColumns t rest record

/-- The columns that are selected. -/
def shownColumns (map : EntityMap) : List ColumnDef := map.columns.filter (·.selectable)

/-- The record that a row of the table stands for: a new record with the cells of the row. -/
def load (map : EntityMap) (t : TableRow) : Except Error Record :=
  loadColumns t map.shownColumns map.prototype

/-- A cell of the row can be read into the field of its column. -/
def Reads (map : EntityMap) (t : TableRow) (c : ColumnDef) : Prop :=
  ∃ type w, map.prototype.fieldType? c.property = some type ∧ type.convert (t c.name) = .ok w

instance {map : EntityMap} {t : TableRow} {c : ColumnDef} : Decidable (map.Reads t c) :=
  decidable_of_iff ((map.prototype.fieldType? c.property).any fun type =>
      (type.convert (t c.name)).isOk = true) <| by
    unfold Reads
    cases map.prototype.fieldType? c.property with
    | none => simp
    | some type => cases h : type.convert (t c.name) <;> simp [Except.isOk, Except.toBool, h]

/-- What a record has in common with the one that it was loaded over. -/
structure LoadedOver (record loaded : Record) : Prop where
  type_eq : loaded.type = record.type
  slots_eq : loaded.slots = record.slots
  fieldType?_eq : ∀ p, loaded.fieldType? p = record.fieldType? p

/-- The record of a row and the text of its key. -/
def shown (map : EntityMap) (t : TableRow) : Record × String :=
  match map.load t with
  | .ok record => (record, (map.keyString record).toOption.getD "")
  | .error _ => default

variable {map : EntityMap} {t : TableRow} {cs : List ColumnDef} {record : Record}

theorem exists_loadColumns
    (h : ∀ c ∈ cs, ∃ type w, record.fieldType? c.property = some type ∧
      type.convert (t c.name) = .ok w) (hnodup : (cs.map (·.property)).Nodup) :
    ∃ loaded, loadColumns t cs record = .ok loaded ∧ LoadedOver record loaded ∧
      (∀ p, p ∉ cs.map (·.property) → loaded.field? p = record.field? p) ∧
      ∀ c ∈ cs, ∀ type w, record.fieldType? c.property = some type →
        type.convert (t c.name) = .ok w → loaded.field? c.property = some w := by
  induction cs generalizing record with
  | nil =>
      exact ⟨record, rfl, ⟨rfl, rfl, fun _ => rfl⟩, fun _ _ => rfl,
        fun _ hc => absurd hc List.not_mem_nil⟩
  | cons c cs ih =>
      rw [List.map_cons, List.nodup_cons] at hnodup
      obtain ⟨type, w, htype, hw⟩ := h c (by simp)
      have hset := Record.setField_of_convert htype hw
      have types : ∀ p, (record.withValue c.property w).fieldType? p = record.fieldType? p :=
        fun p => Record.fieldType?_withValue record c.property p w
      -- the other columns are assigned to other fields and find the same types
      obtain ⟨loaded, hloaded, hkept, others, here⟩ := @ih (record.withValue c.property w)
        (fun c' hc' => by rw [types]; exact h c' (List.mem_cons_of_mem c hc')) hnodup.2
      refine ⟨loaded, ?_, ⟨hkept.type_eq, hkept.slots_eq,
        fun p => (hkept.fieldType?_eq p).trans (types p)⟩, fun p hp => ?_,
        fun c' hc' type' w' htype' hw' => ?_⟩
      · rw [loadColumns, hset, ok_bind, hloaded]
      · rw [List.map_cons, List.mem_cons, not_or] at hp
        rw [others p hp.2, Record.field?_withValue, if_neg hp.1]
      · rcases List.mem_cons.mp hc' with rfl | hc'
        · rw [htype] at htype'
          cases htype'
          rw [hw] at hw'
          cases hw'
          rw [others c'.property hnodup.1, Record.field?_withValue_self htype]
        · exact here c' hc' type' w' (by rw [types, htype']) hw'

/-- The rows of the table of an entity with one key: every cell can be read, and the keys as read
are not empty and all different. -/
structure Stores (map : EntityMap) (key : ColumnDef) (type : FieldType) (rows : List TableRow) :
    Prop where
  keyColumns_eq : map.keyColumns = [key]
  fieldType?_eq : map.prototype.fieldType? key.property = some type
  isKey : type.IsKey
  reads : ∀ t ∈ rows, ∀ c ∈ map.columns, c.selectable = true → map.Reads t c
  nonempty : ∀ t ∈ rows, ∀ w, type.convert (t key.name) = .ok w → w.isEmptyKey = false
  distinct : (rows.map fun t => type.convert (t key.name)).Nodup

namespace Stores

variable {key : ColumnDef} {type : FieldType} {rows : List TableRow}

theorem key_mem (h : map.Stores key type rows) (hderived : map.Derived) :
    key ∈ map.columns ∧ key.selectable = true :=
  hderived.mem_of_keyColumns (by rw [h.keyColumns_eq]; exact List.mem_singleton_self key)

theorem key_shown (h : map.Stores key type rows) (hderived : map.Derived) :
    key ∈ map.shownColumns := List.mem_filter.mpr (h.key_mem hderived)

theorem shown_nodup (hderived : map.Derived) :
    (map.shownColumns.map (·.property)).Nodup :=
  hderived.columns_nodup.sublist (List.filter_sublist.map _)

/-- Every row can be loaded, with the key that its cell is read as. -/
theorem exists_load (h : map.Stores key type rows) (hderived : map.Derived) {t : TableRow}
    (ht : t ∈ rows) : ∃ loaded w, map.load t = .ok loaded ∧ LoadedOver map.prototype loaded ∧
      type.convert (t key.name) = .ok w ∧ loaded.field? key.property = some w ∧
      w.isEmptyKey = false ∧ (t key.name).isEmptyKey = false := by
  obtain ⟨loaded, hload, hkept, -, here⟩ := exists_loadColumns (t := t)
    (fun c hc => h.reads t ht c (List.mem_filter.mp hc).1 (List.mem_filter.mp hc).2)
    (shown_nodup hderived)
  obtain ⟨type', w, htype, hw⟩ := h.reads t ht key (h.key_mem hderived).1 (h.key_mem hderived).2
  rw [h.fieldType?_eq] at htype
  cases htype
  have hempty := h.nonempty t ht w hw
  exact ⟨loaded, w, hload, hkept, hw, here key (h.key_shown hderived) type w h.fieldType?_eq hw,
    hempty, FieldType.isEmptyKey_of_convert h.isKey hw hempty⟩

/-- Rows with the same key are the same. -/
theorem eq_of_convert (h : map.Stores key type rows) {t t' : TableRow} (ht : t ∈ rows)
    (ht' : t' ∈ rows) (heq : type.convert (t key.name) = type.convert (t' key.name)) : t = t' :=
  List.inj_on_of_nodup_map h.distinct ht ht' heq

/-- Rows whose keys have the same text are the same. -/
theorem eq_of_text (h : map.Stores key type rows) {t t' : TableRow} (ht : t ∈ rows)
    (ht' : t' ∈ rows) {w w' : Value} (hw : type.convert (t key.name) = .ok w)
    (hw' : type.convert (t' key.name) = .ok w') (heq : w.text = w'.text) : t = t' := by
  refine h.eq_of_convert ht ht' ?_
  rw [hw, hw', FieldType.text_injective h.isKey (FieldType.convert_holds hw)
    (FieldType.convert_holds hw') (h.nonempty t ht w hw) (h.nonempty t' ht' w' hw') heq]

theorem keyString_eq (h : map.Stores key type rows) {record : Record} {w : Value}
    (hw : record.field? key.property = some w) :
    map.keyString record = .ok w.text ∧ ∀ n, map.identity record n = .ok w.text := by
  have hkeys : map.keys.isEmpty = false := by
    cases hkeys : map.keys with
    | nil =>
        have none := h.keyColumns_eq
        rw [EntityMap.keyColumns, hkeys] at none
        cases none
    | cons i is => rfl
  have hread : map.read record key.property = .ok w := by
    rw [EntityMap.read, hw]
    rfl
  have text : map.keyString record = .ok w.text := by
    simp only [EntityMap.keyString, EntityMap.compositeKey, EntityMap.requireKeys, hkeys,
      Bool.false_eq_true, if_false, ok_bind, h.keyColumns_eq, hread]
    rfl
  refine ⟨text, fun n => ?_⟩
  simp only [EntityMap.identity, hkeys, Bool.false_eq_true, if_false, text]

/-- What a row of the table shows is the record that it is loaded as, and the text of its key. -/
theorem shown_eq (h : map.Stores key type rows) (hderived : map.Derived) {t : TableRow}
    (ht : t ∈ rows) : map.load t = .ok (map.shown t).1 ∧
      LoadedOver map.prototype (map.shown t).1 ∧
      (∀ n, map.identity (map.shown t).1 n = .ok (map.shown t).2) ∧
      (t key.name).isEmptyKey = false ∧
      ∃ w, type.convert (t key.name) = .ok w ∧ (map.shown t).2 = w.text := by
  obtain ⟨loaded, w, hload, hkept, hw, hfield, -, hempty⟩ := h.exists_load hderived ht
  obtain ⟨text, identity⟩ := h.keyString_eq hfield
  have : map.shown t = (loaded, w.text) := by
    simp only [shown, hload, text]
    rfl
  rw [this]
  exact ⟨hload, hkept, identity, hempty, w, hw, rfl⟩

/-- Rows that show the same key are the same. -/
theorem eq_of_shown (h : map.Stores key type rows) (hderived : map.Derived) {t t' : TableRow}
    (ht : t ∈ rows) (ht' : t' ∈ rows) (heq : (map.shown t).2 = (map.shown t').2) : t = t' := by
  obtain ⟨-, -, -, -, w, hw, htext⟩ := h.shown_eq hderived ht
  obtain ⟨-, -, -, -, w', hw', htext'⟩ := h.shown_eq hderived ht'
  exact h.eq_of_text ht ht' hw hw' (htext.symm.trans (heq.trans htext'))

end Stores

end EntityMap

/-! ## Segments of joined rows -/

namespace Segment

open EntityMap (loadColumns)

/-- The segment says where the columns of its table are among the columns of a result. -/
structure Laid (seg : Segment) (columns : List SelectColumn) : Prop where
  columns_eq : ∃ before after split, before.length = seg.start ∧
    columns = before ++ SelectDraft.columnsOf seg.map seg.label split ++ after
  properties_eq : seg.properties = seg.map.shownColumns.map (·.property)

theorem Laid.append {seg : Segment} {columns : List SelectColumn} (h : seg.Laid columns)
    (more : List SelectColumn) : seg.Laid (columns ++ more) := by
  obtain ⟨before, after, split, hbefore, rfl⟩ := h.columns_eq
  exact ⟨⟨before, after ++ more, split, hbefore, by simp⟩, h.properties_eq⟩

variable {seg : Segment} {columns : List SelectColumn} {j : JoinedRow} {row : Row}

/-- The cells of a segment in a row of the result. -/
theorem Laid.value_eq (h : seg.Laid columns)
    (hrow : row.values = columns.map (SelectColumn.output j)) {i : Nat} {c : ColumnDef}
    (hc : seg.map.shownColumns[i]? = some c) :
    row.values[seg.start + 1 + i]? = some (j.cell ⟨none, seg.label, c.name⟩) := by
  obtain ⟨before, after, split, hbefore, rfl⟩ := h.columns_eq
  have inside : i < seg.map.shownColumns.length := (List.getElem?_eq_some_iff.mp hc).1
  -- the segment starts with a marker, so column `i` is the one after `i` others and the marker
  rw [hrow, ← hbefore, List.getElem?_map, List.append_assoc,
    List.getElem?_append_right (by omega),
    show before.length + 1 + i - before.length = i + 1 by omega,
    SelectDraft.columnsOf, List.cons_append, List.getElem?_cons_succ,
    List.getElem?_append_left (by simpa [EntityMap.shownColumns] using inside), List.getElem?_map]
  rw [EntityMap.shownColumns] at hc
  rw [hc]
  rfl

/-- Cells that are there are assigned like those of a row of the table. -/
theorem readCells_eq_ok {t : TableRow} {cs : List ColumnDef} {record loaded : Record} {i : Nat}
    (hcells : ∀ k c, cs[k]? = some c → row.values[i + k]? = some (t c.name))
    (h : loadColumns t cs record = .ok loaded) :
    seg.readCells row record i (cs.map (·.property)) = .ok loaded := by
  induction cs generalizing record i with
  | nil => exact h
  | cons c cs ih =>
      have first := hcells 0 c rfl
      rw [Nat.add_zero] at first
      rw [loadColumns] at h
      obtain ⟨assigned, hassign, hrest⟩ := ok_of_bind h
      rw [List.map_cons, readCells, first]
      simp only [hassign, framed]
      refine ih (fun k c' hc' => ?_) hrest
      rw [Nat.add_assoc, Nat.add_comm 1 k]
      exact hcells (k + 1) c' hc'

variable {key : ColumnDef}

/-- The place of the key of a segment. -/
theorem Laid.exists_position (h : seg.Laid columns) (hderived : seg.map.Derived)
    (hkey : key ∈ seg.map.shownColumns) :
    ∃ i, seg.map.shownColumns[i]? = some key ∧
      seg.position? key.property = some (seg.start + 1 + i) := by
  unfold position?
  rw [h.properties_eq]
  cases hfound : (seg.map.shownColumns.map (·.property)).findIdx? (· == key.property) with
  | none =>
      rw [List.findIdx?_eq_none_iff] at hfound
      have := hfound key.property (List.mem_map_of_mem hkey)
      simp at this
  | some i =>
      obtain ⟨hi, heq, -⟩ := List.findIdx?_eq_some_iff_getElem.mp hfound
      rw [List.length_map] at hi
      rw [List.getElem_map, beq_iff_eq] at heq
      refine ⟨i, ?_, rfl⟩
      rw [List.getElem?_eq_getElem hi]
      exact congrArg some (hderived.eq_of_property
        (List.mem_filter.mp (List.getElem_mem hi)).1 (List.mem_filter.mp hkey).1 heq)

theorem Laid.isPresent_eq (h : seg.Laid columns) (hderived : seg.map.Derived)
    (hkeys : seg.map.keyColumns = [key])
    (hrow : row.values = columns.map (SelectColumn.output j)) :
    seg.isPresent row = !(j.cell ⟨none, seg.label, key.name⟩).isEmptyKey := by
  have hmem := hderived.mem_of_keyColumns (c := key)
    (by rw [hkeys]; exact List.mem_singleton_self key)
  obtain ⟨i, hi, hposition⟩ := h.exists_position hderived (List.mem_filter.mpr hmem)
  simp only [isPresent, hkeys, List.all_cons, List.all_nil, Bool.and_true, hposition,
    Option.bind_some, h.value_eq hrow hi]

/-- A segment without a row shows nothing. -/
theorem Laid.readRow_none (h : seg.Laid columns) (hderived : seg.map.Derived)
    (hkeys : seg.map.keyColumns = [key])
    (hrow : row.values = columns.map (SelectColumn.output j))
    (hj : j.lookup seg.label = some none) : seg.readRow row = .ok none := by
  have absent : seg.isPresent row = false := by
    rw [h.isPresent_eq hderived hkeys hrow, JoinedRow.cell_of_lookup_none hj]
    rfl
  rw [readRow, absent]
  rfl

/-- A segment with a row shows the record that the row is loaded as. -/
theorem Laid.readRow_some (h : seg.Laid columns) (hderived : seg.map.Derived)
    (hkeys : seg.map.keyColumns = [key])
    (hrow : row.values = columns.map (SelectColumn.output j)) {t : TableRow} {loaded : Record}
    (hj : j.lookup seg.label = some (some t)) (hkey : (t key.name).isEmptyKey = false)
    (hload : seg.map.load t = .ok loaded) : seg.readRow row = .ok (some loaded) := by
  -- a key that is not empty marks the row as present
  have present : seg.isPresent row = true := by
    rw [h.isPresent_eq hderived hkeys hrow, JoinedRow.cell_of_lookup hj, hkey]
    rfl
  have cells : seg.readCells row seg.map.prototype (seg.start + 1) seg.properties = .ok loaded := by
    rw [h.properties_eq]
    refine readCells_eq_ok (t := t) (fun k c hc => ?_) hload
    rw [h.value_eq hrow hc, JoinedRow.cell_of_lookup hj]
  rw [readRow, present, if_pos rfl, cells]
  rfl

end Segment

end GraphStore
