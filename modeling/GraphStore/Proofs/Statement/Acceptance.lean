import GraphStore.Proofs.Record.Typing
import GraphStore.Proofs.Statement.Rows

/-!
# When writes are accepted

The fields of a record have the types that they have in a new record of its type
(`EntityMap.HasTypes`). An update and a deletion of such a record are accepted exactly when no key
of it is empty, but for updates of nothing and of columns that may not be written, and for
deletions in a table two columns of which have one name.
-/

set_option autoImplicit false

namespace GraphStore

/-! ## Types of columns of special role -/

namespace EntityType

theorem ofValue_of_fitsGenerated {v : Value} (h : FitsGenerated v) :
    FieldType.ofValue v = .uuid ∨ FieldType.ofValue v = .int32 := by
  cases v <;> first | exact .inl rfl | exact .inr rfl | exact h.elim

theorem ofValue_of_fitsTimestamp {v : Value} (h : FitsTimestamp v) :
    FieldType.ofValue v = .timestamp := by
  cases v <;> first | rfl | exact h.elim

theorem ofValue_of_fitsSoftDelete {v : Value} (h : FitsSoftDelete v) :
    FieldType.ofValue v = .boolean := by
  cases v <;> first | rfl | exact h.elim

end EntityType

/-! ## Records with the types of their entity -/

/-- The fields of the record have the types that they have in a new record, and hold values of
these. -/
structure EntityMap.HasTypes (map : EntityMap) (record : Record) : Prop where
  prototype : map.prototype.Typed
  fieldType?_eq : ∀ p, record.fieldType? p = map.prototype.fieldType? p
  typed : record.Typed

namespace EntityMap.HasTypes

variable {map : EntityMap} {record record' : Record} {c : ColumnDef}

theorem of_keepsTypes (h : map.HasTypes record) (hkeeps : Record.KeepsTypes record record') :
    map.HasTypes record' where
  prototype := h.prototype
  fieldType?_eq p := (hkeeps.fieldType?_eq p).trans (h.fieldType?_eq p)
  typed := hkeeps.typed h.typed

/-- The field of a column is made for the value that it has in a new record, takes any value, or
is a text of the other kind. -/
theorem exists_fieldType? (h : map.HasTypes record) (hderived : map.Derived)
    (hc : c ∈ map.columns) : ∃ t, record.fieldType? c.property = some t ∧
      (t.base = .ofValue c.value ∨ t.base = .any ∨
        t.base = .borrowedText ∧ FieldType.ofValue c.value = .text) := by
  have hvalue := hderived.field_of_column c hc
  obtain ⟨t, ht⟩ := Record.exists_fieldType? hvalue
  refine ⟨t, (h.fieldType?_eq _).trans ht, FieldType.base_of_holds (.inr ?_)⟩
  exact h.prototype _ t _ ht hvalue

theorem exists_field? (h : map.HasTypes record) (hderived : map.Derived)
    (hc : c ∈ map.columns) : ∃ v, record.field? c.property = some v := by
  obtain ⟨t, ht, -⟩ := h.exists_fieldType? hderived hc
  exact Record.exists_field? ht

/-- A value is assigned to a column as it is, if the field is made for it or takes any value. -/
theorem exists_setField {v : Value} (h : map.HasTypes record) (hderived : map.Derived)
    (hc : c ∈ map.columns) (hnull : v.isNull = false)
    (htext : FieldType.ofValue c.value ≠ .text)
    (hv : (FieldType.ofValue c.value).convert v = .ok v) :
    ∃ record', record.setField c.property v = .ok record' ∧ map.HasTypes record' ∧
      record'.field? c.property = some v := by
  obtain ⟨t, ht, hbase⟩ := h.exists_fieldType? hderived hc
  have converted : t.convert v = .ok v := by
    refine FieldType.convert_of_base hnull ?_
    rcases hbase with hbase | hbase | ⟨-, hbase⟩
    · rw [hbase, hv]
    · rw [hbase]
      rfl
    · exact absurd hbase htext
  have assigned := Record.setField_of_convert ht converted
  exact ⟨_, assigned, h.of_keepsTypes (.of_setField assigned), Record.field?_withValue_self ht v⟩

/-- A generated key is made for identifiers or for integers, unless its field takes any value. -/
theorem base_of_generatedKey (h : map.HasTypes record) (hderived : map.Derived)
    (hc : map.generatedKeyColumn? = some c) :
    ∃ t, record.fieldType? c.property = some t ∧
      (t.base = .uuid ∨ t.base = .int32 ∨ t.base = .any) := by
  obtain ⟨hmem, hfits⟩ := Derived.exists_of_role hderived.generatedKey hc
  obtain ⟨t, ht, hbase⟩ := h.exists_fieldType? hderived hmem
  refine ⟨t, ht, ?_⟩
  rcases EntityType.ofValue_of_fitsGenerated hfits with hmade | hmade <;> rw [hmade] at hbase
  · exact hbase.imp_right fun h => h.elim .inr nofun
  · exact .inr (hbase.imp_right fun h => h.elim id nofun)

end EntityMap.HasTypes

/-! ## Reading what is there -/

namespace EntityMap

variable {map : EntityMap} {record : Record} {columns : List ColumnDef}

theorem exists_assignments (h : ∀ c ∈ columns, ∃ v, record.field? c.property = some v)
    (context : Context) :
    ∃ values context', map.assignments record columns context = .ok (values, context') ∧
      values.length = columns.length := by
  induction columns generalizing context with
  | nil => exact ⟨[], context, rfl, rfl⟩
  | cons c cs ih =>
      obtain ⟨⟨v, hv⟩, hrest⟩ := List.forall_mem_cons.mp h
      obtain ⟨others, context', hothers, hlength⟩ := ih hrest (assign c v context).2
      refine ⟨(assign c v context).1 :: others, context', ?_, by simp [hlength]⟩
      simp only [assignments, read_of_field? hv, ok_bind, hothers]
      rfl

theorem exists_keyTests (h : ∀ c ∈ columns, ∃ v, record.field? c.property = some v)
    (context : Context) :
    ∃ tests context', map.keyTests record columns context = .ok (tests, context') := by
  induction columns generalizing context with
  | nil => exact ⟨[], context, rfl⟩
  | cons c cs ih =>
      obtain ⟨⟨v, hv⟩, hrest⟩ := List.forall_mem_cons.mp h
      obtain ⟨others, context', hothers⟩ := ih hrest (equalTest map.table.name c v context).2
      refine ⟨(equalTest map.table.name c v context).1 :: others, context', ?_⟩
      simp only [keyTests, read_of_field? hv, ok_bind, hothers]
      rfl

/-- The filter of a keyed record can be written if its keys can be read. -/
theorem exists_keyFilter (hkeyed : map.keys.isEmpty = false)
    (h : ∀ c ∈ map.keyColumns, ∃ v, record.field? c.property = some v) (context : Context) :
    ∃ filter context', map.keyFilter record context = .ok (filter, context') := by
  obtain ⟨tests, context', htests⟩ := exists_keyTests h context
  refine ⟨Fragment.joined " AND " tests, context', ?_⟩
  rw [keyFilter, requireKeys, hkeyed, htests]
  rfl

/-- Whether a key is empty can be told if the keys can be read. -/
theorem exists_hasEmptyKey (hkeyed : map.keys.isEmpty = false)
    (h : ∀ c ∈ map.keyColumns, ∃ v, record.field? c.property = some v) :
    ∃ empty, map.hasEmptyKey record = .ok empty := by
  rw [hasEmptyKey, requireKeys, hkeyed]
  simp only [Bool.false_eq_true, if_false, ok_bind]
  generalize map.keyColumns = columns at h
  induction columns with
  | nil => exact ⟨false, rfl⟩
  | cons c cs ih =>
      obtain ⟨⟨v, hv⟩, hrest⟩ := List.forall_mem_cons.mp h
      rw [anyEmptyKey, read_of_field? hv, ok_bind]
      cases v.isEmptyKey with
      | true => exact ⟨true, rfl⟩
      | false => exact ih hrest

end EntityMap

/-! ## Updates and deletions -/

namespace Edit

variable {α : Type} {map : EntityMap} {b : Bench}

theorem ofExcept_of_ok {x : Except Error α} {a : α} (h : x = .ok a) :
    ofExcept x b = .ok a b := by
  rw [h]
  rfl

theorem assignField_of_ok {property : String} {v : Value} {r : Record}
    (h : b.record.setField property v = .ok r) :
    assignField property v b = .ok () { b with record := r } := by
  rw [assignField, h]

theorem exists_stamp (hderived : map.Derived) (h : map.HasTypes b.record) :
    ∃ stamped b', stamp map b = .ok stamped b' ∧ map.HasTypes b'.record := by
  unfold stamp
  cases hcolumn : map.autoTimestampColumn? with
  | none => exact ⟨none, b, rfl, h⟩
  | some column =>
      obtain ⟨hmem, hfits⟩ := EntityMap.Derived.exists_of_role hderived.autoTimestamp hcolumn
      have made := EntityType.ofValue_of_fitsTimestamp hfits
      obtain ⟨time, b₁, hnow, hrecord⟩ : ∃ time b₁, now b = .ok time b₁ ∧ b₁.record = b.record :=
        ⟨_, _, rfl, rfl⟩
      rw [← hrecord] at h
      obtain ⟨r, hassign, hr, -⟩ := h.exists_setField (v := .timestamp (some time)) hderived hmem rfl
        (by rw [made]; exact nofun) (by rw [made]; rfl)
      exact ⟨_, _, (bind_of_ok hnow).trans (bind_of_ok (assignField_of_ok hassign)), hr⟩

/-- A record with an empty key is not updated. -/
theorem update_of_keyless (fields : Option (List String))
    (hempty : map.hasEmptyKey b.record = .ok true) :
    update map fields b = .error (.of (.keylessUpdate map.table.name)) b := by
  unfold update
  rw [bind_of_ok (show record b = .ok b.record b from rfl), bind_of_ok (ofExcept_of_ok hempty)]
  rfl

/-- A record without an empty key is updated, if the fields may be written and there are any. -/
theorem exists_update (hderived : map.Derived) (h : map.HasTypes b.record)
    {fields : Option (List String)} (hstored : map.hasEmptyKey b.record = .ok false)
    (hfields : map.checkFields (fields.getD []) = .ok ()) (hwritten : map.written fields ≠ []) :
    ∃ st b', update map fields b = .ok st b' := by
  have hkeyed := (EntityMap.hasEmptyKey_eq_false.mp hstored).1
  obtain ⟨stamped, b₁, hstamp, h₁⟩ := exists_stamp hderived h
  obtain rfl := stamped_of_stamp hstamp
  have fields_of {columns : List ColumnDef} (hsub : columns ⊆ map.columns) :
      ∀ c ∈ columns, ∃ v, b₁.record.field? c.property = some v :=
    fun c hc => h₁.exists_field? hderived (hsub hc)
  obtain ⟨set, context, hset, hlength⟩ := EntityMap.exists_assignments
    (fields_of (List.filter_sublist.subset : map.written fields ⊆ map.columns))
    { qualify := false }
  have some_set : set.isEmpty = false := by
    rw [List.isEmpty_eq_false_iff, ne_eq, ← List.length_eq_zero_iff, hlength]
    exact fun none => hwritten (List.length_eq_zero_iff.mp none)
  obtain ⟨filter, context', hfilter⟩ := EntityMap.exists_keyFilter hkeyed
    (fields_of fun c hc => (hderived.mem_of_keyColumns hc).1) context
  unfold update
  refine exists_ok_bind (show record b = .ok b.record b from rfl) ?_
  refine exists_ok_bind (ofExcept_of_ok hstored) ?_
  refine exists_ok_bind (ofExcept_of_ok hfields) ?_
  refine exists_ok_bind hstamp ?_
  refine exists_ok_bind (show record b₁ = .ok b₁.record b₁ from rfl) ?_
  refine exists_ok_bind (ofExcept_of_ok hset) ?_
  simp only [some_set, Bool.false_eq_true, if_false]
  refine exists_ok_bind (show record b₁ = .ok b₁.record b₁ from rfl) ?_
  exact exists_ok_bind (ofExcept_of_ok hfilter) ⟨_, _, rfl⟩

/-! ## Deletions -/

/-- A record with an empty key is not deleted. -/
theorem delete_of_keyless (hempty : map.hasEmptyKey b.record = .ok true) :
    delete map b = .error (.of (.keylessDelete map.table.name)) b := by
  unfold delete
  rw [bind_of_ok (show record b = .ok b.record b from rfl), bind_of_ok (ofExcept_of_ok hempty)]
  rfl

/-- What is assigned goes to a column that takes it as it is. -/
def Suits (map : EntityMap) (a : Assignment) : Prop :=
  ∃ c ∈ map.columns, c.name = a.column ∧ a.param.value.isNull = false ∧
    FieldType.ofValue c.value ≠ .text ∧
    (FieldType.ofValue c.value).convert a.param.value = .ok a.param.value

theorem exists_follow {set : List Assignment} (hderived : map.Derived)
    (hnames : (map.columns.map (·.name)).Nodup) (h : map.HasTypes b.record)
    (hset : ∀ a ∈ set, Suits map a) : ∃ u b', follow map set b = .ok u b' := by
  induction set generalizing b with
  | nil => exact ⟨(), b, rfl⟩
  | cons a rest ih =>
      obtain ⟨⟨c, hc, hname, hnull, htext, hv⟩, hrest⟩ := List.forall_mem_cons.mp hset
      obtain ⟨r, hassign, hr, -⟩ := h.exists_setField hderived hc hnull htext hv
      unfold follow
      rw [← hname, find?_of_nodup hnames hc]
      exact exists_ok_bind (assignField_of_ok hassign) (ih hr hrest)

/-- The mark of deletion and the time suit the columns that they are assigned to. -/
theorem suits_of_removeRows (hderived : map.Derived) {filter : Fragment} {context : Context}
    {supply supply' : Supply} {st : UpdateStatement}
    (h : removeRows map filter context supply = (.update st, supply')) :
    ∀ a ∈ st.set, Suits map a := by
  have mark {flag : ColumnDef} {name : String} (hflag : map.softDeleteColumn? = some flag) :
      Suits map ⟨flag.name, ⟨name, .boolean (some true)⟩⟩ := by
    obtain ⟨hmem, hfits⟩ := EntityMap.Derived.exists_of_role hderived.softDelete hflag
    have made := EntityType.ofValue_of_fitsSoftDelete hfits
    exact ⟨flag, hmem, rfl, rfl, by rw [made]; exact nofun, by rw [made]; rfl⟩
  cases EntityMap.removesRows_of_removeRows h with
  | marked hflag => exact List.forall_mem_singleton.mpr (mark hflag)
  | @stamped _ column hflag htime =>
      obtain ⟨hmem, hfits⟩ := EntityMap.Derived.exists_of_role hderived.autoTimestamp htime
      have made := EntityType.ofValue_of_fitsTimestamp hfits
      refine List.forall_mem_cons.mpr ⟨mark hflag, List.forall_mem_singleton.mpr ?_⟩
      exact ⟨column, hmem, rfl, rfl, by rw [made]; exact nofun, by rw [made]; rfl⟩

/-- A record without an empty key is deleted, or marked as deleted. -/
theorem exists_delete (hderived : map.Derived) (hnames : (map.columns.map (·.name)).Nodup)
    (h : map.HasTypes b.record) (hstored : map.hasEmptyKey b.record = .ok false) :
    ∃ st b', delete map b = .ok st b' := by
  have hkeyed := (EntityMap.hasEmptyKey_eq_false.mp hstored).1
  obtain ⟨filter, context, hfilter⟩ := EntityMap.exists_keyFilter hkeyed
    (fun c hc => h.exists_field? hderived (hderived.mem_of_keyColumns hc).1) { qualify := false }
  unfold delete
  refine exists_ok_bind (show record b = .ok b.record b from rfl) ?_
  refine exists_ok_bind (ofExcept_of_ok hstored) ?_
  refine exists_ok_bind (show record b = .ok b.record b from rfl) ?_
  refine exists_ok_bind (ofExcept_of_ok hfilter) ?_
  obtain ⟨st, supply, hremoved⟩ : ∃ st supply, removeRows map filter context b.supply =
    (st, supply) := ⟨_, _, rfl⟩
  have removed : remove map filter context b = .ok st { b with supply } := by
    rw [remove, hremoved]
  refine exists_ok_bind removed ?_
  cases st with
  | update st =>
      obtain ⟨u, b', hfollow⟩ := exists_follow (b := { b with supply }) hderived hnames h
        (suits_of_removeRows hderived hremoved)
      exact exists_ok_bind hfollow ⟨_, _, rfl⟩
  | _ => exact ⟨_, _, rfl⟩

end Edit

end GraphStore
