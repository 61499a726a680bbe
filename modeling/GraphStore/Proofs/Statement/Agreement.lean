import GraphStore.Proofs.Statement.Updating

/-!
# Records and the statements that write them

The edits that describe a write may change the record: an identifier is drawn, a time is stamped, a
mark of deletion is set. Record and statement agree if the row is given what the record was given:
every field that has changed is assigned with its new value, and nothing has changed if there is no
statement (`EntityMap.AgreesAfter`).

Insertions and deletions leave the two in agreement. Updates do so unless the record is stamped in a
column that they do not write (`EntityMap.StampsAside`): then it shows a time that its row does not
have.
-/

set_option autoImplicit false

namespace GraphStore

/-- What a statement assigns to the columns of the rows that it writes. -/
def Statement.assignments : Statement → List Assignment
  | insert st => st.values
  | update st => st.set
  | _ => []

/-- No field has changed, nor anything else of the record. -/
def Record.SameFields (r r' : Record) : Prop :=
  Edit.OnlyFields r r' ∧ ∀ property, r'.field? property = r.field? property

theorem Record.SameFields.refl (r : Record) : r.SameFields r := ⟨.refl r, fun _ => rfl⟩

namespace EntityMap

/-! ## Agreement -/

/-- The column of the property is assigned the value `v`, and no other value. -/
def Assigns (map : EntityMap) (set : List Assignment) (property : String) (v : Value) : Prop :=
  ∃ c ∈ map.columns, c.property = property ∧ (∃ a ∈ set, a.column = c.name) ∧
    ∀ a ∈ set, a.column = c.name → a.param.value = v

/-- From one record to the other, only fields have changed that are assigned with their new
values. -/
structure Agrees (map : EntityMap) (set : List Assignment) (r r' : Record) : Prop where
  onlyFields : Edit.OnlyFields r r'
  assigned : ∀ property, r'.field? property ≠ r.field? property →
    ∃ v, r'.field? property = some v ∧ map.Assigns set property v

/-- An edit of the record `r` has left it in agreement with the statement that it gave, and as it
was if it gave none. -/
def AgreesAfter {α : Type} (map : EntityMap) (statement? : α → Option Statement) (r : Record) :
    EStateM.Result Error Bench α → Prop
  | .ok a b => match statement? a with
    | some st => map.Agrees st.assignments r b.record
    | none => r.SameFields b.record
  | .error _ b => r.SameFields b.record

/-- An update stamps the record in a column that it does not write: the auto timestamp is a key or
not to be updated, and holds another time than that of the update. -/
def StampsAside (map : EntityMap) (fields : Option (List String)) (record : Record)
    (time : Timestamp) : Prop :=
  map.hasEmptyKey record = .ok false ∧ map.checkFields (fields.getD []) = .ok () ∧
    ∃ c, map.autoTimestampColumn? = some c ∧ c.isWritable = false ∧
      record.field? c.property ≠ some (.timestamp (some time))

variable {map : EntityMap} {r r' : Record} {c : ColumnDef} {set : List Assignment}
  {columns : List ColumnDef}

theorem Agrees.of_sameFields (h : r.SameFields r') : map.Agrees set r r' where
  onlyFields := h.1
  assigned property hchanged := absurd (h.2 property) hchanged

/-- An assignment to a column comes from that column, if no two columns go by one name. -/
theorem mem_of_assigned (hnames : (map.columns.map (·.name)).Nodup) (hsub : columns ⊆ map.columns)
    (hvalues : set.map (fun a => (a.column, some a.param.value)) =
      columns.map fun c => (c.name, r.field? c.property))
    (hc : c ∈ map.columns) {a : Assignment} (ha : a ∈ set) (hname : a.column = c.name) :
    c ∈ columns ∧ r.field? c.property = some a.param.value := by
  have pair : (a.column, some a.param.value) ∈
      columns.map fun c => (c.name, r.field? c.property) := by
    rw [← hvalues]
    exact List.mem_map_of_mem ha
  obtain ⟨c', hc', equal⟩ := List.mem_map.mp pair
  obtain ⟨hname', hvalue⟩ := Prod.mk.inj equal
  have same : c' = c := List.inj_on_of_nodup_map hnames (hsub hc') hc (hname'.trans hname)
  rw [same] at hc' hvalue
  exact ⟨hc', hvalue⟩

/-- Values taken from the changed record agree with it, if the columns of all changed fields are
among those that are assigned. -/
theorem agrees_of_values (hnames : (map.columns.map (·.name)).Nodup) (hsub : columns ⊆ map.columns)
    (honly : Edit.OnlyFields r r')
    (hvalues : set.map (fun a => (a.column, some a.param.value)) =
      columns.map fun c => (c.name, r'.field? c.property))
    (hchanged : ∀ property, r'.field? property ≠ r.field? property →
      ∃ c ∈ columns, c.property = property) : map.Agrees set r r' := by
  refine ⟨honly, fun property hproperty => ?_⟩
  obtain ⟨c, hc, rfl⟩ := hchanged property hproperty
  have pair : (c.name, r'.field? c.property) ∈ set.map fun a => (a.column, some a.param.value) := by
    rw [hvalues]
    exact List.mem_map_of_mem hc
  obtain ⟨a, ha, equal⟩ := List.mem_map.mp pair
  obtain ⟨hname, hvalue⟩ := Prod.mk.inj equal
  refine ⟨a.param.value, hvalue.symm, c, hsub hc, rfl, ⟨a, ha, hname⟩, fun a' ha' hname' => ?_⟩
  have assigned := (mem_of_assigned hnames hsub hvalues (hsub hc) ha' hname').2
  rw [← hvalue] at assigned
  exact (Option.some.inj assigned).symm

end EntityMap

namespace Edit

variable {map : EntityMap} {b b' : Bench}

theorem AssignsAt.exists_of_ne {column? : Option ColumnDef} {r r' : Record} {property : String}
    (h : AssignsAt column? r r') (hchanged : r'.field? property ≠ r.field? property) :
    ∃ c, column? = some c ∧ property = c.property := by
  by_contra none
  exact hchanged (h.field?_eq fun c hc equal => none ⟨c, hc, equal⟩)

/-! ## Insertions -/

/-- A generated key that holds an identifier takes every other one. -/
theorem convert_of_generatedKey (hderived : map.Derived) {record : Record}
    (h : map.HasTypes record) {c : ColumnDef} (hc : map.generatedKeyColumn? = some c)
    {u : Option Uuid} (hv : record.field? c.property = some (.uuid u)) :
    ∃ t, record.fieldType? c.property = some t ∧
      ∀ fresh, t.convert (.uuid (some fresh)) = .ok (.uuid (some fresh)) := by
  obtain ⟨t, ht, hbase⟩ := h.base_of_generatedKey hderived hc
  have holds := FieldType.holds_base (h.typed _ t _ ht hv)
  refine ⟨t, ht, fun fresh => FieldType.convert_of_base rfl ?_⟩
  rcases hbase with hbase | hbase | hbase
  · rw [hbase]
    rfl
  · -- a field for integers holds no identifier
    rw [hbase] at holds
    rcases holds with holds | ⟨n, holds⟩ <;> cases holds
  · rw [hbase]
    rfl

/-- A key is provided for every record, whatever its field holds. -/
theorem exists_provideKey (hderived : map.Derived) (h : map.HasTypes b.record) :
    ∃ key b', provideKey map b = .ok key b' ∧ map.HasTypes b'.record := by
  unfold provideKey
  cases hcolumn : map.generatedKeyColumn? with
  | none => exact ⟨none, b, rfl, h⟩
  | some column =>
      obtain ⟨hmem, -⟩ := EntityMap.Derived.exists_of_role hderived.generatedKey hcolumn
      obtain ⟨v, hv⟩ := h.exists_field? hderived hmem
      simp only
      rw [bind_of_ok (show record b = .ok b.record b from rfl),
        bind_of_ok (ofExcept_of_ok (EntityMap.read_of_field? hv))]
      by_cases hempty : v.isEmptyKey = true
      · rw [if_neg (by simp [hempty])]
        cases v with
        | uuid u =>
            obtain ⟨t, ht, takes⟩ := convert_of_generatedKey hderived h hcolumn hv
            obtain ⟨fresh, b₁, hfresh, hrecord⟩ : ∃ fresh b₁, freshUuid b = .ok fresh b₁ ∧
                b₁.record = b.record := ⟨_, _, rfl, rfl⟩
            rw [← hrecord] at h ht
            have assigned := Record.setField_of_convert ht (takes fresh)
            exact ⟨none, _, (bind_of_ok hfresh).trans (bind_of_ok (assignField_of_ok assigned)),
              h.of_keepsTypes (.of_setField assigned)⟩
        | _ => exact ⟨_, b, rfl, h⟩
      · rw [if_pos (by simpa using hempty)]
        exact ⟨none, b, rfl, h⟩

theorem exists_isStored (hderived : map.Derived) (h : map.HasTypes b.record) :
    ∃ stored, isStored map b = .ok stored b := by
  unfold isStored
  by_cases hkeys : map.keys.isEmpty = true
  · rw [if_pos hkeys]
    exact ⟨false, rfl⟩
  · rw [if_neg hkeys]
    obtain ⟨empty, hempty⟩ := EntityMap.exists_hasEmptyKey (by simpa using hkeys) fun c hc =>
      h.exists_field? hderived (hderived.mem_keyColumns.mp hc).1
    exact ⟨!empty, (bind_of_ok (show record b = .ok b.record b from rfl)).trans
      (bind_of_ok (ofExcept_of_ok hempty))⟩

/-- The insertion of a record never fails. -/
theorem exists_insert (hderived : map.Derived) (h : map.HasTypes b.record) (forced : Bool) :
    ∃ st? b', insert map forced b = .ok st? b' := by
  obtain ⟨stored, hstored⟩ := exists_isStored hderived h
  unfold insert
  refine exists_ok_bind hstored ?_
  by_cases hskip : (stored && !forced) = true
  · rw [if_pos hskip]
    exact ⟨none, b, rfl⟩
  · rw [if_neg hskip]
    obtain ⟨key, b₁, hkey, h₁⟩ := exists_provideKey hderived h
    refine exists_ok_bind hkey ?_
    obtain ⟨stamped, b₂, hstamp, h₂⟩ := exists_stamp hderived h₁
    refine exists_ok_bind hstamp ?_
    refine exists_ok_bind (show record b₂ = .ok b₂.record b₂ from rfl) ?_
    have fields : ∀ c ∈ map.columns.filter fun c => !(key.any (·.property == c.property)),
        ∃ v, b₂.record.field? c.property = some v :=
      fun c hc => h₂.exists_field? hderived (List.mem_of_mem_filter hc)
    obtain ⟨values, context, hvalues, -⟩ :=
      EntityMap.exists_assignments fields { qualify := false }
    exact exists_ok_bind (ofExcept_of_ok hvalues) ⟨_, _, rfl⟩

/-- Whatever an insertion generates, its statement inserts. -/
theorem agrees_of_insert {forced : Bool} {st : InsertStatement} (hderived : map.Derived)
    (hnames : (map.columns.map (·.name)).Nodup) (h : insert map forced b = .ok (some st) b') :
    map.Agrees st.values b.record b'.record := by
  obtain ⟨-, b₁, stamped, context, hkey, hstamp, -, hvalues⟩ := steps_of_insert_some h
  have provided := assignsAt_of_provideKey hkey
  have timed := assignsAt_of_stamp hstamp
  have honly : OnlyFields b.record b'.record := provided.onlyFields.trans timed.onlyFields
  refine EntityMap.agrees_of_values hnames List.filter_sublist.subset honly
    (EntityMap.values_of_assignments hvalues) fun property hchanged => ?_
  by_cases hstamped : b'.record.field? property = b₁.record.field? property
  · -- the key was drawn here, so that none is left to the database
    rw [hstamped] at hchanged
    obtain ⟨c, hc, rfl⟩ := provided.exists_of_ne hchanged
    have hmem := (EntityMap.Derived.exists_of_role hderived.generatedKey hc).1
    have none_left : st.generatedKey = none := by
      generalize st.generatedKey = key at hkey
      cases providesKey_of_provideKey hkey with
      | without => rfl
      | present => rfl
      | drawn => rfl
      | left => exact absurd rfl hchanged
    exact ⟨c, by simp [hmem, none_left], rfl⟩
  · obtain ⟨c, hc, rfl⟩ := timed.exists_of_ne hstamped
    have hmem := (EntityMap.Derived.exists_of_role hderived.autoTimestamp hc).1
    refine ⟨c, ?_, rfl⟩
    -- the auto timestamp is not the key that is left to the database
    generalize st.generatedKey = key at hkey
    cases providesKey_of_provideKey hkey with
    | without => simp [hmem]
    | present => simp [hmem]
    | drawn => simp [hmem]
    | left hcolumn =>
        have apart := (hderived.autoTimestamp_ne hcolumn hc).symm
        simp [hmem, apart]

/-! ## Deletions -/

/-- A record that follows assignments to different columns holds the values that they assign. -/
theorem agrees_of_follow {set : List Assignment} (hderived : map.Derived)
    (hnames : (map.columns.map (·.name)).Nodup) (h : map.HasTypes b.record)
    (hset : ∀ a ∈ set, Suits map a) (hcolumns : (set.map (·.column)).Nodup)
    (hfollow : follow map set b = .ok () b') : map.Agrees set b.record b'.record := by
  induction set generalizing b with
  | nil =>
      cases hfollow
      exact .of_sameFields (.refl _)
  | cons a rest ih =>
      obtain ⟨⟨c, hc, hname, hnull, htext, hv⟩, hrest⟩ := List.forall_mem_cons.mp hset
      rw [List.map_cons, List.nodup_cons] at hcolumns
      obtain ⟨hfresh, hdistinct⟩ := hcolumns
      obtain ⟨r, hassign, hr, hfield⟩ := h.exists_setField hderived hc hnull htext hv
      unfold follow at hfollow
      rw [← hname, find?_of_nodup hnames hc] at hfollow
      obtain ⟨_, b₁, hassigned, hfollow⟩ := ends_of_bind hfollow
      rw [assignField_of_ok hassign] at hassigned
      cases hassigned
      have agrees := ih hr hrest hdistinct hfollow
      have onlyFields : OnlyFields b.record r :=
        ⟨Record.type_of_setField hassign, Record.slots_of_setField hassign⟩
      refine ⟨onlyFields.trans agrees.onlyFields, fun property hchanged => ?_⟩
      by_cases hlater : b'.record.field? property = r.field? property
      · -- it is the first assignment that has changed the field, and no other is to its column
        have here : property = c.property := by
          by_contra other
          exact hchanged (hlater.trans (Record.field?_of_setField hassign other))
        subst here
        refine ⟨a.param.value, hlater.trans hfield, c, hc, rfl,
          ⟨a, List.mem_cons_self, hname.symm⟩, fun a' ha' hname' => ?_⟩
        rcases List.mem_cons.mp ha' with rfl | ha'
        · rfl
        · exact absurd (hname'.trans hname ▸ List.mem_map_of_mem ha') hfresh
      · obtain ⟨v, hvalue, c', hc', hproperty, ⟨a', ha', hname'⟩, hall⟩ :=
          agrees.assigned property hlater
        refine ⟨v, hvalue, c', hc', hproperty, ⟨a', List.mem_cons_of_mem a ha', hname'⟩,
          fun a'' ha'' hname'' => ?_⟩
        rcases List.mem_cons.mp ha'' with rfl | ha''
        · exact absurd (hname''.trans hname'.symm ▸ List.mem_map_of_mem ha') hfresh
        · exact hall a'' ha'' hname''

/-- The mark of deletion and the time are assigned to different columns. -/
theorem nodup_of_removeRows (hderived : map.Derived) (hnames : (map.columns.map (·.name)).Nodup)
    {filter : Fragment} {context : Context} {supply supply' : Supply} {st : Statement}
    (h : removeRows map filter context supply = (st, supply')) :
    (st.assignments.map (·.column)).Nodup := by
  cases EntityMap.removesRows_of_removeRows h with
  | deleted => exact List.nodup_nil
  | marked => exact List.nodup_singleton _
  | stamped hflag htime =>
      have apart := hderived.softDelete_name_ne hnames hflag htime
      exact List.nodup_cons.mpr
        ⟨fun hmem => apart (List.mem_singleton.mp hmem).symm, List.nodup_singleton _⟩

/-- What a deletion marks the row with, the record holds. -/
theorem agrees_of_delete {st : Statement} (hderived : map.Derived)
    (hnames : (map.columns.map (·.name)).Nodup) (htypes : map.HasTypes b.record)
    (h : delete map b = .ok st b') : map.Agrees st.assignments b.record b'.record := by
  obtain ⟨-, filter, context, supply, -, hremoved, hfollow⟩ := steps_of_delete h
  rcases hfollow with ⟨s, rfl, hfollow⟩ | ⟨-, rfl⟩
  · exact agrees_of_follow (b := { b with supply }) hderived hnames htypes
      (suits_of_removeRows hderived hremoved) (nodup_of_removeRows hderived hnames hremoved) hfollow
  · exact .of_sameFields (.refl _)

theorem agreesAfter_delete (hderived : map.Derived) (hnames : (map.columns.map (·.name)).Nodup)
    (htypes : map.HasTypes b.record) : map.AgreesAfter some b.record (delete map b) := by
  cases hempty : map.hasEmptyKey b.record with
  | error e =>
      have refused : delete map b = .error e b := by
        unfold delete
        rw [bind_of_ok (show record b = .ok b.record b from rfl), hempty]
        rfl
      rw [refused]
      exact .refl _
  | ok empty =>
      cases empty with
      | true =>
          rw [delete_of_keyless hempty]
          exact .refl _
      | false =>
          obtain ⟨st, b', h⟩ := exists_delete hderived hnames htypes hempty
          rw [h]
          exact agrees_of_delete hderived hnames htypes h

theorem agreesAfter_insert (hderived : map.Derived) (hnames : (map.columns.map (·.name)).Nodup)
    (htypes : map.HasTypes b.record) (forced : Bool) :
    map.AgreesAfter (Option.map .insert) b.record (insert map forced b) := by
  obtain ⟨st?, b', h⟩ := exists_insert hderived htypes forced
  rw [h]
  cases st? with
  | none =>
      obtain ⟨rfl, -⟩ := ok_of_insert_none h
      exact .refl _
  | some st => exact agrees_of_insert hderived hnames h

/-! ## Updates -/

/-- An update that does not accept the key or the fields has changed nothing. -/
theorem update_of_refused {fields : Option (List String)}
    (hrefused : ¬ (map.hasEmptyKey b.record = .ok false ∧
      map.checkFields (fields.getD []) = .ok ())) : ∃ e, update map fields b = .error e b := by
  unfold update
  rw [bind_of_ok (show record b = .ok b.record b from rfl)]
  cases hempty : map.hasEmptyKey b.record with
  | error e => exact ⟨e, rfl⟩
  | ok empty =>
      cases empty with
      | true => exact ⟨_, rfl⟩
      | false =>
          cases hfields : map.checkFields (fields.getD []) with
          | error e => exact ⟨e, rfl⟩
          | ok u => exact absurd ⟨hempty, hfields⟩ hrefused

/-- An update that finds nothing to write has stamped the record before it fails. -/
theorem update_of_unwritten {fields : Option (List String)} {stamped : Option String}
    (hstored : map.hasEmptyKey b.record = .ok false)
    (hfields : map.checkFields (fields.getD []) = .ok ()) (hstamp : stamp map b = .ok stamped b')
    (hnone : map.written fields = []) :
    update map fields b = .error (.of (.nothingToUpdate map.table.name)) b' := by
  obtain rfl := stamped_of_stamp hstamp
  unfold update
  rw [bind_of_ok (show record b = .ok b.record b from rfl), bind_of_ok (ofExcept_of_ok hstored)]
  simp only [Bool.false_eq_true, if_false]
  rw [bind_of_ok (ofExcept_of_ok hfields), bind_of_ok hstamp,
    bind_of_ok (show record b' = .ok b'.record b' from rfl)]
  have hset : ofExcept (map.assignments b'.record (map.written fields) { qualify := false }) b' =
      .ok ([], { qualify := false }) b' := by
    rw [hnone]
    rfl
  exact (bind_of_ok hset).trans rfl

/-- Stamping changes no field if the record holds the time already, or has no column for it. -/
theorem sameFields_of_stamp_iff {stamped : Option String} (hstamp : stamp map b = .ok stamped b') :
    b.record.SameFields b'.record ↔ ∀ c, map.autoTimestampColumn? = some c →
      b.record.field? c.property = some (.timestamp (some b.supply.takeTime.1)) := by
  have timed := assignsAt_of_stamp hstamp
  constructor
  · intro same c hc
    rw [← same.2, field?_of_stamp hc hstamp]
  · intro holds
    refine ⟨timed.onlyFields, fun property => ?_⟩
    by_contra hchanged
    obtain ⟨c, hc, rfl⟩ := timed.exists_of_ne hchanged
    exact hchanged ((field?_of_stamp hc hstamp).trans (holds c hc).symm)

/-- The auto timestamp is written by every update, if it may be written at all. -/
theorem autoTimestamp_mem_written (hderived : map.Derived) {fields : Option (List String)}
    {c : ColumnDef} (hc : map.autoTimestampColumn? = some c) :
    c ∈ map.written fields ↔ c.isWritable = true := by
  have hmem := (EntityMap.Derived.exists_of_role hderived.autoTimestamp hc).1
  rw [hderived.mem_written hmem, EntityMap.IsWritten, EntityMap.isWritable_iff]
  constructor
  · rintro ⟨hkey, hupdatable, -⟩
    exact ⟨hkey, hupdatable⟩
  · rintro ⟨hkey, hupdatable⟩
    exact ⟨hkey, hupdatable, .inr hc⟩

/-- An accepted update agrees with the record if the column that was stamped is written. -/
theorem agrees_of_update_iff {fields : Option (List String)} {st : UpdateStatement}
    (hderived : map.Derived) (hnames : (map.columns.map (·.name)).Nodup)
    (h : update map fields b = .ok st b') :
    map.Agrees st.set b.record b'.record ↔ ∀ c, map.autoTimestampColumn? = some c →
      c.isWritable = false →
      b.record.field? c.property = some (.timestamp (some b.supply.takeTime.1)) := by
  obtain ⟨-, -, -, stamped, -, -, hstamp, -⟩ := steps_of_update h
  have timed := assignsAt_of_stamp hstamp
  have hvalues := (ok_of_update hderived h).2.2.set_eq
  have hsub : map.written fields ⊆ map.columns := List.filter_sublist.subset
  constructor
  · intro agrees c hc hfixed
    by_contra other
    have hchanged : b'.record.field? c.property ≠ b.record.field? c.property := by
      rw [field?_of_stamp hc hstamp]
      exact fun same => other same.symm
    obtain ⟨v, -, c', hc', hproperty, ⟨a, ha, hname⟩, -⟩ := agrees.assigned c.property hchanged
    have hmem := (EntityMap.Derived.exists_of_role hderived.autoTimestamp hc).1
    obtain rfl : c' = c := hderived.eq_of_property hc' hmem hproperty
    have written := (EntityMap.mem_of_assigned hnames hsub hvalues hmem ha hname).1
    rw [autoTimestamp_mem_written hderived hc, hfixed] at written
    cases written
  · intro holds
    refine EntityMap.agrees_of_values hnames hsub timed.onlyFields hvalues
      fun property hchanged => ?_
    obtain ⟨c, hc, rfl⟩ := timed.exists_of_ne hchanged
    refine ⟨c, (autoTimestamp_mem_written hderived hc).mpr ?_, rfl⟩
    by_contra hfixed
    have held := holds c hc (by simpa using hfixed)
    exact hchanged ((field?_of_stamp hc hstamp).trans held.symm)

theorem agreesAfter_update_iff (hderived : map.Derived)
    (hnames : (map.columns.map (·.name)).Nodup) (htypes : map.HasTypes b.record)
    (fields : Option (List String)) :
    map.AgreesAfter (fun st => some (.update st)) b.record (update map fields b) ↔
      ¬ map.StampsAside fields b.record b.supply.takeTime.1 := by
  by_cases haccepted : map.hasEmptyKey b.record = .ok false ∧
      map.checkFields (fields.getD []) = .ok ()
  · obtain ⟨hstored, hfields⟩ := haccepted
    have aside : ¬ map.StampsAside fields b.record b.supply.takeTime.1 ↔
        ∀ c, map.autoTimestampColumn? = some c → c.isWritable = false →
          b.record.field? c.property = some (.timestamp (some b.supply.takeTime.1)) := by
      simp [EntityMap.StampsAside, hstored, hfields]
    rw [aside]
    obtain ⟨stamped, b₁, hstamp, -⟩ := exists_stamp hderived htypes
    by_cases hnone : map.written fields = []
    · rw [update_of_unwritten hstored hfields hstamp hnone]
      refine (sameFields_of_stamp_iff hstamp).trans ⟨fun holds c hc _ => holds c hc, ?_⟩
      intro holds c hc
      refine holds c hc ?_
      -- a timestamp that may be written would have been
      rw [← Bool.not_eq_true, ← autoTimestamp_mem_written hderived hc, hnone]
      exact List.not_mem_nil
    · obtain ⟨st, b', h⟩ := exists_update hderived htypes hstored hfields hnone
      rw [h]
      exact agrees_of_update_iff hderived hnames h
  · obtain ⟨e, refused⟩ := update_of_refused haccepted
    rw [refused]
    exact iff_of_true (.refl _) fun aside => haccepted ⟨aside.1, aside.2.1⟩

/-- **Record and statement agree.** For every entity map whose columns have different names and
every record: an insertion and a deletion leave the record in agreement with the statement that they
give, and as it was if they give none. An update does so if and only if it does not stamp the record
in a column that it does not write. -/
theorem agrees_after_edits {m : Model} {map : EntityMap} {record : Record}
    (hmap : m.entityMap record.type = .ok map) (hnames : (map.columns.map (·.name)).Nodup)
    (htypes : map.HasTypes record) (supply : Supply) :
    (∀ forced, map.AgreesAfter (Option.map .insert) record
      (insert map forced ⟨record, supply⟩)) ∧
    map.AgreesAfter some record (delete map ⟨record, supply⟩) ∧
    ∀ fields, map.AgreesAfter (fun st => some (.update st)) record
      (update map fields ⟨record, supply⟩) ↔ ¬ map.StampsAside fields record supply.takeTime.1 := by
  have hderived := Model.derived_of_entityMap hmap
  refine ⟨fun forced => ?_, ?_, fun fields => ?_⟩
  · exact agreesAfter_insert (b := ⟨record, supply⟩) hderived hnames htypes forced
  · exact agreesAfter_delete (b := ⟨record, supply⟩) hderived hnames htypes
  · exact agreesAfter_update_iff (b := ⟨record, supply⟩) hderived hnames htypes fields

/-- A main record whose time is written by updates: inserted again, updated or deleted, it agrees
with its row. -/
theorem agrees_after_edits_timed :
    let map := Sample.mapOf Sample.timed
    let b : Bench := ⟨Sample.storedMain, NumberedSupply.supply⟩
    (Sample.model (some Sample.timed.declaration) none).entityMap b.record.type = .ok map ∧
    (map.columns.map (·.name)).Nodup ∧ map.HasTypes b.record ∧
    map.AgreesAfter (Option.map .insert) b.record (insert map true b) ∧
    map.AgreesAfter some b.record (delete map b) ∧
    map.AgreesAfter (fun st => some (.update st)) b.record (update map (some []) b) := by
  intro map b
  have hmap : (Sample.model (some Sample.timed.declaration) none).entityMap b.record.type =
      .ok map := rfl
  have hnames : (map.columns.map (·.name)).Nodup := by decide +kernel
  obtain ⟨inserted, deleted, updated⟩ :=
    agrees_after_edits hmap hnames Sample.hasTypes_storedMain NumberedSupply.supply
  refine ⟨hmap, hnames, Sample.hasTypes_storedMain, inserted true, deleted,
    (updated (some [])).mpr ?_⟩
  rintro ⟨-, -, c, hc, hfixed, -⟩
  cases hc
  cases hfixed

end Edit

namespace Sample

/-- Main records with the time at which they were inserted, which is not to be updated. -/
def fixedTime : EntityType where
  prototype := mainPrototype
  declaration :=
    { table := "mains"
      columns := [generatedColumn "id", column "num",
        { column "at" with autoTimestamp := true, updatable := false }] }

/-- A record is stamped although the update is refused, since there is nothing to write; and it is
stamped by an update that writes its number alone. -/
theorem update_of_fixedTime :
    let map := mapOf fixedTime
    let b : Bench := ⟨storedMain, NumberedSupply.supply⟩
    (model (some fixedTime.declaration) none).entityMap storedMain.type = .ok map ∧
    (map.columns.map (·.name)).Nodup ∧
    (∃ b', Edit.update map (some []) b = .error (.of (.nothingToUpdate "mains")) b' ∧
      b'.record.field? "at" ≠ b.record.field? "at") ∧
    ∃ st b', Edit.update map none b = .ok st b' ∧
      b'.record.field? "at" ≠ b.record.field? "at" ∧ st.set.map (·.column) = ["num"] := by
  refine ⟨rfl, by decide +kernel, ⟨_, rfl, by decide +kernel⟩, _, _, rfl, by decide +kernel, rfl⟩

end Sample

end GraphStore
