import GraphStore.Proofs.Outcome
import GraphStore.Proofs.Record.Places
import GraphStore.Sql.Render
import GraphStore.Statement.Insert

/-!
# What an insert describes

The insertion of a record assigns every column that the database does not generate, with the value
that the record holds once the edit is over (`Model.Describes`). The edit changes fields only, and
nothing at all when the record counts as stored.
-/

set_option autoImplicit false

namespace GraphStore

/-! ## Reading depends on the fields alone -/

theorem Record.field?_congr {r r' : Record} (h : r'.fields = r.fields) (property : String) :
    r'.field? property = r.field? property := by
  rw [field?, field?, h]

namespace EntityMap

variable {map : EntityMap} {r r' : Record}

theorem read_congr (h : r'.fields = r.fields) (property : String) :
    map.read r' property = map.read r property := by
  rw [read, read, Record.field?_congr h]

theorem anyEmptyKey_congr {columns : List ColumnDef}
    (h : ∀ c ∈ columns, r'.field? c.property = r.field? c.property) :
    map.anyEmptyKey r' columns = map.anyEmptyKey r columns := by
  induction columns with
  | nil => rfl
  | cons c cs ih =>
      have ih := ih fun c' hc' => h c' (List.mem_cons_of_mem c hc')
      rw [anyEmptyKey, anyEmptyKey, read, read, h c (by simp), ih]

/-- Only the key columns matter to whether a key is empty. -/
theorem hasEmptyKey_eq_of_keys
    (h : ∀ c ∈ map.keyColumns, r'.field? c.property = r.field? c.property) :
    map.hasEmptyKey r' = map.hasEmptyKey r := by
  rw [hasEmptyKey, hasEmptyKey, anyEmptyKey_congr h]

theorem hasEmptyKey_congr (h : r'.fields = r.fields) :
    map.hasEmptyKey r' = map.hasEmptyKey r :=
  hasEmptyKey_eq_of_keys fun c _ => Record.field?_congr h c.property

theorem read_eq_ok {property : String} {v : Value} (h : map.read r property = .ok v) :
    r.field? property = some v :=
  ok_of_orFail h

theorem read_of_field? {property : String} {v : Value} (h : r.field? property = some v) :
    map.read r property = .ok v := by
  rw [read, h]
  rfl

/-- An empty key column makes the key empty. -/
theorem hasEmptyKey_of_mem {c : ColumnDef} {v : Value} {b : Bool} (hc : c ∈ map.keyColumns)
    (hread : map.read r c.property = .ok v) (hv : v.isEmptyKey = true)
    (h : map.hasEmptyKey r = .ok b) : b = true := by
  obtain ⟨_, -, h⟩ := ok_of_bind h
  -- the columns are checked one by one until an empty one is found
  generalize map.keyColumns = columns at hc h
  induction columns with
  | nil => cases hc
  | cons d ds ih =>
      rw [anyEmptyKey] at h
      obtain ⟨w, hw, h⟩ := ok_of_bind h
      by_cases hempty : w.isEmptyKey = true
      · rw [if_pos hempty] at h
        cases h
        rfl
      · rw [if_neg hempty] at h
        rcases List.mem_cons.mp hc with rfl | hc
        · rw [hread] at hw
          cases hw
          exact absurd hv hempty
        · exact ih hc h

theorem anyEmptyKey_eq_false {columns : List ColumnDef} :
    map.anyEmptyKey r columns = .ok false ↔
      ∀ c ∈ columns, ∃ v, r.field? c.property = some v ∧ v.isEmptyKey = false := by
  induction columns with
  | nil => simp [anyEmptyKey]
  | cons c cs ih =>
      rw [List.forall_mem_cons, ← ih, anyEmptyKey]
      constructor
      · intro h
        obtain ⟨v, hv, h⟩ := ok_of_bind h
        by_cases hempty : v.isEmptyKey = true
        · rw [if_pos hempty] at h
          cases h
        · rw [if_neg hempty] at h
          exact ⟨⟨v, read_eq_ok hv, by simpa using hempty⟩, h⟩
      · rintro ⟨⟨v, hv, hempty⟩, h⟩
        rw [read_of_field? hv, ok_bind, if_neg (by simp [hempty]), h]

/-- A key that is not empty has a value in every column. -/
theorem hasEmptyKey_eq_false : map.hasEmptyKey r = .ok false ↔ map.keys.isEmpty = false ∧
    ∀ c ∈ map.keyColumns, ∃ v, r.field? c.property = some v ∧ v.isEmptyKey = false := by
  rw [← @anyEmptyKey_eq_false map, hasEmptyKey, requireKeys]
  cases map.keys.isEmpty with
  | true =>
      constructor
      · intro h
        cases h
      · rintro ⟨h, -⟩
        cases h
  | false =>
      simp only [Bool.false_eq_true, if_false, ok_bind, true_and]

/-- The assignments are the values of the record, column by column. -/
theorem values_of_assignments {record : Record} {columns : List ColumnDef}
    {context context' : Context} {values : List Assignment}
    (h : map.assignments record columns context = .ok (values, context')) :
    values.map (fun a => (a.column, some a.param.value)) =
      columns.map fun c => (c.name, record.field? c.property) := by
  induction columns generalizing context values with
  | nil =>
      cases h
      rfl
  | cons c cs ih =>
      rw [assignments] at h
      obtain ⟨v, hv, h⟩ := ok_of_bind h
      obtain ⟨⟨others, context₁⟩, hothers, h⟩ := ok_of_bind h
      cases h
      rw [List.map_cons, List.map_cons, ih hothers, read_eq_ok hv]

end EntityMap

/-! ## Edits -/

namespace Edit

variable {α : Type}

theorem ok_of_ofExcept {x : Except Error α} {a : α} {b b' : Bench}
    (h : ofExcept x b = .ok a b') : x = .ok a ∧ b' = b := by
  unfold ofExcept at h
  split at h
  next =>
    cases h
    exact ⟨rfl, rfl⟩
  next => cases h

theorem ok_of_assignField {property : String} {v : Value} {b b' : Bench}
    (h : assignField property v b = .ok () b') : b.record.setField property v = .ok b'.record := by
  unfold assignField at h
  split at h
  next r hr =>
    cases h
    exact hr
  next => cases h

/-- Two records differ in fields only. -/
def OnlyFields (r r' : Record) : Prop := r'.type = r.type ∧ r'.slots = r.slots

theorem OnlyFields.refl (r : Record) : OnlyFields r r := ⟨rfl, rfl⟩

theorem OnlyFields.trans {r₀ r₁ r₂ : Record} (h : OnlyFields r₀ r₁) (h' : OnlyFields r₁ r₂) :
    OnlyFields r₀ r₂ :=
  ⟨h'.1.trans h.1, h'.2.trans h.2⟩

/-- Nothing was done to the record, or the field of one column was assigned. -/
def AssignsAt (column? : Option ColumnDef) (r r' : Record) : Prop :=
  r' = r ∨ ∃ c v, column? = some c ∧ r.setField c.property v = .ok r'

namespace AssignsAt

variable {column? : Option ColumnDef} {r r' : Record} {property : String}

theorem onlyFields (h : AssignsAt column? r r') : OnlyFields r r' := by
  rcases h with rfl | ⟨c, v, -, hassign⟩
  · exact .refl _
  · exact ⟨Record.type_of_setField hassign, Record.slots_of_setField hassign⟩

/-- The other fields are as they were. -/
theorem field?_eq (h : AssignsAt column? r r')
    (hproperty : ∀ c, column? = some c → property ≠ c.property) :
    r'.field? property = r.field? property := by
  rcases h with rfl | ⟨c, v, hcolumn, hassign⟩
  · rfl
  · exact Record.field?_of_setField hassign (hproperty c hcolumn)

end AssignsAt

section

variable {map : EntityMap} {b b' : Bench}

/-- What stamping does: nothing without an auto timestamp, and otherwise it assigns a time. -/
inductive Stamps (map : EntityMap) (b : Bench) : Option String → Bench → Prop where
  | without (hcolumn : map.autoTimestampColumn? = none) : Stamps map b none b
  | stamped {column : ColumnDef} {time : Timestamp} {b' : Bench}
      (hcolumn : map.autoTimestampColumn? = some column)
      (hassign : b.record.setField column.property (.timestamp (some time)) = .ok b'.record) :
      Stamps map b (some column.property) b'

theorem stamps_of_stamp {stamped : Option String} (h : stamp map b = .ok stamped b') :
    Stamps map b stamped b' := by
  unfold stamp at h
  cases hcolumn : map.autoTimestampColumn? with
  | none =>
      simp only [hcolumn] at h
      cases h
      exact .without hcolumn
  | some column =>
      simp only [hcolumn] at h
      obtain ⟨time, b₁, hnow, h₁⟩ := ends_of_bind h
      obtain ⟨_, b₂, hassign, h₂⟩ := ends_of_bind h₁
      cases hnow
      cases h₂
      have assigned := ok_of_assignField hassign
      exact .stamped hcolumn assigned

theorem assignsAt_of_stamp {stamped : Option String} (h : stamp map b = .ok stamped b') :
    AssignsAt map.autoTimestampColumn? b.record b'.record := by
  cases stamps_of_stamp h with
  | without hcolumn => exact .inl rfl
  | stamped hcolumn hassign => exact .inr ⟨_, _, hcolumn, hassign⟩

theorem stamped_of_stamp {stamped : Option String} (h : stamp map b = .ok stamped b') :
    stamped = map.autoTimestampColumn?.map (·.property) := by
  cases stamps_of_stamp h with
  | without hcolumn => rw [hcolumn, Option.map_none]
  | stamped hcolumn hassign => rw [hcolumn, Option.map_some]

/-- What becomes of the generated key: there is none, or it is present, or a random identifier is
drawn for it, or it is left to the database. -/
inductive ProvidesKey (map : EntityMap) (b : Bench) : Option GeneratedKey → Bench → Prop where
  | without (hcolumn : map.generatedKeyColumn? = none) : ProvidesKey map b none b
  | present {column : ColumnDef} {v : Value} (hcolumn : map.generatedKeyColumn? = some column)
      (hfield : b.record.field? column.property = some v) (hpresent : v.isEmptyKey = false) :
      ProvidesKey map b none b
  | drawn {column : ColumnDef} {u : Uuid} {b' : Bench}
      (hcolumn : map.generatedKeyColumn? = some column)
      (hassign : b.record.setField column.property (.uuid (some u.markRandom)) = .ok b'.record)
      (hfield : ∃ empty, b.record.field? column.property = some (.uuid empty)) :
      ProvidesKey map b none b'
  | left {column : ColumnDef} {v : Value} (hcolumn : map.generatedKeyColumn? = some column)
      (hfield : b.record.field? column.property = some v) (hempty : v.isEmptyKey = true)
      (hother : ∀ u, v ≠ .uuid u) : ProvidesKey map b (some ⟨column.property, column.name⟩) b

theorem providesKey_of_provideKey {key : Option GeneratedKey} (h : provideKey map b = .ok key b') :
    ProvidesKey map b key b' := by
  unfold provideKey at h
  cases hcolumn : map.generatedKeyColumn? with
  | none =>
      simp only [hcolumn] at h
      cases h
      exact .without hcolumn
  | some column =>
      simp only [hcolumn] at h
      obtain ⟨r, b₁, hrecord, h₁⟩ := ends_of_bind h
      cases hrecord
      obtain ⟨v, b₂, hread, h₂⟩ := ends_of_bind h₁
      obtain ⟨hvalue, rfl⟩ := ok_of_ofExcept hread
      have hfield := EntityMap.read_eq_ok hvalue
      by_cases hempty : v.isEmptyKey = true
      · rw [if_neg (by simp [hempty])] at h₂
        cases v with
        | uuid u =>
            obtain ⟨u, b₃, hfresh, h₃⟩ := ends_of_bind h₂
            obtain ⟨_, b₄, hassign, h₄⟩ := ends_of_bind h₃
            cases hfresh
            cases h₄
            have assigned := ok_of_assignField hassign
            exact .drawn hcolumn assigned ⟨_, hfield⟩
        | _ =>
            cases h₂
            exact .left hcolumn hfield hempty nofun
      · rw [if_pos (by simpa using hempty)] at h₂
        cases h₂
        exact .present hcolumn hfield (by simpa using hempty)

theorem assignsAt_of_provideKey {key : Option GeneratedKey} (h : provideKey map b = .ok key b') :
    AssignsAt map.generatedKeyColumn? b.record b'.record := by
  cases providesKey_of_provideKey h with
  | drawn hcolumn hassign => exact .inr ⟨_, _, hcolumn, hassign⟩
  | _ => exact .inl rfl

end

end Edit

/-! ## The insertion of a record -/

/-- The field of a property may be generated when a record is inserted: it is that of the
generated key or of the auto timestamp. -/
def EntityMap.Generates (map : EntityMap) (property : String) : Prop :=
  ∃ c, (map.generatedKeyColumn? = some c ∨ map.autoTimestampColumn? = some c) ∧
    c.property = property

theorem EntityMap.generates_iff {map : EntityMap} {property : String} : map.Generates property ↔
    (map.generatedKeyColumn?.any (·.property == property) ||
      map.autoTimestampColumn?.any (·.property == property)) = true := by
  unfold Generates
  cases map.generatedKeyColumn? <;> cases map.autoTimestampColumn? <;> simp

instance (map : EntityMap) (property : String) : Decidable (map.Generates property) :=
  decidable_of_iff _ EntityMap.generates_iff.symm

/-- The statement inserts the record: into its table, with the values of all columns but the one
that the database generates. -/
def Model.Describes (m : Model) (st : InsertStatement) (record : Record) : Prop :=
  ∃ map, m.entityMap record.type = .ok map ∧ st.table = map.table ∧
    st.values.map (fun a => (a.column, some a.param.value)) =
      (map.columns.filter fun c => !(st.generatedKey.any (·.property == c.property))).map
        fun c => (c.name, record.field? c.property)

theorem Model.Describes.congr {m : Model} {st : InsertStatement} {r r' : Record}
    (h : m.Describes st r) (htype : r'.type = r.type) (hfields : r'.fields = r.fields) :
    m.Describes st r' := by
  obtain ⟨map, hmap, htable, hvalues⟩ := h
  refine ⟨map, by rw [htype, hmap], htable, hvalues.trans ?_⟩
  simp only [Record.field?, hfields]

/-- Assigning the generated key afterwards leaves the described values alone. -/
theorem Model.Describes.of_generatedKey {m : Model} {st : InsertStatement} {r r' : Record}
    {key : GeneratedKey} {v : Value} (h : m.Describes st r) (hkey : st.generatedKey = some key)
    (hassign : r.setField key.property v = .ok r') : m.Describes st r' := by
  obtain ⟨map, hmap, htable, hvalues⟩ := h
  refine ⟨map, by rw [Record.type_of_setField hassign, hmap], htable, ?_⟩
  rw [hvalues]
  apply List.map_congr_left
  intro c hc
  -- the column of the generated key is not among those that are inserted
  have apart : c.property ≠ key.property := by
    have := (List.mem_filter.mp hc).2
    rw [hkey] at this
    intro equal
    simp [equal] at this
  rw [Record.field?_of_setField hassign apart]

namespace Edit

variable {map : EntityMap} {forced : Bool} {b b' : Bench}

theorem ok_of_isStored {stored : Bool} (h : isStored map b = .ok stored b') :
    b' = b ∧ (if map.keys.isEmpty then stored = false
      else map.hasEmptyKey b.record = .ok !stored) := by
  unfold isStored at h
  by_cases hkeys : map.keys.isEmpty = true
  · rw [if_pos hkeys] at h ⊢
    cases h
    exact ⟨rfl, rfl⟩
  · rw [if_neg hkeys] at h ⊢
    obtain ⟨r, b₁, hrecord, h₁⟩ := ends_of_bind h
    cases hrecord
    obtain ⟨empty, b₂, hempty, h₂⟩ := ends_of_bind h₁
    obtain ⟨hempty, rfl⟩ := ok_of_ofExcept hempty
    cases h₂
    exact ⟨rfl, by rw [hempty, Bool.not_not]⟩

/-- Nothing is inserted only when the record counts as stored; it is left as it was. -/
theorem ok_of_insert_none (h : insert map forced b = .ok none b') :
    b' = b ∧ forced = false ∧ map.keys.isEmpty = false ∧ map.hasEmptyKey b.record = .ok false := by
  unfold insert at h
  obtain ⟨stored, b₁, hstored, h₁⟩ := ends_of_bind h
  obtain ⟨rfl, hstored⟩ := ok_of_isStored hstored
  by_cases hskip : (stored && !forced) = true
  · rw [if_pos hskip] at h₁
    cases h₁
    simp only [Bool.and_eq_true, Bool.not_eq_true'] at hskip
    obtain ⟨rfl, rfl⟩ := hskip
    by_cases hkeys : map.keys.isEmpty = true
    · simp [hkeys] at hstored
    · rw [if_neg hkeys] at hstored
      exact ⟨rfl, rfl, by simpa using hkeys, hstored⟩
  · rw [if_neg hskip] at h₁
    obtain ⟨key, b₂, -, h₂⟩ := ends_of_bind h₁
    obtain ⟨_, b₃, -, h₃⟩ := ends_of_bind h₂
    obtain ⟨_, b₄, -, h₄⟩ := ends_of_bind h₃
    obtain ⟨_, b₅, -, h₅⟩ := ends_of_bind h₄
    cases h₅

/-- How a record was made ready for its insertion: it counted as new unless that was forced, fields
were generated, and the statement describes it as it is then. -/
structure Prepares (m : Model) (map : EntityMap) (forced : Bool) (r r' : Record)
    (st : InsertStatement) : Prop where
  new : forced = true ∨ map.keys.isEmpty = true ∨ map.hasEmptyKey r = .ok true
  onlyFields : OnlyFields r r'
  describes : m.Describes st r'
  field?_eq : ∀ property, ¬ map.Generates property → r'.field? property = r.field? property
  generates : ∀ key, st.generatedKey = some key → map.Generates key.property

/-- The record stays prepared when its generated key is assigned. -/
theorem Prepares.of_generatedKey {m : Model} {r r' r'' : Record} {st : InsertStatement}
    {key : GeneratedKey} {v : Value} (h : Prepares m map forced r r' st)
    (hkey : st.generatedKey = some key) (hassign : r'.setField key.property v = .ok r'') :
    Prepares m map forced r r'' st where
  new := h.new
  onlyFields := h.onlyFields.trans
    ⟨Record.type_of_setField hassign, Record.slots_of_setField hassign⟩
  describes := h.describes.of_generatedKey hkey hassign
  field?_eq property hfree := by
    have apart : property ≠ key.property := fun equal => hfree (equal ▸ h.generates key hkey)
    rw [Record.field?_of_setField hassign apart, h.field?_eq property hfree]
  generates := h.generates

/-- The steps by which the statement comes about. -/
theorem steps_of_insert_some {st : InsertStatement} (h : insert map forced b = .ok (some st) b') :
    (forced = true ∨ map.keys.isEmpty = true ∨ map.hasEmptyKey b.record = .ok true) ∧
    ∃ b₁ stamped context, provideKey map b = .ok st.generatedKey b₁ ∧
      stamp map b₁ = .ok stamped b' ∧ st.table = map.table ∧
      map.assignments b'.record
        (map.columns.filter fun c => !(st.generatedKey.any (·.property == c.property)))
        { qualify := false } = .ok (st.values, context) := by
  unfold insert at h
  obtain ⟨stored, b₁, hstored, h₁⟩ := ends_of_bind h
  obtain ⟨rfl, hstored⟩ := ok_of_isStored hstored
  by_cases hskip : (stored && !forced) = true
  · rw [if_pos hskip] at h₁
    cases h₁
  · rw [if_neg hskip] at h₁
    obtain ⟨key, b₂, hkey, h₂⟩ := ends_of_bind h₁
    obtain ⟨stamped, b₃, hstamp, h₃⟩ := ends_of_bind h₂
    obtain ⟨r, b₄, hrecord, h₄⟩ := ends_of_bind h₃
    cases hrecord
    obtain ⟨⟨values, context⟩, b₅, hvalues, h₅⟩ := ends_of_bind h₄
    obtain ⟨hvalues, rfl⟩ := ok_of_ofExcept hvalues
    cases h₅
    refine ⟨?_, b₂, stamped, context, hkey, hstamp, rfl, hvalues⟩
    cases forced with
    | true => exact .inl rfl
    | false =>
        -- an unforced insertion goes on only with a record that does not count as stored
        have hnew : stored = false := by simpa using hskip
        subst hnew
        by_cases hkeys : map.keys.isEmpty = true
        · exact .inr (.inl hkeys)
        · rw [if_neg hkeys] at hstored
          exact .inr (.inr hstored)

theorem ok_of_insert_some {m : Model} {st : InsertStatement}
    (hmap : m.entityMap b.record.type = .ok map) (h : insert map forced b = .ok (some st) b') :
    Prepares m map forced b.record b'.record st := by
  obtain ⟨new, b₁, stamped, context, hkey, hstamp, htable, hvalues⟩ := steps_of_insert_some h
  have provided := assignsAt_of_provideKey hkey
  have timed := assignsAt_of_stamp hstamp
  have fields : OnlyFields b.record b'.record := provided.onlyFields.trans timed.onlyFields
  exact {
    new := new
    onlyFields := fields
    describes := ⟨map, by rw [fields.1, hmap], htable, EntityMap.values_of_assignments hvalues⟩
    field?_eq := fun property hfree => by
      rw [timed.field?_eq fun c hc equal => hfree ⟨c, .inr hc, equal.symm⟩,
        provided.field?_eq fun c hc equal => hfree ⟨c, .inl hc, equal.symm⟩]
    generates := fun key' hkey' => by
      rw [hkey'] at hkey
      cases providesKey_of_provideKey hkey with
      | left hcolumn => exact ⟨_, .inl hcolumn, rfl⟩ }

end Edit

/-! ## The values that a query binds -/

namespace Piece

@[simp] theorem params_text (s : String) (ps : List Piece) :
    params (.text s :: ps) = params ps := rfl

@[simp] theorem params_name (s : String) (ps : List Piece) :
    params (.name s :: ps) = params ps := rfl

@[simp] theorem params_param (p : Param) (ps : List Piece) :
    params (.param p :: ps) = p :: params ps := rfl

@[simp] theorem params_nil : params [] = [] := rfl

/-- The parameters of items laid out are those of the items if the separator has none. -/
theorem params_separatedBy {α : Type} (write : α → List Piece) (separator : List Piece)
    (hseparator : params separator = []) (items : List α) :
    params (Text.separatedBy write separator items) = items.flatMap fun a => params (write a) := by
  unfold Text.separatedBy
  generalize false = owed
  induction items generalizing owed with
  | nil => rfl
  | cons a rest ih =>
      rw [Text.separatedFrom, params_append, params_append, ih, List.flatMap_cons]
      cases owed <;> simp [hseparator]

end Piece

theorem TableRef.params_pieces (t : TableRef) (context : Context) (label : String) :
    Piece.params (t.pieces context label) = [] := by
  unfold pieces
  split <;> split <;> rfl

theorem params_outputPieces (d : Dialect) (key : Option GeneratedKey) :
    Piece.params (outputPieces d key) = [] := by
  unfold outputPieces
  split <;> rfl

theorem params_returningPieces (d : Dialect) (key : Option GeneratedKey) :
    Piece.params (returningPieces d key) = [] := by
  unfold returningPieces
  split <;> rfl

/-- An insert binds the values that it assigns, in every dialect. -/
theorem params_render_insert (d : Dialect) (st : InsertStatement) :
    (d.render (.insert st)).params = st.values.map (·.param) := by
  change Piece.params (st.pieces d) = _
  have output := params_outputPieces d st.generatedKey
  have returning := params_returningPieces d st.generatedKey
  have columns := Piece.params_separatedBy (fun a : Assignment => [.name a.column]) [.text ", "]
    rfl st.values
  have values := Piece.params_separatedBy (fun a : Assignment => [.param a.param]) [.text ", "]
    rfl st.values
  unfold InsertStatement.pieces
  by_cases hempty : st.values.isEmpty = true
  · rw [List.isEmpty_iff] at hempty
    simp [hempty, output, returning, TableRef.params_pieces]
  · simp only [hempty, Bool.false_eq_true, if_false, Piece.params_append, Piece.params_text, output,
      returning, columns, values, TableRef.params_pieces]
    simp [List.map_eq_flatMap]

end GraphStore
