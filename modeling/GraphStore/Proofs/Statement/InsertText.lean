import GraphStore.Proofs.Statement.Dialects
import GraphStore.Proofs.Statement.Updating

/-!
# The text of an insert

What an insert looks like in each dialect: the columns in order, and for each of them one
placeholder, which refers to the value of that column; or the dialect's form for a row of defaults,
if no column is left (`InsertStatement.text`). A key that the database generates is the only column
that can be left out (`EntityMap.LeavesOut`). It is handed back by a clause before the values, by
one behind them, or by a query of its own (`Dialect.insertForm`), and by one of these alone
(`InsertForm.HandsBackOnce`).
-/

set_option autoImplicit false

namespace GraphStore

open Text

/-! ## Texts of lists -/

namespace Dialect

variable (d : Dialect)

/-- Only parameters are counted. -/
theorem countAfter_of_params {ps : List Piece} (h : Piece.params ps = []) (count : Nat) :
    d.countAfter count ps = count := by
  induction ps with
  | nil => rfl
  | cons p ps ih =>
      cases p with
      | text s => exact ih h
      | name s => exact ih h
      | param p => cases h

/-- Pieces without parameters are printed the same wherever they stand. -/
theorem printFrom_of_params {ps : List Piece} (h : Piece.params ps = []) (count count' : Nat) :
    d.printFrom count ps = d.printFrom count' ps := by
  induction ps with
  | nil => rfl
  | cons p ps ih =>
      cases p with
      | text s => exact congrArg (s ++ ·) (ih h)
      | name s => exact congrArg (d.identifier s ++ ·) (ih h)
      | param p => cases h

theorem printFrom_append_of_params {ps : List Piece} (h : Piece.params ps = []) (count : Nat)
    (qs : List Piece) :
    d.printFrom count (ps ++ qs) = d.printFrom count ps ++ d.printFrom count qs := by
  rw [printFrom_append, d.countAfter_of_params h]

theorem printFrom_names (count : Nat) (values : List Assignment) :
    d.printFrom count (separatedBy (fun a => [.name a.column]) [.text ", "] values) =
      ", ".intercalate (values.map fun a => d.identifier a.column) := by
  have behind (before : String) (rest : List Assignment) :
      before ++ d.printFrom count
        (separatedFrom (fun a : Assignment => [.name a.column]) [.text ", "] true rest) =
        ", ".intercalate (before :: rest.map fun a => d.identifier a.column) := by
    induction rest generalizing before with
    | nil => simp [separatedFrom, printFrom]
    | cons a rest ih =>
        rw [List.map_cons, String.intercalate_cons_cons, ← ih]
        simp [separatedFrom, printFrom, String.append_assoc]
  cases values with
  | nil => rfl
  | cons a rest =>
      rw [List.map_cons, ← behind]
      simp [separatedBy, separatedFrom, printFrom]

theorem placeholder_countParam (count i : Nat) (p : Param) :
    d.placeholder (d.countParam count + i) p = d.placeholder (count + (i + 1)) p := by
  cases d with
  | postgres =>
      have next : count + 1 + i = count + (i + 1) := by omega
      simp only [countParam, placeholder, next]
  | _ => rfl

theorem printFrom_params (count : Nat) (values : List Assignment) :
    d.printFrom count (separatedBy (fun a => [.param a.param]) [.text ", "] values) =
      ", ".intercalate (values.mapIdx fun i a => d.placeholder (count + i) a.param) := by
  have behind (before : String) (count : Nat) (rest : List Assignment) :
      before ++ d.printFrom count
        (separatedFrom (fun a : Assignment => [.param a.param]) [.text ", "] true rest) =
        ", ".intercalate (before :: rest.mapIdx fun i a => d.placeholder (count + i) a.param) := by
    induction rest generalizing before count with
    | nil => simp [separatedFrom, printFrom]
    | cons a rest ih =>
        have shifted := ih (d.placeholder count a.param) (d.countParam count)
        simp only [d.placeholder_countParam] at shifted
        rw [List.mapIdx_cons, String.intercalate_cons_cons, Nat.add_zero, ← shifted]
        simp [separatedFrom, printFrom, String.append_assoc]
  cases values with
  | nil => rfl
  | cons a rest =>
      have shifted := behind (d.placeholder count a.param) (d.countParam count) rest
      simp only [d.placeholder_countParam] at shifted
      rw [List.mapIdx_cons, Nat.add_zero, ← shifted]
      simp [separatedBy, separatedFrom, printFrom]

/-- The name of a table, behind its schema if it has one. -/
def tableName (t : TableRef) : String :=
  (if t.schema.isEmpty then "" else d.identifier t.schema ++ ".") ++ d.identifier t.name

/-- A table is written by its name alone, if it has no alias. -/
theorem printFrom_table (t : TableRef) (context : Context) (count : Nat) :
    d.printFrom count (t.pieces context "") = d.tableName t := by
  unfold TableRef.pieces tableName
  cases t.schema.isEmpty <;> simp [printFrom, String.append_assoc]

/-! ## The statement -/

end Dialect

/-- What belongs to a dialect in an insert: the clause before the values, a row of defaults, the
clause behind the values, and the query that asks for the generated key. -/
structure InsertForm where
  output : String
  defaults : String
  returning : String
  followUp : Option String
deriving DecidableEq, Repr

/-- The forms of the dialects, spelled out. A generated key is handed back by a clause of the insert
or by a query behind it. -/
def Dialect.insertForm (d : Dialect) (key? : Option GeneratedKey) : InsertForm :=
  match d with
  | postgres =>
      { output := ""
        defaults := " DEFAULT VALUES"
        returning := key?.elim "" fun key => " RETURNING " ++ postgres.identifier key.column
        followUp := none }
  | sqlServer =>
      { output := key?.elim "" fun key => " OUTPUT INSERTED." ++ sqlServer.identifier key.column
        defaults := " DEFAULT VALUES"
        returning := ""
        followUp := none }
  | sqlite =>
      { output := ""
        defaults := " DEFAULT VALUES"
        returning := ""
        followUp := key?.map fun _ => "SELECT last_insert_rowid();" }
  | mySql =>
      { output := ""
        defaults := " () VALUES ()"
        returning := ""
        followUp := key?.map fun _ => "SELECT LAST_INSERT_ID();" }

namespace InsertForm

/-- The text of the insert hands the key back. -/
def Exposes (form : InsertForm) : Prop := form.output ≠ "" ∨ form.returning ≠ ""

/-- The key is handed back in exactly one way: by one clause of the text, or by a query of its own
and no clause. -/
def HandsBackOnce (form : InsertForm) : Prop :=
  (form.Exposes → form.output = "" ∨ form.returning = "") ∧
    (form.followUp.isSome = true ↔ ¬ form.Exposes)

end InsertForm

namespace Dialect

variable (d : Dialect)

theorem insertForm_output (key? : Option GeneratedKey) :
    d.printFrom 0 (outputPieces d key?) = (d.insertForm key?).output := by
  cases d <;> cases key? <;> simp [outputPieces, printFrom, insertForm]

theorem insertForm_returning (key? : Option GeneratedKey) :
    d.printFrom 0 (returningPieces d key?) = (d.insertForm key?).returning := by
  cases d <;> cases key? <;> simp [returningPieces, printFrom, insertForm]

theorem insertForm_defaults (key? : Option GeneratedKey) :
    d.defaultValues = (d.insertForm key?).defaults := by
  cases d <;> rfl

/-- The query for the key is asked where the dialect has one. -/
theorem insertForm_followUp (key : GeneratedKey) :
    d.generatedKeyQuery = (d.insertForm (some key)).followUp.map fun text => ⟨text, []⟩ := by
  cases d <;> rfl

/-- A clause that begins with a word is not blank. -/
theorem clause_ne_empty (word rest : String) (h : word ≠ "") : word ++ rest ≠ "" := by
  simp [String.append_eq_empty_iff, h]

theorem handsBackOnce_insertForm (key : GeneratedKey) :
    (d.insertForm (some key)).HandsBackOnce := by
  cases d with
  | postgres =>
      have clause := clause_ne_empty " RETURNING " (postgres.identifier key.column) (by decide)
      exact ⟨fun _ => .inl rfl, iff_of_false nofun fun h => h (.inr clause)⟩
  | sqlServer =>
      have clause := clause_ne_empty " OUTPUT INSERTED." (sqlServer.identifier key.column)
        (by decide)
      exact ⟨fun _ => .inr rfl, iff_of_false nofun fun h => h (.inl clause)⟩
  | sqlite => exact ⟨fun _ => .inl rfl, iff_of_true rfl fun h => h.elim (· rfl) (· rfl)⟩
  | mySql => exact ⟨fun _ => .inl rfl, iff_of_true rfl fun h => h.elim (· rfl) (· rfl)⟩

/-- Without a generated key nothing is handed back. -/
theorem not_exposes_insertForm_none :
    ¬ (d.insertForm none).Exposes ∧ (d.insertForm none).followUp = none := by
  cases d <;> exact ⟨fun h => h.elim (· rfl) (· rfl), rfl⟩

end Dialect

/-- An insert in the form of a dialect. -/
def InsertStatement.text (d : Dialect) (st : InsertStatement) (form : InsertForm) : String :=
  "INSERT INTO " ++ d.tableName st.table ++
    (if st.values.isEmpty then form.output ++ form.defaults
    else " (" ++ ", ".intercalate (st.values.map fun a => d.identifier a.column) ++ ")" ++
      form.output ++ " VALUES (" ++
      ", ".intercalate (st.values.mapIdx fun i a => d.placeholder i a.param) ++ ")") ++
    form.returning ++ ";"

theorem InsertStatement.sql_render (d : Dialect) (st : InsertStatement) :
    (d.render (.insert st)).sql = st.text d (d.insertForm st.generatedKey) := by
  have tables : ∀ context : Context, Piece.params (st.table.pieces context "") = [] :=
    fun context => st.table.params_pieces context ""
  have outputs := params_outputPieces d st.generatedKey
  have columns : Piece.params (separatedBy (fun a : Assignment => [.name a.column]) [.text ", "]
      st.values) = [] := by
    rw [Piece.params_separatedBy _ _ rfl]
    simp
  -- behind the values stands no other parameter
  have tail (count : Nat) : d.printFrom count (returningPieces d st.generatedKey ++ [.text ";"]) =
      d.printFrom 0 (returningPieces d st.generatedKey) ++ ";" := by
    rw [d.printFrom_append_of_params (params_returningPieces d st.generatedKey),
      d.printFrom_of_params (params_returningPieces d st.generatedKey) count 0]
    simp [Dialect.printFrom]
  have values : d.printFrom 0 (separatedBy (fun a => [.param a.param]) [.text ", "] st.values ++
      .text ")" :: (returningPieces d st.generatedKey ++ [.text ";"])) =
      ", ".intercalate (st.values.mapIdx fun i a => d.placeholder i a.param) ++
        (")" ++ (d.printFrom 0 (returningPieces d st.generatedKey) ++ ";")) := by
    rw [Dialect.printFrom_append, d.printFrom_params, Dialect.printFrom, tail]
    simp only [Nat.zero_add]
  change d.printFrom 0 (st.pieces d) = _
  unfold InsertStatement.pieces InsertStatement.text
  rw [← d.insertForm_output, ← d.insertForm_returning, ← d.insertForm_defaults]
  by_cases hempty : st.values.isEmpty = true
  · simp only [hempty, if_true, Dialect.printFrom, List.append_assoc, List.singleton_append,
      d.printFrom_append_of_params (tables _), d.printFrom_append_of_params outputs,
      d.printFrom_table, tail, String.append_assoc]
  · simp only [hempty, Bool.false_eq_true, if_false, Dialect.printFrom, List.append_assoc,
      List.cons_append, List.nil_append, d.printFrom_append_of_params (tables _),
      d.printFrom_append_of_params outputs, d.printFrom_append_of_params columns,
      d.printFrom_table, d.printFrom_names, values, String.append_assoc]

/-! ## Columns and values -/

/-- The column is left to the database: it is the generated key, which the record holds empty and
which is no identifier. -/
def EntityMap.LeavesOut (map : EntityMap) (record : Record) (c : ColumnDef) : Prop :=
  map.generatedKeyColumn? = some c ∧
    ∃ v, record.field? c.property = some v ∧ v.isEmptyKey = true ∧ ∀ u, v ≠ .uuid u

/-- In a field that is made for one type of values, it is an integer key that is left out. -/
theorem EntityMap.HasTypes.leavesOut_iff {map : EntityMap} {record : Record} {c : ColumnDef}
    {t : FieldType} (htypes : map.HasTypes record) (hderived : map.Derived)
    (hc : map.generatedKeyColumn? = some c) (ht : record.fieldType? c.property = some t)
    (hany : t.base ≠ .any) : map.LeavesOut record c ↔
      c.value = .int32 none ∧ record.field? c.property = some (.int32 none) := by
  obtain ⟨hmem, hfits⟩ := EntityMap.Derived.exists_of_role hderived.generatedKey hc
  obtain ⟨t', ht', hbase⟩ := htypes.exists_fieldType? hderived hmem
  cases ht.symm.trans ht'
  obtain ⟨v, hv⟩ := htypes.exists_field? hderived hmem
  have holds := FieldType.holds_base (htypes.typed _ t v ht hv)
  constructor
  · rintro ⟨-, w, hw, hempty, hother⟩
    cases hv.symm.trans hw
    rcases EntityType.ofValue_of_fitsGenerated hfits with hmade | hmade <;> rw [hmade] at hbase
    · -- a field for identifiers holds an identifier
      have made : t.base = .uuid := hbase.resolve_right (by simp [hany])
      obtain ⟨u, rfl⟩ := FieldType.exists_uuid_of_holds made (htypes.typed _ t v ht hv)
      exact absurd rfl (hother u)
    · have made : t.base = .int32 := hbase.resolve_right (by simp [hany])
      have null : v = .int32 none := by
        rw [made] at holds
        rcases holds with rfl | ⟨n, rfl⟩
        · rfl
        · cases hempty
      have value : c.value = .int32 none := by
        revert hfits hmade
        generalize c.value = new
        rintro hfits hmade
        cases new with
        | int32 n => cases n with
          | none => rfl
          | some n => exact hfits.elim
        | _ => cases hmade
      exact ⟨value, null ▸ hv⟩
  · rintro ⟨-, hnull⟩
    exact ⟨hc, .int32 none, hnull, rfl, nofun⟩

namespace Edit

variable {map : EntityMap} {forced : Bool} {b b' : Bench} {st : InsertStatement}

/-- The generated key that is reported is the column that is left out. -/
theorem generatedKey_eq_some_iff (h : insert map forced b = .ok (some st) b') {key : GeneratedKey} :
    st.generatedKey = some key ↔ ∃ c, map.LeavesOut b.record c ∧ key = ⟨c.property, c.name⟩ := by
  obtain ⟨-, b₁, stamped, context, hkey, -, -, -⟩ := steps_of_insert_some h
  generalize st.generatedKey = key? at hkey
  constructor
  · rintro rfl
    cases providesKey_of_provideKey hkey with
    | left hcolumn hfield hempty hother => exact ⟨_, ⟨hcolumn, _, hfield, hempty, hother⟩, rfl⟩
  · rintro ⟨c, ⟨hc, v, hv, hempty, hother⟩, rfl⟩
    cases providesKey_of_provideKey hkey with
    | without hcolumn => cases hc.symm.trans hcolumn
    | present hcolumn hfield hpresent =>
        cases hc.symm.trans hcolumn
        cases hv.symm.trans hfield
        rw [hempty] at hpresent
        cases hpresent
    | drawn hcolumn hassign hfield =>
        obtain ⟨u, hfield⟩ := hfield
        cases hc.symm.trans hcolumn
        cases hv.symm.trans hfield
        exact absurd rfl (hother u)
    | left hcolumn =>
        cases hc.symm.trans hcolumn
        rfl

/-- All columns are assigned but the one that is left out, in the order of their declaration. -/
theorem columns_of_insert (hderived : map.Derived) (h : insert map forced b = .ok (some st) b') :
    ∃ columns : List ColumnDef, columns.Sublist map.columns ∧
      (∀ c ∈ map.columns, c ∈ columns ↔ ¬ map.LeavesOut b.record c) ∧
      st.values.map (fun a => (a.column, some a.param.value)) =
        columns.map fun c => (c.name, b'.record.field? c.property) := by
  obtain ⟨-, b₁, stamped, context, -, -, -, hvalues⟩ := steps_of_insert_some h
  refine ⟨_, List.filter_sublist, fun c hc => ?_, EntityMap.values_of_assignments hvalues⟩
  have left : st.generatedKey.any (·.property == c.property) = true ↔
      map.LeavesOut b.record c := by
    rw [Option.any_eq_true]
    constructor
    · rintro ⟨key, hkey, hproperty⟩
      obtain ⟨c', hleaves, rfl⟩ := (generatedKey_eq_some_iff h).mp hkey
      have hmem := (EntityMap.Derived.exists_of_role hderived.generatedKey hleaves.1).1
      rwa [← hderived.eq_of_property hmem hc (by simpa using hproperty)]
    · intro hleaves
      exact ⟨_, (generatedKey_eq_some_iff h).mpr ⟨c, hleaves, rfl⟩, beq_self_eq_true _⟩
  rw [List.mem_filter, Bool.not_eq_true', ← Bool.not_eq_true, left]
  exact and_iff_right hc

/-- The placeholders stand for the values of the statement, in this order. -/
theorem referent?_of_insert (h : insert map forced b = .ok (some st) b') (d : Dialect)
    (hcount : d.marksByName = true → st.values.length ≤ 2 ^ 32) {i : Nat} {a : Assignment}
    (ha : st.values[i]? = some a) :
    d.referent? (d.render (.insert st)).params i (d.placeholder i a.param).toList = some i := by
  have names : d.marksByName = true → ((d.render (.insert st)).params.map (·.name)).Nodup := by
    intro named
    refine (wellWritten_of_insert h).nodup_params d ?_
    rw [params_render_insert, List.length_map]
    exact hcount named
  rw [params_render_insert] at names ⊢
  obtain ⟨hi, rfl⟩ := List.getElem?_eq_some_iff.mp ha
  have hi' : i < (st.values.map (·.param)).length := by simpa using hi
  obtain ⟨before, after, hlength, parts⟩ : ∃ before after : List Param, before.length = i ∧
      st.values.map (·.param) = before ++ st.values[i].param :: after := by
    refine ⟨(st.values.map (·.param)).take i, (st.values.map (·.param)).drop (i + 1),
      List.length_take_of_le hi'.le, ?_⟩
    have here : st.values[i].param = (st.values.map (·.param))[i] := by simp
    rw [here, ← List.drop_eq_getElem_cons, List.take_append_drop]
  rw [parts] at names ⊢
  subst hlength
  exact d.referent?_placeholder (fun _ => rfl) names

end Edit

end GraphStore
