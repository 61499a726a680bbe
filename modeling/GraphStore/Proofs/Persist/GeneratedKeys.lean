import GraphStore.Proofs.Persist.Closing
import GraphStore.Proofs.Sqlite.InsertedRows
import GraphStore.Proofs.Statement.InsertText

/-!
# How a generated key is learned

The key that a database has generated for a row is the first value of the first row of the query
that hands it back: the insert itself, or the query that asks for it, run once the insert has been
executed (`Store.HandsOver`). The statement, its text in each dialect and the reading of the key fit
together: what the text does not hand back is asked for, and nothing else is
(`Edit.inserted_and_handed_back`). SQLite answers with the rowid of the row that was inserted last
(`Store.insertReturningKey_sqlite`).
-/

set_option autoImplicit false

namespace GraphStore

namespace Store

variable {σ ρ : Type} {store : Store σ} {q : Query} {s s' : Session σ ρ}

/-! ## Queries -/

/-- The session once the query has been run. -/
def afterQuery (store : Store σ) (q : Query) (s : Session σ ρ) : Session σ ρ :=
  let answer := store.connection.run q s.link
  { s with link := answer.state, calls := s.calls ++ [.query q answer.value]
           journal := s.journal ++ answer.journal }

theorem run_eq (store : Store σ) (q : Query) (s : Session σ ρ) : store.run q s =
    .ok (store.connection.run q s.link).value (store.afterQuery q s) := rfl

theorem reporting_eq_ok {α : Type} {work : Work σ ρ α} {a : α} :
    reporting q work s = .ok a s' ↔ work s = .ok a s' := by
  unfold reporting
  cases work s with
  | ok a t => exact Iff.rfl
  | error e t => exact iff_of_false nofun nofun

/-- A query is executed if its counts are given. -/
theorem executeQuery_eq_ok {n : UInt64} : store.executeQuery q s = .ok n s' ↔
    (store.connection.run q s.link).value.affected = .ok n ∧ s' = store.afterQuery q s := by
  unfold executeQuery execute
  rw [reporting_eq_ok, bind_of_ok (store.run_eq q s)]
  cases (store.connection.run q s.link).value.affected with
  | error e => exact iff_of_false nofun (nomatch ·.1)
  | ok count =>
      constructor
      · rintro ⟨⟩
        exact ⟨rfl, rfl⟩
      · rintro ⟨⟨⟩, rfl⟩
        rfl

/-- The rows of a query are fetched if they are given. -/
theorem fetchQuery_eq_ok {rows : List Row} : store.fetchQuery q s = .ok rows s' ↔
    (store.connection.run q s.link).value.rows = .ok rows ∧ s' = store.afterQuery q s := by
  unfold fetchQuery fetch
  rw [reporting_eq_ok, bind_of_ok (store.run_eq q s)]
  cases (store.connection.run q s.link).value.rows with
  | error e => exact iff_of_false nofun (nomatch ·.1)
  | ok found =>
      constructor
      · rintro ⟨⟩
        exact ⟨rfl, rfl⟩
      · rintro ⟨⟨⟩, rfl⟩
        rfl

/-! ## Reading the key -/

/-- The database hands over the key `v` for the insert `q`: it is the first value of the first row
of the query that hands it back. That is the insert itself or, if there is a text that asks for the
key, the query of this text, once the insert has been executed. -/
def HandsOver (store : Store σ) (q : Query) (followUp : Option String) (link : σ) (v : Value) :
    Prop :=
  v.isNull = false ∧ ∃ rows, rows.head?.bind (·.values.head?) = some v ∧
    match followUp with
    | none => (store.connection.run q link).value.rows = .ok rows
    | some text =>
        (∃ n, (store.connection.run q link).value.affected = .ok n) ∧
        (store.connection.run ⟨text, []⟩ (store.connection.run q link).state).value.rows = .ok rows

/-- A key is read from the rows if it is the first value of the first row, and no null. -/
theorem keyOfRows_eq_ok (st : InsertStatement) {rows : List Row} {v : Value}
    (s : Session σ Record) : (∃ s', (match rows.head?.bind (·.values.head?) with
      | some v =>
          if v.isNull then Work.reportedFailure (.keyNotReturned st.table.name) else pure v
      | none => Work.reportedFailure (.keyNotReturned st.table.name) : Work σ Record Value) s =
        .ok v s') ↔ v.isNull = false ∧ rows.head?.bind (·.values.head?) = some v := by
  cases hvalue : rows.head?.bind (·.values.head?) with
  | none =>
      constructor
      · rintro ⟨s', h⟩
        exact absurd h Work.not_ok_reportedFailure
      · rintro ⟨-, h⟩
        cases h
  | some w =>
      by_cases hnull : w.isNull = true
      · simp only [hnull, if_true]
        constructor
        · rintro ⟨s', h⟩
          exact absurd h Work.not_ok_reportedFailure
        · rintro ⟨hv, h⟩
          cases h
          rw [hnull] at hv
          cases hv
      · simp only [hnull, Bool.false_eq_true, if_false]
        constructor
        · rintro ⟨s', h⟩
          obtain ⟨rfl, -⟩ := ends_of_pure h
          exact ⟨by simpa using hnull, rfl⟩
        · rintro ⟨-, h⟩
          cases h
          exact ⟨s, rfl⟩

/-- The key that is returned is the one that the database hands over, in the form of its
dialect. -/
theorem insertReturningKey_eq_ok {st : InsertStatement} (key : GeneratedKey) {v : Value}
    {s : Session σ Record} : (∃ s', store.insertReturningKey st s = .ok v s') ↔
      store.HandsOver (store.connection.dialect.render (.insert st))
        (store.connection.dialect.insertForm (some key)).followUp s.link v := by
  obtain ⟨t, hrender, hlink⟩ : ∃ t : Session σ Record, store.render (.insert st) s =
      .ok (store.connection.dialect.render (.insert st)) t ∧ t.link = s.link := ⟨_, rfl, rfl⟩
  unfold insertReturningKey HandsOver
  rw [bind_of_ok hrender, ← hlink, store.connection.dialect.insertForm_followUp key]
  cases (store.connection.dialect.insertForm (some key)).followUp with
  | none =>
      simp only [Option.map_none]
      constructor
      · rintro ⟨s', h⟩
        obtain ⟨rows, u, hfetch, h⟩ := ends_of_bind h
        obtain ⟨hrows, rfl⟩ := fetchQuery_eq_ok.mp hfetch
        obtain ⟨hnull, hvalue⟩ := (keyOfRows_eq_ok st _).mp ⟨s', h⟩
        exact ⟨hnull, rows, hvalue, hrows⟩
      · rintro ⟨hnull, rows, hvalue, hrows⟩
        obtain ⟨s', h⟩ := (keyOfRows_eq_ok st
          (store.afterQuery (store.connection.dialect.render (.insert st)) t)).mpr
          ⟨hnull, hvalue⟩
        exact ⟨s', (bind_of_ok (fetchQuery_eq_ok.mpr ⟨hrows, rfl⟩)).trans h⟩
  | some text =>
      simp only [Option.map_some]
      constructor
      · rintro ⟨s', h⟩
        obtain ⟨n, u, hexecute, h⟩ := ends_of_bind h
        obtain ⟨hcount, rfl⟩ := executeQuery_eq_ok.mp hexecute
        obtain ⟨rows, w, hfetch, h⟩ := ends_of_bind h
        obtain ⟨hrows, rfl⟩ := fetchQuery_eq_ok.mp hfetch
        obtain ⟨hnull, hvalue⟩ := (keyOfRows_eq_ok st _).mp ⟨s', h⟩
        exact ⟨hnull, rows, hvalue, ⟨n, hcount⟩, hrows⟩
      · rintro ⟨hnull, rows, hvalue, ⟨n, hcount⟩, hrows⟩
        obtain ⟨s', h⟩ := (keyOfRows_eq_ok st (store.afterQuery ⟨text, []⟩
          (store.afterQuery (store.connection.dialect.render (.insert st)) t))).mpr
          ⟨hnull, hvalue⟩
        refine ⟨s', (bind_of_ok (executeQuery_eq_ok.mpr ⟨hcount, rfl⟩)).trans ?_⟩
        exact (bind_of_ok (fetchQuery_eq_ok.mpr ⟨hrows, rfl⟩)).trans h

/-- **SQLite gives the rowid of the row that was inserted last**, once the insert has been
executed. -/
theorem insertReturningKey_sqlite (m : Model) {st : InsertStatement} {v : Value}
    {s : Session Sqlite.Link Record} :
    let inserted := Sqlite.connection.run (Dialect.sqlite.render (.insert st)) s.link
    (∃ s', insertReturningKey ⟨m, Sqlite.connection⟩ st s = .ok v s') ↔
      (∃ n, inserted.value.affected = .ok n) ∧
        v = .int64 (some inserted.state.world.lastRowid) := by
  intro inserted
  rw [insertReturningKey_eq_ok ⟨"", ""⟩]
  change _ ∧ (∃ rows, _ ∧ _ ∧ (Sqlite.connection.run _ inserted.state).value.rows = _) ↔ _
  rw [Sqlite.run_lastRowid]
  constructor
  · rintro ⟨-, rows, hvalue, executed, hrows⟩
    cases hrows
    exact ⟨executed, (Option.some.inj hvalue).symm⟩
  · rintro ⟨executed, rfl⟩
    exact ⟨rfl, _, rfl, executed, rfl⟩

end Store

namespace Edit

/-- **Columns, values and the generated key fit together.** An insert assigns every column of the
map, in the order of declaration, the value that the record holds after the edit; all but an integer
key that was empty, which is what is reported. In each dialect its text lists these columns and one
placeholder for each, which refers to its value, or writes a row of defaults if there is none. A key
that is reported is handed back by the text or by a query of its own, and read from whichever it is;
SQLite's query gives the rowid of the new row. Nothing is handed back if no key is reported. -/
theorem inserted_and_handed_back {m : Model} {map : EntityMap} {record : Record}
    (hmap : m.entityMap record.type = .ok map) (htypes : map.HasTypes record) {forced : Bool}
    {supply : Supply} {st : InsertStatement} {b : Bench}
    (h : insert map forced ⟨record, supply⟩ = .ok (some st) b) :
    (∃ columns : List ColumnDef, columns.Sublist map.columns ∧
      (∀ c ∈ map.columns, c ∈ columns ↔ ¬ map.LeavesOut record c) ∧
      st.values.map (fun a => (a.column, some a.param.value)) =
        columns.map fun c => (c.name, b.record.field? c.property)) ∧
    (∀ key, st.generatedKey = some key ↔
      ∃ c, map.LeavesOut record c ∧ key = ⟨c.property, c.name⟩) ∧
    (∀ c t, map.generatedKeyColumn? = some c → record.fieldType? c.property = some t →
      t.base ≠ .any → (map.LeavesOut record c ↔
        c.value = .int32 none ∧ record.field? c.property = some (.int32 none))) ∧
    (∀ d : Dialect,
      (d.render (.insert st)).sql = st.text d (d.insertForm st.generatedKey) ∧
      (st.generatedKey = none → ¬ (d.insertForm st.generatedKey).Exposes ∧
        (d.insertForm st.generatedKey).followUp = none) ∧
      (d.render (.insert st)).params = st.values.map (·.param) ∧
      ((d.marksByName = true → st.values.length ≤ 2 ^ 32) →
        ∀ (i : Nat) (a : Assignment), st.values[i]? = some a →
          d.referent? (d.render (.insert st)).params i (d.placeholder i a.param).toList = some i) ∧
      (st.generatedKey.isSome = true → (d.insertForm st.generatedKey).HandsBackOnce ∧
        ∀ (σ : Type) (store : Store σ) (s : Session σ Record) (v : Value),
          store.connection.dialect = d →
          ((∃ s', store.insertReturningKey st s = .ok v s') ↔ store.HandsOver
            (d.render (.insert st)) (d.insertForm st.generatedKey).followUp s.link v))) ∧
    ∀ (m : Model) (s : Session Sqlite.Link Record) (v : Value),
      let inserted := Sqlite.connection.run (Dialect.sqlite.render (.insert st)) s.link
      (∃ s', Store.insertReturningKey ⟨m, Sqlite.connection⟩ st s = .ok v s') ↔
        (∃ n, inserted.value.affected = .ok n) ∧
          v = .int64 (some inserted.state.world.lastRowid) := by
  have hderived := Model.derived_of_entityMap hmap
  refine ⟨columns_of_insert hderived h, fun key => generatedKey_eq_some_iff h,
    fun c t hc ht hany => htypes.leavesOut_iff hderived hc ht hany,
    fun d => ⟨st.sql_render d, fun none => ?_, params_render_insert d st,
      fun hcount i a ha => referent?_of_insert h d hcount ha, fun reported => ?_⟩,
    fun m s v => Store.insertReturningKey_sqlite m⟩
  · rw [none]
    exact d.not_exposes_insertForm_none
  · obtain ⟨key, hkey⟩ := Option.isSome_iff_exists.mp reported
    rw [hkey]
    refine ⟨d.handsBackOnce_insertForm key, ?_⟩
    rintro σ store s v rfl
    exact Store.insertReturningKey_eq_ok key

/-- A table of main records, in which one is stored. -/
def storedMain : Sqlite.Link where
  world := { database := { entries := [
    .table {
      name := "mains"
      columns := [{ name := "id", type := "INTEGER" }, { name := "code" }, { name := "num" },
        { name := "at" }]
      primary := [0], rowidColumn := some 0
      rows := [⟨7, [.integer 7, .ofText "A", .integer 1, .null]⟩] }] } }

/-- A new main record is stamped, and its number is counted by the database: behind the one that is
stored already. -/
theorem inserted_and_handed_back_main :
    let map := Sample.mapOf Sample.timed
    let s : Session Sqlite.Link Record :=
      { subject := Sample.mainPrototype, link := storedMain, supply := NumberedSupply.supply }
    ∃ st b, (Sample.model (some Sample.timed.declaration) none).entityMap
        Sample.mainPrototype.type = .ok map ∧ map.HasTypes Sample.mainPrototype ∧
      insert map false ⟨Sample.mainPrototype, NumberedSupply.supply⟩ = .ok (some st) b ∧
      (∃ c, map.LeavesOut Sample.mainPrototype c ∧ c.name = "id") ∧
      (Dialect.postgres.render (.insert st)).sql = "INSERT INTO \"mains\" " ++
        "(\"code\", \"num\", \"at\") VALUES ($1, $2, $3) RETURNING \"id\";" ∧
      (∀ d : Dialect, (d.render (.insert st)).sql = st.text d (d.insertForm (some ⟨"id", "id"⟩)) ∧
        (d.insertForm (some ⟨"id", "id"⟩)).HandsBackOnce) ∧
      ∃ s', Store.insertReturningKey ⟨Sample.model none none, Sqlite.connection⟩ st s =
        .ok (.int64 (some 8)) s' := by
  intro map s
  have hmap : (Sample.model (some Sample.timed.declaration) none).entityMap
      Sample.mainPrototype.type = .ok map := rfl
  have htypes : map.HasTypes Sample.mainPrototype :=
    ⟨Sample.typed_mainPrototype, fun _ => rfl, Sample.typed_mainPrototype⟩
  obtain ⟨st, b, h, hkey, hsql, executed, hlast⟩ : ∃ st b,
      insert map false ⟨Sample.mainPrototype, NumberedSupply.supply⟩ = .ok (some st) b ∧
      st.generatedKey = some ⟨"id", "id"⟩ ∧
      (Dialect.postgres.render (.insert st)).sql = "INSERT INTO \"mains\" " ++
        "(\"code\", \"num\", \"at\") VALUES ($1, $2, $3) RETURNING \"id\";" ∧
      (Sqlite.connection.run (Dialect.sqlite.render (.insert st)) s.link).value.affected = .ok 1 ∧
      (Sqlite.connection.run (Dialect.sqlite.render (.insert st)) s.link).state.world.lastRowid =
        8 :=
    ⟨_, _, rfl, rfl, by decide +kernel, by decide +kernel, by decide +kernel⟩
  obtain ⟨-, reported, -, dialects, numbered⟩ := inserted_and_handed_back hmap htypes h
  obtain ⟨c, hleaves, hname⟩ := (reported _).mp hkey
  refine ⟨st, b, hmap, htypes, h, ⟨c, hleaves, ?_⟩, hsql, fun d => ?_, (numbered _ s _).mpr ?_⟩
  · exact (congrArg GeneratedKey.column hname).symm
  · obtain ⟨hsql, -, -, -, handed⟩ := dialects d
    rw [hkey] at hsql handed
    exact ⟨hsql, (handed rfl).1⟩
  · exact ⟨⟨1, executed⟩, by rw [hlast]⟩

end Edit

end GraphStore
