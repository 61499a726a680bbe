import GraphStore.Proofs.Statement.TableDefinition
import GraphStore.Sample.Catalog

/-!
# Primary keys

The definition of a table makes its keys the primary key exactly once, in every dialect: a single
key in its own definition, and several keys in a part of their own that lists them in the order of
their declaration (`EntityType.declares_primaryKey`).

The clause is written in three places, of which one is used: behind the type of a single key, in the
text for a key that the database counts up, and behind the columns. Only the declaration keeps the
last two apart, as a counted key fits it only if it is alone (`EntityMap.CountsAlone`).
-/

set_option autoImplicit false

namespace GraphStore

open Sign

variable {map : EntityMap} {d : Dialect}

namespace EntityMap

/-- What the definition of the table declares. -/
def declared (map : EntityMap) : List TablePart :=
  map.columns.map (fun c => .column c.name (if c.isKey && map.keys.length == 1 then 1 else 0)) ++
    if 1 < map.keys.length then [.primaryKey (map.keyColumns.map (·.name))] else []

/-- A key that the database counts up is the only key. -/
def CountsAlone (map : EntityMap) : Prop :=
  ∀ c ∈ map.columns, c.isCounted = true → (c.isKey && map.keys.length == 1) = true

/-! ## Parts of a definition -/

theorem occurrences_columnPart (h : map.CountsAlone) {c : ColumnDef} (hc : c ∈ map.columns) :
    occurrences "PRIMARY KEY" (ofText (c.clauses d (map.keys.length == 1))) =
      if c.isKey && map.keys.length == 1 then 1 else 0 := by
  rw [(c.isClause_clauses d _).counted]
  cases hcounted : c.isCounted with
  | false => rw [Bool.false_or]
  | true => rw [h c hc hcounted, Bool.or_self]

theorem nesting_names (names : List String) :
    nesting 1 ((ofText ", ").intercalate (names.map ([.name ·]))) = some 1 := by
  refine nesting_intercalate (by decide) fun p hp => ?_
  obtain ⟨s, -, rfl⟩ := List.mem_map.mp hp
  rfl

theorem letter_not_mem_names (names : List String) :
    .char 'P' ∉ (ofText (μ := List Char) ", ").intercalate (names.map ([.name ·])) := by
  refine not_mem_intercalate (by decide) fun p hp => ?_
  obtain ⟨s, -, rfl⟩ := List.mem_map.mp hp
  exact fun h => nomatch List.mem_singleton.mp h

theorem occurrences_keyPart : occurrences "PRIMARY KEY" map.keyPart = 1 := by
  have opened : ∀ x ∈ (ofText (μ := List Char) "PRIMARY KEY (").getLast?,
      x ∉ ofText (μ := List Char) "PRIMARY KEY" := by decide
  have letter : .char 'P' ∈ ofText (μ := List Char) "PRIMARY KEY" := by decide
  have listed (names : List String) : .char 'P' ∉
      (ofText (μ := List Char) ", ").intercalate (names.map ([.name ·])) ++ [.char ')'] := by
    simp [letter_not_mem_names]
  rw [keyPart, occurrences_append (apart_of_last opened), occurrences_eq_zero letter (listed _)]
  decide

/-- The commas inside a part stand in parentheses. -/
theorem nesting_parts : ∀ p ∈ map.parts d, nesting 0 p = some 0 := by
  intro p hp
  rcases List.mem_append.mp hp with hp | hp
  · obtain ⟨c, -, rfl⟩ := List.mem_map.mp hp
    exact (c.isClause_clauses d _).nested
  · split at hp
    · obtain rfl := List.mem_singleton.mp hp
      have opened : nesting 0 (ofText "PRIMARY KEY (") = some 1 := by decide
      rw [keyPart, nesting_append, opened, Option.bind_some, nesting_append, nesting_names]
      rfl
    · cases hp

theorem Derived.length_keyColumns (h : map.Derived) : map.keyColumns.length = map.keys.length := by
  rw [h.keyColumns_eq, h.keys_eq, EntityType.length_keyPositions, List.countP_eq_length_filter]

theorem filterMap_parts (h : map.Derived) (hcounts : map.CountsAlone) :
    (map.parts d).filterMap tablePart? = map.declared := by
  rw [parts, declared, List.filterMap_append, List.filterMap_map]
  congr 1
  · rw [← List.filterMap_eq_map']
    refine List.filterMap_congr fun c hc => ?_
    exact congrArg (fun n => some (TablePart.column c.name n)) (occurrences_columnPart hcounts hc)
  · split
    next hkeys =>
      have names : map.keyColumns.map (·.name) ≠ [] := by
        intro none
        rw [List.map_eq_nil_iff] at none
        rw [← h.length_keyColumns, none] at hkeys
        exact absurd hkeys (by decide)
      rw [keyPart, List.filterMap_cons, tablePart?_primaryKey names]
      rfl
    next => rfl

/-- There is one key to mark, or none. -/
theorem sum_columnParts (h : map.Derived) (hcounts : map.CountsAlone) :
    ((map.columns.map (map.columnPart d)).map (occurrences "PRIMARY KEY")).sum =
      if map.keys.length = 1 then 1 else 0 := by
  have marked : (map.columns.map (map.columnPart d)).map (occurrences "PRIMARY KEY") =
      map.columns.map fun c => if c.isKey && map.keys.length == 1 then 1 else 0 := by
    rw [List.map_map]
    refine List.map_congr_left fun c hc => ?_
    exact (occurrences_cons (by decide) (name_not_mem_ofText c.name)).trans
      (occurrences_columnPart hcounts hc)
  have counted (p : ColumnDef → Bool) (columns : List ColumnDef) :
      (columns.map fun c => if p c then 1 else 0).sum = columns.countP p := by
    induction columns with
    | nil => rfl
    | cons c columns ih => rw [List.map_cons, List.sum_cons, ih, List.countP_cons, Nat.add_comm]
  rw [marked, counted]
  cases hsingle : map.keys.length == 1 with
  | true =>
      have single := beq_iff_eq.mp hsingle
      simp only [Bool.and_true, ← EntityType.length_keyPositions, ← h.keys_eq, single, if_true]
  | false => simp [beq_eq_false_iff_ne.mp hsingle]

theorem occurrences_parts (h : map.Derived) (hcounts : map.CountsAlone) :
    occurrences "PRIMARY KEY" ((ofText ",\n").intercalate (map.parts d)) =
      if map.keys.length = 0 then 0 else 1 := by
  rw [occurrences_lines (by decide) (by decide) (by decide), parts, List.map_append,
    List.sum_append, sum_columnParts h hcounts]
  have listed : ((if 1 < map.keys.length then [map.keyPart] else []).map
      (occurrences "PRIMARY KEY")).sum = if 1 < map.keys.length then 1 else 0 := by
    split
    · rw [List.map_singleton, List.sum_singleton, occurrences_keyPart]
    · rfl
  rw [listed]
  split_ifs <;> omega

/-! ## The text of a definition -/

/-- Neither word is written in the test for a table. -/
theorem not_mem_testSigns {c : Char} (hc : c ∈ ['P', 'R']) (t : TableRef) :
    .char c ∉ testSigns t := by
  have texts : ∀ c ∈ ['P', 'R'], .char c ∉ ofText (μ := List Char) "IF OBJECT_ID(N'" ∧
      .char c ∉ ofText (μ := List Char) "', N'U') IS NULL\n" ∧ c ≠ '.' :=
    List.forall_mem_cons.mpr ⟨by decide, List.forall_mem_singleton.mpr (by decide)⟩
  obtain ⟨before, behind, point⟩ := texts c hc
  unfold testSigns
  split <;> simp [before, behind, point]

theorem not_mem_headSigns {c : Char} (hc : c ∈ ['P', '(']) (guarded : Bool) (t : TableRef) :
    .char c ∉ headSigns guarded t := by
  have texts : ∀ c ∈ ['P', '('], .char c ∉ ofText (μ := List Char) " " ∧
      .char c ∉ ofText (μ := List Char) "IF NOT EXISTS " ∧ c ≠ '.' ∧ c ≠ ' ' :=
    List.forall_mem_cons.mpr ⟨by decide, List.forall_mem_singleton.mpr (by decide)⟩
  obtain ⟨blank, guard, point, space⟩ := texts c hc
  unfold headSigns
  split <;> split <;> simp [blank, guard, point, space]

/-- The test for a table ends before the definition begins. -/
theorem apart_testSigns {phrase : String} (hline : .char '\n' ∉ ofText (μ := List Char) phrase)
    (t : TableRef) (ts : List (Sign (List Char))) : Sign.Apart phrase (testSigns t) ts := by
  refine apart_of_last fun x hx => ?_
  have last : (testSigns t).getLast? = some (.char '\n') := by
    have text : (ofText (μ := List Char) "', N'U') IS NULL\n").getLast? = some (.char '\n') := by
      decide
    unfold testSigns
    rw [List.getLast?_append, List.getLast?_append, List.getLast?_cons, text]
    rfl
  rw [last] at hx
  cases hx
  exact hline

theorem tableParts_render (h : map.Derived) (hcounts : map.CountsAlone) (d : Dialect)
    (ifNotExists : Bool) :
    tableParts (d.scan (d.render (.createTable (map.createTable ifNotExists))).sql) =
      map.declared := by
  have letter : .char 'R' ∈ ofText (μ := List Char) "CREATE TABLE" := by decide
  have skipped (ts : List (Sign (List Char))) :
      tableParts ((if ifNotExists && d == .sqlServer then testSigns map.table else []) ++ ts) =
        tableParts ts := by
    split
    · exact tableParts_append (apart_testSigns (by decide) map.table ts)
        (occurrences_eq_zero letter (not_mem_testSigns (by decide) map.table))
    · rfl
  rw [scan_createTable h, skipped, ← filterMap_parts (d := d) h hcounts]
  refine tableParts_intercalate (fun s hs heq => ?_) nesting_parts _
  exact not_mem_headSigns (by decide) _ map.table (heq ▸ hs)

theorem occurrences_render (h : map.Derived) (hcounts : map.CountsAlone) (d : Dialect)
    (ifNotExists : Bool) :
    occurrences "PRIMARY KEY" (d.scan (d.render (.createTable (map.createTable ifNotExists))).sql) =
      if map.keys.length = 0 then 0 else 1 := by
  have letter : .char 'P' ∈ ofText (μ := List Char) "PRIMARY KEY" := by decide
  have front : .char 'P' ∉ (if ifNotExists && d == .sqlServer then testSigns map.table else []) ++
      (ofText "CREATE TABLE" ++ headSigns (ifNotExists && d != .sqlServer) map.table) := by
    have create : .char 'P' ∉ ofText (μ := List Char) "CREATE TABLE" := by decide
    have test := not_mem_testSigns (c := 'P') (by decide) map.table
    have head := not_mem_headSigns (c := 'P') (by decide) (ifNotExists && d != .sqlServer) map.table
    split <;> simp [create, test, head]
  have opening (ss ts : List (Sign (List Char))) :
      Sign.Apart "PRIMARY KEY" ss (ofText "(\n" ++ ts) :=
    apart_of_not_mem (by decide)
  have closing (ss : List (Sign (List Char))) : Sign.Apart "PRIMARY KEY" ss (ofText ");") :=
    apart_of_not_mem (by decide)
  have unmarked (ts : List (Sign (List Char))) :
      occurrences "PRIMARY KEY" (ofText "(\n" ++ ts) = occurrences "PRIMARY KEY" ts :=
    (occurrences_cons (by decide) (by decide)).trans (occurrences_cons (by decide) (by decide))
  have ended : occurrences "PRIMARY KEY" (ofText ");") = 0 := by decide
  rw [scan_createTable h, ← List.append_assoc (ofText "CREATE TABLE"), ← List.append_assoc,
    occurrences_append (opening _ _), occurrences_eq_zero letter front, unmarked,
    occurrences_append (closing _), occurrences_parts h hcounts, ended, Nat.zero_add, Nat.add_zero]

end EntityMap

/-! ## Declarations -/

/-- The name of the column, which is that of the property unless another one is given. -/
def ColumnDeclaration.columnName (c : ColumnDeclaration) : String := c.name.getD c.property

namespace EntityType

variable {prototype : Record} {ds : List ColumnDeclaration} {columns : List ColumnDef}

theorem countsAlone_of_derive {e : EntityType} (h : e.derive = .ok map) : map.CountsAlone := by
  obtain ⟨draft, -, hkeys, relations, -, rfl⟩ := derive_eq_ok.mp h
  intro c hc hcounted
  have key : c.isKey = true := by
    have generated : c.role = .generated := by
      simpa [ColumnDef.isGenerated] using (Bool.and_eq_true_iff.mp hcounted).1
    rw [ColumnDef.isKey, generated]
    rfl
  have atMost := (checkKeys_eq_ok.mp hkeys).1 c hc hcounted
  have atLeast : 0 < (keyPositions draft.columns).length := by
    rw [length_keyPositions, List.countP_pos_iff]
    exact ⟨c, hc, key⟩
  rw [key, Bool.true_and, beq_iff_eq]
  exact Nat.le_antisymm atMost atLeast

/-- The names of the keys are those that are declared. -/
theorem Declares.keyNames_eq (h : Declares prototype ds columns) :
    (columns.filter (·.isKey)).map (·.name) = (ds.filter (·.isKey)).map (·.columnName) := by
  have pairs := h.map_eq (f := fun c => (c.isKey, c.name)) (g := fun c => (c.isKey, c.columnName))
    fun _ _ => rfl
  have kept := congrArg (fun xs => (xs.filter (·.1)).map (·.2)) pairs
  simp only [List.filter_map, List.map_map] at kept
  exact kept

/-- **The primary key is declared exactly once**, in every dialect. The definition of the table
has one part for each column that is declared, in the order of declaration; a single key is marked
in its own part, and several keys are listed in one more. -/
theorem declares_primaryKey {e : EntityType} (h : e.derive = .ok map) (d : Dialect)
    (ifNotExists : Bool) :
    let text := d.scan (d.render (.createTable (map.createTable ifNotExists))).sql
    let keys := e.declaration.keys
    tableParts text =
      (e.declaration.columns.map fun c =>
        TablePart.column c.columnName (if c.isKey && keys.length == 1 then 1 else 0)) ++
      (if 1 < keys.length then [TablePart.primaryKey (keys.map (·.columnName))] else []) ∧
    occurrences "PRIMARY KEY" text = if keys.length = 0 then 0 else 1 := by
  intro text keys
  have derived := derived_of_derive h
  have counts := countsAlone_of_derive h
  have declared := (indexes_of_derive h).columns
  have length : map.keys.length = keys.length := by
    rw [derived.keys_eq, declared.length_keyPositions]
    rfl
  have columns : map.columns.map (fun c => TablePart.column c.name
        (if c.isKey && keys.length == 1 then 1 else 0)) =
      e.declaration.columns.map fun c =>
        TablePart.column c.columnName (if c.isKey && keys.length == 1 then 1 else 0) :=
    declared.map_eq fun _ _ => rfl
  have names : map.keyColumns.map (·.name) = keys.map (·.columnName) := by
    rw [derived.keyColumns_eq, declared.keyNames_eq]
    rfl
  constructor
  · rw [EntityMap.tableParts_render derived counts, EntityMap.declared, length, columns, names]
  · rw [EntityMap.occurrences_render derived counts, length]

/-- Shelves have two keys and a column with a name of its own; tickets have one key, which the
database counts up. -/
theorem declares_primaryKey_shelves_tickets :
    (∃ map, Sample.shelf.derive = .ok map ∧
      let text := Dialect.sqlServer.scan
        (Dialect.sqlServer.render (.createTable (map.createTable true))).sql
      tableParts text = [.column "code" 0, .column "room" 0, .column "shelf_label" 0,
        .column "removed" 0, .primaryKey ["code", "room"]] ∧
      occurrences "PRIMARY KEY" text = 1) ∧
    ∃ map, Sample.ticket.derive = .ok map ∧
      let text := Dialect.sqlite.scan
        (Dialect.sqlite.render (.createTable (map.createTable true))).sql
      tableParts text = [.column "id" 1] ∧ occurrences "PRIMARY KEY" text = 1 := by
  obtain ⟨shelves, hshelves⟩ : ∃ map, Sample.shelf.derive = .ok map := ⟨_, rfl⟩
  obtain ⟨tickets, htickets⟩ : ∃ map, Sample.ticket.derive = .ok map := ⟨_, rfl⟩
  exact ⟨⟨shelves, hshelves, declares_primaryKey hshelves .sqlServer true⟩,
    tickets, htickets, declares_primaryKey htickets .sqlite true⟩

end EntityType

end GraphStore
