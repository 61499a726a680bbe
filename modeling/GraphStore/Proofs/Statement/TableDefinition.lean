import GraphStore.Proofs.Sql.TableParts
import GraphStore.Proofs.Statement.InsertText
import GraphStore.Proofs.Text.Separators
import Mathlib.Data.List.Infix

/-!
# The definition of a table

The text that creates the table of an entity is read back as signs, in every dialect: a test for the
table where the dialect has no clause for it, the words `CREATE TABLE`, the name of the table, and a
list in parentheses whose parts are known (`EntityMap.scan_createTable`). There is one part for each
column, its name and a clause that has no name in it, and one for several keys. The test puts the
name of the table into a string, where the name is written with doubled apostrophes.
-/

set_option autoImplicit false

namespace GraphStore

open Sign Text

/-! ## The signs of pieces -/

section Spelling

variable {μ : Type}

/-- The signs of a piece that is no parameter. -/
def Piece.spell : Piece → List (Sign μ)
  | text s => ofText s
  | name s => [.name s]
  | param _ => []

def Piece.spelled (ps : List Piece) : List (Sign μ) := ps.flatMap Piece.spell

namespace Piece

@[simp] theorem spelled_nil : spelled (μ := μ) [] = [] := rfl

@[simp] theorem spelled_cons (p : Piece) (ps : List Piece) :
    spelled (μ := μ) (p :: ps) = p.spell ++ spelled ps := rfl

@[simp] theorem spelled_append (ps qs : List Piece) :
    spelled (μ := μ) (ps ++ qs) = spelled ps ++ spelled qs :=
  List.flatMap_append

theorem spelled_eq_signs {ps : List Piece} (h : params ps = []) : spelled ps = signs ps := by
  induction ps with
  | nil => rfl
  | cons p ps ih =>
      cases p with
      | text s => exact congrArg (ofText s ++ ·) (ih h)
      | name s => exact congrArg (.name s :: ·) (ih h)
      | param p => cases h

theorem spelled_intercalate (separator : List Piece) (parts : List (List Piece)) :
    spelled (μ := μ) (separator.intercalate parts) =
      (spelled separator).intercalate (parts.map spelled) := by
  induction parts with
  | nil => rfl
  | cons p parts ih =>
      by_cases hparts : parts = []
      · simp [hparts, List.intercalate_singleton]
      · rw [List.map_cons, List.intercalate_cons_of_ne_nil hparts,
          List.intercalate_cons_of_ne_nil (by simpa using hparts), spelled_append, spelled_append,
          ih]

end Piece

theorem spelled_separatedBy {α : Type} {write : α → List Piece} {items : List α}
    (h : ∀ a ∈ items, write a ≠ []) (separator : String) :
    Piece.spelled (μ := μ) (separatedBy write [.text separator] items) =
      (ofText separator).intercalate (items.map fun a => Piece.spelled (write a)) := by
  rw [separatedBy_eq_intercalate h, Piece.spelled_intercalate, List.map_map]
  simp [Piece.spell]
  rfl

theorem ofText_append (s t : String) : ofText (μ := μ) (s ++ t) = ofText s ++ ofText t := by
  rw [ofText, String.toList_append, List.map_append]
  rfl

end Spelling

namespace Dialect

variable {d : Dialect}

theorem marked_chars_append (count : Nat) (cs : List Char) (ss : List (Sign Param)) :
    d.marked count (cs.map .char ++ ss) = cs.map .char ++ d.marked count ss := by
  induction cs with
  | nil => rfl
  | cons c cs ih =>
      rw [List.map_cons, List.cons_append, marked, ih, List.map_cons, List.cons_append]

theorem marked_signs {ps : List Piece} (h : Piece.params ps = []) (count : Nat) :
    d.marked count (Piece.signs ps) = Piece.spelled ps := by
  induction ps with
  | nil => rfl
  | cons p ps ih =>
      cases p with
      | text s =>
          rw [Piece.signs_cons, Piece.toSigns, ofText, marked_chars_append, ih h]
          rfl
      | name s =>
          rw [Piece.signs_cons, Piece.toSigns, List.singleton_append, marked, ih h]
          rfl
      | param p => cases h

/-- Legible pieces without parameters are scanned as their signs. -/
theorem scanFrom_printFrom {ps : List Piece} (hlegible : Legible (Piece.signs ps))
    (hparams : Piece.params ps = []) (count : Nat) :
    d.scanFrom .outside (d.printFrom count ps).toList = Piece.spelled ps := by
  rw [toList_printFrom, scanFrom_writeFrom hlegible (by simp [Piece.marks_signs, hparams]),
    marked_signs hparams]

end Dialect

/-! ## Columns -/

/-- What is written behind the name of a column: legible, a part of a list, and so many times the
clause of the primary key. -/
structure IsClause (text : String) (primaryKeys : Nat) : Prop where
  plain : text.toList.all isPlain = true
  nested : nesting 0 (ofText text) = some 0
  counted : occurrences "PRIMARY KEY" (ofText text) = primaryKeys

/-- A text behind which the clause of the primary key can be written, and is not written yet. -/
def IsTyped (text : String) : Prop :=
  text.toList.all isPlain = true ∧ nesting 0 (ofText text) = some 0 ∧
    .char 'K' ∉ ofText (μ := List Char) text ∧
    (ofText (μ := List Char) text).getLast? ≠ some (.char 'Y')

instance (text : String) : Decidable (IsTyped text) :=
  inferInstanceAs (Decidable (_ ∧ _ ∧ _ ∧ _ ≠ _))

theorem IsTyped.apart {text : String} (h : IsTyped text) (ts : List (Sign (List Char))) :
    Sign.Apart "PRIMARY KEY" (ofText text) (.char ' ' :: ts) := by
  refine apart_of_getLast? fun x hx within => ?_
  have words : ∀ x ∈ ofText (μ := List Char) "PRIMARY KEY",
      [x, .char ' '] <:+: ofText "PRIMARY KEY" → x = .char 'Y' := by decide
  exact h.2.2.2 (words x (within.subset List.mem_cons_self) within ▸ hx)

/-- The end of the definition of a column. -/
def ColumnDef.ending (inlineKey : Bool) (c : ColumnDef) : String :=
  if c.isKey then if inlineKey then " PRIMARY KEY" else ""
  else if c.nullable then "" else " NOT NULL"

/-- What is written behind the name of a column. -/
def ColumnDef.clauses (d : Dialect) (inlineKey : Bool) (c : ColumnDef) : String :=
  if c.isCounted then d.countedColumn
  else " " ++ (d.columnType c.value).getD "" ++ c.ending inlineKey

theorem isClause_countedColumn (d : Dialect) : IsClause d.countedColumn 1 := by
  cases d <;> exact ⟨by decide, by decide, by decide⟩

theorem isTyped_columnType (d : Dialect) (v : Value) :
    IsTyped (" " ++ (d.columnType v).getD "") := by
  cases d <;> cases v <;> simp only [Dialect.columnType, Option.getD] <;> decide

namespace ColumnDef

variable (d : Dialect) (inlineKey : Bool) (c : ColumnDef)

theorem ending_cases : c.ending inlineKey = "" ∧ (c.isKey && inlineKey) = false ∨
    c.ending inlineKey = " NOT NULL" ∧ (c.isKey && inlineKey) = false ∨
    c.ending inlineKey = " PRIMARY KEY" ∧ (c.isKey && inlineKey) = true := by
  unfold ending
  cases c.isKey <;> cases c.nullable <;> cases inlineKey <;> simp

/-- A key is marked as the primary key if that is to be done here, and a key that the database
counts up is always marked. -/
theorem isClause_clauses : IsClause (c.clauses d inlineKey)
    (if c.isCounted || (c.isKey && inlineKey) then 1 else 0) := by
  unfold clauses
  cases c.isCounted with
  | true => exact isClause_countedColumn d
  | false =>
      rw [if_neg Bool.false_ne_true, Bool.false_or]
      have apart := (isTyped_columnType d c.value).apart
      obtain ⟨plain, nested, unwritten, -⟩ := isTyped_columnType d c.value
      generalize " " ++ (d.columnType c.value).getD "" = text at *
      have closed : ∀ e ∈ ["", " NOT NULL", " PRIMARY KEY"],
          e.toList.all isPlain = true ∧ nesting 0 (ofText e) = some 0 := by decide
      have ended (e : String) (he : e ∈ ["", " NOT NULL", " PRIMARY KEY"]) {n : Nat}
          (hn : occurrences "PRIMARY KEY" (ofText text ++ ofText e) = n) :
          IsClause (text ++ e) n := by
        obtain ⟨plain', nested'⟩ := closed e he
        refine ⟨?_, ?_, ?_⟩
        · rw [String.toList_append, List.all_append, plain, plain']
          rfl
        · rw [ofText_append, nesting_append, nested]
          exact nested'
        · rw [ofText_append, hn]
      have letter : .char 'K' ∈ ofText (μ := List Char) "PRIMARY KEY" := by decide
      have none (e : String) (he : .char 'K' ∉ ofText (μ := List Char) e) :
          occurrences "PRIMARY KEY" (ofText text ++ ofText e) = 0 :=
        occurrences_eq_zero letter fun h => (List.mem_append.mp h).elim unwritten he
      rcases c.ending_cases inlineKey with ⟨he, hkey⟩ | ⟨he, hkey⟩ | ⟨he, hkey⟩ <;> rw [he, hkey]
      · exact ended "" (by decide) (none _ (by decide))
      · exact ended " NOT NULL" (by decide) (none _ (by decide))
      · refine ended " PRIMARY KEY" (by decide) ?_
        have here : Sign.Apart "PRIMARY KEY" (ofText text) (ofText " PRIMARY KEY") := apart _
        rw [occurrences_append here, occurrences_eq_zero letter unwritten]
        decide

theorem head?_clauses : (c.clauses d inlineKey).toList.head?.any isTerminator = true := by
  unfold clauses
  split
  · cases d <;> decide
  · rw [String.append_assoc, String.toList_append]
    rfl

theorem spelled_pieces {μ : Type} : Piece.spelled (c.pieces d inlineKey) =
    (.name c.name :: ofText (c.clauses d inlineKey) : List (Sign μ)) := by
  unfold pieces clauses ending
  cases c.isCounted <;> cases c.isKey <;> cases c.nullable <;> cases inlineKey <;>
    simp [Piece.spell, ofText_append]

theorem params_pieces : Piece.params (c.pieces d inlineKey) = [] := by
  unfold pieces
  cases c.isCounted <;> cases c.isKey <;> cases c.nullable <;> cases inlineKey <;> rfl

theorem legible_pieces : Legible (Piece.signs (c.pieces d inlineKey)) := by
  have clauses := Legible.nil.behind (μ := Param) (c.clauses d inlineKey)
    (c.isClause_clauses d inlineKey).plain (c.head?_clauses d inlineKey)
  rw [List.append_nil] at clauses
  rw [← Piece.spelled_eq_signs (c.params_pieces d inlineKey), spelled_pieces]
  exact (legible_name c.name).before clauses

end ColumnDef

/-! ## The test for a table -/

/-- Doubling one character and doubling another one can be done in either order. -/
theorem escaped_comm {a b : Char} (h : a ≠ b) (s : List Char) :
    escaped a [a, a] (escaped b [b, b] s) = escaped b [b, b] (escaped a [a, a] s) := by
  induction s with
  | nil => rfl
  | cons c s ih =>
      simp only [escaped, List.flatMap_cons, List.flatMap_append] at ih ⊢
      rw [ih]
      congr 1
      by_cases hb : c = b
      · have ha : b ≠ a := h.symm
        simp [hb, ha]
      · by_cases ha : c = a <;> simp [ha, hb, h]

/-- The name with every apostrophe written twice. -/
def doubled (s : String) : String := String.ofList (escaped '\'' ['\'', '\''] s.toList)

/-- Inside a string, a quoted name is that of the name with its apostrophes written twice. -/
theorem escaped_identifier (s : String) :
    escaped '\'' ['\'', '\''] (Dialect.sqlServer.identifier s).toList =
      Dialect.sqlServer.quote (doubled s).toList := by
  have inner := escaped_comm (show '\'' ≠ ']' by decide) s.toList
  rw [Dialect.toList_identifier, doubled, String.toList_ofList, Dialect.quote, Dialect.quote,
    delimited, delimited]
  simp only [Dialect.nameSigns]
  rw [← inner]
  simp [escaped]

/-- The text of the statement that tests for a table. Its name stands in a string. -/
def testText (t : TableRef) : String :=
  "IF OBJECT_ID(N'" ++ String.ofList (escaped '\'' ['\'', '\'']
    (Dialect.sqlServer.tableName t).toList) ++ "', N'U') IS NULL\n"

def testSigns (t : TableRef) : List (Sign (List Char)) :=
  ofText "IF OBJECT_ID(N'" ++ ((if t.schema.isEmpty then []
    else [.name (doubled t.schema), .char '.']) ++
      .name (doubled t.name) :: ofText "', N'U') IS NULL\n")

/-- Quoted names that stand in a string are read as names. -/
theorem scanFrom_testText (t : TableRef) (rest : List Char) :
    Dialect.sqlServer.scanFrom .outside ((testText t).toList ++ rest) =
      testSigns t ++ Dialect.sqlServer.scanFrom .outside rest := by
  have escaped_append (xs ys : List Char) : escaped '\'' ['\'', '\''] (xs ++ ys) =
      escaped '\'' ['\'', '\''] xs ++ escaped '\'' ['\'', '\''] ys := List.flatMap_append
  have named : Dialect.sqlServer.scanFrom .outside
      (Dialect.sqlServer.quote (doubled t.name).toList ++ ("', N'U') IS NULL\n".toList ++ rest)) =
      .name (doubled t.name) :: (ofText "', N'U') IS NULL\n" ++
        Dialect.sqlServer.scanFrom .outside rest) := by
    rw [Dialect.scanFrom_quote _ (by simp; decide), Dialect.scanFrom_chars (by decide),
      String.ofList_toList]
    rfl
  unfold testText testSigns Dialect.tableName
  simp only [String.toList_append, String.toList_ofList, escaped_append, escaped_identifier,
    List.append_assoc]
  rw [Dialect.scanFrom_chars (by decide)]
  refine congrArg (ofText "IF OBJECT_ID(N'" ++ ·) ?_
  by_cases hschema : t.schema.isEmpty = true
  · simp only [hschema, if_true, List.nil_append]
    exact named
  · have dotted (rest : List Char) : Dialect.sqlServer.scanFrom .outside
        (Dialect.sqlServer.quote (doubled t.schema).toList ++
          (escaped '\'' ['\'', '\''] ".".toList ++ rest)) =
        .name (doubled t.schema) :: .char '.' :: Dialect.sqlServer.scanFrom .outside rest := by
      have point : escaped '\'' ['\'', '\''] ".".toList = ['.'] := by decide
      rw [point, Dialect.scanFrom_quote _ (by simp; decide), Dialect.scanFrom_chars (by decide),
        String.ofList_toList]
      rfl
    simp only [hschema, Bool.false_eq_true, if_false, String.toList_append, escaped_append,
      escaped_identifier, List.append_assoc]
    rw [dotted, named]
    rfl

/-! ## The text of a definition -/

theorem intercalate_concat {α : Type} (separator : List α) {parts : List (List α)}
    (h : parts ≠ []) (p : List α) :
    separator.intercalate (parts ++ [p]) = separator.intercalate parts ++ (separator ++ p) := by
  induction parts with
  | nil => exact absurd rfl h
  | cons q parts ih =>
      by_cases hparts : parts = []
      · simp [hparts, List.intercalate_singleton, List.intercalate_cons_cons]
      · rw [List.cons_append, List.intercalate_cons_of_ne_nil (by simp), ih hparts,
          List.intercalate_cons_of_ne_nil hparts]
        simp only [List.append_assoc]

namespace EntityMap

/-- What is declared of a column. -/
def columnPart (map : EntityMap) (d : Dialect) (c : ColumnDef) : List (Sign (List Char)) :=
  .name c.name :: ofText (c.clauses d (map.keys.length == 1))

/-- The list of several keys. -/
def keyPart (map : EntityMap) : List (Sign (List Char)) :=
  ofText "PRIMARY KEY (" ++
    ((ofText ", ").intercalate ((map.keyColumns.map (·.name)).map ([.name ·])) ++ [.char ')'])

/-- The parts of the definition of the table. -/
def parts (map : EntityMap) (d : Dialect) : List (List (Sign (List Char))) :=
  map.columns.map (map.columnPart d) ++ if 1 < map.keys.length then [map.keyPart] else []

theorem spelled_columns (map : EntityMap) (d : Dialect) :
    Piece.spelled (separatedBy (ColumnDef.pieces d (map.keys.length == 1)) [.text ",\n"]
      map.columns) = (ofText ",\n").intercalate (map.columns.map (map.columnPart d)) := by
  have written (c : ColumnDef) : c.pieces d (map.keys.length == 1) ≠ [] := by
    unfold ColumnDef.pieces
    split <;> simp
  rw [spelled_separatedBy fun c _ => written c]
  simp only [ColumnDef.spelled_pieces]
  rfl

theorem Derived.columns_ne_nil {map : EntityMap} (h : map.Derived) (hkeys : 1 < map.keys.length) :
    map.columns ≠ [] := by
  intro none
  rw [h.keys_eq, none] at hkeys
  exact absurd hkeys (by decide)

theorem spelled_parts {map : EntityMap} (h : map.Derived) (d : Dialect) :
    Piece.spelled (separatedBy (ColumnDef.pieces d (map.keys.length == 1)) [.text ",\n"]
      map.columns ++ (compositeKeyPieces map ++ [.text ");"])) =
      (ofText ",\n").intercalate (map.parts d) ++ ofText ");" := by
  rw [Piece.spelled_append, Piece.spelled_append, spelled_columns]
  unfold compositeKeyPieces parts
  by_cases hkeys : 1 < map.keys.length
  · have columns : map.columns.map (map.columnPart d) ≠ [] := by
      simpa using h.columns_ne_nil hkeys
    have names : Piece.spelled (separatedBy (fun c : ColumnDef => [.name c.name]) [.text ", "]
        map.keyColumns) =
        (ofText (μ := List Char) ", ").intercalate
          ((map.keyColumns.map (·.name)).map ([.name ·])) := by
      rw [spelled_separatedBy fun _ _ => List.cons_ne_nil _ _, List.map_map]
      rfl
    rw [if_pos hkeys, if_pos hkeys, intercalate_concat _ columns, Piece.spelled_cons,
      Piece.spelled_append, names, List.append_assoc]
    simp [Piece.spell, keyPart, ofText]
  · rw [if_neg hkeys, if_neg hkeys, List.append_nil]
    simp [Piece.spell]

end EntityMap

/-- What stands between `CREATE TABLE` and the list of parts. -/
def headSigns (guarded : Bool) (t : TableRef) : List (Sign (List Char)) :=
  ofText " " ++ ((if guarded then ofText "IF NOT EXISTS " else []) ++
    ((if t.schema.isEmpty then [] else [.name t.schema, .char '.']) ++ [.name t.name, .char ' ']))

namespace EntityMap

/-- The definition of the table, without a test for the table. -/
def definition (map : EntityMap) (d : Dialect) (guarded : Bool) : List Piece :=
  .text "CREATE TABLE " :: ((if guarded then [.text "IF NOT EXISTS "] else []) ++
    (map.table.pieces { clause := .createTable, qualify := false } "" ++
      .text " (\n" :: (separatedBy (ColumnDef.pieces d (map.keys.length == 1)) [.text ",\n"]
        map.columns ++ (compositeKeyPieces map ++ [.text ");"]))))

theorem spelled_definition {map : EntityMap} (h : map.Derived) (d : Dialect) (guarded : Bool) :
    Piece.spelled (map.definition d guarded) =
      ofText "CREATE TABLE" ++ (headSigns guarded map.table ++
        (ofText "(\n" ++ ((ofText ",\n").intercalate (map.parts d) ++ ofText ");"))) := by
  unfold definition headSigns
  rw [Piece.spelled_cons, Piece.spelled_append, Piece.spelled_append, Piece.spelled_cons,
    spelled_parts h d]
  cases guarded <;> cases hschema : map.table.schema.isEmpty <;>
    simp [Piece.spell, TableRef.pieces, ofText, hschema]

/-- Where the dialect has no clause for it, the table is tested for before its definition. -/
theorem pieces_createTable (map : EntityMap) (d : Dialect) (ifNotExists : Bool) :
    (map.createTable ifNotExists).pieces d =
      (if ifNotExists && d == .sqlServer then [.text (testText map.table)] else []) ++
        map.definition d (ifNotExists && d != .sqlServer) := by
  unfold CreateTableStatement.pieces createHead definition testText createTable
  cases d <;> cases ifNotExists <;> simp [Dialect.printFrom_table]

theorem params_definition (map : EntityMap) (d : Dialect) (ifNotExists : Bool) :
    Piece.params (map.definition d (ifNotExists && d != .sqlServer)) = [] := by
  have none : Piece.params ((map.createTable ifNotExists).pieces d) = [] :=
    d.params_render_createTable (map.createTable ifNotExists)
  rw [pieces_createTable, Piece.params_append, List.append_eq_nil_iff] at none
  exact none.2

theorem legible_definition (map : EntityMap) (d : Dialect) (guarded : Bool) :
    Legible (Piece.signs (map.definition d guarded)) := by
  have columns := legible_separatedBy ",\n" (by decide) (by decide) fun c (_ : c ∈ map.columns) =>
    c.legible_pieces d (map.keys.length == 1)
  have keys : Trails (Piece.signs (compositeKeyPieces map ++ [.text ");"])) := by
    have names : Legible (Piece.signs (separatedBy (fun c : ColumnDef => [.name c.name])
        [.text ", "] map.keyColumns)) :=
      legible_separatedBy ", " (by decide) (by decide) fun c _ => legible_name c.name
    have last : Trails (Piece.signs [.text ");"]) := Legible.nil.behind ");" (by decide) (by decide)
    unfold compositeKeyPieces
    split
    · simp only [List.cons_append, List.append_assoc, Piece.signs_cons (.text _),
        Piece.signs_append]
      refine (names.before ?_).behind ",\nPRIMARY KEY (" (by decide) (by decide)
      exact last.1.behind ")" (by decide) (by decide)
    · exact last
  have list := (columns.before keys).behind " (\n" (by decide) (by decide)
  have table := (map.table.legible { clause := .createTable, qualify := false } "").before list
  rw [definition, Piece.signs_cons, Piece.signs_append, Piece.signs_append, Piece.signs_cons,
    Piece.signs_append]
  refine Legible.text "CREATE TABLE " (by decide) ?_
  cases guarded with
  | false => exact table
  | true => exact table.text "IF NOT EXISTS " (by decide)

/-- **The text is scanned as the signs of its definition**, behind those of a test for the table. -/
theorem scan_createTable {map : EntityMap} (h : map.Derived) (d : Dialect) (ifNotExists : Bool) :
    d.scan (d.render (.createTable (map.createTable ifNotExists))).sql =
      (if ifNotExists && d == .sqlServer then testSigns map.table else []) ++
      (ofText "CREATE TABLE" ++ (headSigns (ifNotExists && d != .sqlServer) map.table ++
        (ofText "(\n" ++ ((ofText ",\n").intercalate (map.parts d) ++ ofText ");")))) := by
  have defined := Dialect.scanFrom_printFrom (d := d)
    (map.legible_definition d (ifNotExists && d != .sqlServer))
    (map.params_definition d ifNotExists) 0
  rw [spelled_definition h] at defined
  rw [← defined]
  change d.scanFrom .outside (d.printFrom 0 ((map.createTable ifNotExists).pieces d)).toList = _
  rw [pieces_createTable]
  by_cases tested : (ifNotExists && d == .sqlServer) = true
  · obtain rfl : d = .sqlServer := by simpa using (Bool.and_eq_true_iff.mp tested).2
    rw [if_pos tested, if_pos tested, List.singleton_append, Dialect.printFrom,
      String.toList_append, scanFrom_testText]
  · rw [if_neg tested, if_neg tested]
    rfl

end EntityMap

end GraphStore
