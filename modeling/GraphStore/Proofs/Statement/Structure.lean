import GraphStore.Proofs.Statement.TableDefinition
import GraphStore.Sample.Graphs

/-!
# Names and the structure of statements

What is read of a query, without what names and placeholders are called, is its structure. It is
that of the pieces which were printed, and the names are theirs (`names_keep_structure`): a quoted
name is read as that name, whatever it is, and is one sign among the others. The same holds of
definitions of tables, and a test for a table has the whole of the quoted name in its string.

Placeholders that are named after columns are not quoted. There the name of a column has to consist
of characters with which a placeholder goes on, or it can change the structure
(`structure_of_column_name`).
-/

set_option autoImplicit false

namespace GraphStore

/-! ## Structure -/

namespace Sign

variable {μ ν : Type}

/-- The sign without what it is called. -/
def outline : Sign μ → Sign Unit
  | char c => .char c
  | name _ => .name ""
  | mark _ => .mark ()

/-- The names among the signs, in order. -/
def names (ss : List (Sign μ)) : List String := ss.filterMap fun | .name s => some s | _ => none

/-- The signs have the same structure, and the same names in it. -/
structure SameStructure (ss : List (Sign μ)) (ts : List (Sign ν)) : Prop where
  outlines : ss.map outline = ts.map outline
  names : names ss = names ts

theorem sameStructure_nil : SameStructure ([] : List (Sign μ)) ([] : List (Sign ν)) := ⟨rfl, rfl⟩

/-- The signs go on in the same way. -/
theorem SameStructure.cons {s : Sign μ} {t : Sign ν} {ss : List (Sign μ)} {ts : List (Sign ν)}
    (first : SameStructure [s] [t]) (h : SameStructure ss ts) :
    SameStructure (s :: ss) (t :: ts) := by
  have outlines := congrArg₂ (· ++ ·) first.outlines h.outlines
  have names := congrArg₂ (· ++ ·) first.names h.names
  simp only [Sign.names, ← List.map_append, ← List.filterMap_append] at outlines names
  exact ⟨outlines, names⟩

end Sign

open Sign

namespace Dialect

variable (d : Dialect)

/-- The placeholders that are written are part of the structure, their text is not. -/
theorem sameStructure_marked (count : Nat) (ss : List (Sign Param)) :
    SameStructure (d.marked count ss) ss := by
  induction ss generalizing count with
  | nil => exact sameStructure_nil
  | cons s ss ih =>
      cases s with
      | char c => exact .cons ⟨rfl, rfl⟩ (ih count)
      | name s => exact .cons ⟨rfl, rfl⟩ (ih count)
      | mark p => exact .cons ⟨rfl, rfl⟩ (ih (d.countParam count))

end Dialect

/-! ## Statements -/

/-- Where placeholders are named after columns, they go on with the characters of these columns. -/
def Statement.GoesOn (st : Statement) (d : Dialect) : Prop :=
  d.marksByName = true → ∀ b ∈ st.bindings, ∀ c ∈ b.column.toList, d.markGoesOn c = true

instance (st : Statement) (d : Dialect) : Decidable (st.GoesOn d) :=
  decidable_of_iff (d.marksByName = true →
    st.bindings.all (fun b => b.column.toList.all d.markGoesOn) = true)
    (by simp only [Statement.GoesOn, List.all_eq_true])

theorem Statement.WellWritten.sameStructure_scan {st : Statement} (h : st.WellWritten)
    {d : Dialect} (hnames : st.GoesOn d) :
    SameStructure (d.scan (d.render st).sql) (Piece.signs (st.pieces d)) := by
  rw [h.scan_render d hnames]
  exact d.sameStructure_marked 0 _

/-! ## Tables -/

/-- The text tests for a table and goes on with `rest`. The quoted name of the table is the content
of a string. -/
def TestsFor (t : TableRef) (text rest : List Char) : Prop :=
  ∃ literal, text = "IF OBJECT_ID(N".toList ++ literal ∧
    readDelimited '\'' '\'' literal =
      some ((Dialect.sqlServer.tableName t).toList, ", N'U') IS NULL\n".toList ++ rest)

theorem testsFor_testText (t : TableRef) (rest : List Char) :
    TestsFor t ((testText t).toList ++ rest) rest := by
  unfold TestsFor testText
  generalize (Dialect.sqlServer.tableName t).toList = name
  have spelled (s s' : String) (cs : List Char) :
      (s ++ String.ofList cs ++ s').toList ++ rest = s.toList ++ (cs ++ (s'.toList ++ rest)) := by
    simp
  have opened : "IF OBJECT_ID(N'".toList = "IF OBJECT_ID(N".toList ++ ['\''] := by decide
  have closed : "', N'U') IS NULL\n".toList = '\'' :: ", N'U') IS NULL\n".toList := by decide
  refine ⟨delimited '\'' '\'' name ++ (", N'U') IS NULL\n".toList ++ rest), ?_,
    readDelimited_eq_some_iff.mpr ⟨rfl, ?_⟩⟩
  · rw [spelled, opened, closed, delimited]
    simp only [List.append_assoc, List.cons_append, List.nil_append]
  · exact fun apostrophe => absurd (Option.some.inj apostrophe) (by decide)

namespace EntityMap

/-- The text defines the table of `map`: its signs have the structure of the definition, behind a
test for the table where the dialect needs one. -/
def IsDefinedBy (map : EntityMap) (d : Dialect) (ifNotExists : Bool) (text : List Char) : Prop :=
  ∃ definition : List Char,
    SameStructure (d.scanFrom .outside definition)
      (Piece.signs (map.definition d (ifNotExists && d != .sqlServer))) ∧
    if ifNotExists && d == .sqlServer then TestsFor map.table text definition
    else text = definition

theorem isDefinedBy_render (map : EntityMap) (d : Dialect) (ifNotExists : Bool) :
    map.IsDefinedBy d ifNotExists
      (d.render (.createTable (map.createTable ifNotExists))).sql.toList := by
  have params := map.params_definition d ifNotExists
  have scanned := Dialect.scanFrom_printFrom (d := d)
    (map.legible_definition d (ifNotExists && d != .sqlServer)) params 0
  have text : (d.render (.createTable (map.createTable ifNotExists))).sql =
      d.printFrom 0 ((map.createTable ifNotExists).pieces d) := rfl
  refine ⟨(d.printFrom 0 (map.definition d (ifNotExists && d != .sqlServer))).toList, ?_, ?_⟩
  · rw [scanned, ← Dialect.marked_signs params 0]
    exact d.sameStructure_marked 0 _
  · rw [text, pieces_createTable]
    split
    · rw [List.singleton_append, Dialect.printFrom, String.toList_append]
      exact testsFor_testText map.table _
    · rfl

end EntityMap

/-- **Names keep their place.** By the lexical rule of the dialect, a quoted name is read as that
name, up to its end, from any text that begins with it and does not go on with another closing
quote, and nothing else is; the copy is cut where characters begin and end. Therefore every
statement that is built is read with the structure and the names of its pieces, if its placeholders
go on with the columns that they are named after, and so is every definition of a table. -/
theorem names_keep_structure (d : Dialect) :
    (∀ name : String,
      (∀ stretch ∈ stretchesFrom d.quotes.2 0 0 name.toList, IsStretch name stretch) ∧
      ∀ text rest : List Char, d.readName text = some (name.toList, rest) ↔
        text = (d.identifier name).toList ++ rest ∧ rest.head? ≠ some d.nameSigns.2) ∧
    (∀ (m : Model) (st : Statement), m.Builds st → st.GoesOn d →
      SameStructure (d.scan (d.render st).sql) (Piece.signs (st.pieces d))) ∧
    ∀ (map : EntityMap) (ifNotExists : Bool), map.IsDefinedBy d ifNotExists
      (d.render (.createTable (map.createTable ifNotExists))).sql.toList :=
  ⟨fun name => ⟨isStretch_of_copyEscaped d.quotes.2 name, d.readName_eq_some_iff name⟩,
    fun m _ built goesOn => (m.wellWritten_of_builds built).sameStructure_scan goesOn,
    fun map => map.isDefinedBy_render d⟩

/-- An update whose table has quotes, brackets and placeholders in its name. -/
theorem names_keep_structure_lookalikes :
    let p : Predicate := .compare .less "b" (.int32 (some 1))
    ∃ st supply,
      (Model.mk []).deleteWhere Sample.lookalikes p NumberedSupply.supply = .ok (st, supply) ∧
      st.GoesOn .sqlServer ∧
      (Dialect.sqlServer.render st).sql =
        "UPDATE [\"$1\" [?]]] SET [a_0] = @a_0_1\nWHERE [a_1] < @a_1_0;" ∧
      SameStructure (Dialect.sqlServer.scan (Dialect.sqlServer.render st).sql)
        (Piece.signs (st.pieces .sqlServer)) ∧
      names (Dialect.sqlServer.scan (Dialect.sqlServer.render st).sql) =
        ["\"$1\" [?]", "a_0", "a_1"] ∧
      Dialect.sqlServer.readName "[\"$1\" [?]]] SET".toList =
        some ("\"$1\" [?]".toList, " SET".toList) := by
  intro p
  obtain ⟨quoting, statements, -⟩ := names_keep_structure .sqlServer
  obtain ⟨st, supply, h⟩ : ∃ st supply,
      (Model.mk []).deleteWhere Sample.lookalikes p NumberedSupply.supply = .ok (st, supply) :=
    ⟨_, _, rfl⟩
  have goesOn : st.GoesOn .sqlServer := by
    cases h
    decide +kernel
  have same := statements (Model.mk []) st (.deleteWhere h) goesOn
  refine ⟨st, supply, h, goesOn, ?_, same, same.names.trans ?_, ?_⟩
  · cases h
    decide +kernel
  · cases h
    decide +kernel
  · exact ((quoting "\"$1\" [?]").2 _ _).mpr (by decide)

namespace Sample

/-- Records of one column apart from the key, under the given name. -/
def coded (name : String) : Model := model
  (some {
    table := "mains"
    columns := [generatedColumn "id", { column "code" with name := some name }] }) none

end Sample

/-- A column may be called so that its placeholder ends early and what follows is read as a part of
the condition. The statements differ in the name of one column only, but not so what is read of
them. -/
theorem structure_of_column_name :
    let p : Predicate := .compare .equal "code" (.varchar (some "A"))
    ∃ map map' st st' supply supply',
      (Sample.coded "code").entityMap "Main" = .ok map ∧
      (Sample.coded "code OR 1").entityMap "Main" = .ok map' ∧
      (Sample.coded "code").deleteWhere map p NumberedSupply.supply = .ok (st, supply) ∧
      (Sample.coded "code OR 1").deleteWhere map' p NumberedSupply.supply = .ok (st', supply') ∧
      ∀ d : Dialect, d.marksByName = true →
        (Piece.signs (st.pieces d)).map outline = (Piece.signs (st'.pieces d)).map outline ∧
        (d.scan (d.render st).sql).map outline ≠ (d.scan (d.render st').sql).map outline := by
  intro p
  obtain ⟨map, hmap⟩ : ∃ map, (Sample.coded "code").entityMap "Main" = .ok map := ⟨_, rfl⟩
  obtain ⟨map', hmap'⟩ : ∃ map, (Sample.coded "code OR 1").entityMap "Main" = .ok map := ⟨_, rfl⟩
  obtain ⟨st, supply, hst⟩ : ∃ st supply,
      (Sample.coded "code").deleteWhere map p NumberedSupply.supply = .ok (st, supply) := by
    cases hmap
    exact ⟨_, _, rfl⟩
  obtain ⟨st', supply', hst'⟩ : ∃ st supply,
      (Sample.coded "code OR 1").deleteWhere map' p NumberedSupply.supply = .ok (st, supply) := by
    cases hmap'
    exact ⟨_, _, rfl⟩
  refine ⟨map, map', st, st', supply, supply', hmap, hmap', hst, hst', fun d hd => ?_⟩
  cases hmap
  cases hmap'
  cases hst
  cases hst'
  cases d with
  | postgres => cases hd
  | mySql => cases hd
  | sqlite => decide +kernel
  | sqlServer => decide +kernel

end GraphStore
