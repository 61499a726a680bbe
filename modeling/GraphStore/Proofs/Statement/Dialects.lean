import GraphStore.Proofs.Sql.Lexemes
import GraphStore.Proofs.Statement.Legible

/-!
# One statement in all dialects

The dialects write the same pieces, apart from limits, generated keys, rows of defaults and the
definitions of tables. They quote names and mark parameters in their own ways, but that is all: read
by its own rules, a query says the same in every dialect.
-/

set_option autoImplicit false

namespace GraphStore

/-- No part of the statement is left to the dialect. -/
def Statement.IsPortable : Statement → Prop
  | select s => s.limit = none
  | insert s => s.values ≠ [] ∧ s.generatedKey = none
  | createTable _ => False
  | _ => True

/-- A portable statement has the same pieces in every dialect. -/
theorem Statement.IsPortable.pieces_eq {st : Statement} (h : st.IsPortable) (d d' : Dialect) :
    st.pieces d = st.pieces d' := by
  cases st with
  | select s =>
      have head : ∀ d : Dialect, d.selectHead s.limit = "SELECT " := by
        intro d
        rw [show s.limit = none from h]
        cases d <;> rfl
      have limit : ∀ d : Dialect, d.selectLimit s.limit = "" := by
        intro d
        rw [show s.limit = none from h]
        cases d <;> rfl
      change s.pieces d = s.pieces d'
      simp only [SelectStatement.pieces, head, limit]
  | insert s =>
      have output : ∀ d : Dialect, outputPieces d s.generatedKey = [] := by
        intro d
        rw [h.2]
        cases d <;> rfl
      have returning : ∀ d : Dialect, returningPieces d s.generatedKey = [] := by
        intro d
        rw [h.2]
        cases d <;> rfl
      have values : s.values.isEmpty = false := by simpa using h.1
      change s.pieces d = s.pieces d'
      simp only [InsertStatement.pieces, output, returning, values, Bool.false_eq_true, if_false]
  | createTable s => exact absurd h id
  | _ => rfl

/-- The lexemes of a portable statement, in any dialect. -/
theorem Statement.WellWritten.lex_render {st : Statement} (h : st.WellWritten) (d : Dialect)
    (hnames : ∀ b ∈ st.bindings, ∀ c ∈ b.column.toList, isWordChar c = true)
    (hcount : d.marksByName = true → (d.render st).params.length ≤ 2 ^ 32) :
    d.lex (d.render st) =
      some (Sign.lexemes (Sign.enumerateFrom 0 (Piece.signs (st.pieces d)))) := by
  have params : (d.render st).params = [] ++ Sign.marks (Piece.signs (st.pieces d)) := by
    rw [Piece.marks_signs]
    rfl
  have resolved := d.resolveFrom_marked [] params 0 (fun _ => rfl) fun named =>
    h.nodup_params d (hcount named)
  rw [Dialect.lex, h.scan_render d fun hd b hb c hc =>
    d.markGoesOn_of_isWordChar hd (hnames b hb c hc)]
  exact congrArg (Option.map Sign.lexemes) resolved

/-- **The dialects say the same.** The parameters of a query are the same in every dialect, and so
are the lexemes of a portable statement, if the columns after which parameters are named have plain
names; its placeholders refer to the parameters in order. Where they are names, there have to be
enough numbers of 32 bits to tell the parameters apart. -/
theorem dialects_agree :
    (∀ (st : Statement) (d d' : Dialect), (d.render st).params = (d'.render st).params) ∧
    ∀ (m : Model) (st : Statement), m.Builds st → st.IsPortable →
      (∀ b ∈ st.bindings, ∀ c ∈ b.column.toList, isWordChar c = true) →
      ∃ lexemes, (∀ d : Dialect,
          (d.marksByName = true → (d.render st).params.length ≤ 2 ^ 32) →
          d.lex (d.render st) = some lexemes) ∧
        Sign.marks lexemes.flatten = List.range st.bindings.length := by
  refine ⟨fun st d d' => by rw [d.params_render, d'.params_render],
    fun m st built portable names => ?_⟩
  have written := m.wellWritten_of_builds built
  refine ⟨Sign.lexemes (Sign.enumerateFrom 0 (Piece.signs (st.pieces .postgres))),
    fun d hcount => ?_, ?_⟩
  · rw [written.lex_render d names hcount, portable.pieces_eq d .postgres]
  · have params : Piece.params (st.pieces .postgres) = st.bindings.map (·.param) :=
      Dialect.postgres.params_render st
    rw [Sign.marks_flatten_lexemes, Sign.marks_enumerateFrom, Piece.marks_signs, params,
      List.length_map, List.range_eq_range']

/-- An update whose table has quotes and placeholders in its name. -/
theorem dialects_agree_lookalikes :
    let p : Predicate := .compare .less "b" (.int32 (some 1))
    ∃ st supply,
      (Model.mk []).deleteWhere Sample.lookalikes p NumberedSupply.supply = .ok (st, supply) ∧
      (Dialect.postgres.render st).sql =
        "UPDATE \"\"\"$1\"\" [?]\" SET \"a_0\" = $1\nWHERE \"a_1\" < $2;" ∧
      (Dialect.sqlServer.render st).sql =
        "UPDATE [\"$1\" [?]]] SET [a_0] = @a_0_1\nWHERE [a_1] < @a_1_0;" ∧
      ∃ lexemes, (∀ d : Dialect, d.lex (d.render st) = some lexemes) ∧
        Sign.marks lexemes.flatten = List.range st.bindings.length := by
  intro p
  obtain ⟨st, supply, h⟩ : ∃ st supply,
      (Model.mk []).deleteWhere Sample.lookalikes p NumberedSupply.supply = .ok (st, supply) :=
    ⟨_, _, rfl⟩
  have plain : ∀ bs : List Binding, (bs.all fun b => b.column.toList.all isWordChar) = true →
      ∀ b ∈ bs, ∀ c ∈ b.column.toList, isWordChar c = true := fun bs h b hb =>
    List.all_eq_true.mp (List.all_eq_true.mp h b hb)
  have few : ∀ d : Dialect, (d.render st).params.length ≤ 2 ^ 32 := by
    intro d
    rw [d.params_render, List.length_map]
    cases h
    decide
  have portable : st.IsPortable := by
    cases h
    exact trivial
  have names : ∀ b ∈ st.bindings, ∀ c ∈ b.column.toList, isWordChar c = true := by
    cases h
    exact plain _ (by decide)
  obtain ⟨lexemes, read, numbered⟩ := dialects_agree.2 _ st (.deleteWhere h) portable names
  refine ⟨st, supply, h, ?_, ?_, lexemes, fun d => read d fun _ => few d, numbered⟩
  all_goals cases h
  · decide
  · decide

end GraphStore
