import GraphStore.Proofs.Sql.Written
import GraphStore.Proofs.Statement.Insert

/-!
# The parameters of a statement

A statement has parameters in the conditions of its joins, in its filter, in what it sets and in the
values of a new row; each is meant for a column. `Statement.bindings` lists them in the order in
which they are rendered, and these are the parameters of the query in every dialect
(`params_render`). In a condition that is written well they are numbered one after another.
-/

set_option autoImplicit false

namespace GraphStore

/-- The parts of statements in which parameters stand. Joins are numbered. -/
inductive Site where
  | on (join : Nat)
  | filter
  | set
  | values
deriving DecidableEq, Repr

/-- A parameter, the part in which it stands and the column it is meant for. -/
structure Binding where
  site : Site
  column : String
  param : Param
deriving DecidableEq, Repr

/-! ## Listing the parameters -/

/-- The parameters of a condition are meant for the column that was mentioned last. -/
def bindingsFrom (site : Site) (last : String) : List Glyph → List Binding
  | [] => []
  | .char _ :: gs => bindingsFrom site last gs
  | .column c :: gs => bindingsFrom site c.column gs
  | .param p :: gs => ⟨site, last, p⟩ :: bindingsFrom site last gs

def Fragment.bindings (f : Fragment) (site : Site) : List Binding :=
  bindingsFrom site "" f.glyphs

def Assignment.binding (site : Site) (a : Assignment) : Binding := ⟨site, a.column, a.param⟩

/-- The parameters of joins, `n` of which stand before them. -/
def joinBindings : Nat → List Join → List Binding
  | _, [] => []
  | n, j :: js => j.on.bindings (.on n) ++ joinBindings (n + 1) js

/-- The parameters of a statement: those of the joins, or what is set, come before the filter. -/
def Statement.bindings : Statement → List Binding
  | select s => joinBindings 0 s.joins ++ s.filter.bindings .filter
  | insert s => s.values.map (·.binding .values)
  | update s => s.set.map (·.binding .set) ++ s.filter.bindings .filter
  | delete s => s.filter.bindings .filter
  | createTable _ => []
  | dropTable _ => []

/-! ## The parameters of the query -/

theorem marks_flatMap_signs (context : Context) (site : Site) (last : String) (gs : List Glyph) :
    Sign.marks (gs.flatMap (Glyph.signs context)) =
      (bindingsFrom site last gs).map (·.param) := by
  induction gs generalizing last with
  | nil => rfl
  | cons g gs ih =>
      rw [List.flatMap_cons, Sign.marks_append]
      cases g with
      | char c => exact ih last
      | column c =>
          rw [ih c.column, Glyph.signs, ColumnToken.pieces]
          split <;> rfl
      | param p =>
          rw [ih last]
          rfl

theorem Fragment.params_pieces (f : Fragment) (context : Context) (site : Site) :
    Piece.params (f.pieces context) = (f.bindings site).map (·.param) := by
  rw [← Piece.marks_signs, signs_pieces, marks_flatMap_signs context site ""]
  rfl

theorem params_wherePieces (filter : Fragment) (context : Context) :
    Piece.params (wherePieces filter context) = (filter.bindings .filter).map (·.param) := by
  unfold wherePieces
  split
  next h =>
    rw [Fragment.bindings, Fragment.glyphs, List.isEmpty_iff.mp h]
    rfl
  next => rw [Piece.params_text, filter.params_pieces context .filter]

theorem params_joins (context : Context) (n : Nat) (js : List Join) :
    Piece.params (js.flatMap (·.pieces context)) = (joinBindings n js).map (·.param) := by
  induction js generalizing n with
  | nil => rfl
  | cons j js ih =>
      rw [List.flatMap_cons, Piece.params_append, ih (n + 1), Join.pieces, Piece.params_text,
        Piece.params_append, TableRef.params_pieces, List.nil_append, Piece.params_text,
        j.on.params_pieces context (.on n), joinBindings, List.map_append]

/-- What is laid out has no parameters if no item has any. -/
theorem params_separatedBy_eq_nil {α : Type} {write : α → List Piece} (items : List α)
    {separator : List Piece} (hseparator : Piece.params separator = [])
    (h : ∀ a, Piece.params (write a) = []) :
    Piece.params (Text.separatedBy write separator items) = [] := by
  rw [Piece.params_separatedBy write separator hseparator, List.flatMap_eq_nil_iff]
  exact fun a _ => h a

theorem ColumnToken.params_pieces (c : ColumnToken) (context : Context) :
    Piece.params (c.pieces context) = [] := by
  unfold pieces
  split <;> rfl

theorem params_orderPieces (orderBy : List (ColumnToken × Order)) (context : Context) :
    Piece.params (orderPieces orderBy context) = [] := by
  unfold orderPieces
  split
  next => rfl
  next =>
    rw [Piece.params_text]
    exact params_separatedBy_eq_nil orderBy rfl fun p => by
      rw [Piece.params_append, p.1.params_pieces]
      rfl

theorem SelectColumn.params_pieces (c : SelectColumn) : Piece.params c.pieces = [] := by
  cases c <;> rfl

namespace Dialect

theorem params_render_select (d : Dialect) (s : SelectStatement) :
    (d.render (.select s)).params = (Statement.select s).bindings.map (·.param) := by
  change Piece.params (s.pieces d) = _
  rw [SelectStatement.pieces, Piece.params_text, Piece.params_append,
    params_separatedBy_eq_nil s.columns rfl SelectColumn.params_pieces, List.nil_append,
    Piece.params_text, Piece.params_append, TableRef.params_pieces, List.nil_append,
    Piece.params_append, params_joins _ 0, Piece.params_append, params_wherePieces,
    Piece.params_append, params_orderPieces, Statement.bindings, List.map_append]
  simp

theorem params_render_update (d : Dialect) (s : UpdateStatement) :
    (d.render (.update s)).params = (Statement.update s).bindings.map (·.param) := by
  change Piece.params s.pieces = _
  have set := Piece.params_separatedBy Assignment.pieces [.text ", "] rfl s.set
  rw [UpdateStatement.pieces, Piece.params_text, Piece.params_append, TableRef.params_pieces,
    List.nil_append, Piece.params_text, Piece.params_append, set, Piece.params_append,
    params_wherePieces, Statement.bindings, List.map_append, List.map_map]
  simp [Assignment.pieces, Assignment.binding, Function.comp_def, List.map_eq_flatMap]

theorem params_render_delete (d : Dialect) (s : DeleteStatement) :
    (d.render (.delete s)).params = (Statement.delete s).bindings.map (·.param) := by
  change Piece.params s.pieces = _
  rw [DeleteStatement.pieces, Piece.params_text, Piece.params_append, TableRef.params_pieces,
    List.nil_append, Piece.params_append, params_wherePieces, Statement.bindings]
  simp

theorem params_render_createTable (d : Dialect) (s : CreateTableStatement) :
    (d.render (.createTable s)).params = [] := by
  change Piece.params (s.pieces d) = _
  have head : ∀ context, Piece.params (createHead d s context) = [] := by
    intro context
    unfold createHead
    split <;> split <;> rfl
  have columns : Piece.params (Text.separatedBy (ColumnDef.pieces d (s.map.keys.length == 1))
      [.text ",\n"] s.map.columns) = [] := by
    refine params_separatedBy_eq_nil _ rfl fun c => ?_
    unfold ColumnDef.pieces
    split
    · rfl
    · split <;> split <;> rfl
  have keys : Piece.params (compositeKeyPieces s.map) = [] := by
    unfold compositeKeyPieces
    split
    · rw [Piece.params_text, Piece.params_append, params_separatedBy_eq_nil _ rfl fun _ => rfl]
      rfl
    · rfl
  rw [CreateTableStatement.pieces, Piece.params_append, head, Piece.params_append,
    TableRef.params_pieces, Piece.params_text, Piece.params_append, columns, Piece.params_append,
    keys]
  rfl

theorem params_render_dropTable (d : Dialect) (s : DropTableStatement) :
    (d.render (.dropTable s)).params = [] := by
  change Piece.params s.pieces = _
  rw [DropTableStatement.pieces, Piece.params_text, Piece.params_append, Piece.params_append,
    TableRef.params_pieces]
  split <;> rfl

/-- **The parameters of a query are those of its statement**, in every dialect. -/
theorem params_render (d : Dialect) (st : Statement) :
    (d.render st).params = st.bindings.map (·.param) := by
  cases st with
  | select s => exact d.params_render_select s
  | insert s =>
      rw [params_render_insert, Statement.bindings, List.map_map]
      rfl
  | update s => exact d.params_render_update s
  | delete s => exact d.params_render_delete s
  | createTable s => exact d.params_render_createTable s
  | dropTable s => exact d.params_render_dropTable s

end Dialect

/-! ## Numbers -/

/-- The parameter is named by its column and the number. -/
def Binding.Numbered (n : UInt32) (b : Binding) : Prop := b.param.name = numberedName b.column n

/-- The parameters are numbered one after another, from the first number up to the second. -/
def NumberedFrom (a : UInt32) (bs : List Binding) (b : UInt32) : Prop :=
  b = a + UInt32.ofNat bs.length ∧ List.Forall₂ Binding.Numbered (countsFrom a bs.length) bs

namespace NumberedFrom

variable {a b c : UInt32} {bs cs : List Binding}

theorem nil (a : UInt32) : NumberedFrom a [] a := ⟨(UInt32.add_zero a).symm, .nil⟩

theorem cons {x : Binding} (hx : x.Numbered a) (h : NumberedFrom (a + 1) bs b) :
    NumberedFrom a (x :: bs) b := by
  refine ⟨?_, ?_⟩
  · rw [h.1, List.length_cons, count_succ]
  · rw [List.length_cons, countsFrom]
    exact .cons hx h.2

theorem append (h : NumberedFrom a bs b) (h' : NumberedFrom b cs c) :
    NumberedFrom a (bs ++ cs) c := by
  obtain ⟨rfl, h⟩ := h
  obtain ⟨rfl, h'⟩ := h'
  refine ⟨by rw [List.length_append, UInt32.ofNat_add, UInt32.add_assoc], ?_⟩
  rw [List.length_append, countsFrom_add]
  exact List.rel_append h h'

end NumberedFrom

/-- The parameters of what is written well are numbered from one spot to the other. -/
theorem Written.numbered {s t : Spot} {gs : List Glyph} (h : Written s gs t) (site : Site)
    {last : String} (hlast : ∀ column, s.column = some column → column = last) :
    NumberedFrom s.count (bindingsFrom site last gs) t.count := by
  induction h generalizing last with
  | nil s => exact .nil s.count
  | char plain apart rest ih => exact ih hlast
  | column apart rest ih => exact ih fun column h => (Option.some.inj h).symm
  | param apart hcolumn rest ih =>
      obtain rfl := hlast _ hcolumn
      exact .cons rfl (ih hlast)

theorem Fragment.IsCondition.numbered {a b : UInt32} {f : Fragment} (h : f.IsCondition a b)
    (site : Site) : NumberedFrom a (f.bindings site) b := by
  obtain ⟨t, rfl, written⟩ := h ⟨a, none, false⟩ rfl rfl
  exact written.numbered site (by simp)

end GraphStore
