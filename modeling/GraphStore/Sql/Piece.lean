import GraphStore.Sql.Context
import GraphStore.Sql.Dialect
import GraphStore.Sql.Fragment
import GraphStore.Model.EntityMap

/-!
# Pieces of SQL

A statement is written as a list of pieces: literal text, names to be quoted, and parameters. A
dialect prints the list in one pass, which is the only place where names are quoted and
placeholders numbered. The parameters of a query are those of its pieces, in every dialect.
-/

set_option autoImplicit false

namespace GraphStore

inductive Piece where
  | text (s : String)
  | name (s : String)
  | param (p : Param)
deriving DecidableEq, Repr

namespace Piece

/-- The parameters in order of appearance. -/
def params (ps : List Piece) : List Param := ps.filterMap fun | .param p => some p | _ => none

@[simp] theorem params_append (ps qs : List Piece) :
    params (ps ++ qs) = params ps ++ params qs := by simp [params]

end Piece

namespace Dialect

/-- The text of the pieces when `count` parameters stand before them. -/
def printFrom (d : Dialect) : Nat → List Piece → String
  | _, [] => ""
  | count, .text s :: rest => s ++ d.printFrom count rest
  | count, .name s :: rest => d.identifier s ++ d.printFrom count rest
  | count, .param p :: rest => d.placeholder count p ++ d.printFrom (d.countParam count) rest

/-- The count of parameters after the pieces. -/
def countAfter (d : Dialect) : Nat → List Piece → Nat
  | count, [] => count
  | count, .param _ :: rest => d.countAfter (d.countParam count) rest
  | count, _ :: rest => d.countAfter count rest

/-- The pieces as a query of their own. -/
def print (d : Dialect) (ps : List Piece) : Query := ⟨d.printFrom 0 ps, Piece.params ps⟩

theorem printFrom_append (d : Dialect) (count : Nat) (ps qs : List Piece) :
    d.printFrom count (ps ++ qs) =
      d.printFrom count ps ++ d.printFrom (d.countAfter count ps) qs := by
  induction ps generalizing count with
  | nil => simp [printFrom, countAfter]
  | cons p ps ih => cases p <;> simp [printFrom, countAfter, ih, String.append_assoc]

end Dialect

/-! ## References -/

/-- A table, with the alias declared where the clause allows it and it says something new. -/
def TableRef.pieces (t : TableRef) (context : Context) (label : String) : List Piece :=
  (if t.schema.isEmpty then [] else [.name t.schema, .text "."]) ++ .name t.name ::
    (if context.clause.declaresAlias && !label.isEmpty && label != t.name then
      [.text " AS ", .name label] else [])

/-- A column, behind its table where columns are qualified. -/
def ColumnToken.pieces (c : ColumnToken) (context : Context) : List Piece :=
  (if context.qualify && !c.table.isEmpty then [.name c.table, .text "."] else []) ++
    [.name c.column]

def Token.pieces (context : Context) : Token → List Piece
  | .text s => [.text s]
  | .column c => c.pieces context
  | .param p => [.param p]

def Fragment.pieces (f : Fragment) (context : Context) : List Piece :=
  f.tokens.flatMap (Token.pieces context)

end GraphStore
