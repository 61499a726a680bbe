import GraphStore.Sqlite.Cell

/-!
# Expressions and selections

What a statement says, as read from its text: names are not yet looked up. Expressions and
selections contain each other.
-/

set_option autoImplicit false

namespace GraphStore.Sqlite

inductive UnaryOp where
  | negate | plus | invert | not
deriving DecidableEq, Repr

inductive ArithmeticOp where
  | add | subtract | multiply | divide | remainder | bitAnd | bitOr | shiftLeft | shiftRight
deriving DecidableEq, Repr

inductive ComparisonOp where
  | equal | notEqual | less | lessEqual | greater | greaterEqual
deriving DecidableEq, Repr

inductive BinaryOp where
  | or | and | concat | is | isNot
  | comparison (op : ComparisonOp)
  | arithmetic (op : ArithmeticOp)
deriving DecidableEq, Repr

/-- How texts are matched with patterns. -/
inductive PatternOp where
  | like | glob
deriving DecidableEq, Repr

/-- How selections are combined. -/
inductive CompoundOp where
  | union | unionAll | intersect | except
deriving DecidableEq, Repr

def CompoundOp.text : CompoundOp → String
  | union => "UNION"
  | unionAll => "UNION ALL"
  | intersect => "INTERSECT"
  | except => "EXCEPT"

mutual

inductive Expr where
  | constant (c : Cell)
  /-- A column, with the names before its dots. A name in double quotes may turn out a text. -/
  | name (qualifiers : List String) (column : String) (doubleQuoted : Bool)
  /-- The parameter at a place, counted from one. -/
  | param (place : Nat)
  | unary (op : UnaryOp) (e : Expr)
  | binary (op : BinaryOp) (l r : Expr)
  | isNull (e : Expr)
  | pattern (op : PatternOp) (e pattern : Expr) (escape : Option Expr)
  | between (e low high : Expr)
  | inList (e : Expr) (es : List Expr)
  | inSelection (e : Expr) (s : Selection)
  | existsIn (s : Selection)
  | scalar (s : Selection)
  | choice (base : Option Expr) (branches : List (Expr × Expr)) (otherwise : Option Expr)
  | cast (e : Expr) (type : String)
  /-- A call; without arguments for `*`. -/
  | call (function : String) (distinct : Bool) (arguments : Option (List Expr))
  | collate (e : Expr) (collation : String)

/-- Cores combined from left to right, then ordered and limited. -/
inductive Selection where
  | mk (first : Core) (rest : List (CompoundOp × Core)) (orderBy : List OrderTerm)
      (limit offset : Option Expr)

inductive Core where
  | select (distinct : Bool) (outputs : List Output) (sources : List Source)
      (filter : Option Expr) (groupBy : List Expr) (having : Option Expr)
  | values (rows : List (List Expr))

/-- A term of the list after `SELECT`; an expression keeps its text, which names it if nothing
else does. -/
inductive Output where
  | all
  | allOf (table : String)
  | expr (e : Expr) (label : Option String) (written : String)

/-- What is selected from, the first or joined to those before. -/
inductive Source where
  | mk (left : Bool) (item : SourceItem) (label : Option String) (on : Option Expr)

inductive SourceItem where
  | table (schema : Option String) (name : String)
  | selection (s : Selection)

inductive OrderTerm where
  | mk (e : Expr) (descending : Bool) (nullsFirst : Option Bool)

end

instance : Inhabited Expr := ⟨.constant .null⟩

mutual

/-- How deep an expression is nested, selections inside it apart. -/
def Expr.height : Expr → Nat
  | .unary _ e => e.height + 1
  | .binary _ l r => max l.height r.height + 1
  | .isNull e => e.height + 1
  | .pattern _ e p x => max (max e.height p.height) (heightOption x) + 1
  | .between e low high => max e.height (max low.height high.height) + 1
  | .inList e es => max e.height (heightList es) + 1
  | .inSelection e _ => e.height + 1
  | .choice b bs o => max (heightOption b) (max (heightPairs bs) (heightOption o)) + 1
  | .cast e _ => e.height + 1
  | .call _ _ (some es) => heightList es + 1
  | .collate e _ => e.height + 1
  | _ => 1

def heightOption : Option Expr → Nat
  | none => 0
  | some e => e.height

def heightList : List Expr → Nat
  | [] => 0
  | e :: es => max e.height (heightList es)

def heightPairs : List (Expr × Expr) → Nat
  | [] => 0
  | (a, b) :: rest => max (max a.height b.height) (heightPairs rest)

end

/-- The depth above which an expression is refused. -/
def maxHeight : Nat := 1000

end GraphStore.Sqlite
