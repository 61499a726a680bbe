import GraphStore.Value.Shown

/-!
# Predicates

Filters over the properties of an entity. A path names a property of the entity (`title`) or of
an entity related to it (`author.born`). The builders keep predicates small: `combine` merges
nested nodes with the same connective, and `not` undoes a negation instead of adding one.
-/

set_option autoImplicit false

namespace GraphStore

inductive CompareOp where
  | equal | notEqual | less | lessEqual | greater | greaterEqual
deriving DecidableEq, Repr

namespace CompareOp

def sql : CompareOp → String
  | equal => "="
  | notEqual => "<>"
  | less => "<"
  | lessEqual => "<="
  | greater => ">"
  | greaterEqual => ">="

/-- The comparison that holds of two present values exactly when this one does not. -/
def negate : CompareOp → CompareOp
  | equal => notEqual
  | notEqual => equal
  | less => greaterEqual
  | lessEqual => greater
  | greater => lessEqual
  | greaterEqual => less

@[simp] theorem negate_negate (op : CompareOp) : op.negate.negate = op := by cases op <;> rfl

end CompareOp

inductive LogicalOp where
  | and | or
deriving DecidableEq, Repr

namespace LogicalOp

def sql : LogicalOp → String
  | and => " AND "
  | or => " OR "

/-- The connective of the negated operands. -/
def dual : LogicalOp → LogicalOp
  | and => or
  | or => and

@[simp] theorem dual_dual (op : LogicalOp) : op.dual.dual = op := by cases op <;> rfl

end LogicalOp

/-- The argument of a method call. -/
inductive Argument where
  | value (v : Value)
  | list (vs : List Value)
deriving DecidableEq, Repr

/-- The argument as it appears in messages. -/
def Argument.label : Argument → String
  | value v => "Value(" ++ v.label ++ ")"
  | list vs => "List(" ++ Value.labelList vs ++ ")"

/-- A filter. Methods are named, and resolved only when the predicate is compiled. -/
inductive Predicate where
  | compare (op : CompareOp) (path : String) (value : Value)
  | logical (op : LogicalOp) (children : List Predicate)
  | call (method : String) (path : String) (argument : Argument)
  | not (inner : Predicate)
  | constant (value : Bool)
deriving Repr, Inhabited

namespace Predicate

/-! ## Builders -/

/-- Holds of every row. -/
def always : Predicate := constant true

/-- The children of a node with connective `op`, a single predicate otherwise. -/
def operands (op : LogicalOp) : Predicate → List Predicate
  | logical inner children => if inner = op then children else [logical inner children]
  | p => [p]

/-- One node over all predicates, those that already are nodes with `op` merged into it. -/
def combine (op : LogicalOp) (ps : List Predicate) : Predicate :=
  logical op (ps.flatMap (operands op))

def all (ps : List Predicate) : Predicate := combine .and ps

def any (ps : List Predicate) : Predicate := combine .or ps

def and (p q : Predicate) : Predicate := combine .and [p, q]

def or (p q : Predicate) : Predicate := combine .or [p, q]

/-- The negation, without stacking negations and with constants evaluated. -/
def negation : Predicate → Predicate
  | not inner => inner
  | constant v => constant !v
  | p => not p

def isNull (path : String) : Predicate := compare .equal path .null

def isNotNull (path : String) : Predicate := compare .notEqual path .null

/-- A method with a text as its argument. -/
def textCall (method path text : String) : Predicate :=
  call method path (.value (.varchar (some text)))

def startsWith (path text : String) : Predicate := textCall "starts_with" path text

def endsWith (path text : String) : Predicate := textCall "ends_with" path text

def contains (path text : String) : Predicate := textCall "contains" path text

/-- The property is one of the values. -/
def isIn (path : String) (values : List Value) : Predicate := call "in" path (.list values)

/-! ## Equality

Predicates are compared with the equality of values in their leaves. -/

def sameArgument : Argument → Argument → Bool
  | .value a, .value b => a.same b
  | .list as, .list bs => Value.sameAll as bs
  | _, _ => false

mutual

def same : Predicate → Predicate → Bool
  | compare op path v, compare op' path' v' => op == op' && path == path' && v.same v'
  | logical op ps, logical op' ps' => op == op' && sameEach ps ps'
  | call m path a, call m' path' a' => m == m' && path == path' && sameArgument a a'
  | not p, not p' => same p p'
  | constant v, constant v' => v == v'
  | _, _ => false

def sameEach : List Predicate → List Predicate → Bool
  | [], [] => true
  | p :: ps, q :: qs => same p q && sameEach ps qs
  | _, _ => false

end

/-! ## Text -/

mutual

/-- The predicate as it appears to a reader. -/
def text : Predicate → String
  | compare op path v => path ++ " " ++ op.sql ++ " " ++ v.label
  | logical op ps => "(" ++ String.intercalate op.sql (textEach ps) ++ ")"
  | call method path a => path ++ "." ++ method ++ "(" ++ a.label ++ ")"
  | not p => "NOT " ++ text p
  | constant v => toString v

def textEach : List Predicate → List String
  | [] => []
  | p :: ps => text p :: textEach ps

end

end Predicate

end GraphStore
