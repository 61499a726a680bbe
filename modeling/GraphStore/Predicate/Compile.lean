import GraphStore.Predicate.Path
import GraphStore.Sql.Context

/-!
# Compiling predicates

`Model.compile` turns a predicate into a fragment over the table of an entity, naming its
parameters as it meets them. Negations are carried down to the leaves: a comparison is turned
round, a connective becomes its dual, and the text and list methods have negated forms.
-/

set_option autoImplicit false

namespace GraphStore

/-- A condition that holds of every row or of none. -/
def constantText (value : Bool) : String := if value then "1 = 1" else "1 = 0"

/-- The operator of a text method, and of its negation. -/
def likeText (negated : Bool) : String := if negated then " NOT LIKE " else " LIKE "

/-- The operator of membership in a list, and of its negation. -/
def inText (negated : Bool) : String := if negated then " NOT IN (" else " IN ("

/-- The methods that take a text. -/
def isTextMethod (method : String) : Bool :=
  method == "starts_with" || method == "ends_with" || method == "contains"

/-- The pattern that a text method matches against. -/
def likePattern (method text : String) : String :=
  if method = "starts_with" then text ++ "%"
  else if method = "ends_with" then "%" ++ text
  else "%" ++ text ++ "%"

/-- The methods that take a list. -/
def isListMethod (method : String) : Bool := method == "in" || method == "contains"

/-- A parameter for a column, under the next free name. -/
def bindParam (column : String) (v : Value) (context : Context) : Fragment × Context :=
  let (name, context) := context.paramName column
  (.ofParam ⟨name, v⟩, context)

/-- One parameter for every value. -/
def bindEach (column : String) : List Value → Context → List Fragment × Context
  | [], context => ([], context)
  | v :: vs, context =>
      let (f, context) := bindParam column v context
      let (fs, context) := bindEach column vs context
      (f :: fs, context)

/-- The test of a comparison with null: only equality and its negation have one. -/
def nullTest (path : String) : CompareOp → Except Error String
  | .equal => .ok " IS NULL"
  | .notEqual => .ok " IS NOT NULL"
  | op => fail (.comparedWithNull path op)

/-- The fragments of several operands under a connective: bare when there is one, the neutral
constant when there is none. -/
def connect (op : LogicalOp) : List Fragment → Fragment
  | [] => .ofText (constantText (op == .and))
  | [f] => f
  | fs => .ofText "(" ++ Fragment.joined op.sql fs ++ .ofText ")"

namespace Model

variable (m : Model) (map : EntityMap)

/-- A comparison of a column with a value. -/
def compileCompare (op : CompareOp) (path : String) (v : Value) (negated : Bool)
    (context : Context) : Except Error (Fragment × Context) := do
  let resolved ← m.resolve map path
  let op := if negated then op.negate else op
  let column := Fragment.ofColumn resolved.token
  if v.isNull then
    let test ← nullTest path op
    return (column ++ .ofText test, context)
  else
    let (param, context) := bindParam resolved.column.name v context
    return (column ++ .ofText (" " ++ op.sql ++ " ") ++ param, context)

/-- A method that matches a text against a pattern. -/
def compileLike (path pattern : String) (negated : Bool) (context : Context) :
    Except Error (Fragment × Context) := do
  let resolved ← m.resolve map path
  let (param, context) :=
    bindParam resolved.column.name (.varchar (some pattern)) context
  return (.ofColumn resolved.token ++ .ofText (likeText negated) ++ param, context)

/-- Membership in a list; nothing is in the empty one. -/
def compileIn (path : String) (vs : List Value) (negated : Bool) (context : Context) :
    Except Error (Fragment × Context) := do
  let resolved ← m.resolve map path
  if vs.isEmpty then return (.ofText (constantText negated), context)
  else
    let (params, context) := bindEach resolved.column.name vs context
    return (.ofColumn resolved.token ++ .ofText (inText negated) ++
      Fragment.joined ", " params ++ .ofText ")", context)

/-- A method call, resolved by the name of the method and the kind of its argument. -/
def compileCall (method path : String) (argument : Argument) (negated : Bool)
    (context : Context) : Except Error (Fragment × Context) :=
  match argument with
  | .value v =>
      if isTextMethod method then
        match v with
        | .varchar (some text) => m.compileLike map path (likePattern method text) negated context
        | v => fail (.notAText method path v)
      else if isListMethod method then fail (.unexpectedArgument method path argument)
      else fail (.unsupportedMethod method path)
  | .list vs =>
      if isListMethod method then m.compileIn map path vs negated context
      else if isTextMethod method then fail (.unexpectedArgument method path argument)
      else fail (.unsupportedMethod method path)

mutual

/-- The fragment of a predicate or, when `negated`, of its negation. -/
def compileWith : Predicate → Bool → Context → Except Error (Fragment × Context)
  | .compare op path v, negated, context => m.compileCompare map op path v negated context
  | .logical op children, negated, context => do
      let (fragments, context) ← compileEach children negated context
      return (connect (if negated then op.dual else op) fragments, context)
  | .call method path argument, negated, context =>
      m.compileCall map method path argument negated context
  | .not inner, negated, context => compileWith inner (!negated) context
  | .constant v, negated, context => .ok (.ofText (constantText (v != negated)), context)

def compileEach : List Predicate → Bool → Context → Except Error (List Fragment × Context)
  | [], _, context => .ok ([], context)
  | p :: ps, negated, context => do
      let (f, context) ← compileWith p negated context
      let (fs, context) ← compileEach ps negated context
      return (f :: fs, context)

end

/-- The fragment of a predicate over the table of `map`. -/
def compile (p : Predicate) (context : Context) : Except Error (Fragment × Context) :=
  m.compileWith map p false context

/-- The fragment of a predicate that may only mention the table itself. -/
def compileLocal (p : Predicate) (context : Context) : Except Error (Fragment × Context) := do
  let (f, context) ← m.compile map p context
  match f.relations with
  | [] => return (f, context)
  | r :: _ => fail (.filteredRelation r map.table.name)

end Model

end GraphStore
