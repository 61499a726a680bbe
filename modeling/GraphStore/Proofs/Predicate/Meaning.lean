import GraphStore.Predicate.Compile
import GraphStore.Proofs.Sql.Condition

/-!
# The meaning of predicates

A predicate is true, false or unknown of a row, given what its paths lead to. A comparison with
null asks whether there is a value; any other test of a missing value is unknown. The connectives
are those of three-valued truth, over any number of operands. Text methods match a pattern, and
membership in a list is equality with one of its items.
-/

set_option autoImplicit false

namespace GraphStore

open Sqlite (Truth)

/-- What the paths of predicates lead to in a row. -/
abbrev PathValues := String → Value

namespace Predicate

/-- The truth of a comparison. Only equality with null and its negation are about the presence of
a value. -/
def compareTruth (s : Semantics) (op : CompareOp) (v w : Value) : Truth :=
  if w.isNull then
    match op with
    | .equal => some v.isNull
    | .notEqual => some !v.isNull
    | _ => none
  else s.test op v w

/-- The truth of a method call; calls that cannot be compiled have none. -/
def callTruth (s : Semantics) (method : String) (v : Value) : Argument → Truth
  | .value (.varchar (some text)) => s.like v (.varchar (some (likePattern method text)))
  | .value _ => none
  | .list ws => s.member v ws

mutual

/-- The truth of a predicate of a row. -/
def truth (s : Semantics) (row : PathValues) : Predicate → Truth
  | compare op path v => compareTruth s op (row path) v
  | logical op ps => Truth.connect op (truthEach s row ps)
  | call method path argument => callTruth s method (row path) argument
  | not p => (truth s row p).not
  | constant v => some v

def truthEach (s : Semantics) (row : PathValues) : List Predicate → List Truth
  | [] => []
  | p :: ps => truth s row p :: truthEach s row ps

end

@[simp] theorem truthEach_eq_map (s : Semantics) (row : PathValues) (ps : List Predicate) :
    truthEach s row ps = ps.map (truth s row) := by
  induction ps with
  | nil => rfl
  | cons p ps ih => rw [truthEach, ih, List.map_cons]

end Predicate

/-- A truth, or its negation. -/
def negatedIf (negated : Bool) (t : Truth) : Truth := if negated then t.not else t

@[simp] theorem negatedIf_true (t : Truth) : negatedIf true t = t.not := rfl

@[simp] theorem negatedIf_false (t : Truth) : negatedIf false t = t := rfl

theorem negatedIf_not (negated : Bool) (t : Truth) :
    negatedIf negated t.not = negatedIf (!negated) t := by
  cases negated <;> simp

/-- Negation is carried into a list by the dual connective. -/
theorem negatedIf_connect (negated : Bool) (op : LogicalOp) (ts : List Truth) :
    negatedIf negated (Truth.connect op ts) =
      Truth.connect (if negated then op.dual else op) (ts.map (negatedIf negated)) := by
  cases negated with
  | false =>
      have : negatedIf false = id := rfl
      rw [this, List.map_id]
      rfl
  | true => exact Truth.not_connect op ts

namespace Model

/-- What the paths from the entity of `map` lead to, given the values of all columns. -/
def pathValues (m : Model) (map : EntityMap) (row : Valuation) : PathValues := fun path =>
  match m.resolve map path with
  | .ok resolved => row resolved.token
  | .error _ => .null

end Model

end GraphStore
