import GraphStore.Proofs.Predicate.Compiled

/-!
# The builders of predicates

The builders do not always make the node that they are named after: `combine` merges the nodes
with its connective into the new one, and `negation` removes a negation where there is one. The
predicate they return has the truth that is expected of the connective, and a negation that was
removed is not missed by the compiler (`builders_denote`).
-/

set_option autoImplicit false

namespace GraphStore

open Sqlite (Truth)

/-! ## Connectives over lists -/

namespace Sqlite.Truth

theorem and_assoc (t u v : Truth) : (t.and u).and v = t.and (u.and v) := by
  rcases t with _ | _ | _ <;> rcases u with _ | _ | _ <;> rcases v with _ | _ | _ <;> rfl

theorem or_assoc (t u v : Truth) : (t.or u).or v = t.or (u.or v) := by
  rcases t with _ | _ | _ <;> rcases u with _ | _ | _ <;> rcases v with _ | _ | _ <;> rfl

theorem true_and (t : Truth) : Truth.and (some true) t = t := by
  rcases t with _ | _ | _ <;> rfl

theorem false_or (t : Truth) : Truth.or (some false) t = t := by
  rcases t with _ | _ | _ <;> rfl

theorem all_append (ts us : List Truth) : all (ts ++ us) = (all ts).and (all us) := by
  induction ts with
  | nil => exact (true_and _).symm
  | cons t ts ih => rw [List.cons_append, all_cons, ih, all_cons, and_assoc]

theorem any_append (ts us : List Truth) : any (ts ++ us) = (any ts).or (any us) := by
  induction ts with
  | nil => exact (false_or _).symm
  | cons t ts ih => rw [List.cons_append, any_cons, ih, any_cons, or_assoc]

/-- A connective may be applied to the parts of a list first. -/
theorem connect_flatMap {α : Type} (op : LogicalOp) (parts : α → List Truth) (as : List α) :
    connect op (as.flatMap parts) = connect op (as.map fun a => connect op (parts a)) := by
  induction as with
  | nil => rfl
  | cons a as ih =>
      cases op with
      | and => exact (all_append _ _).trans (congrArg (Truth.and _) ih)
      | or => exact (any_append _ _).trans (congrArg (Truth.or _) ih)

end Sqlite.Truth

namespace Predicate

/-! ## Truth -/

section Truths

variable (s : Semantics) (row : PathValues)

theorem truth_logical (op : LogicalOp) (ps : List Predicate) :
    truth s row (logical op ps) = Truth.connect op (ps.map (truth s row)) := by
  rw [truth, truthEach_eq_map]

/-- What is merged into a node has the truth, under its connective, of the predicate it was. -/
theorem connect_operands (op : LogicalOp) (p : Predicate) :
    Truth.connect op ((operands op p).map (truth s row)) = truth s row p := by
  have single (q : Predicate) : Truth.connect op ([q].map (truth s row)) = truth s row q :=
    op.connect_singleton (truth s row q)
  cases p with
  | logical inner children =>
      by_cases h : inner = op
      · rw [operands, if_pos h, ← h, truth_logical]
      · rw [operands, if_neg h]
        exact single _
  | _ => exact single _

/-- **Merging nodes keeps their meaning.** -/
theorem truth_combine (op : LogicalOp) (ps : List Predicate) :
    truth s row (combine op ps) = Truth.connect op (ps.map (truth s row)) := by
  rw [combine, truth_logical, List.map_flatMap, Truth.connect_flatMap]
  simp only [connect_operands]

theorem truth_negation (p : Predicate) : truth s row p.negation = (truth s row p).not := by
  cases p with
  | not inner => exact (Truth.not_not _).symm
  | _ => rfl

end Truths

/-! ## Structure -/

@[simp] theorem operands_combine (op : LogicalOp) (ps : List Predicate) :
    operands op (combine op ps) = ps.flatMap (operands op) := if_pos rfl

/-- It makes no difference which of three predicates are combined first. -/
theorem combine_assoc (op : LogicalOp) (p q r : Predicate) :
    combine op [combine op [p, q], r] = combine op [p, combine op [q, r]] := by
  have merged (u v : Predicate) : combine op [u, v] = logical op (operands op u ++ operands op v) :=
    congrArg (fun rest => logical op (operands op u ++ rest)) (List.append_nil _)
  rw [merged (combine op [p, q]), merged p (combine op [q, r])]
  simp

end Predicate

/-! ## Compiling -/

namespace Model

variable (m : Model) (map : EntityMap)

theorem compileWith_not (p : Predicate) (negated : Bool) (context : Context) :
    m.compileWith map (.not p) negated context = m.compileWith map p (!negated) context := by
  rw [compileWith]

/-- **Negation turns round what is compiled**, whether it puts a node around the predicate, takes
one away or changes a constant. -/
theorem compileWith_negation (p : Predicate) (negated : Bool) (context : Context) :
    m.compileWith map p.negation negated context = m.compileWith map p (!negated) context := by
  cases p with
  | not inner =>
      rw [Predicate.negation, compileWith_not, Bool.not_not]
  | constant v =>
      rw [Predicate.negation, compileWith, compileWith, Bool.bne_not, Bool.not_bne]
  | _ => exact m.compileWith_not map _ negated context

end Model

/-- **The builders denote the connectives.** Of every row, whatever is merged or removed, `all` and
`any` have the truth of all and of some of their predicates, `and` and `or` that of the two, and
`negation` the opposite. `and` and `or` are associative, as trees. To the compiler, in any context,
a negation is as good as the node for it, and one that is undone as good as none: fragments,
parameters, the counter and errors are the same. -/
theorem Predicate.builders_denote (s : Semantics) (row : PathValues) (m : Model) (map : EntityMap)
    (context : Context) (ps : List Predicate) (p q r : Predicate) :
    (all ps).truth s row = Truth.all (ps.map (truth s row)) ∧
    (any ps).truth s row = Truth.any (ps.map (truth s row)) ∧
    (p.and q).truth s row = (p.truth s row).and (q.truth s row) ∧
    (p.or q).truth s row = (p.truth s row).or (q.truth s row) ∧
    p.negation.truth s row = (p.truth s row).not ∧
    (p.and q).and r = p.and (q.and r) ∧
    (p.or q).or r = p.or (q.or r) ∧
    m.compile map p.negation context = m.compile map (.not p) context ∧
    m.compile map p.negation.negation context = m.compile map p context := by
  refine ⟨truth_combine s row .and ps, truth_combine s row .or ps, ?_, ?_, truth_negation s row p,
    combine_assoc .and p q r, combine_assoc .or p q r, ?_, ?_⟩
  · have both := truth_combine s row .and [p, q]
    rwa [List.map_cons, List.map_cons, List.map_nil, Truth.connect, Truth.all_cons,
      Truth.all_cons, Truth.all_nil, Truth.and_true] at both
  · have either := truth_combine s row .or [p, q]
    rwa [List.map_cons, List.map_cons, List.map_nil, Truth.connect, Truth.any_cons,
      Truth.any_cons, Truth.any_nil, Truth.or_false] at either
  · rw [Model.compile, Model.compileWith_negation, Model.compile, Model.compileWith_not]
  · rw [Model.compile, Model.compileWith_negation, Model.compileWith_negation, Model.compile,
      Bool.not_not]

end GraphStore
