/-!
# The place in a statement

While a statement is compiled and written, a context says which clause is being worked on and
whether columns are qualified there, and counts the parameters named so far.
-/

set_option autoImplicit false

namespace GraphStore

/-- The parts of statements. -/
inductive Clause where
  | none
  | createTable
  | createTablePrimaryKey
  | deleteFrom
  | deleteFromWhere
  | dropTable
  | insertInto
  | insertIntoValues
  | join
  | select
  | selectFrom
  | selectOrderBy
  | selectWhere
  | update
  | updateSet
  | updateWhere
deriving DecidableEq, Repr

/-- The tables of a `FROM` clause and of joins may be given an alias. -/
def Clause.declaresAlias : Clause → Bool
  | selectFrom => true
  | join => true
  | _ => false

/-- Parameters are counted in 32 bits. -/
structure Context where
  counter : UInt32 := 0
  clause : Clause := .none
  qualify : Bool := true
deriving DecidableEq, Repr

namespace Context

/-- A name for the next parameter of a column. The number makes it different from all others. -/
def paramName (c : Context) (column : String) : String × Context :=
  (column ++ "_" ++ toString c.counter, { c with counter := c.counter + 1 })

/-- The context in another clause. -/
def inClause (c : Context) (clause : Clause) : Context := { c with clause }

/-- Works in another clause and comes back: only the counter is kept from there. -/
def within {α : Type} (c : Context) (clause : Clause) (work : Context → α × Context) :
    α × Context :=
  let (a, inner) := work (c.inClause clause)
  (a, { c with counter := inner.counter })

@[simp] theorem clause_within {α : Type} (c : Context) (clause : Clause)
    (work : Context → α × Context) : (c.within clause work).2.clause = c.clause := rfl

end Context

end GraphStore
