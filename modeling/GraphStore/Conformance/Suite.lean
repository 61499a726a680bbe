import GraphStore.Conformance.Trial.Enrollment
import GraphStore.Conformance.Trial.Library
import GraphStore.Conformance.Trial.Transactions

/-!
# The conformance suite

Three trials, one after another on the same connection. A connection that passes them stores
graphs as this library means them.
-/

set_option autoImplicit false

namespace GraphStore.Conformance

/-- The types that the trials store. -/
def model : Model :=
  ⟨[Library.author, Library.book, Library.review, Transactions.team, Transactions.player,
    Enrollment.enrollment, Enrollment.course, Enrollment.courseTag]⟩

/-- Tries out a connection. -/
def suite {σ : Type} (connection : Connection σ) : Trial σ Unit := do
  let store : Store σ := ⟨model, connection⟩
  Library.trial store
  Transactions.trial store
  Enrollment.trial store

end GraphStore.Conformance
