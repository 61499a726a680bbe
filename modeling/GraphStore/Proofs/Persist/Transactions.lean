import GraphStore.Persist.Script
import GraphStore.Proofs.Persist.Answers

/-!
# Operations in transactions of their own

Every operation of a store can be part of a transaction of the caller or run in a transaction of
its own. In its own transaction it asks what it would ask as a part of another, between a start
and exactly one end: a commit when it has ended well and a rollback when it has not.
-/

set_option autoImplicit false

namespace GraphStore

variable {σ τ ρ α : Type}

/-! ## Operations -/

/-- What can be asked of a store in a session with subjects in `ρ`, by the type of the answer. -/
inductive Operation : Type → Type → Type 1
  | insert (forced : Bool) : Operation Record Unit
  | update (includes : List String) : Operation Record Unit
  | updateFields (fields : List String) : Operation Record Unit
  | delete : Operation Record Unit
  | deleteWhere {ρ : Type} (type : String) (p : Predicate) : Operation ρ UInt64
  | select {ρ : Type} (type : String) (p : Predicate) (includes : List String)
      (options : SelectOptions) : Operation ρ (List Record)
  | find {ρ : Type} (type : String) (id : Value) (includes : List String) :
      Operation ρ (Option Record)

namespace Operation

/-- The operation in a transaction of its own. -/
def perform (store : Store σ) : Operation ρ α → Work σ ρ α
  | insert forced => store.insert forced
  | update includes => store.update includes
  | updateFields fields => store.updateFields fields
  | delete => store.delete
  | deleteWhere type p => store.deleteWhere type p
  | select type p includes options => store.select type p includes options
  | find type id includes => store.find type id includes

/-- The operation as a part of a transaction of the caller. -/
def takePart (store : Store σ) : Operation ρ α → Work σ ρ α
  | insert forced => store.insertRecord forced
  | update includes => store.updateRecord includes none
  | updateFields fields => store.updateRecord [] (some fields)
  | delete => store.deleteRecord
  | deleteWhere type p => store.deleteRows type p
  | select type p includes options => store.selectRows type p includes options
  | find type id includes => store.findRow type id includes

theorem perform_eq_transaction (op : Operation ρ α) (store : Store σ) :
    op.perform store = store.transaction (op.takePart store) := by
  cases op <;> rfl

theorem alike_takePart {store : Store σ} {other : Store τ} {R : σ → τ → Prop}
    (h : store.AnswersAs other R) (op : Operation ρ α) :
    Alike R (op.takePart store) (op.takePart other) := by
  cases op with
  | insert forced => exact .insertRecord h forced
  | update includes => exact .updateRecord h includes none
  | updateFields fields => exact .updateRecord h [] (some fields)
  | delete => exact .deleteRecord h
  | deleteWhere type p => exact .deleteRows h type p
  | select type p includes options => exact .selectRows h type p includes options
  | find type id includes => exact .findRow h type id includes

end Operation

/-! ## The calls of an operation -/

/-- The calls of work that only asks queries, and fails with the first one that is answered with an
error. -/
structure StopsAtFailure (ended : Except Error α) (calls : List Call) : Prop where
  queries : ∀ call ∈ calls, ∃ q y, call = .query q y
  stops : ∀ first q y rest e, calls = first ++ .query q y :: rest → .error e ∈ y →
    rest = [] ∧ ∃ e', ended = .error e'

theorem StopsAtFailure.of_answered {calls : List Call} (h : Answered calls)
    (ended : Except Error α) : StopsAtFailure ended calls where
  queries call hcall := by
    obtain ⟨q, y, rfl, -⟩ := h call hcall
    exact ⟨q, y, rfl⟩
  stops first q y rest e hcalls he := by
    obtain ⟨q', y', hcall, faultless⟩ := h (.query q y) (by simp [hcalls])
    cases hcall
    exact absurd he (faultless e)

theorem StopsAtFailure.of_answeredToLast {calls : List Call} (h : AnsweredToLast calls)
    (e : Error) : StopsAtFailure (α := α) (.error e) calls := by
  obtain ⟨answered, hanswered, rfl | ⟨q, y, rfl⟩⟩ := h
  · exact .of_answered hanswered _
  · refine ⟨fun call hcall => ?_, fun first q' y' rest e' hcalls he' => ⟨?_, e, rfl⟩⟩
    · rcases List.mem_append.mp hcall with hcall | hcall
      · obtain ⟨q', y', rfl, -⟩ := hanswered call hcall
        exact ⟨q', y', rfl⟩
      · exact ⟨q, y, List.mem_singleton.mp hcall⟩
    · -- a query with calls after it is one of those that were answered without an error
      rcases rest.eq_nil_or_concat with rfl | ⟨middle, last, rfl⟩
      · rfl
      · rw [List.concat_eq_append, ← List.cons_append, ← List.append_assoc] at hcalls
        obtain ⟨hanswered', -⟩ := List.append_inj' hcalls rfl
        obtain ⟨q'', y'', hcall, faultless⟩ := hanswered (.query q' y') (by simp [hanswered'])
        cases hcall
        exact absurd he' (faultless e')

/-- An operation as part of a transaction ends with `ended` and asks the queries `calls` whenever
it starts with this subject and supply, on any connection that answers as the one of `store` does
from the state `link` on. -/
def Operation.Issues (op : Operation ρ α) (store : Store σ) (link : σ) (subject : ρ)
    (supply : Supply) (ended : Except Error α) (calls : List Call) : Prop :=
  ∀ (τ : Type) (other : Store τ) (R : σ → τ → Prop), store.AnswersAs other R →
    ∀ t : Session τ ρ, R link t.link → t.subject = subject → t.supply = supply →
      outcome (op.takePart other t) = ended ∧
      (stateAfter (op.takePart other t)).calls = t.calls ++ calls

/-- How a transaction around an operation is closed, and what is returned: when the operation has
ended well it is committed, and a refused commit is the error; else it is rolled back, and the
error is that of the operation, whatever the rollback is answered. -/
inductive Closes : Except Error α → Call → Except Error α → Prop
  | commit (a : α) (answer : Except Error Unit) :
      Closes (.ok a) (.commit answer) (answer.map fun _ => a)
  | rollback (e : Error) (answer : Except Error Unit) :
      Closes (.error e) (.rollback answer) (.error e)

/-- What an operation calls in a session, in a transaction of its own and as a part of another. -/
structure Operation.Disciplined (op : Operation ρ α) (store : Store σ) (s : Session σ ρ) :
    Prop where
  /-- As a part of a transaction it asks queries only, and none after one that failed. -/
  asks : ∃ calls, (stateAfter (op.takePart store s)).calls = s.calls ++ calls ∧
    StopsAtFailure (outcome (op.takePart store s)) calls
  /-- When no transaction can be begun, nothing else is called. -/
  refused : ∀ e, (store.connection.begin s.link).value = .error e →
    outcome (op.perform store s) = .error e ∧
    (stateAfter (op.perform store s)).calls = s.calls ++ [.begin (.error e)]
  /-- Else it asks what it asks as a part of a transaction, and then closes its own. -/
  begun : (store.connection.begin s.link).value = .ok () →
    ∃ (ended : Except Error α) (calls : List Call) (closing : Call),
      op.Issues store (store.connection.begin s.link).state s.subject s.supply ended calls ∧
      StopsAtFailure ended calls ∧
      Closes ended closing (outcome (op.perform store s)) ∧
      (stateAfter (op.perform store s)).calls = s.calls ++ .begin (.ok ()) :: calls ++ [closing]

/-! ## Discipline -/

/-- Ends of the same work: what it ends with, and what it has asked. -/
theorem EndsAlike.stopsAtFailure {R : σ → τ → Prop} {before before' : List Call}
    {r : EStateM.Result Error (Session σ ρ) α} {r' : EStateM.Result Error (Session τ ρ) α}
    (h : EndsAlike R before before' r r') :
    outcome r' = outcome r ∧ ∃ calls, (stateAfter r).calls = before ++ calls ∧
      (stateAfter r').calls = before' ++ calls ∧ StopsAtFailure (outcome r) calls := by
  cases h with
  | ok calls like calls_eq calls_eq' answered =>
      exact ⟨rfl, calls, calls_eq, calls_eq', .of_answered answered _⟩
  | error calls like calls_eq calls_eq' answered =>
      exact ⟨rfl, calls, calls_eq, calls_eq', .of_answeredToLast answered _⟩

namespace Operation

variable (op : Operation ρ α) (store : Store σ)

theorem asks_takePart (s : Session σ ρ) :
    ∃ calls, (stateAfter (op.takePart store s)).calls = s.calls ++ calls ∧
      StopsAtFailure (outcome (op.takePart store s)) calls := by
  obtain ⟨-, calls, hcalls, -, stops⟩ :=
    (op.alike_takePart (.refl store) s s ⟨rfl, rfl, rfl⟩).stopsAtFailure
  exact ⟨calls, hcalls, stops⟩

/-- What an operation asks when it starts in a session, it asks wherever it starts alike. -/
theorem issues_takePart {s : Session σ ρ} {calls : List Call}
    (hcalls : (stateAfter (op.takePart store s)).calls = s.calls ++ calls) :
    op.Issues store s.link s.subject s.supply (outcome (op.takePart store s)) calls := by
  intro τ other R alike t hlink hsubject hsupply
  obtain ⟨houtcome, calls', hcalls', ht, -⟩ :=
    (op.alike_takePart alike s t ⟨hsubject, hsupply, hlink⟩).stopsAtFailure
  rw [hcalls', List.append_cancel_left_eq] at hcalls
  exact ⟨houtcome, hcalls ▸ ht⟩

end Operation

namespace Store

/-- A call that starts or ends a transaction ends as it is answered, and is noted. -/
theorem transactionCall_ends (call : σ → Answer σ (Except Error Unit))
    (note : Except Error Unit → Call) (s : Session σ ρ) :
    outcome (transactionCall call note s) = (call s.link).value ∧
      (stateAfter (transactionCall call note s)).calls =
        s.calls ++ [note (call s.link).value] := by
  simp only [transactionCall]
  cases (call s.link).value <;> exact ⟨rfl, rfl⟩

variable (store : Store σ) (body : Work σ ρ α) {s : Session σ ρ}

/-- A transaction that cannot be begun. -/
theorem transaction_of_refused {e : Error}
    (h : (store.connection.begin s.link).value = .error e) :
    outcome (store.transaction body s) = .error e ∧
      (stateAfter (store.transaction body s)).calls = s.calls ++ [.begin (.error e)] := by
  obtain ⟨hend, hcalls⟩ := transactionCall_ends store.connection.begin .begin s
  rw [h] at hend hcalls
  unfold transaction begin
  cases hbegin : transactionCall store.connection.begin .begin s with
  | ok a t =>
      rw [hbegin] at hend
      cases hend
  | error e' t =>
      rw [hbegin] at hend hcalls
      cases hend
      exact ⟨rfl, hcalls⟩

/-- How the body of a transaction that is begun has ended decides how it is closed. -/
theorem closes_transaction {t : Session σ ρ} (h : store.begin s = .ok () t) :
    ∃ closing, Closes (outcome (body t)) closing (outcome (store.transaction body s)) ∧
      (stateAfter (store.transaction body s)).calls = (stateAfter (body t)).calls ++ [closing] := by
  unfold transaction
  simp only [h]
  cases body t with
  | ok a u =>
      obtain ⟨hend, hcalls⟩ := transactionCall_ends store.connection.commit .commit u
      rw [← hend] at hcalls
      simp only [commit]
      cases hcommit : transactionCall store.connection.commit .commit u with
      | ok _ v =>
          rw [hcommit] at hcalls
          exact ⟨_, .commit a (.ok ()), hcalls⟩
      | error e v =>
          rw [hcommit] at hcalls
          exact ⟨_, .commit a (.error e), hcalls⟩
  | error e u =>
      obtain ⟨-, hcalls⟩ := transactionCall_ends store.connection.rollback .rollback u
      simp only [rollback]
      -- a rollback that fails changes the journal, and not the error
      cases hrollback : transactionCall store.connection.rollback .rollback u with
      | ok _ v =>
          rw [hrollback] at hcalls
          exact ⟨_, .rollback e _, hcalls⟩
      | error r v =>
          rw [hrollback] at hcalls
          exact ⟨_, .rollback e _, hcalls⟩

/-- A transaction that is begun runs its body where the start has left the connection. -/
theorem begin_of_ok (h : (store.connection.begin s.link).value = .ok ()) :
    ∃ t : Session σ ρ, store.begin s = .ok () t ∧ t.subject = s.subject ∧
      t.supply = s.supply ∧ t.link = (store.connection.begin s.link).state ∧
      t.calls = s.calls ++ [.begin (.ok ())] := by
  unfold begin transactionCall
  simp only [h]
  exact ⟨_, rfl, rfl, rfl, rfl, rfl⟩

end Store

namespace Operation

variable (op : Operation ρ α) (store : Store σ) {s : Session σ ρ}

/-- Once begun, an operation in a transaction of its own asks what it asks as a part of another. -/
theorem perform_of_begun (h : (store.connection.begin s.link).value = .ok ()) :
    ∃ (ended : Except Error α) (calls : List Call) (closing : Call),
      op.Issues store (store.connection.begin s.link).state s.subject s.supply ended calls ∧
      StopsAtFailure ended calls ∧
      Closes ended closing (outcome (op.perform store s)) ∧
      (stateAfter (op.perform store s)).calls =
        s.calls ++ .begin (.ok ()) :: calls ++ [closing] := by
  obtain ⟨t, hbegin, hsubject, hsupply, hlink, ht⟩ := store.begin_of_ok h
  obtain ⟨closing, hcloses, hcalls⟩ := store.closes_transaction (op.takePart store) hbegin
  obtain ⟨calls, hbody, stops⟩ := op.asks_takePart store t
  have issues := op.issues_takePart store hbody
  rw [hlink, hsubject, hsupply] at issues
  rw [op.perform_eq_transaction store]
  refine ⟨_, calls, closing, issues, stops, hcloses, ?_⟩
  rw [hcalls, hbody, ht]
  simp

/-- **Operations keep the discipline of transactions.** When no transaction can be begun, an
operation calls nothing else and fails with that error. Else it calls the start, the queries that it
would ask as a part of another transaction that is answered in the same way, and one end: a commit
when they went well, and a rollback when they did not, after which it fails with its own error
whatever the rollback is answered. As a part of a transaction it starts and ends none, and whoever
runs it, it asks nothing after a query that failed. -/
theorem disciplined (op : Operation ρ α) (store : Store σ) (s : Session σ ρ) :
    op.Disciplined store s where
  asks := op.asks_takePart store s
  refused e h := by
    rw [op.perform_eq_transaction store]
    exact store.transaction_of_refused _ h
  begun h := op.perform_of_begun store h

end Operation

/-! ## Scripted connections -/

namespace Script

/-- What is due when a transaction is started or ended has no bearing on queries. -/
theorem answersAs (m : Model) (d : Dialect) :
    Store.AnswersAs ⟨m, connection d⟩ ⟨m, connection d⟩
      fun x y => y.replies = x.replies ∧ y.nextKey = x.nextKey where
  model_eq := rfl
  dialect_eq := rfl
  value_eq q x y h := by
    obtain ⟨hreplies, hkey⟩ := h
    simp only [connection, run, hreplies, hkey]
    split <;> rfl
  related q x y h := by
    obtain ⟨hreplies, hkey⟩ := h
    simp only [connection, run, hreplies, hkey]
    split <;> exact ⟨rfl, rfl⟩

/-- On one script, an operation asks the same in a transaction of its own and as a part of another,
and ends in the same way but for a commit that is refused. -/
theorem perform_of_takePart (op : Operation ρ α) (m : Model) (d : Dialect) (s : Session Script ρ)
    (h : s.link.refuseBegin = none) :
    ∃ (calls : List Call) (closing : Call),
      (stateAfter (op.takePart ⟨m, connection d⟩ s)).calls = s.calls ++ calls ∧
      Closes (outcome (op.takePart ⟨m, connection d⟩ s)) closing
        (outcome (op.perform ⟨m, connection d⟩ s)) ∧
      (stateAfter (op.perform ⟨m, connection d⟩ s)).calls =
        s.calls ++ .begin (.ok ()) :: calls ++ [closing] := by
  have begun : ((connection d).begin s.link).value = .ok () := by simp [connection, refusal, h]
  obtain ⟨ended, calls, closing, issues, -, hcloses, hcalls⟩ :=
    op.perform_of_begun ⟨m, connection d⟩ begun
  obtain ⟨rfl, hcalls'⟩ := issues Script _ _ (answersAs m d) s ⟨rfl, rfl⟩ rfl rfl
  exact ⟨calls, closing, hcalls', hcloses, hcalls⟩

end Script

end GraphStore
