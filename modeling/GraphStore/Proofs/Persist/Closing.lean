import GraphStore.Proofs.Persist.Transactions
import GraphStore.Proofs.Sqlite.Transactions
import GraphStore.Sample.Graphs

/-!
# What a failed operation leaves behind

An operation that has begun a transaction fails in one of two ways (`closed_of_error`). When its own
work has failed, a rollback is called last, so that the next transaction can be begun. When its
commit is refused, nothing is called any more. On a connection that keeps its transactions the
refused one may then still be open, and since every operation begins with a transaction, none of
those that follow gets any further (`Store.Reaches.stays_open`).
-/

set_option autoImplicit false

namespace GraphStore

variable {σ ρ α : Type}

namespace Store

/-- The links that operations lead to from the link `l`, whatever they are and work on. -/
inductive Reaches (store : Store σ) (l : σ) : σ → Prop where
  | refl : Reaches store l l
  | perform {ρ α : Type} (op : Operation ρ α) (t : Session σ ρ) (reached : Reaches store l t.link) :
      Reaches store l (stateAfter (op.perform store t)).link

variable {store : Store σ} {body : Work σ ρ α} {s t s' : Session σ ρ} {e : Error}

theorem link_transactionCall (call : σ → Answer σ (Except Error Unit))
    (note : Except Error Unit → Call) (s : Session σ ρ) :
    (stateAfter (transactionCall call note s)).link = (call s.link).state := by
  simp only [transactionCall]
  cases (call s.link).value <;> rfl

/-- A transaction that cannot be begun leaves the link where the start has left it. -/
theorem link_transaction_of_refused (h : (store.connection.begin s.link).value = .error e) :
    (stateAfter (store.transaction body s)).link = (store.connection.begin s.link).state := by
  obtain ⟨hend, -⟩ := transactionCall_ends store.connection.begin .begin s
  have hlink := link_transactionCall store.connection.begin .begin s
  rw [h] at hend
  unfold transaction begin
  cases hbegin : transactionCall store.connection.begin .begin s with
  | ok a t =>
      rw [hbegin] at hend
      cases hend
  | error e' t =>
      rw [hbegin] at hlink
      exact hlink

/-- A transaction that is begun fails because its body does, after which it is rolled back, or
because it cannot be committed, after which nothing is called. -/
theorem error_of_transaction (hbegin : store.begin s = .ok () t)
    (h : store.transaction body s = .error e s') :
    (∃ u, body t = .error e u ∧ s'.link = (store.connection.rollback u.link).state ∧
      s'.calls = u.calls ++ [.rollback (store.connection.rollback u.link).value]) ∨
    ∃ a u, body t = .ok a u ∧ (store.connection.commit u.link).value = .error e ∧
      s'.link = (store.connection.commit u.link).state ∧
      s'.calls = u.calls ++ [.commit (.error e)] := by
  unfold transaction at h
  simp only [hbegin] at h
  cases hbody : body t with
  | ok a u =>
      obtain ⟨hend, hcalls⟩ := transactionCall_ends store.connection.commit .commit u
      have hlink := link_transactionCall store.connection.commit .commit u
      simp only [hbody, commit] at h
      cases hcommit : transactionCall store.connection.commit .commit u with
      | ok _ v =>
          simp only [hcommit] at h
          cases h
      | error e' v =>
          simp only [hcommit] at h
          cases h
          rw [hcommit] at hend hcalls hlink
          rw [← hend] at hcalls
          exact .inr ⟨a, u, rfl, hend.symm, hlink, hcalls⟩
  | error e' u =>
      obtain ⟨-, hcalls⟩ := transactionCall_ends store.connection.rollback .rollback u
      have hlink := link_transactionCall store.connection.rollback .rollback u
      simp only [hbody, rollback] at h
      -- whether the rollback succeeds shows in the journal alone
      cases hrollback : transactionCall store.connection.rollback .rollback u with
      | _ =>
          simp only [hrollback] at h
          cases h
          rw [hrollback] at hcalls hlink
          exact .inl ⟨u, rfl, hlink, hcalls⟩

end Store

/-! ## While a transaction is open -/

section

variable {store : Store σ} {isOpen : σ → Bool}

/-- On a link with an open transaction an operation fails at its start, and the transaction stays
open. -/
theorem Operation.perform_of_isOpen (keeps : store.connection.KeepsTransactions isOpen)
    (op : Operation ρ α) {t : Session σ ρ} (h : isOpen t.link = true) :
    (∃ e, outcome (op.perform store t) = .error e ∧
      (stateAfter (op.perform store t)).calls = t.calls ++ [.begin (.error e)]) ∧
    isOpen (stateAfter (op.perform store t)).link = true := by
  obtain ⟨⟨e, refused⟩, stays⟩ := keeps.refuses t.link h
  rw [op.perform_eq_transaction store]
  refine ⟨⟨e, store.transaction_of_refused _ refused⟩, ?_⟩
  rw [Store.link_transaction_of_refused refused]
  exact stays

/-- **No operation ends an open transaction** that is not its own. -/
theorem Store.Reaches.stays_open (keeps : store.connection.KeepsTransactions isOpen) {l l' : σ}
    (h : store.Reaches l l') (hl : isOpen l = true) : isOpen l' = true := by
  induction h with
  | refl => exact hl
  | perform op t reached ih => exact (op.perform_of_isOpen keeps ih).2

end

/-! ## Failures -/

def Call.isRollback : Call → Bool
  | rollback _ => true
  | _ => false

namespace Operation

/-- The message of an error, if there is one. -/
def errorText : EStateM.Result Error (Session σ ρ) α → String
  | .ok _ _ => ""
  | .error e _ => e.message

/-- The operation has failed by its own work: it was rolled back last, and the connection is ready
for the next transaction. -/
structure RolledBack (op : Operation ρ α) (store : Store σ) (s : Session σ ρ) (e : Error)
    (s' : Session σ ρ) : Prop where
  calls : ∃ calls answer,
    op.Issues store (store.connection.begin s.link).state s.subject s.supply (.error e) calls ∧
    s'.calls = s.calls ++ .begin (.ok ()) :: calls ++ [.rollback answer]
  begins : ∀ isOpen, store.connection.KeepsTransactions isOpen →
    (store.connection.begin s'.link).value = .ok ()

/-- The work of the operation has ended well, and its commit was refused: nothing is called after
that. If the transaction was open, it still is, and all operations that follow fail at their
start. -/
structure CommitRefused (op : Operation ρ α) (store : Store σ) (s : Session σ ρ) (e : Error)
    (s' : Session σ ρ) : Prop where
  calls : ∃ a calls,
    op.Issues store (store.connection.begin s.link).state s.subject s.supply (.ok a) calls ∧
    s'.calls = s.calls ++ .begin (.ok ()) :: calls ++ [.commit (.error e)]
  stuck : ∃ link, (store.connection.commit link).value = .error e ∧
    s'.link = (store.connection.commit link).state ∧
    ∀ isOpen, store.connection.KeepsTransactions isOpen → isOpen link = true →
      isOpen s'.link = true ∧
      ∀ {ρ' α' : Type} (next : Operation ρ' α') (t : Session σ ρ'), store.Reaches s'.link t.link →
        ∃ e', outcome (next.perform store t) = .error e' ∧
          (stateAfter (next.perform store t)).calls = t.calls ++ [.begin (.error e')]

/-- **How operations fail.** An operation that has begun its transaction and fails was rolled back,
unless what failed is its commit. -/
theorem closed_of_error (op : Operation ρ α) (store : Store σ) {s s' : Session σ ρ} {e : Error}
    (hbegin : (store.connection.begin s.link).value = .ok ())
    (h : op.perform store s = .error e s') :
    op.RolledBack store s e s' ∨ op.CommitRefused store s e s' := by
  obtain ⟨t, begun, hsubject, hsupply, hlink, hcalls⟩ := store.begin_of_ok hbegin
  obtain ⟨calls, asked, -⟩ := op.asks_takePart store t
  have issues := op.issues_takePart store asked
  rw [hlink, hsubject, hsupply] at issues
  rw [op.perform_eq_transaction store] at h
  rcases Store.error_of_transaction begun h with
    ⟨u, hbody, hended, hrollback⟩ | ⟨a, u, hbody, refused, hended, hcommit⟩
  · left
    rw [hbody] at issues asked
    refine ⟨⟨calls, (store.connection.rollback u.link).value, issues, ?_⟩, fun isOpen keeps => ?_⟩
    · rw [hrollback, show u.calls = t.calls ++ calls from asked, hcalls]
      simp
    · rw [hended]
      exact (keeps.begins _ (keeps.rollsBack u.link)).1
  · right
    rw [hbody] at issues asked
    refine ⟨⟨a, calls, issues, ?_⟩, u.link, refused, hended, fun isOpen keeps hopen => ?_⟩
    · rw [hcommit, show u.calls = t.calls ++ calls from asked, hcalls]
      simp
    · have stays : isOpen s'.link = true := by rw [hended, keeps.keeps u.link e refused, hopen]
      exact ⟨stays, fun next t' reached =>
        (next.perform_of_isOpen keeps (reached.stays_open keeps stays)).1⟩

/-- A team with a player, who may be left without a team until the end of a transaction. -/
def Sample.teamWithPlayer : Sqlite.Link where
  world := { database := { entries := [
    .table {
      name := "teams", columns := [{ name := "id", type := "INTEGER" }, { name := "name" }]
      primary := [0], rowidColumn := some 0, rows := [⟨1, [.integer 1, .ofText "Reds"]⟩] },
    .table {
      name := "players", columns := [{ name := "id", type := "INTEGER" }, { name := "team_id" }]
      primary := [0], rowidColumn := some 0
      references := [{
        columns := [1], parent := "teams", parentColumns := ["id"], deferred := true }]
      rows := [⟨1, [.integer 1, .integer 1]⟩] }] } }

/-- All teams are deleted, which cannot be committed. The next operation cannot be begun. -/
theorem closed_of_error_teamWithPlayer :
    let store : Store Sqlite.Link := ⟨Sample.model none none, Sqlite.connection⟩
    let s : Session Sqlite.Link Unit :=
      { subject := (), link := Sample.teamWithPlayer, supply := NumberedSupply.supply }
    let op : Operation Unit UInt64 := deleteWhere "tx::Team" .always
    (store.connection.begin s.link).value = .ok () ∧
    ∃ e s', op.perform store s = .error e s' ∧ e.message = "FOREIGN KEY constraint failed" ∧
      op.CommitRefused store s e s' ∧ s'.link.transaction.isSome = true ∧
      ∃ e', outcome (op.perform store s') = .error e' ∧
        (stateAfter (op.perform store s')).calls = s'.calls ++ [.begin (.error e')] := by
  intro store s op
  have begun := (Sqlite.keepsTransactions.begins s.link rfl).1
  obtain ⟨e, failed⟩ := error_of_not_endedWell (op.perform store s) (by decide +kernel)
  have message : errorText (op.perform store s) = "FOREIGN KEY constraint failed" := by
    decide +kernel
  have calls : (stateAfter (op.perform store s)).calls.any Call.isRollback = false := by
    decide +kernel
  have left_open : (stateAfter (op.perform store s)).link.transaction.isSome = true := by
    decide +kernel
  rw [failed] at message
  have refused : op.CommitRefused store s e (stateAfter (op.perform store s)) := by
    rcases op.closed_of_error store begun failed with rolledBack | refused
    · obtain ⟨asked, answer, -, hcalls⟩ := rolledBack.calls
      rw [hcalls, List.any_append] at calls
      simp [Call.isRollback] at calls
    · exact refused
  obtain ⟨link, hrefused, hlink, stuck⟩ := refused.stuck
  have was_open : link.transaction.isSome = true := by
    rw [← Sqlite.keepsTransactions.keeps link e hrefused, ← hlink]
    exact left_open
  exact ⟨begun, e, _, failed, message, refused, left_open,
    (stuck _ Sqlite.keepsTransactions was_open).2 op _ .refl⟩

/-- The commit of a new team is refused, and no rollback is called after it. -/
theorem insert_of_refusedCommit :
    let team := Conformance.Transactions.team.prototype.withValue "name" (.varchar (some "reds"))
    let s : Session Script Record :=
      { Sample.session team [] with link := { replies := [], refuseCommit := some "disk full" } }
    let op : Operation Record Unit := insert false
    (Sample.store.connection.begin s.link).value = .ok () ∧
    ∃ e s', op.perform Sample.store s = .error e s' ∧ e.message = "disk full" ∧
      ∀ answer, Call.rollback answer ∉ s'.calls := by
  intro team s op
  obtain ⟨e, failed⟩ := error_of_not_endedWell (op.perform Sample.store s) (by decide +kernel)
  have message : errorText (op.perform Sample.store s) = "disk full" := by decide +kernel
  have calls : (stateAfter (op.perform Sample.store s)).calls.any Call.isRollback = false := by
    decide +kernel
  rw [failed] at message
  refine ⟨rfl, e, _, failed, message, fun answer called => ?_⟩
  exact absurd (List.any_eq_false.mp calls _ called) (by simp [Call.isRollback])

end Operation

end GraphStore
