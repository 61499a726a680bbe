import GraphStore.Persist.Insert
import GraphStore.Proofs.Outcome

/-!
# Runs

What is known of a session after work in it has ended well: which value the work gave, what it did
to the subject, and which queries it ran. One lemma for every piece of work that others are put
together from.
-/

set_option autoImplicit false

namespace GraphStore

/-! ## Queries that ran -/

/-- The query of a call, if it is one. -/
def Call.query? : Call → Option Query
  | .query q _ => some q
  | _ => none

/-- Exactly the queries `qs` ran between two moments, in this order, and no transaction began or
ended. -/
def RanQueries (before after : List Call) (qs : List Query) : Prop :=
  ∃ calls, after = before ++ calls ∧ calls.map Call.query? = qs.map some

theorem RanQueries.refl (calls : List Call) : RanQueries calls calls [] := ⟨[], by simp⟩

theorem RanQueries.of_map {calls : List Call} {qs : List Query}
    (h : calls.map Call.query? = qs.map some) : RanQueries [] calls qs := ⟨calls, rfl, h⟩

theorem RanQueries.trans {c₀ c₁ c₂ : List Call} {qs qs' : List Query} (h : RanQueries c₀ c₁ qs)
    (h' : RanQueries c₁ c₂ qs') : RanQueries c₀ c₂ (qs ++ qs') := by
  obtain ⟨calls, rfl, hcalls⟩ := h
  obtain ⟨calls', rfl, hcalls'⟩ := h'
  exact ⟨calls ++ calls', by simp, by simp [hcalls, hcalls']⟩

namespace Work

variable {σ ρ α β : Type}

/-! ## Work on the session -/

theorem ok_of_ofExcept {x : Except Error α} {a : α} {s s' : Session σ ρ}
    (h : ofExcept x s = .ok a s') :
    x = .ok a ∧ s'.subject = s.subject ∧ s'.calls = s.calls := by
  unfold ofExcept at h
  obtain ⟨_, t, hlog, h⟩ := ends_of_bind h
  cases hlog
  cases x with
  | error e => cases h
  | ok b =>
      cases h
      exact ⟨rfl, rfl, rfl⟩

theorem ok_of_log {entries : List LogEntry} {s s' : Session σ ρ}
    (h : log entries s = .ok () s') : s'.subject = s.subject ∧ s'.calls = s.calls := by
  cases h
  exact ⟨rfl, rfl⟩

theorem ok_of_ofSupply {x : Supply → Except Error (α × Supply)} {a : α} {s s' : Session σ ρ}
    (h : ofSupply x s = .ok a s') :
    ∃ supply, x s.supply = .ok (a, supply) ∧ s'.subject = s.subject ∧ s'.calls = s.calls := by
  unfold ofSupply at h
  obtain ⟨t, s₁, hget, h₁⟩ := ends_of_bind h
  cases hget
  obtain ⟨⟨b, supply⟩, s₂, hx, h₂⟩ := ends_of_bind h₁
  obtain ⟨hx, hsubject, hcalls⟩ := ok_of_ofExcept hx
  obtain ⟨_, s₃, hmodify, h₃⟩ := ends_of_bind h₂
  cases hmodify
  cases h₃
  exact ⟨supply, hx, hsubject, hcalls⟩

theorem ok_of_framed {frame : Frame} {work : Work σ ρ α} {a : α} {s s' : Session σ ρ}
    (h : framed frame work s = .ok a s') : work s = .ok a s' := by
  unfold framed at h
  split at h
  next hwork =>
    cases h
    exact hwork
  next => cases h

theorem not_ok_reportedFailure {cause : Cause} {a : α} {s s' : Session σ ρ} :
    reportedFailure cause s ≠ .ok a s' := by
  intro h
  cases h

/-! ## Work on the subject -/

theorem ok_of_subject {r : Record} {s s' : Session σ Record} (h : subject s = .ok r s') :
    r = s.subject ∧ s' = s := by
  cases h
  exact ⟨rfl, rfl⟩

theorem ok_of_ofEdit {edit : Edit α} {a : α} {s s' : Session σ Record}
    (h : ofEdit edit s = .ok a s') :
    ∃ b, edit ⟨s.subject, s.supply⟩ = .ok a b ∧ s'.subject = b.record ∧ s'.calls = s.calls := by
  unfold ofEdit at h
  split at h
  next b hedit =>
    cases h
    exact ⟨b, hedit, rfl, rfl⟩
  next => cases h

theorem ok_of_assignField {property : String} {v : Value} {s s' : Session σ Record}
    (h : assignField property v s = .ok () s') :
    s.subject.setField property v = .ok s'.subject ∧ s'.calls = s.calls := by
  obtain ⟨b, hedit, hsubject, hcalls⟩ := ok_of_ofEdit h
  unfold Edit.assignField at hedit
  split at hedit
  next r hr =>
    cases hedit
    exact ⟨by rw [hsubject, hr], hcalls⟩
  next => cases hedit

/-- Work on an item is work on it as the subject; the item is put back into its place. -/
theorem ok_of_onItem {property : String} {i : Nat} {child : Record} {work : Work σ Record α}
    {a : α} {s s' : Session σ Record} (h : onItem property i child work s = .ok a s') :
    ∃ t, work { s with subject := child } = .ok a t ∧ s'.calls = t.calls ∧
      s'.subject = s.subject.withItems property ((s.subject.items property).set i t.subject) := by
  simp only [onItem] at h
  split at h
  next t hwork =>
    cases h
    exact ⟨t, hwork, rfl, rfl⟩
  next => cases h

end Work

namespace Store

variable {σ ρ α : Type} {store : Store σ}

/-! ## Queries -/

theorem ok_of_run {q : Query} {y : Yield} {s s' : Session σ ρ} (h : store.run q s = .ok y s') :
    RanQueries s.calls s'.calls [q] ∧ s'.subject = s.subject := by
  cases h
  exact ⟨⟨_, rfl, rfl⟩, rfl⟩

theorem ok_of_reporting {q : Query} {work : Work σ ρ α} {a : α} {s s' : Session σ ρ}
    (h : reporting q work s = .ok a s') : work s = .ok a s' := by
  unfold reporting at h
  split at h
  next hwork =>
    cases h
    exact hwork
  next => cases h

/-- A query that gave a count was one call, answered with that count. -/
theorem exists_call_of_executeQuery {q : Query} {n : UInt64} {s s' : Session σ ρ}
    (h : store.executeQuery q s = .ok n s') :
    ∃ answer, Yield.affected answer = .ok n ∧ s'.calls = s.calls ++ [.query q answer] ∧
      s'.subject = s.subject := by
  obtain ⟨y, t, hrun, h⟩ := ends_of_bind (ok_of_reporting h)
  cases hrun
  -- the call is recorded before its outcome is looked at
  cases hcount : Yield.affected (store.connection.run q s.link).value with
  | error e =>
      rw [hcount] at h
      cases h
  | ok count =>
      rw [hcount] at h
      cases h
      exact ⟨_, hcount, rfl, rfl⟩

theorem ok_of_executeQuery {q : Query} {n : UInt64} {s s' : Session σ ρ}
    (h : store.executeQuery q s = .ok n s') :
    RanQueries s.calls s'.calls [q] ∧ s'.subject = s.subject := by
  obtain ⟨answer, -, hcalls, hsubject⟩ := exists_call_of_executeQuery h
  exact ⟨⟨_, hcalls, rfl⟩, hsubject⟩

theorem ok_of_fetchQuery {q : Query} {rows : List Row} {s s' : Session σ ρ}
    (h : store.fetchQuery q s = .ok rows s') :
    RanQueries s.calls s'.calls [q] ∧ s'.subject = s.subject := by
  obtain ⟨y, t, hrun, h⟩ := ends_of_bind (ok_of_reporting h)
  cases hrows : y.rows with
  | error e =>
      rw [hrows] at h
      cases h
  | ok found =>
      rw [hrows] at h
      cases h
      exact ok_of_run hrun

theorem ok_of_render {st : Statement} {q : Query} {s s' : Session σ ρ}
    (h : store.render st s = .ok q s') :
    q = store.connection.dialect.render st ∧ s'.subject = s.subject ∧ s'.calls = s.calls := by
  cases h
  exact ⟨rfl, rfl, rfl⟩

theorem exists_call_of_executeStatement {st : Statement} {n : UInt64} {s s' : Session σ ρ}
    (h : store.executeStatement st s = .ok n s') :
    ∃ answer, Yield.affected answer = .ok n ∧
      s'.calls = s.calls ++ [.query (store.connection.dialect.render st) answer] ∧
      s'.subject = s.subject := by
  obtain ⟨q, t, hrender, h⟩ := ends_of_bind h
  obtain ⟨rfl, hsubject, hcalls⟩ := ok_of_render hrender
  obtain ⟨answer, hcount, hcalls', hsubject'⟩ := exists_call_of_executeQuery h
  exact ⟨answer, hcount, hcalls ▸ hcalls', hsubject'.trans hsubject⟩

theorem ok_of_executeStatement {st : Statement} {n : UInt64} {s s' : Session σ ρ}
    (h : store.executeStatement st s = .ok n s') :
    RanQueries s.calls s'.calls [store.connection.dialect.render st] ∧
      s'.subject = s.subject := by
  obtain ⟨answer, -, hcalls, hsubject⟩ := exists_call_of_executeStatement h
  exact ⟨⟨_, hcalls, rfl⟩, hsubject⟩

/-! ## The row of one record -/

/-- The queries of an insert: the insert itself and, where the dialect has one, the query for the
generated key. -/
def insertQueries (store : Store σ) (st : InsertStatement) : List Query :=
  store.connection.dialect.render (.insert st) ::
    (if st.generatedKey.isSome then store.connection.dialect.generatedKeyQuery.toList else [])

/-- The key is taken from the rows without another query, and is no null. -/
theorem ok_of_keyOfRows {st : InsertStatement} {rows : List Row} {v : Value}
    {s s' : Session σ Record}
    (h : (match rows.head?.bind (·.values.head?) with
      | some v =>
          if v.isNull then Work.reportedFailure (.keyNotReturned st.table.name) else pure v
      | none => Work.reportedFailure (.keyNotReturned st.table.name) : Work σ Record Value) s =
        .ok v s') : s' = s ∧ v.isNull = false := by
  cases hvalue : rows.head?.bind (·.values.head?) with
  | none =>
      rw [hvalue] at h
      exact absurd h Work.not_ok_reportedFailure
  | some w =>
      rw [hvalue] at h
      by_cases hw : w.isNull = true
      · simp only [hw, if_true] at h
        exact absurd h Work.not_ok_reportedFailure
      · simp only [hw, Bool.false_eq_true, if_false] at h
        obtain ⟨rfl, hs⟩ := ends_of_pure h
        exact ⟨hs, by simpa using hw⟩

theorem ok_of_insertReturningKey {st : InsertStatement} {v : Value} {s s' : Session σ Record}
    (hkey : st.generatedKey.isSome = true) (h : store.insertReturningKey st s = .ok v s') :
    RanQueries s.calls s'.calls (store.insertQueries st) ∧ s'.subject = s.subject ∧
      v.isNull = false := by
  obtain ⟨q, t, hrender, h⟩ := ends_of_bind h
  obtain ⟨rfl, hsubject, hcalls⟩ := ok_of_render hrender
  rw [← hcalls, ← hsubject]
  unfold insertQueries
  rw [if_pos hkey]
  cases hfollow : store.connection.dialect.generatedKeyQuery with
  | none =>
      simp only [hfollow] at h
      obtain ⟨rows, u, hfetch, h⟩ := ends_of_bind h
      obtain ⟨rfl, hnull⟩ := ok_of_keyOfRows h
      obtain ⟨ran, hsubject'⟩ := ok_of_fetchQuery hfetch
      exact ⟨ran, hsubject', hnull⟩
  | some followUp =>
      simp only [hfollow] at h
      -- the insert and the query for its key are two queries
      obtain ⟨_, w, hexecute, h⟩ := ends_of_bind h
      obtain ⟨rows, u, hfetch, h⟩ := ends_of_bind h
      obtain ⟨rfl, hnull⟩ := ok_of_keyOfRows h
      obtain ⟨ran, hsubject₁⟩ := ok_of_executeQuery hexecute
      obtain ⟨ran', hsubject₂⟩ := ok_of_fetchQuery hfetch
      exact ⟨ran.trans ran', hsubject₂.trans hsubject₁, hnull⟩

/-- Inserting a row changes the record in its generated key alone, which is assigned what the
database returned. -/
theorem ok_of_insertRow {st : InsertStatement} {s s' : Session σ Record}
    (h : store.insertRow st s = .ok () s') :
    RanQueries s.calls s'.calls (store.insertQueries st) ∧
      (match st.generatedKey with
      | some key => ∃ v, v.isNull = false ∧ s.subject.setField key.property v = .ok s'.subject
      | none => s'.subject = s.subject) := by
  unfold insertRow at h
  cases hkey : st.generatedKey with
  | some key =>
      simp only [hkey] at h
      obtain ⟨v, t, hinsert, h⟩ := ends_of_bind h
      obtain ⟨ran, hsubject, hnull⟩ := ok_of_insertReturningKey (by simp [hkey]) hinsert
      obtain ⟨hassign, hcalls⟩ := Work.ok_of_assignField h
      exact ⟨hcalls ▸ ran, v, hnull, hsubject ▸ hassign⟩
  | none =>
      simp only [hkey] at h
      obtain ⟨_, t, hexecute, h⟩ := ends_of_bind h
      obtain ⟨-, rfl⟩ := ends_of_pure h
      obtain ⟨ran, hsubject⟩ := ok_of_executeStatement hexecute
      refine ⟨?_, hsubject⟩
      simpa [insertQueries, hkey] using ran

/-! ## The key of a reference -/

variable {target : EntityMap} {r : RelationDef}

/-- Copies the key of a reference into the record, if there is one. -/
def copyKey (target : EntityMap) (r : RelationDef) : Work σ Record Unit := do
  match (← Work.subject).reference? r.property with
  | some child => Work.assignField r.localKey (← Work.ofExcept (target.read child r.foreignKey))
  | none => pure ()

theorem ok_of_copyKey {child : Record} {s s' : Session σ Record}
    (hchild : s.subject.reference? r.property = some child)
    (h : copyKey target r s = .ok () s') :
    ∃ key, target.read child r.foreignKey = .ok key ∧
      s.subject.setField r.localKey key = .ok s'.subject ∧ s'.calls = s.calls := by
  unfold copyKey at h
  obtain ⟨record, s₁, hrecord, h₁⟩ := ends_of_bind h
  obtain ⟨rfl, rfl⟩ := Work.ok_of_subject hrecord
  simp only [hchild] at h₁
  obtain ⟨key, s₂, hread, h₂⟩ := ends_of_bind h₁
  obtain ⟨hkey, hsubject, hcalls⟩ := Work.ok_of_ofExcept hread
  obtain ⟨hassign, hcalls'⟩ := Work.ok_of_assignField h₂
  exact ⟨key, hkey, hsubject ▸ hassign, hcalls'.trans hcalls⟩

/-! ## Transactions -/

theorem ok_of_transactionCall {call : σ → Answer σ (Except Error Unit)}
    {note : Except Error Unit → Call} {s s' : Session σ ρ}
    (h : transactionCall call note s = .ok () s') :
    (call s.link).value = .ok () ∧ s'.subject = s.subject ∧
      s'.calls = s.calls ++ [note (.ok ())] := by
  unfold transactionCall at h
  cases hvalue : (call s.link).value with
  | error e =>
      simp only [hvalue] at h
      cases h
  | ok a =>
      simp only [hvalue] at h
      cases h
      exact ⟨rfl, rfl, rfl⟩

theorem transactionCall_of_ok {call : σ → Answer σ (Except Error Unit)}
    (note : Except Error Unit → Call) {s : Session σ ρ} (h : (call s.link).value = .ok ()) :
    ∃ s', transactionCall call note s = .ok () s' ∧ s'.subject = s.subject ∧
      s'.calls = s.calls ++ [note (.ok ())] ∧ s'.link = (call s.link).state := by
  unfold transactionCall
  simp only [h]
  exact ⟨_, rfl, rfl, rfl, rfl⟩

/-- What a transaction that ends well does, its body does. -/
theorem ok_of_transaction {body : Work σ ρ α} {a : α} {s s' : Session σ ρ}
    (h : store.transaction body s = .ok a s') :
    ∃ t u, t.subject = s.subject ∧ t.calls = s.calls ++ [.begin (.ok ())] ∧ body t = .ok a u ∧
      s'.subject = u.subject ∧ s'.calls = u.calls ++ [.commit (.ok ())] := by
  unfold transaction at h
  -- each of the three parts must have ended well, or the transaction had not
  cases hbegin : store.begin s with
  | error e t =>
      simp only [hbegin] at h
      cases h
  | ok _ t =>
      simp only [hbegin] at h
      obtain ⟨-, hsubject, hcalls⟩ := ok_of_transactionCall hbegin
      cases hbody : body t with
      | error e u =>
          simp only [hbody] at h
          cases hrollback : store.rollback u <;> simp only [hrollback] at h <;> cases h
      | ok b u =>
          simp only [hbody] at h
          cases hcommit : store.commit u with
          | error e v =>
              simp only [hcommit] at h
              cases h
          | ok _ v =>
              simp only [hcommit] at h
              cases h
              obtain ⟨-, hsubject', hcalls'⟩ := ok_of_transactionCall hcommit
              exact ⟨t, u, hsubject, hcalls, hbody, hsubject', hcalls'⟩

/-- A transaction of a body that ends well without a call ends well if it can be begun and
committed. -/
theorem transaction_of_ok {body : Work σ ρ Unit} {s : Session σ ρ}
    (hbegin : (store.connection.begin s.link).value = .ok ())
    (hcommit : (store.connection.commit (store.connection.begin s.link).state).value = .ok ())
    (hbody : ∀ t : Session σ ρ, t.subject = s.subject → ∃ u, body t = .ok () u ∧
      u.subject = t.subject ∧ u.calls = t.calls ∧ u.link = t.link) :
    ∃ s', store.transaction body s = .ok () s' ∧ s'.subject = s.subject ∧
      s'.calls = s.calls ++ [.begin (.ok ()), .commit (.ok ())] := by
  obtain ⟨t, hbegun, hsubject, hcalls, hlink⟩ := transactionCall_of_ok .begin hbegin
  obtain ⟨u, hended, hsubject', hcalls', hlink'⟩ := hbody t hsubject
  rw [← hlink, ← hlink'] at hcommit
  obtain ⟨v, hcommitted, hsubject'', hcalls'', -⟩ := transactionCall_of_ok .commit hcommit
  refine ⟨v, ?_, hsubject''.trans (hsubject'.trans hsubject), ?_⟩
  · simp only [transaction, begin, commit, hbegun, hended, hcommitted]
  · rw [hcalls'', hcalls', hcalls, List.append_assoc]
    rfl

end Store

end GraphStore
