import GraphStore.Sqlite.Connection

/-!
# Transactions of a link

A connection has one transaction at a time: none can be begun while one is open. A rollback closes
it, but a commit that is refused leaves it as it is (`KeepsTransactions`). Links do so
(`Sqlite.keepsTransactions`): a commit is refused while some row is without its parent, and the
transaction stays open until the row is put right or a rollback ends it.
-/

set_option autoImplicit false

namespace GraphStore

/-- A connection has one transaction at a time, and `isOpen` says whether it is open. -/
structure Connection.KeepsTransactions {σ : Type} (c : Connection σ) (isOpen : σ → Bool) :
    Prop where
  begins : ∀ l, isOpen l = false → (c.begin l).value = .ok () ∧ isOpen (c.begin l).state = true
  refuses : ∀ l, isOpen l = true →
    (∃ e, (c.begin l).value = .error e) ∧ isOpen (c.begin l).state = true
  /-- A commit that is refused closes nothing. -/
  keeps : ∀ l e, (c.commit l).value = .error e → isOpen (c.commit l).state = isOpen l
  rollsBack : ∀ l, isOpen (c.rollback l).state = false

namespace Sqlite

/-! ## The commands of transactions -/

theorem readCommand_begin (d : Database) :
    readCommand d "BEGIN;" = .ok (some ⟨.begin, [], 0, []⟩) := by
  with_unfolding_all rfl

theorem readCommand_commit (d : Database) :
    readCommand d "COMMIT;" = .ok (some ⟨.finish .commit, [], 0, []⟩) := by
  with_unfolding_all rfl

theorem readCommand_rollback (d : Database) :
    readCommand d "ROLLBACK;" = .ok (some ⟨.finish .rollback, [], 0, []⟩) := by
  with_unfolding_all rfl

theorem prepare_of_readCommand {d : Database} {sql : String} {command : Command} {action : Action}
    (hnul : refuseNul sql = .ok ()) (h : readCommand d sql = .ok (some ⟨command, [], 0, []⟩))
    (haction : command.action d = .ok action) : prepare d sql = .ok ⟨action, [], 0⟩ := by
  simp only [prepare, hnul, h, haction, bind, Except.bind, pure, Except.pure]
  rfl

namespace Link

variable {l : Link}

/-- A command that moves the link on. -/
theorem command_of_done {sql : String} {action : Action} {next : Link}
    (hprepare : prepare l.world.database sql = .ok ⟨action, [], 0⟩) (hcolumns : action.columns = [])
    (hperform : l.perform [] action = (.empty, next)) :
    (l.command sql).value = .ok () ∧ (l.command sql).state = next := by
  have bound : Prepared.bind ⟨action, [], 0⟩ [] = .ok [] := rfl
  unfold command run
  simp only [hprepare, bind, Except.bind, pure, Except.pure, bound, hperform, hcolumns]
  exact ⟨rfl, rfl⟩

/-- A command that is refused. -/
theorem command_of_fault {sql : String} {action : Action} {f : Fault}
    (hprepare : prepare l.world.database sql = .ok ⟨action, [], 0⟩)
    (hperform : l.perform [] action = (⟨[], some f⟩, l)) :
    (l.command sql).value = .error (.of (.reported f.message)) ∧ (l.command sql).state = l := by
  have bound : Prepared.bind ⟨action, [], 0⟩ [] = .ok [] := rfl
  unfold command run
  simp only [hprepare, bind, Except.bind, pure, Except.pure, bound, hperform]
  exact ⟨rfl, trivial⟩

theorem prepare_begin (d : Database) :
    prepare d Dialect.sqlite.beginText = .ok ⟨.begin, [], 0⟩ :=
  prepare_of_readCommand rfl (readCommand_begin d) rfl

theorem prepare_commit (d : Database) :
    prepare d Dialect.sqlite.commitText = .ok ⟨.finish .commit, [], 0⟩ :=
  prepare_of_readCommand rfl (readCommand_commit d) rfl

theorem prepare_rollback (d : Database) :
    prepare d Dialect.sqlite.rollbackText = .ok ⟨.finish .rollback, [], 0⟩ :=
  prepare_of_readCommand rfl (readCommand_rollback d) rfl

/-! ## Starts and ends -/

/-- While no transaction is open, one is begun. -/
theorem begin_of_closed (h : l.transaction.isSome = false) :
    (connection.begin l).value = .ok () ∧ (connection.begin l).state =
      { l with transaction := some { before := l.world.database } } := by
  refine command_of_done (prepare_begin _) rfl ?_
  rw [perform, if_neg (by simp [h])]
  rfl

/-- While a transaction is open, no other is begun. -/
theorem begin_of_open (h : l.transaction.isSome = true) :
    (connection.begin l).value = .error (.of (.reported Fault.nestedTransaction.message)) ∧
      (connection.begin l).state = l := by
  refine command_of_fault (prepare_begin _) ?_
  rw [perform, if_pos h]
  rfl

theorem not_isNone (h : l.transaction.isSome = true) : ¬l.transaction.isNone = true := by
  simpa using Option.isSome_iff_ne_none.mp h

/-- A transaction with a row that is left without its parent stays open. -/
theorem commit_of_orphan (hopen : l.transaction.isSome = true)
    (h : l.world.database.hasOrphan true = true) :
    (connection.commit l).value = .error (.of (.reported Fault.foreignKeyFailed.message)) ∧
      (connection.commit l).state = l := by
  refine command_of_fault (prepare_commit _) ?_
  rw [perform, if_neg (not_isNone hopen), committed, if_pos h]
  rfl

/-- A commit that is refused changes nothing. -/
theorem commit_of_refused {e : Error} (h : (connection.commit l).value = .error e) :
    (connection.commit l).state = l := by
  by_cases hopen : l.transaction.isSome = true
  · by_cases horphan : l.world.database.hasOrphan true = true
    · exact (commit_of_orphan hopen horphan).2
    · have performed : l.perform [] (.finish .commit) =
          (.empty, { l with transaction := none }) := by
        rw [perform, if_neg (not_isNone hopen), committed, if_neg horphan]
        rfl
      have accepted := (command_of_done (prepare_commit _) rfl performed).1
      cases h.symm.trans accepted
  · have performed : l.perform [] (.finish .commit) =
        (⟨[], some (.noTransaction .commit)⟩, l) := by
      rw [perform, if_pos (by simpa using hopen)]
      rfl
    exact (command_of_fault (prepare_commit _) performed).2

/-- No transaction is open after a rollback. -/
theorem rollback_closes (l : Link) : (connection.rollback l).state.transaction = none := by
  by_cases hopen : l.transaction.isSome = true
  · have performed : l.perform [] (.finish .rollback) = (.empty, l.rolledBack) := by
      rw [perform, if_neg (not_isNone hopen)]
      rfl
    refine (congrArg transaction (command_of_done (prepare_rollback _) rfl performed).2).trans ?_
    unfold rolledBack
    split
    next h => exact h
    next => rfl
  · have closed : l.transaction.isNone = true := by simpa using hopen
    have performed : l.perform [] (.finish .rollback) =
        (⟨[], some (.noTransaction .rollback)⟩, l) := by
      rw [perform, if_pos closed]
      rfl
    refine (congrArg transaction (command_of_fault (prepare_rollback _) performed).2).trans ?_
    exact Option.isNone_iff_eq_none.mp closed

end Link

/-- **A link has one transaction at a time**, which stays open when it cannot be committed. -/
theorem keepsTransactions : connection.KeepsTransactions (·.transaction.isSome) where
  begins l h := by
    obtain ⟨hvalue, hstate⟩ := Link.begin_of_closed h
    rw [hstate]
    exact ⟨hvalue, rfl⟩
  refuses l h := by
    obtain ⟨hvalue, hstate⟩ := Link.begin_of_open h
    rw [hstate]
    exact ⟨⟨_, hvalue⟩, h⟩
  keeps l e h := by rw [Link.commit_of_refused h]
  rollsBack l := by
    rw [l.rollback_closes]
    rfl

end Sqlite
end GraphStore
