import GraphStore.Persist.Delete
import GraphStore.Persist.Select
import GraphStore.Persist.Update
import GraphStore.Proofs.Persist.Runs

/-!
# Work is decided by the answers it gets

Work sees of a connection only what its queries are answered. So the same work on two connections
that answer alike (`Store.AnswersAs`) asks the same queries, and ends alike. It starts and ends no
transaction, and asks nothing after a query that was answered with an error. All of this is one
property of a pair of pieces of work, `Alike`, which is closed under the ways in which work is put
together.
-/

set_option autoImplicit false

namespace GraphStore

variable {σ τ ρ α β : Type}

/-! ## Connections that answer alike -/

/-- Two stores of one model that answer queries alike as long as `R` relates the states of their
connections, which it does again after each query. -/
structure Store.AnswersAs (store : Store σ) (other : Store τ) (R : σ → τ → Prop) : Prop where
  model_eq : other.model = store.model
  dialect_eq : other.connection.dialect = store.connection.dialect
  value_eq : ∀ (q : Query) {x : σ} {y : τ}, R x y →
    (other.connection.run q y).value = (store.connection.run q x).value
  related : ∀ (q : Query) {x : σ} {y : τ}, R x y →
    R (store.connection.run q x).state (other.connection.run q y).state

/-- A store answers as itself. -/
theorem Store.AnswersAs.refl (store : Store σ) : store.AnswersAs store Eq where
  model_eq := rfl
  dialect_eq := rfl
  value_eq q _ _ h := by rw [h]
  related q _ _ h := by rw [h]

/-- Two sessions at the same point of the same work, on connections that may differ. -/
structure Session.Like (R : σ → τ → Prop) (s : Session σ ρ) (s' : Session τ ρ) : Prop where
  subject_eq : s'.subject = s.subject
  supply_eq : s'.supply = s.supply
  link : R s.link s'.link

/-! ## Calls up to a failure -/

/-- Queries that were all answered without an error. -/
def Answered (calls : List Call) : Prop :=
  ∀ call ∈ calls, ∃ q y, call = .query q y ∧ ∀ e, Except.error e ∉ y

/-- Queries of which at most the last one was answered with an error. -/
def AnsweredToLast (calls : List Call) : Prop :=
  ∃ first, Answered first ∧ (calls = first ∨ ∃ q y, calls = first ++ [.query q y])

theorem Answered.nil : Answered [] := by
  intro call h
  cases h

theorem Answered.append {calls calls' : List Call} (h : Answered calls) (h' : Answered calls') :
    Answered (calls ++ calls') := by
  intro call hcall
  rcases List.mem_append.mp hcall with hcall | hcall
  · exact h call hcall
  · exact h' call hcall

theorem Answered.toLast {calls : List Call} (h : Answered calls) : AnsweredToLast calls :=
  ⟨calls, h, .inl rfl⟩

theorem Answered.append_toLast {calls calls' : List Call} (h : Answered calls)
    (h' : AnsweredToLast calls') : AnsweredToLast (calls ++ calls') := by
  obtain ⟨first, hfirst, rfl | ⟨q, y, rfl⟩⟩ := h'
  · exact ⟨calls ++ calls', h.append hfirst, .inl rfl⟩
  · exact ⟨calls ++ first, h.append hfirst, .inr ⟨q, y, (List.append_assoc ..).symm⟩⟩

/-! ## Work that is alike -/

/-- Two ends of the same work: the same value or error, and the same queries asked since the calls
`before` and `before'`. -/
inductive EndsAlike (R : σ → τ → Prop) (before before' : List Call) :
    EStateM.Result Error (Session σ ρ) α → EStateM.Result Error (Session τ ρ) α → Prop
  | ok {a : α} {t : Session σ ρ} {t' : Session τ ρ} (calls : List Call) (like : t.Like R t')
      (calls_eq : t.calls = before ++ calls) (calls_eq' : t'.calls = before' ++ calls)
      (answered : Answered calls) : EndsAlike R before before' (.ok a t) (.ok a t')
  | error {e : Error} {t : Session σ ρ} {t' : Session τ ρ} (calls : List Call)
      (like : t.Like R t') (calls_eq : t.calls = before ++ calls)
      (calls_eq' : t'.calls = before' ++ calls) (answered : AnsweredToLast calls) :
      EndsAlike R before before' (.error e t) (.error e t')

/-- Two pieces of work that cannot be told apart on connections that answer alike. -/
def Alike (R : σ → τ → Prop) (work : Work σ ρ α) (work' : Work τ ρ α) : Prop :=
  ∀ (s : Session σ ρ) (s' : Session τ ρ), s.Like R s' →
    EndsAlike R s.calls s'.calls (work s) (work' s')

variable {R : σ → τ → Prop}

/-- What follows a part that asked `calls` without an error. -/
theorem EndsAlike.after {before before' calls : List Call}
    {r : EStateM.Result Error (Session σ ρ) α} {r' : EStateM.Result Error (Session τ ρ) α}
    (h : EndsAlike R (before ++ calls) (before' ++ calls) r r') (answered : Answered calls) :
    EndsAlike R before before' r r' := by
  cases h with
  | ok rest like calls_eq calls_eq' answered' =>
      rw [List.append_assoc] at calls_eq calls_eq'
      exact .ok _ like calls_eq calls_eq' (answered.append answered')
  | error rest like calls_eq calls_eq' answered' =>
      rw [List.append_assoc] at calls_eq calls_eq'
      exact .error _ like calls_eq calls_eq' (answered.append_toLast answered')

/-- An end without a query. -/
theorem EndsAlike.ok_of_like {s t : Session σ ρ} {s' t' : Session τ ρ} (a : α) (like : t.Like R t')
    (calls_eq : t.calls = s.calls) (calls_eq' : t'.calls = s'.calls) :
    EndsAlike R s.calls s'.calls (.ok a t) (.ok a t') :=
  .ok [] like (by simp [calls_eq]) (by simp [calls_eq']) .nil

/-- A failure without a query. -/
theorem EndsAlike.error_of_like {s t : Session σ ρ} {s' t' : Session τ ρ} (e : Error)
    (like : t.Like R t') (calls_eq : t.calls = s.calls) (calls_eq' : t'.calls = s'.calls) :
    EndsAlike (α := α) R s.calls s'.calls (.error e t) (.error e t') :=
  .error [] like (by simp [calls_eq]) (by simp [calls_eq']) Answered.nil.toLast

namespace Alike

theorem pure (a : α) : Alike (ρ := ρ) R (Pure.pure a) (Pure.pure a) :=
  fun _ _ like => .ok_of_like a like rfl rfl

theorem throw (e : Error) :
    Alike (ρ := ρ) (α := α) R (MonadExcept.throw e) (MonadExcept.throw e) :=
  fun _ _ like => .error_of_like e like rfl rfl

theorem of_modify {f : Session σ ρ → Session σ ρ} {f' : Session τ ρ → Session τ ρ}
    (h : ∀ s s', s.Like R s' →
      (f s).Like R (f' s') ∧ (f s).calls = s.calls ∧ (f' s').calls = s'.calls) :
    Alike R (modify f) (modify f') := by
  intro s s' like
  obtain ⟨like, calls_eq, calls_eq'⟩ := h s s' like
  exact .ok_of_like () like calls_eq calls_eq'

/-- Work that looks at the session first. -/
theorem get_bind {f : Session σ ρ → Work σ ρ α} {f' : Session τ ρ → Work τ ρ α}
    (h : ∀ s s', s.Like R s' → Alike R (f s) (f' s')) : Alike R (get >>= f) (get >>= f') :=
  fun s s' like => h s s' like s s' like

theorem bind {x : Work σ ρ α} {x' : Work τ ρ α} {f : α → Work σ ρ β} {f' : α → Work τ ρ β}
    (hx : Alike R x x') (hf : ∀ a, Alike R (f a) (f' a)) : Alike R (x >>= f) (x' >>= f') := by
  intro s s' like
  have first := hx s s' like
  change EndsAlike R s.calls s'.calls (EStateM.bind x f s) (EStateM.bind x' f' s')
  unfold EStateM.bind
  generalize x s = r at first
  generalize x' s' = r' at first
  cases first with
  | @ok a _ _ calls like calls_eq calls_eq' answered =>
      have rest := hf a _ _ like
      rw [calls_eq, calls_eq'] at rest
      exact rest.after answered
  | error calls like calls_eq calls_eq' answered =>
      -- the whole fails with its first part, and asks nothing more
      exact .error calls like calls_eq calls_eq' answered

theorem forM {f : α → Work σ ρ Unit} {f' : α → Work τ ρ Unit} (h : ∀ a, Alike R (f a) (f' a))
    (xs : List α) : Alike R (xs.forM f) (xs.forM f') := by
  induction xs with
  | nil => exact .pure ()
  | cons x xs ih => exact .bind (h x) fun _ => ih

theorem ite {c : Prop} [Decidable c] {x y : Work σ ρ α} {x' y' : Work τ ρ α}
    (hx : Alike R x x') (hy : Alike R y y') :
    Alike R (if c then x else y) (if c then x' else y') := by
  by_cases h : c
  · simpa only [if_pos h] using hx
  · simpa only [if_neg h] using hy

/-! ### Work on the session -/

theorem log (entries : List LogEntry) : Alike (ρ := ρ) R (Work.log entries) (Work.log entries) :=
  .of_modify fun _ _ like => ⟨⟨like.subject_eq, like.supply_eq, like.link⟩, rfl, rfl⟩

theorem reportedFailure (cause : Cause) :
    Alike (ρ := ρ) (α := α) R (Work.reportedFailure cause) (Work.reportedFailure cause) :=
  .bind (.log _) fun _ => .throw _

theorem ofExcept (x : Except Error α) :
    Alike (ρ := ρ) R (Work.ofExcept x) (Work.ofExcept x) := by
  refine .bind (.log _) fun _ => ?_
  cases x with
  | ok a => exact .pure a
  | error e => exact .throw e

theorem ofSupply (x : Supply → Except Error (α × Supply)) :
    Alike (ρ := ρ) R (Work.ofSupply x) (Work.ofSupply x) := by
  refine .get_bind fun s s' like => ?_
  rw [like.supply_eq]
  refine .bind (.ofExcept _) fun drawn => .bind (.of_modify fun t t' like => ?_) fun _ => .pure _
  exact ⟨⟨like.subject_eq, rfl, like.link⟩, rfl, rfl⟩

theorem framed (frame : Frame) {work : Work σ ρ α} {work' : Work τ ρ α}
    (h : Alike R work work') : Alike R (Work.framed frame work) (Work.framed frame work') := by
  intro s s' like
  have ends := h s s' like
  unfold Work.framed
  generalize work s = r at ends
  generalize work' s' = r' at ends
  cases ends with
  | ok calls like calls_eq calls_eq' answered =>
      exact .ok calls like calls_eq calls_eq' answered
  | error calls like calls_eq calls_eq' answered =>
      exact .error calls like calls_eq calls_eq' answered

/-! ### Work on the subject -/

theorem subject : Alike R Work.subject Work.subject := by
  intro s s' like
  unfold Work.subject
  rw [like.subject_eq]
  exact .ok_of_like s.subject like rfl rfl

theorem ofEdit (edit : Edit α) : Alike R (Work.ofEdit edit) (Work.ofEdit edit) := by
  intro s s' like
  unfold Work.ofEdit
  rw [like.subject_eq, like.supply_eq]
  cases edit ⟨s.subject, s.supply⟩ with
  | ok a b => exact .ok_of_like a ⟨rfl, rfl, like.link⟩ rfl rfl
  | error e b => exact .error_of_like e ⟨rfl, rfl, like.link⟩ rfl rfl

theorem assignField (property : String) (v : Value) :
    Alike R (Work.assignField property v) (Work.assignField property v) := .ofEdit _

theorem onItem (property : String) (i : Nat) (child : Record) {work : Work σ Record α}
    {work' : Work τ Record α} (h : Alike R work work') :
    Alike R (Work.onItem property i child work) (Work.onItem property i child work') := by
  intro s s' like
  have ends := h { s with subject := child } { s' with subject := child }
    ⟨rfl, like.supply_eq, like.link⟩
  unfold Work.onItem
  generalize work { s with subject := child } = r at ends
  generalize work' { s' with subject := child } = r' at ends
  have putBack : ∀ (t : Session σ Record) (t' : Session τ Record), t.Like R t' →
      s'.subject.withItems property ((s'.subject.items property).set i t'.subject) =
        s.subject.withItems property ((s.subject.items property).set i t.subject) := by
    intro t t' like'
    rw [like.subject_eq, like'.subject_eq]
  cases ends with
  | ok calls like' calls_eq calls_eq' answered =>
      exact .ok calls ⟨putBack _ _ like', like'.supply_eq, like'.link⟩ calls_eq calls_eq' answered
  | error calls like' calls_eq calls_eq' answered =>
      exact .error calls ⟨putBack _ _ like', like'.supply_eq, like'.link⟩ calls_eq calls_eq'
        answered

end Alike

/-! ## Queries -/

namespace Yield

/-- A yield with an error in it has no total. -/
theorem ok_of_affected {y : Yield} {n : UInt64} (h : y.affected = .ok n) (e : Error) :
    Except.error e ∉ y := by
  fun_induction affected y generalizing n with
  | case1 => exact List.not_mem_nil
  | case2 => cases h
  | case3 k rest ih =>
      cases hrest : affected rest with
      | error e => rw [hrest] at h; cases h
      | ok m => simpa using ih hrest
  | case4 r rest ih => simpa using ih h

theorem ok_of_rows {y : Yield} {rs : List Row} (h : y.rows = .ok rs) (e : Error) :
    Except.error e ∉ y := by
  fun_induction rows y generalizing rs with
  | case1 => exact List.not_mem_nil
  | case2 => cases h
  | case3 k rest ih => simpa using ih h
  | case4 r rest ih =>
      cases hrest : rows rest with
      | error e => rw [hrest] at h; cases h
      | ok m => simpa using ih hrest

end Yield

namespace Alike

variable {store : Store σ} {other : Store τ}

/-- A query whose answer is used when it is free of errors, and ends the work when it is not. -/
theorem run_bind (h : store.AnswersAs other R) (q : Query) {f : Yield → Work σ ρ α}
    {f' : Yield → Work τ ρ α}
    (hf : ∀ y, (∀ e, Except.error e ∉ y) ∧ Alike R (f y) (f' y) ∨
      ∃ e, f y = MonadExcept.throw e ∧ f' y = MonadExcept.throw e) :
    Alike R (store.run q >>= f) (other.run q >>= f') := by
  intro s s' like
  let answer := store.connection.run q s.link
  let answer' := other.connection.run q s'.link
  -- both connections have been asked the same, and have answered the same
  let t : Session σ ρ :=
    { s with link := answer.state, calls := s.calls ++ [.query q answer.value],
             journal := s.journal ++ answer.journal }
  let t' : Session τ ρ :=
    { s' with link := answer'.state, calls := s'.calls ++ [.query q answer.value],
              journal := s'.journal ++ answer'.journal }
  have like' : t.Like R t' := ⟨like.subject_eq, like.supply_eq, h.related q like.link⟩
  have run_eq : other.run q s' = .ok answer.value t' := by
    simp only [Store.run, h.value_eq q like.link, answer, answer', t']
  rw [bind_of_ok (show store.run q s = .ok answer.value t from rfl), bind_of_ok run_eq]
  obtain ⟨faultless, ends⟩ | ⟨e, hfails, hfails'⟩ := hf answer.value
  · refine (ends t t' like').after fun call hcall => ?_
    exact ⟨q, answer.value, List.mem_singleton.mp hcall, faultless⟩
  · rw [hfails, hfails']
    exact .error _ like' rfl rfl ⟨[], .nil, .inr ⟨q, answer.value, rfl⟩⟩

variable (h : store.AnswersAs other R)
include h

theorem execute (q : Query) : Alike (ρ := ρ) R (store.execute q) (other.execute q) := by
  refine .run_bind h q fun y => ?_
  cases hy : y.affected with
  | ok n => exact .inl ⟨Yield.ok_of_affected hy, .pure n⟩
  | error e => exact .inr ⟨e, rfl, rfl⟩

theorem fetch (q : Query) : Alike (ρ := ρ) R (store.fetch q) (other.fetch q) := by
  refine .run_bind h q fun y => ?_
  cases hy : y.rows with
  | ok rows => exact .inl ⟨Yield.ok_of_rows hy, .pure rows⟩
  | error e => exact .inr ⟨e, rfl, rfl⟩

omit h in
theorem reporting (q : Query) {work : Work σ ρ α} {work' : Work τ ρ α} (h : Alike R work work') :
    Alike R (Store.reporting q work) (Store.reporting q work') := by
  intro s s' like
  have ends := h s s' like
  unfold Store.reporting
  generalize work s = r at ends
  generalize work' s' = r' at ends
  cases ends with
  | ok calls like calls_eq calls_eq' answered =>
      exact .ok calls like calls_eq calls_eq' answered
  | error calls like calls_eq calls_eq' answered =>
      exact .error calls ⟨like.subject_eq, like.supply_eq, like.link⟩ calls_eq calls_eq' answered

theorem executeQuery (q : Query) :
    Alike (ρ := ρ) R (store.executeQuery q) (other.executeQuery q) := .reporting q (.execute h q)

theorem fetchQuery (q : Query) :
    Alike (ρ := ρ) R (store.fetchQuery q) (other.fetchQuery q) := .reporting q (.fetch h q)

theorem render (s : Statement) : Alike (ρ := ρ) R (store.render s) (other.render s) := by
  unfold Store.render
  rw [h.dialect_eq]
  exact .bind (.log _) fun _ => .pure _

theorem executeStatement (s : Statement) :
    Alike (ρ := ρ) R (store.executeStatement s) (other.executeStatement s) :=
  .bind (.render h s) fun q => .executeQuery h q

omit h in
theorem expectOne (count : UInt64) (map : EntityMap) (action : RowAction) :
    Alike (ρ := ρ) R (Store.expectOne count map action) (Store.expectOne count map action) :=
  .ite (.pure ()) (.reportedFailure _)

theorem mapOf (type : String) : Alike (ρ := ρ) R (store.mapOf type) (other.mapOf type) := by
  unfold Store.mapOf
  rw [h.model_eq]
  exact .ofExcept _

theorem targetOf (r : RelationDef) : Alike (ρ := ρ) R (store.targetOf r) (other.targetOf r) := by
  unfold Store.targetOf
  rw [h.model_eq]
  exact .ofExcept _

/-! ## Inserting -/

theorem insertReturningKey (s : InsertStatement) :
    Alike R (store.insertReturningKey s) (other.insertReturningKey s) := by
  unfold Store.insertReturningKey
  rw [h.dialect_eq]
  refine .bind (.render h _) fun q => ?_
  cases store.connection.dialect.generatedKeyQuery with
  | some followUp =>
      refine .bind (.executeQuery h q) fun _ => .bind (.fetchQuery h followUp) fun rows => ?_
      beta_reduce
      cases rows.head?.bind (·.values.head?) with
      | some v => exact .ite (.reportedFailure _) (.pure v)
      | none => exact .reportedFailure _
  | none =>
      refine .bind (.fetchQuery h q) fun rows => ?_
      beta_reduce
      cases rows.head?.bind (·.values.head?) with
      | some v => exact .ite (.reportedFailure _) (.pure v)
      | none => exact .reportedFailure _

theorem insertRow (s : InsertStatement) : Alike R (store.insertRow s) (other.insertRow s) := by
  unfold Store.insertRow
  cases s.generatedKey with
  | some key => exact .bind (.insertReturningKey h s) fun v => .assignField key.property v
  | none => exact .bind (.executeStatement h _) fun _ => .pure ()

omit h in
theorem isStored (map : EntityMap) : Alike R (Store.isStored map) (Store.isStored map) :=
  .ite (.pure _) (.bind .subject fun _ => .bind (.ofExcept _) fun _ => .pure _)

omit h in
/-- The key of the record in a single reference is copied. -/
theorem copyKey (target : EntityMap) (r : RelationDef) :
    Alike R (Store.copyKey (σ := σ) target r) (Store.copyKey (σ := τ) target r) := by
  refine .bind .subject fun record => ?_
  cases record.reference? r.property with
  | some child => exact .bind (.ofExcept _) fun v => .assignField r.localKey v
  | none => exact .pure _

theorem insertReference {cascade : Work σ Record Unit} {cascade' : Work τ Record Unit}
    (hcascade : Alike R cascade cascade') (map : EntityMap) (r : RelationDef) :
    Alike R (store.insertReference cascade map r) (other.insertReference cascade' map r) := by
  refine .bind (.targetOf h r) fun target => .bind .subject fun before => ?_
  cases before.reference? r.property with
  | some child =>
      refine .bind (.ofExcept _) fun isNew => .ite (.bind ?_ fun _ => ?_) ?_
      · exact .framed _ (.onItem r.property 0 child hcascade)
      · exact copyKey target r
      · exact copyKey target r
  | none =>
      refine .ite (.pure _) (.bind .subject fun record => .bind (.ofExcept _) fun key => ?_)
      exact .ite (.pure _) (.reportedFailure _)

omit h in
theorem insertItem {cascade : Work σ Record Unit} {cascade' : Work τ Record Unit}
    (hcascade : Alike R cascade cascade') (map target : EntityMap) (r : RelationDef) (key : Value)
    (i : Nat) :
    Alike R (Store.insertItem cascade map target r key i)
      (Store.insertItem cascade' map target r key i) := by
  refine .bind .subject fun record => ?_
  cases (record.items r.property)[i]? with
  | none => exact .pure _
  | some child =>
      refine .bind (.ofExcept _) fun isNew => .ite (.pure _) (.onItem r.property i child ?_)
      exact .bind (.assignField r.foreignKey key) fun _ => .framed _ hcascade

theorem insertCollection {cascade : Work σ Record Unit} {cascade' : Work τ Record Unit}
    (hcascade : Alike R cascade cascade') (map : EntityMap) (r : RelationDef) :
    Alike R (store.insertCollection cascade map r) (other.insertCollection cascade' map r) := by
  refine .bind (.targetOf h r) fun target => .bind .subject fun before => ?_
  refine .bind (.ofExcept _) fun key => .bind .subject fun record => ?_
  cases record.collection? r.property with
  | none => exact .pure _
  | some items => exact .forM (.insertItem hcascade map target r key) _

theorem insertLevels (levels : Nat) (forced : Bool) :
    Alike R (store.insertLevels levels forced) (other.insertLevels levels forced) := by
  induction levels generalizing forced with
  | zero => exact .bind .subject fun record => .throw _
  | succ levels ih =>
      unfold Store.insertLevels
      refine .bind .subject fun record => .bind (.mapOf h _) fun map => ?_
      have references := forM (.insertReference h (ih false) map) (map.relationsOf .manyToOne)
      have collections := forM (.insertCollection h (ih false) map) (map.relationsOf .oneToMany)
      refine .bind (.isStored map) fun _ => .ite (.pure _) (.bind references fun _ => ?_)
      refine .bind (.ofEdit _) fun s => ?_
      cases s with
      | none => exact .pure _
      | some s => exact .bind (.insertRow h s) fun _ => collections

theorem insertRecord (forced : Bool) :
    Alike R (store.insertRecord forced) (other.insertRecord forced) :=
  .bind .subject fun _ => .insertLevels h _ _

/-! ## Updating -/

theorem updateRow (map : EntityMap) (fields : Option (List String)) :
    Alike R (store.updateRow map fields) (other.updateRow map fields) :=
  .bind (.ofEdit _) fun _ => .bind (.executeStatement h _) fun count => .expectOne count map .update

theorem saveRecord : Alike R store.saveRecord other.saveRecord := by
  refine .bind .subject fun _ => .bind (.mapOf h _) fun map => .bind .subject fun _ => ?_
  refine .bind (.ofExcept _) fun isNew => .ite (.insertRecord h false) ?_
  exact .ite (.updateRow h map none) (.pure _)

theorem saveReference (map : EntityMap) (r : RelationDef) :
    Alike R (store.saveReference map r) (other.saveReference map r) := by
  refine .bind (.targetOf h r) fun target => .bind .subject fun before => ?_
  cases before.reference? r.property with
  | none => exact .pure _
  | some child =>
      refine .bind (.framed _ (.onItem r.property 0 child (.saveRecord h))) fun _ => ?_
      exact copyKey target r

theorem saveItem (map : EntityMap) (r : RelationDef) (key : Value) (i : Nat) :
    Alike R (store.saveItem map r key i) (other.saveItem map r key i) := by
  refine .bind .subject fun record => ?_
  cases (record.items r.property)[i]? with
  | none => exact .pure _
  | some child =>
      refine .onItem r.property i child (.bind (.assignField r.foreignKey key) fun _ => ?_)
      exact .framed _ (.saveRecord h)

theorem reconcile (map : EntityMap) (r : RelationDef) :
    Alike R (store.reconcile map r) (other.reconcile map r) := by
  unfold Store.reconcile
  rw [h.model_eq]
  refine .bind .subject fun _ => .bind (.ofExcept _) fun key => .bind .subject fun before => ?_
  refine .bind (.forM (.saveItem h map r key) _) fun _ => .bind .subject fun after => ?_
  exact .bind (.ofSupply _) fun s => .bind (.executeStatement h s) fun _ => .log _

omit h in
theorem checkIncludes (map : EntityMap) (includes : List String) :
    Alike R (Store.checkIncludes (σ := σ) map includes)
      (Store.checkIncludes (σ := τ) map includes) := by
  induction includes with
  | nil => exact .pure _
  | cons name rest ih => exact .ite (.bind (.reportedFailure _) fun _ => ih) ih

theorem updateRecord (includes : List String) (fields : Option (List String)) :
    Alike R (store.updateRecord includes fields) (other.updateRecord includes fields) := by
  refine .bind .subject fun _ => .bind (.mapOf h _) fun map => ?_
  refine .bind (.checkIncludes map includes) fun _ => ?_
  refine .bind (.forM (.saveReference h map) _) fun _ => ?_
  exact .bind (.updateRow h map fields) fun _ => .forM (.reconcile h map) _

/-! ## Deleting and selecting -/

theorem deleteRecord : Alike R store.deleteRecord other.deleteRecord := by
  refine .bind .subject fun _ => .bind (.mapOf h _) fun map => .bind (.ofEdit _) fun s => ?_
  exact .bind (.executeStatement h _) fun count => .expectOne count map .delete

theorem deleteRows (type : String) (p : Predicate) :
    Alike (ρ := ρ) R (store.deleteRows type p) (other.deleteRows type p) := by
  unfold Store.deleteRows
  rw [h.model_eq]
  exact .bind (.mapOf h type) fun _ => .bind (.ofSupply _) fun s => .executeStatement h s

theorem selectRows (type : String) (p : Predicate) (includes : List String)
    (options : SelectOptions) :
    Alike (ρ := ρ) R (store.selectRows type p includes options)
      (other.selectRows type p includes options) := by
  unfold Store.selectRows
  rw [h.model_eq]
  refine .bind (.mapOf h type) fun map => .bind (.ofExcept _) fun s => ?_
  exact .bind (.render h _) fun q => .bind (.fetchQuery h q) fun rows => .ofExcept _

theorem findRow (type : String) (id : Value) (includes : List String) :
    Alike (ρ := ρ) R (store.findRow type id includes) (other.findRow type id includes) := by
  refine .bind (.mapOf h type) fun map => .bind (.ofExcept _) fun p => ?_
  exact .bind (.selectRows h type p includes {}) fun records => .pure _

end Alike

end GraphStore
