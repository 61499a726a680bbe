import GraphStore.Proofs.Persist.Keeping

/-!
# What work has done by its end

Work that fails has made some of its calls and changed its subject in part. `Did` says of work,
however it ends, which calls it made and what it left behind; it is closed under the ways in which
work is put together. The insertion of a graph is the first use of it: every call that it makes is
for a record of the graph, as that had been kept until then (`onlyInserts_insertRecord`).
-/

set_option autoImplicit false

namespace GraphStore

variable {σ ρ α β : Type}

/-- However the work ends, it has made calls and left a subject of which `P` holds. -/
def Did (s : Session σ ρ) (work : Work σ ρ α) (P : ρ → List Call → Prop) : Prop :=
  ∃ calls, (stateAfter (work s)).calls = s.calls ++ calls ∧ P (stateAfter (work s)).subject calls

/-- Work that makes no call and leaves its subject as it is. -/
def Quiet (work : Work σ ρ α) : Prop :=
  ∀ s, Did s work fun final calls => final = s.subject ∧ calls = []

namespace Did

variable {s : Session σ ρ} {work x : Work σ ρ α} {f : α → Work σ ρ β} {P Q : ρ → List Call → Prop}

theorem mono (h : Did s work Q) (hle : ∀ final calls, Q final calls → P final calls) :
    Did s work P := by
  obtain ⟨calls, hcalls, hQ⟩ := h
  exact ⟨calls, hcalls, hle _ _ hQ⟩

theorem of_quiet (h : Quiet work) (hnone : P s.subject []) : Did s work P := by
  refine (h s).mono ?_
  rintro _ _ ⟨rfl, rfl⟩
  exact hnone

/-- The rest of some work adds its calls to those of the first part. -/
theorem bind (hx : Did s x Q) (hfail : ∀ final calls, Q final calls → P final calls)
    (hf : ∀ a t calls, x s = .ok a t → Q t.subject calls →
      Did t (f a) fun final more => P final (calls ++ more)) : Did s (x >>= f) P := by
  refine stateAfter_bind
    (P := fun t : Session σ ρ => ∃ calls, t.calls = s.calls ++ calls ∧ P t.subject calls)
    (Q := fun t => ∃ calls, t.calls = s.calls ++ calls ∧ Q t.subject calls) hx ?_ ?_
  · rintro t ⟨calls, hcalls, hQ⟩
    exact ⟨calls, hcalls, hfail _ _ hQ⟩
  · rintro a t h ⟨calls, hcalls, hQ⟩
    obtain ⟨more, hmore, hP⟩ := hf a t calls h hQ
    exact ⟨calls ++ more, by rw [hmore, hcalls, List.append_assoc], hP⟩

theorem quiet_bind (hx : Quiet x) (hnone : P s.subject [])
    (hf : ∀ a t, x s = .ok a t → t.subject = s.subject → Did t (f a) P) : Did s (x >>= f) P := by
  refine .bind (hx s) ?_ ?_
  · rintro _ _ ⟨rfl, rfl⟩
    exact hnone
  · rintro a t _ h ⟨hsubject, rfl⟩
    exact hf a t h hsubject

theorem framed {frame : Frame} (h : Did s work P) : Did s (Work.framed frame work) P := by
  unfold Did Work.framed at *
  cases hwork : work s <;> (rw [hwork] at h; exact h)

theorem reporting {q : Query} (h : Did s work P) : Did s (Store.reporting q work) P := by
  unfold Did Store.reporting at *
  cases hwork : work s <;> (rw [hwork] at h; exact h)

end Did

/-! ## Quiet work -/

namespace Quiet

theorem bind {x : Work σ ρ α} {f : α → Work σ ρ β} (hx : Quiet x) (hf : ∀ a, Quiet (f a)) :
    Quiet (x >>= f) := by
  intro s
  refine Did.quiet_bind hx ⟨rfl, rfl⟩ fun a t _ hsubject => ?_
  rw [← hsubject]
  exact hf a t

theorem of_same {work : Work σ ρ α} (hsubject : ∀ s, (stateAfter (work s)).subject = s.subject)
    (hcalls : ∀ s, (stateAfter (work s)).calls = s.calls) : Quiet work := fun s =>
  ⟨[], by rw [hcalls, List.append_nil], hsubject s, rfl⟩

theorem pure (a : α) : Quiet (Pure.pure a : Work σ ρ α) := .of_same (fun _ => rfl) fun _ => rfl

theorem throw (e : Error) : Quiet (throw e : Work σ ρ α) := .of_same (fun _ => rfl) fun _ => rfl

theorem subject : Quiet (Work.subject : Work σ Record Record) :=
  .of_same (fun _ => rfl) fun _ => rfl

theorem log (entries : List LogEntry) : Quiet (Work.log entries : Work σ ρ Unit) :=
  .of_same (fun _ => rfl) fun _ => rfl

theorem reportedFailure (cause : Cause) : Quiet (Work.reportedFailure cause : Work σ ρ α) :=
  .bind (.log _) fun _ => .throw _

theorem ofExcept (x : Except Error α) : Quiet (Work.ofExcept x : Work σ ρ α) := by
  refine .bind (.log _) fun _ => ?_
  cases x with
  | ok a => exact .pure a
  | error e => exact .throw e

theorem ofSupply (x : Supply → Except Error (α × Supply)) :
    Quiet (Work.ofSupply x : Work σ ρ α) := by
  unfold Work.ofSupply
  refine .bind (.of_same (fun _ => rfl) fun _ => rfl) fun s => .bind (.ofExcept _) fun drawn => ?_
  exact .bind (.of_same (fun _ => rfl) fun _ => rfl) fun _ => .pure _

theorem expectOne (count : UInt64) (map : EntityMap) (action : RowAction) :
    Quiet (Store.expectOne count map action : Work σ ρ Unit) := by
  unfold Store.expectOne
  split
  · exact .pure _
  · exact .reportedFailure _

theorem isStored (map : EntityMap) : Quiet (Store.isStored map : Work σ Record Bool) := by
  unfold Store.isStored
  split
  · exact .pure _
  · exact .bind .subject fun _ => .bind (.ofExcept _) fun _ => .pure _

theorem checkIncludes (map : EntityMap) (includes : List String) :
    Quiet (Store.checkIncludes map includes : Work σ Record Unit) := by
  induction includes with
  | nil => exact .pure _
  | cons name rest ih =>
      unfold Store.checkIncludes
      split
      · exact .bind (.reportedFailure _) fun _ => ih
      · exact ih

end Quiet

/-! ## Work on the subject -/

section

variable {s : Session σ Record}

theorem did_ofEdit (edit : Edit α) : Did s (Work.ofEdit edit) fun final calls =>
    final = (stateAfter (edit ⟨s.subject, s.supply⟩)).record ∧ calls = [] := by
  unfold Did Work.ofEdit
  cases edit ⟨s.subject, s.supply⟩ <;> exact ⟨[], by simp [stateAfter], rfl, rfl⟩

theorem Did.subject_bind {f : Record → Work σ Record α} {P : Record → List Call → Prop}
    (h : Did s (f s.subject) P) : Did s (Work.subject >>= f) P := h

/-- Work on an item leaves the item in its place. -/
theorem did_onItem {property : String} {i : Nat} {child : Record} {work : Work σ Record α}
    {P : Record → List Call → Prop} (h : Did { s with subject := child } work P) :
    Did s (Work.onItem property i child work) fun final calls => ∃ child', P child' calls ∧
      final = s.subject.withItems property ((s.subject.items property).set i child') := by
  obtain ⟨calls, hcalls, hP⟩ := h
  unfold Did Work.onItem
  cases hwork : work { s with subject := child } <;>
    (rw [hwork] at hcalls hP; exact ⟨calls, hcalls, _, hP, rfl⟩)

theorem did_assignField {property : String} {v : Value} :
    Did s (Work.assignField property v) fun final calls =>
      calls = [] ∧ (final = s.subject ∨ s.subject.setField property v = .ok final) := by
  refine (did_ofEdit _).mono ?_
  rintro _ _ ⟨rfl, rfl⟩
  unfold Edit.assignField
  cases hassign : s.subject.setField property v with
  | ok record => exact ⟨rfl, .inr rfl⟩
  | error e => exact ⟨rfl, .inl rfl⟩

/-- Copying a key makes no call, and assigns the local key at most. -/
theorem did_copyKey (target : EntityMap) (r : RelationDef) :
    Did s (Store.copyKey target r) fun final calls => calls = [] ∧
      (final = s.subject ∨ ∃ v, s.subject.setField r.localKey v = .ok final) := by
  refine .subject_bind ?_
  split
  next child hchild =>
    refine .quiet_bind (.ofExcept _) ⟨rfl, .inl rfl⟩ fun v t _ hsubject => ?_
    rw [← hsubject]
    exact did_assignField.mono fun _ _ h => ⟨h.1, h.2.imp_right fun hassign => ⟨v, hassign⟩⟩
  next => exact .of_quiet (.pure _) ⟨rfl, .inl rfl⟩

end

/-! ## Queries -/

namespace Store

variable {store : Store σ} {s : Session σ ρ}

theorem did_run_bind {q : Query} {f : Yield → Work σ ρ α} (hf : ∀ y, Quiet (f y)) :
    Did s (store.run q >>= f) fun final calls =>
      final = s.subject ∧ ∃ answer, calls = [.query q answer] := by
  have ran : Did s (store.run q) fun final calls =>
      final = s.subject ∧ ∃ answer, calls = [.query q answer] := ⟨_, rfl, rfl, _, rfl⟩
  refine .bind ran (fun _ _ h => h) ?_
  rintro y t calls - ⟨hsubject, answer, rfl⟩
  exact .of_quiet (hf y) ⟨hsubject, answer, rfl⟩

/-- A query is one call, whatever its outcome. -/
theorem did_executeQuery (q : Query) : Did s (store.executeQuery q) fun final calls =>
    final = s.subject ∧ ∃ answer, calls = [.query q answer] := by
  refine .reporting (did_run_bind fun y => ?_)
  split
  · exact .pure _
  · exact .throw _

theorem did_fetchQuery (q : Query) : Did s (store.fetchQuery q) fun final calls =>
    final = s.subject ∧ ∃ answer, calls = [.query q answer] := by
  refine .reporting (did_run_bind fun y => ?_)
  split
  · exact .pure _
  · exact .throw _

theorem did_render_bind {st : Statement} {f : Query → Work σ ρ α} {P : ρ → List Call → Prop}
    (hf : ∀ t : Session σ ρ, t.subject = s.subject →
      Did t (f (store.connection.dialect.render st)) P) : Did s (store.render st >>= f) P := by
  -- rendering does not fail
  have rendered : store.render st s = .ok (store.connection.dialect.render st) _ := rfl
  unfold Did
  rw [bind_of_ok rendered]
  exact hf _ rfl

theorem did_executeStatement (st : Statement) : Did s (store.executeStatement st) fun final calls =>
    final = s.subject ∧ ∃ answer,
      calls = [.query (store.connection.dialect.render st) answer] := by
  refine did_render_bind fun t hsubject => (did_executeQuery _).mono ?_
  rintro final calls ⟨rfl, hcalls⟩
  exact ⟨hsubject, hcalls⟩

/-! ## The calls of an insertion -/

/-- All calls run queries of the insert. -/
def AsksOnly (store : Store σ) (st : InsertStatement) (calls : List Call) : Prop :=
  ∀ call ∈ calls, ∃ q ∈ store.insertQueries st, ∃ answer, call = .query q answer

/-- The key is looked for in the rows without a call. -/
theorem quiet_keyOfRows (st : InsertStatement) (rows : List Row) :
    Quiet (match rows.head?.bind (·.values.head?) with
      | some v =>
          if v.isNull then Work.reportedFailure (.keyNotReturned st.table.name) else pure v
      | none => Work.reportedFailure (.keyNotReturned st.table.name) : Work σ Record Value) := by
  split
  · split
    · exact .reportedFailure _
    · exact .pure _
  · exact .reportedFailure _

/-- Inserting a row makes no other calls than the insert and the query for its key. -/
theorem did_insertReturningKey {s : Session σ Record} {st : InsertStatement}
    (hkey : st.generatedKey.isSome = true) :
    Did s (store.insertReturningKey st) fun final calls =>
      final = s.subject ∧ store.AsksOnly st calls := by
  unfold insertReturningKey AsksOnly insertQueries
  rw [if_pos hkey]
  refine did_render_bind fun t hsubject => ?_
  cases hfollow : store.connection.dialect.generatedKeyQuery with
  | none =>
      refine .bind (did_fetchQuery _) ?_ ?_
      · rintro _ _ ⟨rfl, answer, rfl⟩
        exact ⟨hsubject, by simp⟩
      · rintro rows u _ - ⟨hsubject', answer, rfl⟩
        exact .of_quiet (quiet_keyOfRows st rows) ⟨hsubject'.trans hsubject, by simp⟩
  | some followUp =>
      -- the insert is executed, and its key fetched by a second query
      refine .bind (did_executeQuery _) ?_ ?_
      · rintro _ _ ⟨rfl, answer, rfl⟩
        exact ⟨hsubject, by simp⟩
      · rintro _ u _ - ⟨hsubject', answer, rfl⟩
        refine .bind (did_fetchQuery _) ?_ ?_
        · rintro _ _ ⟨rfl, answer', rfl⟩
          exact ⟨hsubject'.trans hsubject, by simp⟩
        · rintro rows w _ - ⟨hsubject'', answer', rfl⟩
          refine .of_quiet (quiet_keyOfRows st rows) ⟨?_, by simp⟩
          exact hsubject''.trans (hsubject'.trans hsubject)

/-- So does the insertion of the row of a record, whichever way its key is found. The key that is
handed back is all that it assigns. -/
theorem did_insertRow {s : Session σ Record} {st : InsertStatement} :
    Did s (store.insertRow st) fun final calls =>
      (final = s.subject ∨ ∃ key v, st.generatedKey = some key ∧
        s.subject.setField key.property v = .ok final) ∧ store.AsksOnly st calls := by
  unfold insertRow
  split
  next key hkey =>
    refine .bind (did_insertReturningKey (by simp [hkey])) (fun _ _ h => h.imp_left .inl) ?_
    rintro v t calls - ⟨hsubject, hcalls⟩
    refine did_assignField.mono ?_
    rintro _ _ ⟨rfl, hassigned⟩
    rw [List.append_nil, ← hsubject]
    exact ⟨hassigned.imp_right fun hassign => ⟨key, v, hkey, hassign⟩, hcalls⟩
  next hkey =>
    have asked {answer : Yield} :
        store.AsksOnly st [.query (store.connection.dialect.render (.insert st)) answer] := by
      simp [AsksOnly, insertQueries]
    refine .bind (did_executeStatement _) ?_ ?_
    · rintro _ _ ⟨rfl, answer, rfl⟩
      exact ⟨.inl rfl, asked⟩
    · rintro n t _ - ⟨hsubject, answer, rfl⟩
      exact .of_quiet (.pure _) ⟨.inl hsubject, asked⟩

end Store

/-- The insertion of one row: the place of its record, the record as the statement was made for it
and the statement, the session in which the row was inserted, and the calls for that. -/
structure RowInsertion (σ : Type) where
  place : Place
  forced : Bool
  map : EntityMap
  given : Record
  statement : InsertStatement
  begun : Session σ Record
  calls : List Call

/-- The same insertion, seen from the record that owns item `i` of a slot. -/
def RowInsertion.under (x : RowInsertion σ) (slot : String) (i : Nat) : RowInsertion σ :=
  { x with place := (slot, i) :: x.place }

/-- The row is that of a record at or below `root`, which had been kept until then. The owner of
`root` may have assigned the fields of `extra` to it, and the insertion of `root` alone may have
been forced. -/
structure RowInsertion.IsBelow (store : Store σ) (forced : Bool) (extra : String → Prop)
    (root : Record) (x : RowInsertion σ) : Prop where
  kept : ∃ record, root.at? x.place = some record ∧
    Keeps store.model (Keeps.givenAt store.model extra root x.place) record x.given
  forced_eq : x.forced = (forced && x.place.isEmpty)
  map_eq : store.model.entityMap x.given.type = .ok x.map
  made : ∃ supply b, Edit.insert x.map x.forced ⟨x.given, supply⟩ = .ok (some x.statement) b ∧
    x.begun.subject = b.record
  calls_eq : (stateAfter (store.insertRow x.statement x.begun)).calls = x.begun.calls ++ x.calls
  asks : store.AsksOnly x.statement x.calls

namespace RowInsertion.IsBelow

variable {store : Store σ} {forced : Bool} {extra : String → Prop} {root root' child : Record}
  {x : RowInsertion σ} {slot : String} {i : Nat}

theorem of_keeps (h : x.IsBelow store forced extra root')
    (hkeep : Keeps store.model extra root root') : x.IsBelow store forced extra root where
  kept := by
    obtain ⟨record', hat, kept⟩ := h.kept
    obtain ⟨record, hrecord, before⟩ := hkeep.exists_at? hat
    exact ⟨record, hrecord, before.trans (kept.mono fun _ hgiven => hgiven.of_keeps hkeep)⟩
  forced_eq := h.forced_eq
  map_eq := h.map_eq
  made := h.made
  calls_eq := h.calls_eq
  asks := h.asks

theorem of_item (hchild : (root.items slot)[i]? = some child)
    (h : x.IsBelow store false (store.model.GivesKey root slot) child) :
    (x.under slot i).IsBelow store forced extra root where
  kept := by
    obtain ⟨record, hat, kept⟩ := h.kept
    refine ⟨record, ?_, kept.mono fun _ hgiven => hgiven.of_item hchild⟩
    rw [RowInsertion.under, Record.at?_cons, hchild]
    exact hat
  forced_eq := h.forced_eq.trans (by simp [RowInsertion.under])
  map_eq := h.map_eq
  made := h.made
  calls_eq := h.calls_eq
  asks := h.asks

end RowInsertion.IsBelow

/-- The references of the record had all been worked on, one after the other and with success, when
the statement was made for it. -/
def RowInsertion.Referred (store : Store σ) (x : RowInsertion σ) : Prop :=
  ∃ levels s t, store.model.entityMap s.subject.type = .ok x.map ∧
    (x.map.relationsOf .manyToOne).forM
      (store.insertReference (store.insertLevels levels false) x.map) s = .ok () t ∧
    t.subject = x.given

/-- The calls of the work are those of the insertions of rows, one after the other, for records at
and below the one that it starts on. -/
def OnlyInserts (store : Store σ) (forced : Bool) (extra : String → Prop) (s : Session σ Record)
    (work : Work σ Record α) : Prop :=
  Did s work fun _ calls => ∃ rows : List (RowInsertion σ), calls = rows.flatMap (·.calls) ∧
    ∀ x ∈ rows, x.IsBelow store forced extra s.subject

/-- The same, and `Q` is known of every row. -/
def OnlyInsertsOf (Q : RowInsertion σ → Prop) (store : Store σ) (forced : Bool)
    (extra : String → Prop) (s : Session σ Record) (work : Work σ Record α) : Prop :=
  Did s work fun _ calls => ∃ rows : List (RowInsertion σ), calls = rows.flatMap (·.calls) ∧
    ∀ x ∈ rows, x.IsBelow store forced extra s.subject ∧ Q x

namespace OnlyInsertsOf

variable {Q Q' : RowInsertion σ → Prop} {store : Store σ} {forced : Bool} {extra : String → Prop}
  {s : Session σ Record}

theorem onlyInserts {work : Work σ Record α} (h : OnlyInsertsOf Q store forced extra s work) :
    OnlyInserts store forced extra s work := by
  refine h.mono ?_
  rintro _ _ ⟨rows, rfl, hrows⟩
  exact ⟨rows, rfl, fun x hx => (hrows x hx).1⟩

theorem of_noCalls {work : Work σ Record α} (h : Did s work fun _ calls => calls = []) :
    OnlyInsertsOf Q store forced extra s work := by
  refine h.mono ?_
  rintro _ _ rfl
  exact ⟨[], rfl, List.forall_mem_nil _⟩

theorem of_quiet {work : Work σ Record α} (h : Quiet work) :
    OnlyInsertsOf Q store forced extra s work :=
  .of_noCalls (.of_quiet h rfl)

/-- What is below the record that the first part leaves is below the record that it started on. -/
theorem bind {x : Work σ Record α} {f : α → Work σ Record β}
    (hx : OnlyInsertsOf Q store forced extra s x)
    (hkeep : KeepsFrom Session.subject store.model extra s x)
    (hf : ∀ a t, x s = .ok a t → Keeps store.model extra s.subject t.subject →
      OnlyInsertsOf Q store forced extra t (f a)) :
    OnlyInsertsOf Q store forced extra s (x >>= f) := by
  refine Did.bind hx (fun _ _ h => h) ?_
  rintro a t _ h ⟨rows, rfl, hrows⟩
  have kept := hkeep.of_ok h
  refine (hf a t h kept).mono ?_
  rintro _ _ ⟨more, rfl, hmore⟩
  refine ⟨rows ++ more, List.flatMap_append.symm, fun x hx => ?_⟩
  rcases List.mem_append.mp hx with hx | hx
  · exact hrows x hx
  · exact ⟨(hmore x hx).1.of_keeps kept, (hmore x hx).2⟩

theorem quiet_bind {x : Work σ Record α} {f : α → Work σ Record β} (hx : Quiet x)
    (hf : ∀ a t, x s = .ok a t → t.subject = s.subject →
      OnlyInsertsOf Q store forced extra t (f a)) :
    OnlyInsertsOf Q store forced extra s (x >>= f) := by
  refine Did.quiet_bind hx ⟨[], rfl, List.forall_mem_nil _⟩ fun a t h hsubject => ?_
  rw [← hsubject]
  exact hf a t h hsubject

theorem subject_bind {f : Record → Work σ Record α}
    (h : OnlyInsertsOf Q store forced extra s (f s.subject)) :
    OnlyInsertsOf Q store forced extra s (Work.subject >>= f) := Did.subject_bind h

theorem forM {xs : List α} {f : α → Work σ Record Unit}
    (hkeep : ∀ x ∈ xs, ∀ t : Session σ Record, Keeps store.model extra s.subject t.subject →
      KeepsFrom Session.subject store.model extra t (f x))
    (h : ∀ x ∈ xs, ∀ t : Session σ Record, Keeps store.model extra s.subject t.subject →
      OnlyInsertsOf Q store forced extra t (f x)) :
    OnlyInsertsOf Q store forced extra s (xs.forM f) := by
  induction xs generalizing s with
  | nil => exact .of_quiet (.pure ())
  | cons x xs ih =>
      refine .bind (f := fun _ => xs.forM f) (h x (by simp) s (.refl _))
        (hkeep x (by simp) s (.refl _)) fun _ t _ ht => ih ?_ ?_
      · exact fun y hy u hu => hkeep y (List.mem_cons_of_mem x hy) u (ht.trans hu)
      · exact fun y hy u hu => h y (List.mem_cons_of_mem x hy) u (ht.trans hu)

theorem framed {frame : Frame} {work : Work σ Record α}
    (h : OnlyInsertsOf Q store forced extra s work) :
    OnlyInsertsOf Q store forced extra s (Work.framed frame work) := Did.framed h

theorem onItem {property : String} {i : Nat} {child : Record} {work : Work σ Record α}
    (hchild : (s.subject.items property)[i]? = some child)
    (hunder : ∀ x, Q' x → Q (x.under property i))
    (h : OnlyInsertsOf Q' store false (store.model.GivesKey s.subject property)
      { s with subject := child } work) :
    OnlyInsertsOf Q store forced extra s (Work.onItem property i child work) := by
  refine (did_onItem h).mono ?_
  rintro _ _ ⟨_, ⟨rows, rfl, hrows⟩, rfl⟩
  refine ⟨rows.map (·.under property i), ?_, ?_⟩
  · rw [List.flatMap_map]
    rfl
  · intro x hx
    obtain ⟨y, hy, rfl⟩ := List.mem_map.mp hx
    exact ⟨(hrows y hy).1.of_item hchild, hunder y (hrows y hy).2⟩

/-- The row of a record is inserted by the statement that is made for it. -/
theorem insert {map : EntityMap} {rest : Work σ Record Unit}
    (hmap : store.model.entityMap s.subject.type = .ok map)
    (hown : ∀ x : RowInsertion σ, x.map = map → x.given = s.subject → Q x)
    (hrest : ∀ t : Session σ Record, Keeps store.model extra s.subject t.subject →
      OnlyInsertsOf Q store forced extra t rest) :
    OnlyInsertsOf Q store forced extra s (do
      match ← Work.ofEdit (Edit.insert map forced) with
      | none => return
      | some st => do
          store.insertRow st
          rest) := by
  have prepared : KeepsFrom Session.subject store.model extra s
      (Work.ofEdit (Edit.insert map forced)) := .ofEdit (.editInsert hmap)
  refine Did.bind (did_ofEdit _) ?_ ?_
  · rintro _ _ ⟨-, rfl⟩
    exact ⟨[], rfl, List.forall_mem_nil _⟩
  rintro outcome s₁ _ hedit ⟨-, rfl⟩
  have kept₁ := prepared.of_ok hedit
  cases outcome with
  | none => exact .of_quiet (.pure _) ⟨[], rfl, List.forall_mem_nil _⟩
  | some st =>
      obtain ⟨b, hinsert, hsubject, -⟩ := Work.ok_of_ofEdit hedit
      obtain ⟨calls, hcalls, hasks⟩ : Did s₁ (store.insertRow st) fun _ calls =>
        store.AsksOnly st calls := Store.did_insertRow.mono fun _ _ h => h.2
      have row : RowInsertion.IsBelow store forced extra s.subject
          ⟨[], forced, map, s.subject, st, s₁, calls⟩ := {
        kept := ⟨s.subject, rfl, .refl _⟩
        forced_eq := by simp
        map_eq := hmap
        made := ⟨s.supply, b, hinsert, hsubject⟩
        calls_eq := hcalls
        asks := hasks }
      have inserted : Did s₁ (store.insertRow st) fun _ made => made = calls := ⟨calls, hcalls, rfl⟩
      refine Did.bind inserted ?_ ?_
      · rintro _ _ rfl
        exact ⟨[_], (List.append_nil _).symm,
          List.forall_mem_singleton.mpr ⟨row, hown _ rfl rfl⟩⟩
      · rintro _ s₂ _ hrow rfl
        have keeps : KeepsFrom Session.subject store.model extra s₁ (store.insertRow st) := by
          refine Store.keepsFrom_insertRow fun key hkey => ?_
          rw [hsubject]
          exact Edit.assigns_of_insert (b := ⟨s.subject, s.supply⟩) hmap hinsert hkey
        have kept := kept₁.trans (keeps.of_ok hrow)
        refine (hrest s₂ kept).mono ?_
        rintro _ _ ⟨more, rfl, hmore⟩
        refine ⟨_ :: more, rfl, List.forall_mem_cons.mpr ⟨⟨row, hown _ rfl rfl⟩, fun x hx => ?_⟩⟩
        exact ⟨(hmore x hx).1.of_keeps kept, (hmore x hx).2⟩

end OnlyInsertsOf

namespace Store

variable {Q Q' : RowInsertion σ → Prop} {store : Store σ} {forced : Bool} {extra : String → Prop}
  {map : EntityMap} {r : RelationDef} {s : Session σ Record} {cascade : Work σ Record Unit}

theorem onlyInserts_copyKey (target : EntityMap) :
    OnlyInsertsOf Q store forced extra s (copyKey target r) :=
  .of_noCalls ((did_copyKey target r).mono fun _ _ h => h.1)

theorem onlyInserts_insertReference (hkeeps : store.KeepsAll cascade)
    (hcascade : ∀ s extra, OnlyInsertsOf Q' store false extra s cascade)
    (hunder : ∀ x, Q' x → Q (x.under r.property 0)) :
    OnlyInsertsOf Q store forced extra s (store.insertReference cascade map r) := by
  unfold insertReference
  refine .quiet_bind (.ofExcept _) fun target s₁ _ _ => .subject_bind ?_
  split
  next child hchild =>
    refine .quiet_bind (.ofExcept _) fun new s₂ _ hsubject => ?_
    rw [← hsubject] at hchild
    have item := Record.items_of_reference? hchild
    split
    · exact .bind (.framed (.onItem item hunder (hcascade _ _)))
        (.framed (.onItem item (hkeeps _ _))) fun _ _ _ _ => onlyInserts_copyKey target
    · exact onlyInserts_copyKey target
  next =>
    split
    · exact .of_quiet (.pure _)
    · refine .of_quiet (.bind .subject fun _ => .bind (.ofExcept _) fun _ => ?_)
      split
      · exact .pure _
      · exact .reportedFailure _

theorem onlyInserts_insertItem {target : EntityMap} {key : Value} {i : Nat}
    (hcascade : ∀ s extra, OnlyInsertsOf Q' store false extra s cascade)
    (hunder : ∀ x i, Q' x → Q (x.under r.property i))
    (hmap : store.model.entityMap s.subject.type = .ok map) (hr : r ∈ map.relationsOf .oneToMany) :
    OnlyInsertsOf Q store forced extra s (insertItem cascade map target r key i) := by
  unfold insertItem
  refine .subject_bind ?_
  split
  next => exact .of_quiet (.pure _)
  next child hchild =>
    refine .quiet_bind (.ofExcept _) fun new s₁ _ hsubject => ?_
    rw [← hsubject] at hmap hchild
    split
    · exact .of_quiet (.pure _)
    · refine .onItem hchild (fun x => hunder x i)
        (.bind ?_ (.assignField (.inr ?_)) fun _ _ _ _ => ?_)
      · exact .of_noCalls (did_assignField.mono fun _ _ h => h.1)
      · exact ⟨map, r, hmap, hr, rfl, rfl⟩
      · exact .framed (hcascade _ _)

theorem onlyInserts_insertCollection (hkeeps : store.KeepsAll cascade)
    (hcascade : ∀ s extra, OnlyInsertsOf Q' store false extra s cascade)
    (hunder : ∀ x i, Q' x → Q (x.under r.property i))
    (hmap : store.model.entityMap s.subject.type = .ok map) (hr : r ∈ map.relationsOf .oneToMany) :
    OnlyInsertsOf Q store forced extra s (store.insertCollection cascade map r) := by
  unfold insertCollection
  refine .quiet_bind (.ofExcept _) fun target s₁ _ h₁ => .subject_bind ?_
  refine .quiet_bind (.ofExcept _) fun key s₂ _ h₂ => .subject_bind ?_
  rw [← h₁, ← h₂] at hmap
  split
  · exact .of_quiet (.pure _)
  · refine .forM (fun i _ t ht => keepsFrom_insertItem hkeeps ?_ hr) fun i _ t ht =>
      onlyInserts_insertItem hcascade hunder ?_ hr
    all_goals rw [ht.type_eq, hmap]

theorem onlyInserts_insertLevels (store : Store σ) (levels : Nat) (forced : Bool)
    (s : Session σ Record) (extra : String → Prop) :
    OnlyInsertsOf (·.Referred store) store forced extra s (store.insertLevels levels forced) := by
  induction levels generalizing forced s extra with
  | zero => exact .subject_bind (.of_quiet (.throw _))
  | succ levels ih =>
      have keeps := keepsAll_insertLevels store levels false
      unfold insertLevels
      refine .subject_bind (.quiet_bind (.ofExcept _) fun map s₁ hmapOf h₁ => ?_)
      obtain ⟨hmap, -, -⟩ := Work.ok_of_ofExcept hmapOf
      refine .quiet_bind (.isStored map) fun stored s₂ _ h₂ => ?_
      rw [← h₁, ← h₂] at hmap
      split
      · exact .of_quiet (.pure _)
      · refine .bind (.forM ?_ fun r hr t ht => onlyInserts_insertReference keeps (ih false)
          fun _ h => h) (.forM ?_) fun _ s₃ hreferences h₃ => ?_
        iterate 2
          exact fun r hr t ht => keepsFrom_insertReference keeps (by rw [ht.type_eq, hmap]) hr
        have hmap₃ := h₃.type_eq ▸ hmap
        refine .insert hmap₃ (fun x hx hgiven => ?_) fun t ht => .forM ?_ fun r hr u hu =>
          onlyInserts_insertCollection keeps (ih false) (fun _ _ h => h) ?_ hr
        · subst hx
          exact ⟨levels, s₂, s₃, hmap, hreferences, hgiven.symm⟩
        · exact fun r hr u hu => keepsFrom_insertCollection keeps
            (by rw [hu.type_eq, ht.type_eq, hmap₃]) hr
        · rw [hu.type_eq, ht.type_eq, hmap₃]

/-- Every call that the insertion of a record makes, however it ends, is for the insertion of the
record or of one below it. -/
theorem onlyInserts_insertRecord (store : Store σ) (forced : Bool) (s : Session σ Record)
    (extra : String → Prop) : OnlyInserts store forced extra s (store.insertRecord forced) :=
  (OnlyInsertsOf.subject_bind (onlyInserts_insertLevels store _ forced s extra)).onlyInserts

end Store

end GraphStore
