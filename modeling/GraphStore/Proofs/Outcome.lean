import GraphStore.Error
import Mathlib.Data.List.Forall2
import Mathlib.Data.List.Induction

/-!
# Outcomes

What a result says about the steps that led to it: a chain of steps gives a result only when
every step did. The same for work that changes a state and ends well.
-/

set_option autoImplicit false

namespace GraphStore

variable {ε α β : Type}

/-- A step that gave a result is passed over. -/
theorem ok_bind (a : α) (f : α → Except ε β) : (Except.ok a >>= f) = f a := rfl

/-- The steps of a chain that gave a result. -/
theorem ok_of_bind {x : Except ε α} {f : α → Except ε β} {b : β} (h : x >>= f = .ok b) :
    ∃ a, x = .ok a ∧ f a = .ok b := by
  cases x with
  | error e => cases h
  | ok a => exact ⟨a, rfl, h⟩

/-- A chain gives a result if its first step does and the rest does after it. -/
theorem exists_ok_bind_iff {x : Except ε α} {f : α → Except ε β} :
    (∃ b, x >>= f = .ok b) ↔ ∃ a, x = .ok a ∧ ∃ b, f a = .ok b := by
  constructor
  · rintro ⟨b, h⟩
    obtain ⟨a, ha, hb⟩ := ok_of_bind h
    exact ⟨a, ha, b, hb⟩
  · rintro ⟨a, rfl, h⟩
    exact h

/-- A chain that failed did so in its first step or after it. -/
theorem error_of_bind {x : Except ε α} {f : α → Except ε β} {e : ε} (h : x >>= f = .error e) :
    x = .error e ∨ ∃ a, x = .ok a ∧ f a = .error e := by
  cases x with
  | error e' => exact .inl (congrArg Except.error (Except.error.inj h))
  | ok a => exact .inr ⟨a, rfl, h⟩

theorem error_of_map {x : Except ε α} {f : α → β} {e : ε} (h : x.map f = .error e) :
    x = .error e := by
  cases x with
  | error e' => exact congrArg Except.error (Except.error.inj h)
  | ok a => cases h

theorem ok_of_map {x : Except ε α} {f : α → β} {b : β} (h : x.map f = .ok b) :
    ∃ a, x = .ok a ∧ f a = b := by
  cases x with
  | error e => cases h
  | ok a => exact ⟨a, rfl, Except.ok.inj h⟩

theorem ok_of_mapError {x : Except ε α} {f : ε → β} {a : α} (h : x.mapError f = .ok a) :
    x = .ok a := by
  cases x with
  | error e => cases h
  | ok b => exact congrArg Except.ok (Except.ok.inj h)

/-- What was found when nothing failed. -/
theorem ok_of_orFail {x : Option α} {cause : Cause} {a : α}
    (h : orFail x cause = .ok a) : x = some a := by
  cases x with
  | none => cases h
  | some b => exact congrArg some (Except.ok.inj h)

/-- A check that was passed. -/
theorem ok_of_check {c : Prop} [Decidable c] {e : ε} {f : PUnit → Except ε β} {b : β}
    (h : (if c then (throw e : Except ε PUnit) >>= f else f ⟨⟩) = .ok b) : ¬ c ∧ f ⟨⟩ = .ok b := by
  by_cases hc : c
  · rw [if_pos hc] at h
    cases h
  · rw [if_neg hc] at h
    exact ⟨hc, h⟩

/-- A check is passed by what it does not stop. -/
theorem check_eq_ok {c : Prop} [Decidable c] {e : ε} {f : PUnit → Except ε β} {b : β} :
    (if c then (throw e : Except ε PUnit) >>= f else f ⟨⟩) = .ok b ↔ ¬ c ∧ f ⟨⟩ = .ok b :=
  ⟨ok_of_check, fun ⟨hc, h⟩ => (if_neg hc).trans h⟩

/-- What follows a choice got a value from it, whichever way it went. -/
theorem ok_of_choice {c : Prop} [Decidable c] {x : Except ε PUnit} {y z : Except ε α}
    {f : α → Except ε β} {b : β}
    (h : (if c then x >>= fun _ => y >>= f else z >>= f) = .ok b) :
    ∃ a, ((c ∧ x = .ok ⟨⟩ ∧ y = .ok a) ∨ (¬ c ∧ z = .ok a)) ∧ f a = .ok b := by
  by_cases hc : c
  · rw [if_pos hc] at h
    obtain ⟨_, hx, h⟩ := ok_of_bind h
    obtain ⟨a, hy, h⟩ := ok_of_bind h
    exact ⟨a, .inl ⟨hc, hx, hy⟩, h⟩
  · rw [if_neg hc] at h
    obtain ⟨a, hz, h⟩ := ok_of_bind h
    exact ⟨a, .inr ⟨hc, hz⟩, h⟩

/-- A choice gives a value if the way that is taken does. -/
theorem choice_eq_ok {c : Prop} [Decidable c] {x : Except ε PUnit} {y z : Except ε α}
    {f : α → Except ε β} {b : β} :
    (if c then x >>= fun _ => y >>= f else z >>= f) = .ok b ↔
      ∃ a, ((c ∧ x = .ok ⟨⟩ ∧ y = .ok a) ∨ (¬ c ∧ z = .ok a)) ∧ f a = .ok b := by
  refine ⟨ok_of_choice, ?_⟩
  rintro ⟨a, ⟨hc, rfl, rfl⟩ | ⟨hc, rfl⟩, h⟩
  · exact (if_pos hc).trans h
  · exact (if_neg hc).trans h

/-! ## Loops -/

/-- What one step keeps, a fold of steps keeps. -/
theorem keeps_of_foldlM {f : β → α → Except ε β} {P : β → Prop}
    (step : ∀ b a b', P b → f b a = .ok b' → P b') {xs : List α} {b b' : β} (hb : P b)
    (h : xs.foldlM f b = .ok b') : P b' := by
  induction xs generalizing b with
  | nil =>
      cases h
      exact hb
  | cons x xs ih =>
      rw [List.foldlM_cons] at h
      obtain ⟨c, hc, h⟩ := ok_of_bind h
      exact ih (step b x c hb hc) h

/-- A loop accepts the lists that fit, if an item is accepted exactly when it fits behind those
before it. What has been made of the items so far is kept up with every step. -/
theorem exists_foldlM_iff {f : β → α → Except ε β} {b : β} {Fit : List α → Prop}
    {Behind : List α → α → Prop} {R : List α → β → Prop} (fit_nil : Fit [])
    (fit_concat : ∀ {xs x}, Fit (xs ++ [x]) ↔ Fit xs ∧ Behind xs x) (follows_nil : R [] b)
    (step : ∀ {xs x c}, R xs c → ((∃ c', f c x = .ok c') ↔ Behind xs x))
    (follows_concat : ∀ {xs x c c'}, R xs c → f c x = .ok c' → R (xs ++ [x]) c')
    (xs : List α) : ((∃ c, xs.foldlM f b = .ok c) ↔ Fit xs) ∧
      ∀ c, xs.foldlM f b = .ok c → R xs c := by
  induction xs using List.reverseRecOn with
  | nil =>
      refine ⟨iff_of_true ⟨b, rfl⟩ fit_nil, fun c h => ?_⟩
      cases h
      exact follows_nil
  | append_singleton xs x ih =>
      obtain ⟨accepted, follows⟩ := ih
      have last (c : β) : [x].foldlM f c = f c x := bind_pure _
      simp only [List.foldlM_append, last]
      constructor
      · rw [exists_ok_bind_iff, fit_concat, ← accepted]
        constructor
        · rintro ⟨c, hc, more⟩
          exact ⟨⟨c, hc⟩, (step (follows c hc)).mp more⟩
        · rintro ⟨⟨c, hc⟩, behind⟩
          exact ⟨c, hc, (step (follows c hc)).mpr behind⟩
      · intro c' h
        obtain ⟨c, hc, hstep⟩ := ok_of_bind h
        exact follows_concat (follows c hc) hstep

/-! ## Lists -/

/-- Lists have the same images if their items have, one by one. -/
theorem map_eq_map_iff_forall₂ {γ : Type} {f : α → γ} {g : β → γ} {xs : List α} {ys : List β} :
    xs.map f = ys.map g ↔ List.Forall₂ (fun x y => f x = g y) xs ys := by
  rw [← List.forall₂_eq_eq_eq, List.forall₂_map_left_iff, List.forall₂_map_right_iff]

/-- What is related to an item of the second list. -/
theorem exists_of_mem_forall₂ {R : α → β → Prop} {xs : List α} {ys : List β}
    (h : List.Forall₂ R xs ys) {y : β} (hy : y ∈ ys) : ∃ x ∈ xs, R x y := by
  induction h with
  | nil => cases hy
  | cons hR hrest ih =>
      rcases List.mem_cons.mp hy with rfl | hy
      · exact ⟨_, List.mem_cons_self, hR⟩
      · obtain ⟨x, hx, hxy⟩ := ih hy
        exact ⟨x, List.mem_cons_of_mem _ hx, hxy⟩

/-- Relatedness may be weakened for the items of the first list alone. -/
theorem forall₂_imp_of_mem {R S : α → β → Prop} {xs : List α} {ys : List β}
    (h : List.Forall₂ R xs ys) (H : ∀ x ∈ xs, ∀ y, R x y → S x y) : List.Forall₂ S xs ys :=
  ((List.forall₂_and_left xs ys).mpr ⟨fun _ hx => hx, h⟩).imp fun x y hxy => H x hxy.1 y hxy.2

/-- What holds of all items on one side holds of all on the other, if it does for items that are
related. -/
theorem forall_mem_iff_of_forall₂ {R : α → β → Prop} {P : α → Prop} {Q : β → Prop} {xs : List α}
    {ys : List β} (h : List.Forall₂ R xs ys) (H : ∀ x y, R x y → (P x ↔ Q y)) :
    (∀ x ∈ xs, P x) ↔ ∀ y ∈ ys, Q y := by
  induction h with
  | nil => exact iff_of_true nofun nofun
  | cons hR _ ih => rw [List.forall_mem_cons, List.forall_mem_cons, H _ _ hR, ih]

/-- Two relations between lists, one after the other. -/
theorem forall₂_comp {γ : Type} {R : α → β → Prop} {S : β → γ → Prop} {xs : List α} {ys : List β}
    {zs : List γ} (h : List.Forall₂ R xs ys) (h' : List.Forall₂ S ys zs) :
    List.Forall₂ (fun x z => ∃ y, R x y ∧ S y z) xs zs := by
  induction h generalizing zs with
  | nil =>
      cases h'
      exact .nil
  | cons hR _ ih =>
      cases h' with
      | cons hS hrest => exact .cons ⟨_, hR, hS⟩ (ih hrest)

/-- One choice for every item. -/
theorem exists_forall₂ {R : α → β → Prop} {ys : List β} (h : ∀ y ∈ ys, ∃ x, R x y) :
    ∃ xs, List.Forall₂ R xs ys := by
  induction ys with
  | nil => exact ⟨[], .nil⟩
  | cons y ys ih =>
      obtain ⟨x, hx⟩ := h y List.mem_cons_self
      obtain ⟨xs, hxs⟩ := ih fun z hz => h z (List.mem_cons_of_mem y hz)
      exact ⟨x :: xs, .cons hx hxs⟩

/-! ## Work on a state -/

variable {S : Type}

/-- Work that ends well is made of work that ends well. -/
theorem ends_of_bind {x : EStateM ε S α} {f : α → EStateM ε S β} {s s' : S} {b : β}
    (h : (x >>= f) s = .ok b s') : ∃ a t, x s = .ok a t ∧ f a t = .ok b s' := by
  change EStateM.bind x f s = _ at h
  unfold EStateM.bind at h
  split at h
  next a t ha => exact ⟨a, t, ha, h⟩
  next => cases h

theorem bind_of_ok {x : EStateM ε S α} {f : α → EStateM ε S β} {s t : S} {a : α}
    (h : x s = .ok a t) : (x >>= f) s = f a t := by
  change EStateM.bind x f s = _
  unfold EStateM.bind
  rw [h]

/-- Work ends well if its first part does and the rest does after it. -/
theorem exists_ok_bind {x : EStateM ε S α} {f : α → EStateM ε S β} {s t : S} {a : α}
    (h : x s = .ok a t) (hf : ∃ b s', f a t = .ok b s') : ∃ b s', (x >>= f) s = .ok b s' := by
  rwa [bind_of_ok h]

theorem ends_of_pure {a b : α} {s s' : S} (h : (pure a : EStateM ε S α) s = .ok b s') :
    b = a ∧ s' = s := by
  cases h
  exact ⟨rfl, rfl⟩

theorem ends_of_forM_cons {f : α → EStateM ε S Unit} {x : α} {xs : List α} {s s' : S}
    (h : (x :: xs).forM f s = .ok () s') :
    ∃ t, f x s = .ok () t ∧ xs.forM f t = .ok () s' := by
  obtain ⟨_, t, hx, hxs⟩ := ends_of_bind (f := fun _ => xs.forM f) h
  exact ⟨t, hx, hxs⟩

/-- What every round of a loop keeps, the loop keeps. -/
theorem keeps_of_forIn {f : α → β → EStateM ε S (ForInStep β)} {P : β → Prop}
    (step : ∀ a b s r s', P b → f a b s = .ok r s' → P r.value) {xs : List α} {b b' : β} {s s' : S}
    (hb : P b) (h : forIn xs b f s = .ok b' s') : P b' := by
  induction xs generalizing b s with
  | nil =>
      rw [List.forIn_nil] at h
      obtain ⟨rfl, -⟩ := ends_of_pure h
      exact hb
  | cons x xs ih =>
      rw [List.forIn_cons] at h
      obtain ⟨r, t, hr, h⟩ := ends_of_bind h
      have kept := step x b s r t hb hr
      cases r with
      | done c =>
          obtain ⟨rfl, -⟩ := ends_of_pure h
          exact kept
      | yield c => exact ih kept h

/-- The state that work ends in, well or not. -/
def stateAfter : EStateM.Result ε S α → S
  | .ok _ s => s
  | .error _ s => s

/-- The value or the error that work ends with. -/
def outcome : EStateM.Result ε S α → Except ε α
  | .ok a _ => .ok a
  | .error e _ => .error e

/-- Whether work has ended well. -/
def endedWell : EStateM.Result ε S α → Bool
  | .ok _ _ => true
  | .error _ _ => false

/-- What the first part of some work has brought about by its end, well or not, and what the rest
makes of it. -/
theorem stateAfter_bind {P Q : S → Prop} {x : EStateM ε S α} {f : α → EStateM ε S β} {s : S}
    (hx : Q (stateAfter (x s))) (hfail : ∀ t, Q t → P t)
    (hf : ∀ a t, x s = .ok a t → Q t → P (stateAfter (f a t))) : P (stateAfter ((x >>= f) s)) := by
  change P (stateAfter (EStateM.bind x f s))
  unfold EStateM.bind
  cases h : x s with
  | ok a t =>
      rw [h] at hx
      exact hf a t h hx
  | error e t =>
      rw [h] at hx
      exact hfail t hx

theorem ok_of_endedWell (result : EStateM.Result ε S Unit) (h : endedWell result = true) :
    result = .ok () (stateAfter result) := by
  cases result with
  | ok a s => rfl
  | error e s => cases h

theorem error_of_not_endedWell (result : EStateM.Result ε S α) (h : endedWell result = false) :
    ∃ e, result = .error e (stateAfter result) := by
  cases result with
  | ok a s => cases h
  | error e s => exact ⟨e, rfl⟩

end GraphStore
