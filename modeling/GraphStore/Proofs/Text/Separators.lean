import GraphStore.Text.Separated
import Mathlib.Data.List.Basic

/-!
# What is written between items

The buffer behind the items holds what they have written, in order, with the separator between any
two of those that have written something. One more separator is written at the end if the last item
has written nothing although one before it has (`appendSeparated_exactly`): it was owed, and paid
before it was known that nothing follows.
-/

set_option autoImplicit false

namespace GraphStore.Text

variable {σ α β : Type}

/-! ## Outputs -/

section Outputs

variable (f : Appending σ α β) (separator : List β)

/-- What is appended for each item, given the length of the buffer before the item before them. -/
def outputsFrom : Nat → σ → List β → List α → List (List β)
  | _, _, _, [] => []
  | length, s, buffer, item :: items =>
      let buffer := spaced separator length buffer
      let (output, s) := f s buffer item
      output :: outputsFrom buffer.length s (buffer ++ output) items

/-- What is appended for each item. -/
def outputs (s : σ) (buffer : List β) (items : List α) : List (List β) :=
  outputsFrom f separator buffer.length s buffer items

theorem length_outputsFrom (length : Nat) (s : σ) (buffer : List β) (items : List α) :
    (outputsFrom f separator length s buffer items).length = items.length := by
  induction items generalizing length s buffer with
  | nil => rfl
  | cons item items ih => exact congrArg (· + 1) (ih _ _ _)

/-- A function that pays no attention to the buffer appends what it writes. -/
theorem outputsFrom_write (write : α → List β) (length : Nat) (s : σ) (buffer : List β)
    (items : List α) :
    outputsFrom (fun s _ item => (write item, s)) separator length s buffer items =
      items.map write := by
  induction items generalizing length buffer with
  | nil => rfl
  | cons item items ih => exact congrArg (write item :: ·) (ih _ _)

theorem spaced_eq (length : Nat) (buffer : List β) :
    spaced separator length buffer =
      buffer ++ if decide (length < buffer.length) then separator else [] := by
  unfold spaced
  by_cases h : length < buffer.length <;> simp [h]

/-- The buffer has grown if something was appended. -/
theorem grown_append (buffer output : List β) :
    decide (buffer.length < (buffer ++ output).length) = !output.isEmpty := by
  cases output <;> simp

/-- **The length that is remembered tells whether a separator is owed.** -/
theorem appendFrom_eq (length : Nat) (s : σ) (buffer : List β) (items : List α) :
    appendFrom f separator length s buffer items =
      buffer ++ separatedFrom id separator (decide (length < buffer.length))
        (outputsFrom f separator length s buffer items) := by
  induction items generalizing length s buffer with
  | nil => simp [appendFrom, outputsFrom, separatedFrom]
  | cons item items ih =>
      have rest := ih (spaced separator length buffer).length
        (f s (spaced separator length buffer) item).2
        (spaced separator length buffer ++ (f s (spaced separator length buffer) item).1)
      rw [grown_append] at rest
      rw [appendFrom, outputsFrom, separatedFrom, ← List.append_assoc, ← spaced_eq]
      exact rest.trans (List.append_assoc _ _ _)

theorem appendSeparated_eq (s : σ) (buffer : List β) (items : List α) :
    appendSeparated f separator s buffer items =
      buffer ++ separatedBy id separator (outputs f separator s buffer items) := by
  rw [appendSeparated, appendFrom_eq, outputs, separatedBy, decide_eq_false (Nat.lt_irrefl _)]

end Outputs

/-! ## Separators -/

section Separators

variable {outs : List (List β)}

/-- The outputs that are not empty. -/
def written (outs : List (List β)) : List (List β) := outs.filter (!·.isEmpty)

/-- The last output is empty, and one before it is not. -/
def endsOwing (outs : List (List β)) : Bool :=
  outs.getLast?.any (·.isEmpty) && !(written outs).isEmpty

theorem written_nil_cons (outs : List (List β)) : written ([] :: outs) = written outs := rfl

theorem written_cons (b : β) (o : List β) (outs : List (List β)) :
    written ((b :: o) :: outs) = (b :: o) :: written outs := rfl

theorem any_isEmpty_getLast?_cons (o : List β) (h : outs ≠ []) :
    (o :: outs).getLast?.any (·.isEmpty) = outs.getLast?.any (·.isEmpty) := by
  rw [List.getLast?_cons_of_ne_nil h]

/-- Where nothing is written, the last output is empty too. -/
theorem any_isEmpty_getLast?_of_written (h : outs ≠ []) (hnone : written outs = []) :
    outs.getLast?.any (·.isEmpty) = true := by
  obtain ⟨before, last, rfl⟩ := (List.eq_nil_or_concat outs).resolve_left h
  have empty := List.filter_eq_nil_iff.mp hnone last (by simp)
  simpa using empty

/-- A separator that is owed is paid before anything else. -/
theorem separatedFrom_owed (separator : List β) (h : outs ≠ []) :
    separatedFrom id separator true outs = separator ++ separatedBy id separator outs := by
  cases outs with
  | nil => exact absurd rfl h
  | cons o outs => rfl

/-- **Outputs with separators**: those that are not empty, with the separator between them, and a
separator that was owed and found nothing to come before. -/
theorem separatedBy_outputs (separator : List β) (outs : List (List β)) :
    separatedBy id separator outs =
      separator.intercalate (written outs) ++ if endsOwing outs then separator else [] := by
  induction outs with
  | nil => simp [written, endsOwing]
  | cons o outs ih =>
      by_cases hlast : outs = []
      · cases o <;> simp [hlast, written, endsOwing, separatedBy_singleton]
      cases o with
      | nil =>
          -- nothing is written, and nothing becomes owed
          have same : endsOwing ([] :: outs) = endsOwing outs := by
            rw [endsOwing, written_nil_cons, any_isEmpty_getLast?_cons _ hlast, endsOwing]
          rw [written_nil_cons, same, ← ih]
          rfl
      | cons b o =>
          have owing : endsOwing ((b :: o) :: outs) = outs.getLast?.any (·.isEmpty) := by
            rw [endsOwing, any_isEmpty_getLast?_cons _ hlast, written_cons]
            simp
          have step : separatedBy id separator ((b :: o) :: outs) =
              (b :: o) ++ (separator ++ separatedBy id separator outs) := by
            rw [← separatedFrom_owed separator hlast]
            rfl
          rw [step, ih, written_cons, owing]
          by_cases hnone : written outs = []
          · -- the separator is paid, but only empty outputs follow
            simp [hnone, endsOwing, any_isEmpty_getLast?_of_written hlast hnone,
              List.intercalate_singleton]
          · rw [List.intercalate_cons_of_ne_nil hnone, endsOwing]
            simp [hnone]

/-- The outputs of the items are laid out as the items are. -/
theorem separatedBy_map (write : α → List β) (separator : List β) (items : List α) :
    separatedBy id separator (items.map write) = separatedBy write separator items := by
  unfold separatedBy
  generalize false = owed
  induction items generalizing owed with
  | nil => rfl
  | cons item items ih =>
      rw [List.map_cons, separatedFrom, separatedFrom, ih]
      rfl

/-- Where every item writes something, there is a separator between any two, and no other. -/
theorem separatedBy_eq_intercalate {write : α → List β} {items : List α}
    (h : ∀ a ∈ items, write a ≠ []) (separator : List β) :
    separatedBy write separator items = separator.intercalate (items.map write) := by
  have nonempty : ∀ o ∈ items.map write, o.isEmpty = false := by
    intro o ho
    obtain ⟨a, ha, rfl⟩ := List.mem_map.mp ho
    exact List.isEmpty_eq_false_iff.mpr (h a ha)
  have all : written (items.map write) = items.map write :=
    List.filter_eq_self.mpr fun o ho => by rw [nonempty o ho, Bool.not_false]
  have paid : endsOwing (items.map write) = false := by
    unfold endsOwing
    cases hlast : (items.map write).getLast? with
    | none => rfl
    | some o => rw [Option.any_some, nonempty o (List.mem_of_getLast? hlast), Bool.false_and]
  rw [← separatedBy_map, separatedBy_outputs, all, paid, if_neg Bool.false_ne_true,
    List.append_nil]

end Separators

/-- **What is laid out in a buffer.** Behind what the buffer held stand the outputs that are not
empty, in order, with the separator between any two of them; and behind these one more separator if
and only if the last output is empty and another one is not. Statements are laid out so. -/
theorem appendSeparated_exactly (f : Appending σ α β) (separator : List β) (s : σ)
    (buffer : List β) (items : List α) :
    let outs := outputs f separator s buffer items
    outs.length = items.length ∧
    appendSeparated f separator s buffer items =
      buffer ++ (separator.intercalate (written outs) ++ if endsOwing outs then separator else []) ∧
    (appendSeparated f separator s buffer items =
        buffer ++ separator.intercalate (written outs) ↔
      endsOwing outs = false ∨ separator = []) ∧
    ∀ write : α → List β, buffer ++ separatedBy write separator items =
      appendSeparated (fun s _ item => (write item, s)) separator s buffer items := by
  intro outs
  have whole : appendSeparated f separator s buffer items =
      buffer ++ (separator.intercalate (written outs) ++
        if endsOwing outs then separator else []) := by
    rw [appendSeparated_eq, separatedBy_outputs]
  refine ⟨length_outputsFrom f separator _ s buffer items, whole, ?_, fun write => ?_⟩
  · rw [whole, List.append_cancel_left_eq, List.append_right_eq_self]
    cases endsOwing outs <;> simp
  · rw [appendSeparated_eq, outputs, outputsFrom_write, separatedBy_map]

/-- An empty item at the end leaves a separator behind the item before it. -/
theorem separatedText_of_empty_last :
    separatedText "(" ["a", ""] ", " = "(a, " ∧
      separatedText "(" ["a", ""] ", " ≠
        "(" ++ String.intercalate ", " (["a", ""].filter (!·.isEmpty)) := by
  decide

end GraphStore.Text
