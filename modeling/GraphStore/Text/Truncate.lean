import GraphStore.Text.Blank

/-!
# Cutting long texts

Lengths are counted in bytes of the UTF-8 form, and a cut never falls inside a character: a text is
cut where one of its characters begins (`isValid_cutOffset`). `truncateAt` is the beginning of a
text that takes a given number of bytes at most; `abridge` is the form in which queries appear in
messages and in the journal.
-/

set_option autoImplicit false

namespace GraphStore.Text

/-- Where the characters of a list begin, in bytes, the first of them at `start`. -/
def offsetsFrom : Nat → List Char → List Nat
  | _, [] => []
  | start, c :: rest => start :: offsetsFrom (start + c.utf8Size) rest

/-- Where a text is cut that takes more than `max` bytes: before the last of its characters that
begins behind at most `max` bytes. -/
def cutOffset (text : String) (max : Nat) : Nat :=
  ((offsetsFrom 0 text.toList).takeWhile (· ≤ max)).getLast?.getD 0

/-- A character begins behind the characters before it. -/
theorem mem_offsetsFrom {start n : Nat} {cs : List Char} (h : n ∈ offsetsFrom start cs) :
    ∃ before c after, cs = before ++ c :: after ∧
      n = start + (String.ofList before).utf8ByteSize := by
  induction cs generalizing start with
  | nil => cases h
  | cons c cs ih =>
      rcases List.mem_cons.mp h with rfl | h
      · exact ⟨[], c, cs, rfl, by simp⟩
      · obtain ⟨before, d, after, rfl, rfl⟩ := ih h
        exact ⟨c :: before, d, after, rfl, by simp [Nat.add_assoc, String.ofList_cons]⟩

/-- A cut is at the boundary of a character. -/
theorem isValid_cutOffset (text : String) (max : Nat) :
    (⟨cutOffset text max⟩ : String.Pos.Raw).IsValid text := by
  unfold cutOffset
  cases hlast : ((offsetsFrom 0 text.toList).takeWhile (· ≤ max)).getLast? with
  | none => exact String.Pos.Raw.isValid_zero
  | some n =>
      have begins := (List.takeWhile_prefix _).subset (List.mem_of_getLast? hlast)
      obtain ⟨before, c, after, htext, rfl⟩ := mem_offsetsFrom begins
      refine String.Pos.Raw.isValid_iff_exists_append.mpr
        ⟨.ofList before, .ofList (c :: after), ?_, ?_⟩
      · rw [← String.ofList_append, ← htext, String.ofList_toList]
      · exact String.Pos.Raw.ext (Nat.zero_add _)

/-- A beginning of `text` that takes at most `max` bytes. -/
def truncateAt (text : String) (max : Nat) : String :=
  if text.utf8ByteSize ≤ max then text
  else (text.sliceTo (text.pos ⟨cutOffset text max⟩ (isValid_cutOffset text max))).copy

/-- What is kept of a query in a message, in bytes. -/
def abridgedSize : Nat := 497

/-- A text of at most 497 bytes, its blank end removed, as it is; a longer one cut to that size
with an ellipsis. -/
def abridge (text : String) : String :=
  trimBlankEnd (truncateAt text abridgedSize) ++
    (if text.utf8ByteSize > abridgedSize then "..." else "")

end GraphStore.Text
