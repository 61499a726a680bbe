import GraphStore.Text.Truncate
import Mathlib.Data.List.TakeWhile
import Mathlib.Order.Bounds.Basic

/-!
# How much is kept of a long text

`truncateAt` keeps as much of a text as a number of bytes can hold without a part of a character
(`truncateAt_longest`). Characters begin one behind another (`offsetsFrom_increasing`), so that the
last one that begins in time is found where the scan over them stops.
-/

set_option autoImplicit false

namespace GraphStore.Text

/-! ## Where characters begin -/

theorem le_of_mem_offsetsFrom {start n : Nat} {cs : List Char} (h : n ∈ offsetsFrom start cs) :
    start ≤ n := by
  obtain ⟨before, c, after, -, rfl⟩ := mem_offsetsFrom h
  exact Nat.le_add_right start _

/-- A character takes a byte at least. -/
theorem offsetsFrom_increasing (start : Nat) (cs : List Char) :
    (offsetsFrom start cs).Pairwise (· < ·) := by
  induction cs generalizing start with
  | nil => exact .nil
  | cons c cs ih =>
      refine .cons (fun n hn => ?_) (ih _)
      have later := le_of_mem_offsetsFrom hn
      have size := c.utf8Size_pos
      omega

/-- Wherever a text can be cut before its end, one of its characters begins. -/
theorem mem_offsetsFrom_of_append (start : Nat) (before : List Char) (c : Char)
    (after : List Char) :
    start + (String.ofList before).utf8ByteSize ∈ offsetsFrom start (before ++ c :: after) := by
  induction before generalizing start with
  | nil => simp [offsetsFrom]
  | cons d before ih =>
      have shifted : start + (String.ofList (d :: before)).utf8ByteSize =
          start + d.utf8Size + (String.ofList before).utf8ByteSize := by
        simp [String.ofList_cons, Nat.add_assoc]
      rw [shifted]
      exact List.mem_cons_of_mem _ (ih _)

theorem mem_offsetsFrom_of_isValid {text : String} {n : Nat}
    (h : (⟨n⟩ : String.Pos.Raw).IsValid text) (hn : n < text.utf8ByteSize) :
    n ∈ offsetsFrom 0 text.toList := by
  obtain ⟨before, after, rfl, hbefore⟩ := String.Pos.Raw.isValid_iff_exists_append.mp h
  obtain rfl : n = before.utf8ByteSize := congrArg String.Pos.Raw.byteIdx hbefore
  cases hafter : after.toList with
  | nil =>
      rw [String.toList_eq_nil_iff] at hafter
      simp [hafter] at hn
  | cons c cs =>
      have here := mem_offsetsFrom_of_append 0 before.toList c cs
      rwa [Nat.zero_add, String.ofList_toList, ← hafter, ← String.toList_append] at here

/-! ## The cut -/

/-- A scan over increasing numbers passes all that are not too large. -/
theorem mem_takeWhile_of_increasing {ns : List Nat} (h : ns.Pairwise (· < ·)) {n max : Nat}
    (hn : n ∈ ns) (hmax : n ≤ max) : n ∈ ns.takeWhile (· ≤ max) := by
  induction ns with
  | nil => cases hn
  | cons m ns ih =>
      obtain ⟨least, h⟩ := List.pairwise_cons.mp h
      have first : m ≤ max := by
        rcases List.mem_cons.mp hn with rfl | hn
        · exact hmax
        · exact (Nat.le_of_lt (least n hn)).trans hmax
      rw [List.takeWhile_cons_of_pos (by simpa using first), List.mem_cons]
      exact (List.mem_cons.mp hn).imp_right (ih h)

theorem cutOffset_le (text : String) (max : Nat) : cutOffset text max ≤ max := by
  unfold cutOffset
  cases hlast : ((offsetsFrom 0 text.toList).takeWhile (· ≤ max)).getLast? with
  | none => exact Nat.zero_le max
  | some n => simpa using List.mem_takeWhile_imp (List.mem_of_getLast? hlast)

/-- No character that begins in time begins behind the cut. -/
theorem le_cutOffset {text : String} {n max : Nat} (hn : n ∈ offsetsFrom 0 text.toList)
    (hmax : n ≤ max) : n ≤ cutOffset text max := by
  have passed := mem_takeWhile_of_increasing (offsetsFrom_increasing 0 text.toList) hn hmax
  have increasing := (offsetsFrom_increasing 0 text.toList).sublist
    (List.takeWhile_sublist (· ≤ max))
  obtain ⟨before, last, heq⟩ :=
    (List.eq_nil_or_concat _).resolve_left (List.ne_nil_of_mem passed)
  rw [List.concat_eq_append] at heq
  rw [heq] at passed increasing
  have cut : cutOffset text max = last := by
    rw [cutOffset, heq]
    simp
  rw [cut]
  rcases List.mem_append.mp passed with hbefore | hlast
  · exact Nat.le_of_lt ((List.pairwise_append.mp increasing).2.2 n hbefore last (by simp))
  · exact Nat.le_of_eq (List.mem_singleton.mp hlast)

/-- **As much as fits is kept.** What `truncateAt` keeps is a beginning of the text. It takes as
many bytes as there are at most in a beginning of at most `max` bytes that ends where a character
ends; and it is cut at such a place, whatever the text. -/
theorem truncateAt_longest (text : String) (max : Nat) :
    (∃ rest, text = truncateAt text max ++ rest) ∧
    IsGreatest {n | n ≤ max ∧ (⟨n⟩ : String.Pos.Raw).IsValid text}
      (truncateAt text max).utf8ByteSize ∧
    (⟨cutOffset text max⟩ : String.Pos.Raw).IsValid text := by
  have valid := isValid_cutOffset text max
  by_cases hsize : text.utf8ByteSize ≤ max
  · have whole : truncateAt text max = text := if_pos hsize
    rw [whole]
    refine ⟨⟨"", String.append_empty.symm⟩, ⟨⟨hsize, String.Pos.Raw.isValid_rawEndPos⟩, ?_⟩, valid⟩
    rintro n ⟨-, hn⟩
    exact hn.le_utf8ByteSize
  · have splits := (text.pos ⟨cutOffset text max⟩ valid).splits
    have kept : truncateAt text max =
        (text.sliceTo (text.pos ⟨cutOffset text max⟩ valid)).copy := if_neg hsize
    rw [← kept] at splits
    have size : (truncateAt text max).utf8ByteSize = cutOffset text max :=
      (congrArg String.Pos.Raw.byteIdx splits.offset_eq_rawEndPos).symm
    refine ⟨⟨_, splits.eq_append⟩, ?_, valid⟩
    rw [size]
    refine ⟨⟨cutOffset_le text max, valid⟩, ?_⟩
    rintro n ⟨hmax, hn⟩
    exact le_cutOffset (mem_offsetsFrom_of_isValid hn (by omega)) hmax

end GraphStore.Text
