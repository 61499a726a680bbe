import GraphStore.Sql.Dialect
import Mathlib.Data.String.Basic

/-!
# Quoted names

A name is quoted by copying its stretches with two closing quotes between any two of them, which
comes to writing each closing quote of the name twice (`toList_identifier`). By the lexical rule a
quoted text goes on until there is a closing quote that no other one follows. So a quoted name is
read as that name, up to its end, and nothing else is read as that name (`readName_eq_some_iff`).
-/

set_option autoImplicit false

namespace GraphStore

/-! ## Copying by stretches -/

section Copying

open String (utf8Len)

variable {search : Char} {text : String} {copied passed rest : List Char}

theorem stretchesFrom_ne_nil (search : Char) (position offset : Nat) (cs : List Char) :
    stretchesFrom search position offset cs ≠ [] := by
  induction cs generalizing position offset with
  | nil => exact List.cons_ne_nil _ _
  | cons c cs ih =>
      unfold stretchesFrom
      split
      · exact List.cons_ne_nil _ _
      · exact ih _ _

/-- One more character is read, behind those that have been copied and those that have been
passed. Behind an occurrence nothing has been passed yet. -/
theorem stretchesFrom_cons (search : Char) (copied passed : List Char) (c : Char)
    (rest : List Char) :
    stretchesFrom search (utf8Len copied) (utf8Len (copied ++ passed)) (c :: rest) =
      if c = search then
        (utf8Len copied, utf8Len (copied ++ passed)) ::
          stretchesFrom search (utf8Len (copied ++ passed ++ [c]))
            (utf8Len (copied ++ passed ++ [c] ++ [])) rest
      else stretchesFrom search (utf8Len copied) (utf8Len (copied ++ (passed ++ [c]))) rest := by
  have next : utf8Len (copied ++ passed) + c.utf8Size = utf8Len (copied ++ passed ++ [c]) := by
    rw [String.utf8Len_append (copied ++ passed), String.utf8Len_cons, String.utf8Len_nil,
      Nat.zero_add]
  simp only [stretchesFrom, next, List.append_nil, List.append_assoc]

/-- The stretch begins and ends where a character of the text does. -/
def IsStretch (text : String) (stretch : Nat × Nat) : Prop :=
  stretch.1 ≤ stretch.2 ∧ (⟨stretch.1⟩ : String.Pos.Raw).IsValid text ∧
    (⟨stretch.2⟩ : String.Pos.Raw).IsValid text

theorem isValid_utf8Len {front back : List Char} (h : text.toList = front ++ back) :
    (⟨utf8Len front⟩ : String.Pos.Raw).IsValid text := by
  rw [String.Pos.Raw.isValid_iff_exists_append]
  refine ⟨.ofList front, .ofList back, ?_, by simp⟩
  rw [← String.ofList_append, ← h, String.ofList_toList]

/-- What has been passed is a stretch. -/
theorem isStretch_passed (h : text.toList = copied ++ passed ++ rest) :
    IsStretch text (utf8Len copied, utf8Len (copied ++ passed)) := by
  have front : text.toList = copied ++ (passed ++ rest) := by rwa [List.append_assoc] at h
  exact ⟨by simp, isValid_utf8Len front, isValid_utf8Len h⟩

theorem slice_passed (h : text.toList = copied ++ passed ++ rest) :
    slice text (utf8Len copied, utf8Len (copied ++ passed)) = .ofList passed := by
  have whole : text = .ofList (copied ++ passed ++ rest) := by rw [← h, String.ofList_toList]
  rw [slice, String.utf8Len_append, whole]
  exact String.extract_of_valid copied passed rest

/-- No stretch is cut inside a character. -/
theorem isStretch_of_mem (copied passed : List Char)
    (h : text.toList = copied ++ passed ++ rest) :
    ∀ stretch ∈ stretchesFrom search (utf8Len copied) (utf8Len (copied ++ passed)) rest,
      IsStretch text stretch := by
  induction rest generalizing copied passed with
  | nil => exact List.forall_mem_singleton.mpr (isStretch_passed h)
  | cons c rest ih =>
      rw [stretchesFrom_cons]
      split
      · exact List.forall_mem_cons.mpr ⟨isStretch_passed h, ih _ _ (by simp [h])⟩
      · exact ih _ _ (by simp [h])

/-- **The loop.** Behind what has been copied, the stretches make up what has been passed, and the
rest with its replacements. -/
theorem toList_intercalate_slices (copied passed : List Char) (replacement : String)
    (h : text.toList = copied ++ passed ++ rest) :
    (replacement.intercalate ((stretchesFrom search (utf8Len copied)
      (utf8Len (copied ++ passed)) rest).map (slice text))).toList =
      passed ++ escaped search replacement.toList rest := by
  induction rest generalizing copied passed with
  | nil =>
      rw [stretchesFrom, List.map_singleton, String.intercalate_singleton, slice_passed h,
        String.toList_ofList]
      exact (List.append_nil passed).symm
  | cons c rest ih =>
      rw [stretchesFrom_cons]
      by_cases hc : c = search
      · have others : (stretchesFrom search (utf8Len (copied ++ passed ++ [c]))
            (utf8Len (copied ++ passed ++ [c] ++ [])) rest).map (slice text) ≠ [] := by
          simpa using stretchesFrom_ne_nil search _ _ rest
        rw [if_pos hc, List.map_cons, slice_passed h, String.intercalate_cons_of_ne_nil others,
          String.toList_append, String.toList_append, String.toList_ofList, ih _ _ (by simp [h])]
        simp [escaped, hc]
      · rw [if_neg hc, ih _ _ (by simp [h])]
        simp [escaped, hc]

/-- What is copied with replacements is the text with every single character replaced. -/
theorem toList_copyEscaped (search : Char) (replacement text : String) :
    (copyEscaped search replacement text).toList =
      escaped search replacement.toList text.toList :=
  toList_intercalate_slices [] [] replacement rfl

theorem isStretch_of_copyEscaped (search : Char) (text : String) :
    ∀ stretch ∈ stretchesFrom search 0 0 text.toList, IsStretch text stretch :=
  isStretch_of_mem [] [] rfl

end Copying

/-! ## Delimited texts -/

/-- A text between two characters, the second of which is written twice where it is part of the
text. -/
def delimited (opening closing : Char) (s : List Char) : List Char :=
  opening :: (escaped closing [closing, closing] s ++ [closing])

/-- What is read up to the closing character. A second one behind it is part of the text, and
otherwise the text has ended; `closed` says whether the first one has just been read. -/
def readClosed (closing : Char) : Bool → List Char → Option (List Char × List Char)
  | false, [] => none
  | true, [] => some ([], [])
  | false, c :: rest =>
      if c = closing then readClosed closing true rest
      else (readClosed closing false rest).map fun (s, rest) => (c :: s, rest)
  | true, c :: rest =>
      if c = closing then (readClosed closing false rest).map fun (s, rest) => (c :: s, rest)
      else some ([], c :: rest)

/-- The text between two characters at the beginning, and what stands behind it. -/
def readDelimited (opening closing : Char) : List Char → Option (List Char × List Char)
  | [] => none
  | c :: rest => if c = opening then readClosed closing false rest else none

section Reading

variable {opening closing : Char} {text s rest : List Char}

theorem escaped_cons (search c : Char) (replacement s : List Char) :
    escaped search replacement (c :: s) =
      (if c = search then replacement else [c]) ++ escaped search replacement s :=
  List.flatMap_cons

/-- A text is read up to its end. -/
theorem readClosed_escaped (s : List Char) (h : rest.head? ≠ some closing) :
    readClosed closing false (escaped closing [closing, closing] s ++ closing :: rest) =
      some (s, rest) := by
  induction s with
  | nil =>
      cases rest with
      | nil => simp [escaped, readClosed]
      | cons c rest =>
          have ended : c ≠ closing := by simpa using h
          simp [escaped, readClosed, ended]
  | cons c s ih =>
      rw [escaped_cons]
      by_cases hc : c = closing
      · simp [readClosed, hc, ih]
      · simp [readClosed, hc, ih]

/-- **Nothing else is read as a text**, whether the first closing character is still to come or has
been read. -/
theorem eq_of_readClosed {closed : Bool} (h : readClosed closing closed text = some (s, rest)) :
    (if closed then [closing] else []) ++ text =
        escaped closing [closing, closing] s ++ closing :: rest ∧
      rest.head? ≠ some closing := by
  induction text generalizing closed s with
  | nil =>
      cases closed with
      | false => cases h
      | true =>
          cases h
          exact ⟨rfl, by simp⟩
  | cons c text ih =>
      cases closed with
      | false =>
          rw [readClosed] at h
          split at h
          next hc =>
            obtain ⟨read, ended⟩ := ih h
            exact ⟨hc ▸ read, ended⟩
          next hc =>
            obtain ⟨⟨s, rest⟩, h, ⟨⟩⟩ := Option.map_eq_some_iff.mp h
            obtain ⟨read, ended⟩ := ih h
            refine ⟨?_, ended⟩
            rw [escaped_cons, if_neg hc]
            exact congrArg (c :: ·) read
      | true =>
          rw [readClosed] at h
          split at h
          next hc =>
            obtain ⟨⟨s, rest⟩, h, ⟨⟩⟩ := Option.map_eq_some_iff.mp h
            obtain ⟨read, ended⟩ := ih h
            refine ⟨?_, ended⟩
            rw [escaped_cons, if_pos hc, hc]
            exact congrArg (closing :: closing :: ·) read
          next hc =>
            cases h
            exact ⟨rfl, by simpa using hc⟩

/-- **A delimited text ends where it is closed**: it is read, up to its end, from what begins with
it and does not go on with another closing character. -/
theorem readDelimited_eq_some_iff : readDelimited opening closing text = some (s, rest) ↔
    text = delimited opening closing s ++ rest ∧ rest.head? ≠ some closing := by
  have whole : delimited opening closing s ++ rest =
      opening :: (escaped closing [closing, closing] s ++ closing :: rest) := by
    simp [delimited]
  rw [whole]
  constructor
  · intro h
    cases text with
    | nil => cases h
    | cons c text =>
        rw [readDelimited] at h
        split at h
        next hc =>
          obtain ⟨read, ended⟩ := eq_of_readClosed h
          exact ⟨congrArg₂ List.cons hc read, ended⟩
        next => cases h
  · rintro ⟨rfl, ended⟩
    rw [readDelimited, if_pos rfl, readClosed_escaped s ended]

end Reading

/-! ## Names -/

namespace Dialect

/-- The characters around a name. The closing one is doubled where it is part of the name. -/
def nameSigns : Dialect → Char × Char
  | postgres => ('"', '"')
  | sqlite => ('"', '"')
  | mySql => ('\x60', '\x60')
  | sqlServer => ('[', ']')

variable {d : Dialect}

/-- Names are written as they are read. -/
theorem quotes_eq : d.quotes = d.nameSigns := by
  cases d <;> rfl

/-- What a quoted name consists of. -/
def quote (d : Dialect) (s : List Char) : List Char := delimited d.nameSigns.1 d.nameSigns.2 s

theorem toList_identifier (d : Dialect) (name : String) :
    (d.identifier name).toList = d.quote name.toList := by
  rw [identifier, quotes_eq]
  simp [toList_copyEscaped, quote, delimited]

/-- The name at the beginning of a text, and what stands behind it. -/
def readName (d : Dialect) (text : List Char) : Option (List Char × List Char) :=
  readDelimited d.nameSigns.1 d.nameSigns.2 text

/-- **A quoted name is read as that name, up to its end, and nothing else is.** -/
theorem readName_eq_some_iff (d : Dialect) (name : String) (text rest : List Char) :
    d.readName text = some (name.toList, rest) ↔
      text = (d.identifier name).toList ++ rest ∧ rest.head? ≠ some d.nameSigns.2 := by
  rw [toList_identifier]
  exact readDelimited_eq_some_iff

end Dialect

end GraphStore
