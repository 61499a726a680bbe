import GraphStore.Proofs.Value.KeyText

/-!
# Identifiers read from text

The text of an identifier is read back as that identifier (`Uuid.parse?_text`): the digits of a
byte give the byte, and the hyphens stand where the reader looks for them. So a text is an empty
key exactly where the identifier that it writes is nil.
-/

set_option autoImplicit false

namespace GraphStore

/-! ## Bytes -/

namespace Text

theorem hexValue?_hexDigit {n : Nat} (h : n < 16) : hexValue? (hexDigit n) = some n := by
  have : ∀ n < 16, hexValue? (hexDigit n) = some n := by decide
  exact this n h

theorem readBytes?_bytesDigits (bs : List UInt8) : readBytes? (bytesDigits bs) = some bs := by
  induction bs with
  | nil => rfl
  | cons b bs ih =>
      have hb := b.toNat_lt
      have whole : b.toNat / 16 * 16 + b.toNat % 16 = b.toNat := by omega
      change readBytes? (hexDigit (b.toNat / 16) :: hexDigit (b.toNat % 16) :: bytesDigits bs) = _
      rw [readBytes?, hexValue?_hexDigit (by omega), hexValue?_hexDigit (by omega), ih]
      change some (UInt8.ofNat (b.toNat / 16 * 16 + b.toNat % 16) :: bs) = some (b :: bs)
      rw [whole, UInt8.ofNat_toNat]

end Text

namespace Uuid

open Text

/-! ## Groups of digits -/

variable {digits : List Char}

theorem length_hyphenate (h : digits.length = 32) : (hyphenate digits).length = 36 := by
  simp [hyphenate, h]

/-- The first hyphen stands after eight digits. -/
theorem getElem?_hyphenate (h : digits.length = 32) : (hyphenate digits)[8]? = some '-' := by
  simp [hyphenate, h]

theorem unhyphenate?_hyphenate (h : digits.length = 32) :
    unhyphenate? (hyphenate digits) = some digits := by
  unfold unhyphenate?
  rw [if_pos]
  · conv_rhs => rw [← append_groups digits]
    simp [hyphenate, List.drop_append, List.drop_eq_nil_of_le, h]
  · simp [hyphenate, h]

/-- Such a text has neither braces nor a heading. -/
theorem unwrap?_hyphenate (h : digits.length = 32) : unwrap? (hyphenate digits) = none := by
  have heading : ∀ text : String, text.toList[8]? ≠ some '-' →
      (hyphenate digits).take 9 ≠ text.toList := by
    intro text hplace heq
    apply hplace
    rw [← heq, List.getElem?_take_of_lt (by decide), getElem?_hyphenate h]
  unfold unwrap?
  rw [if_neg (by simp [length_hyphenate h]), if_neg]
  exact not_or.mpr ⟨heading _ (by decide), heading _ (by decide)⟩

/-! ## The whole text -/

theorem length_text (u : Uuid) : u.text.toList.length = 36 := by
  rw [text, String.toList_ofList, length_hyphenate (by rw [length_bytesDigits, u.length_eq])]

/-- No character of it takes more than four bytes. -/
theorem utf8ByteSize_text (u : Uuid) : u.text.utf8ByteSize ≤ 144 := by
  have small : ∀ cs : List Char, (String.ofList cs).utf8ByteSize ≤ 4 * cs.length := by
    intro cs
    induction cs with
    | nil => exact Nat.le_refl 0
    | cons c cs ih =>
        have first := c.utf8Size_le_four
        simp only [String.ofList_cons, String.utf8ByteSize_append, String.utf8ByteSize_singleton,
          List.length_cons]
        omega
  have bounded := small u.text.toList
  rwa [String.ofList_toList, u.length_text] at bounded

/-- **The text of an identifier is read as that identifier.** -/
theorem parse?_text (u : Uuid) : parse? u.text = some u := by
  have hlength : (bytesDigits u.bytes).length = 32 := by rw [length_bytesDigits, u.length_eq]
  unfold parse? text
  simp only [String.toList_ofList, length_hyphenate hlength, unwrap?_hyphenate hlength,
    unhyphenate?_hyphenate hlength]
  simp [readBytes?_bytesDigits, ofBytes?, u.length_eq]

end Uuid

/-- An identifier and its text are empty keys together. -/
theorem Value.isEmptyKey_text (u : Uuid) :
    (Value.varchar (some u.text)).isEmptyKey = u.isNil := by
  have hlength := u.length_text
  have nonempty : u.text.isEmpty = false := by
    rw [← Bool.not_eq_true, String.isEmpty_iff]
    intro hempty
    rw [hempty] at hlength
    cases hlength
  simp [Value.isEmptyKey, nonempty, Uuid.parse?_text]

end GraphStore
