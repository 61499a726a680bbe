/-!
# Text as bytes

A text has one form in bytes, UTF-8. Bytes that are no such form are read all the same: each
broken piece of a character, as long as a character could still begin with it, counts as one
replacement character. Main statement: reading the bytes of a text gives the text
(`readUtf8_utf8`).
-/

set_option autoImplicit false

namespace GraphStore.Text

/-- The bytes of a text. -/
def utf8 (s : String) : List UInt8 := s.toUTF8.data.toList

/-- What a leading byte announces: how many bytes follow, the range of the first of them, and the
bits that the leading byte carries itself. -/
structure Leading where
  tail : Nat
  low : UInt8
  high : UInt8
  bits : Nat

/-- The leading bytes of characters. The range keeps out what has a shorter form, what is above
the last character, and the surrogates. -/
def leading? (b : UInt8) : Option Leading :=
  let bits (mask : Nat) := b.toNat % mask
  if b < 0x80 then some ⟨0, 0x80, 0xBF, b.toNat⟩
  else if b < 0xC2 then none
  else if b < 0xE0 then some ⟨1, 0x80, 0xBF, bits 32⟩
  else if b = 0xE0 then some ⟨2, 0xA0, 0xBF, bits 16⟩
  else if b = 0xED then some ⟨2, 0x80, 0x9F, bits 16⟩
  else if b < 0xF0 then some ⟨2, 0x80, 0xBF, bits 16⟩
  else if b = 0xF0 then some ⟨3, 0x90, 0xBF, bits 8⟩
  else if b < 0xF4 then some ⟨3, 0x80, 0xBF, bits 8⟩
  else if b = 0xF4 then some ⟨3, 0x80, 0x8F, bits 8⟩
  else none

/-- How many bytes at the front continue a character that needs `count` more, the first of them
between `low` and `high`. -/
def continued : Nat → UInt8 → UInt8 → List UInt8 → Nat
  | 0, _, _, _ => 0
  | _ + 1, _, _, [] => 0
  | count + 1, low, high, b :: rest =>
      if low ≤ b && b ≤ high then continued count 0x80 0xBF rest + 1 else 0

def replacement : Char := '\uFFFD'

/-- The characters of any bytes, with replacements for what is broken. -/
def decodeLossy : List UInt8 → List Char
  | [] => []
  | b :: rest =>
      match leading? b with
      | none => replacement :: decodeLossy rest
      | some l =>
          let count := continued l.tail l.low l.high rest
          let c :=
            if count = l.tail then
              Char.ofNat ((rest.take count).foldl (fun n b => n * 64 + b.toNat % 64) l.bits)
            else replacement
          c :: decodeLossy (rest.drop count)
termination_by bytes => bytes.length

/-- The text of any bytes. -/
def readUtf8 (bytes : List UInt8) : String :=
  (String.fromUTF8? ⟨bytes.toArray⟩).getD (String.ofList (decodeLossy bytes))

@[simp] theorem readUtf8_utf8 (s : String) : readUtf8 (utf8 s) = s := by
  have h : (⟨(utf8 s).toArray⟩ : ByteArray) = s.toUTF8 := by simp [utf8]
  rw [readUtf8, h]
  simp [String.fromUTF8?, String.toUTF8, s.isValidUTF8, String.fromUTF8]

example : decodeLossy [0x61, 0xFF, 0x62] = ['a', '\uFFFD', 'b'] := by decide +kernel
example : decodeLossy [0xE2, 0x82, 0x41] = ['\uFFFD', 'A'] := by decide +kernel
example : decodeLossy [0xED, 0xA0, 0x80] = ['\uFFFD', '\uFFFD', '\uFFFD'] := by decide +kernel

end GraphStore.Text
