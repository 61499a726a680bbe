import GraphStore.Proofs.Sql.Condition
import GraphStore.Value.FieldType
import Mathlib.Data.List.Basic
import Std.Data.String.ToInt

/-!
# Keys as text

Rows are told apart by the text of their key. For keys of one column that is enough: the text of a
truth value, a number, a text, bytes or an identifier gives the value back
(`FieldType.eq_of_text`). Of these only a text can have one of the delimiters in it that the text
of a key of several columns is put together with. A key that is not empty once it has been read was
not empty as a cell either.
-/

set_option autoImplicit false

namespace GraphStore

/-! ## Identifiers -/

namespace Text

theorem hexDigit_injective {m n : Nat} (hm : m < 16) (hn : n < 16)
    (h : hexDigit m = hexDigit n) : m = n := by
  have : ∀ m < 16, ∀ n < 16, hexDigit m = hexDigit n → m = n := by decide
  exact this m hm n hn h

theorem byteDigits_injective {a b : UInt8} (h : byteDigits a = byteDigits b) : a = b := by
  simp only [byteDigits, List.cons.injEq, and_true] at h
  have ha := a.toNat_lt
  have hb := b.toNat_lt
  have high := hexDigit_injective (by omega) (by omega) h.1
  have low := hexDigit_injective (by omega) (by omega) h.2
  exact UInt8.toNat_inj.mp (by omega)

theorem length_bytesDigits (bs : List UInt8) : (bytesDigits bs).length = 2 * bs.length := by
  induction bs with
  | nil => rfl
  | cons b bs ih =>
      rw [bytesDigits, List.flatMap_cons, List.length_append, ← bytesDigits, ih, List.length_cons,
        byteDigits]
      simp only [List.length_cons, List.length_nil]
      omega

/-- Blocks of one length can be told apart when they stand in a row. -/
theorem eq_of_flatMap {f : UInt8 → List Char} {n : Nat} (hn : 0 < n)
    (hlength : ∀ b, (f b).length = n) (hf : ∀ a b, f a = f b → a = b) {as bs : List UInt8}
    (h : as.flatMap f = bs.flatMap f) : as = bs := by
  have ne_nil : ∀ b, f b ≠ [] := fun b => List.ne_nil_of_length_pos (by rw [hlength]; exact hn)
  induction as generalizing bs with
  | nil =>
      cases bs with
      | nil => rfl
      | cons b bs => simp [ne_nil] at h
  | cons a as ih =>
      cases bs with
      | nil => simp [ne_nil] at h
      | cons b bs =>
          obtain ⟨hfirst, hrest⟩ := List.append_inj h (by rw [hlength, hlength])
          rw [hf a b hfirst, ih hrest]

theorem bytesDigits_injective {as bs : List UInt8} (h : bytesDigits as = bytesDigits bs) :
    as = bs :=
  eq_of_flatMap (n := 2) (by decide) (fun _ => rfl) (fun _ _ => byteDigits_injective) h

/-- The digits in lower case. -/
def hexDigits : List Char := "0123456789abcdef".toList

theorem hexDigit_mem {n : Nat} (h : n < 16) : hexDigit n ∈ hexDigits := by
  have : ∀ n < 16, hexDigit n ∈ hexDigits := by decide
  exact this n h

theorem mem_bytesDigits {bs : List UInt8} {c : Char} (h : c ∈ bytesDigits bs) :
    c ∈ hexDigits := by
  obtain ⟨b, -, hc⟩ := List.mem_flatMap.mp h
  have hb := b.toNat_lt
  simp only [byteDigits, List.mem_cons, List.not_mem_nil, or_false] at hc
  rcases hc with rfl | rfl
  · exact hexDigit_mem (by omega)
  · exact hexDigit_mem (by omega)

/-- The digits are different in upper case, too. -/
theorem eq_of_toUpper {a b : Char} (ha : a ∈ hexDigits) (hb : b ∈ hexDigits)
    (h : a.toUpper = b.toUpper) : a = b := by
  have all : hexDigits.all (fun a => hexDigits.all fun b =>
      a.toUpper != b.toUpper || a == b) = true := by decide
  have := List.all_eq_true.mp (List.all_eq_true.mp all a ha) b hb
  simpa [h] using this

theorem upperHex_injective {as bs : List UInt8} (h : upperHex as = upperHex bs) : as = bs := by
  have digits := String.ofList_injective h
  simp only [bytesDigits, List.map_flatMap] at digits
  refine eq_of_flatMap (n := 2) (by decide) (fun _ => rfl) (fun a b hab => ?_) digits
  have ha := a.toNat_lt
  have hb := b.toNat_lt
  simp only [byteDigits, List.map_cons, List.map_nil, List.cons.injEq, and_true] at hab
  refine byteDigits_injective ?_
  rw [byteDigits, byteDigits,
    eq_of_toUpper (hexDigit_mem (by omega)) (hexDigit_mem (by omega)) hab.1,
    eq_of_toUpper (hexDigit_mem (by omega)) (hexDigit_mem (by omega)) hab.2]

end Text

namespace Uuid

open Text

/-- The groups between the hyphens make up the digits. -/
theorem append_groups (cs : List Char) : cs.take 8 ++ ((cs.drop 8).take 4 ++
    ((cs.drop 12).take 4 ++ ((cs.drop 16).take 4 ++ cs.drop 20))) = cs := by
  have cut : ∀ n, (cs.drop n).take 4 ++ cs.drop (n + 4) = cs.drop n := fun n => by
    rw [← List.drop_drop, List.take_append_drop]
  rw [cut 16, cut 12, cut 8, List.take_append_drop]

theorem hyphenate_injective {as bs : List Char} (ha : as.length = 32) (hb : bs.length = 32)
    (h : hyphenate as = hyphenate bs) : as = bs := by
  unfold hyphenate at h
  obtain ⟨h₁, h₂⟩ := List.append_inj h (by simp [ha, hb])
  obtain ⟨h₃, h₄⟩ := List.append_inj (List.cons.inj h₂).2 (by simp [ha, hb])
  obtain ⟨h₅, h₆⟩ := List.append_inj (List.cons.inj h₄).2 (by simp [ha, hb])
  obtain ⟨h₇, h₈⟩ := List.append_inj (List.cons.inj h₆).2 (by simp [ha, hb])
  have h₉ := (List.cons.inj h₈).2
  rw [← append_groups as, ← append_groups bs, h₁, h₃, h₅, h₇, h₉]

theorem mem_hyphenate {cs : List Char} {c : Char} (h : c ∈ hyphenate cs) : c = '-' ∨ c ∈ cs := by
  simp only [hyphenate, List.mem_append, List.mem_cons] at h
  rcases h with h | rfl | h | rfl | h | rfl | h | rfl | h
  · exact .inr (List.mem_of_mem_take h)
  · exact .inl rfl
  · exact .inr (List.mem_of_mem_drop (List.mem_of_mem_take h))
  · exact .inl rfl
  · exact .inr (List.mem_of_mem_drop (List.mem_of_mem_take h))
  · exact .inl rfl
  · exact .inr (List.mem_of_mem_drop (List.mem_of_mem_take h))
  · exact .inl rfl
  · exact .inr (List.mem_of_mem_drop h)

theorem text_injective {u v : Uuid} (h : u.text = v.text) : u = v := by
  have digits := hyphenate_injective (by rw [length_bytesDigits, u.length_eq])
    (by rw [length_bytesDigits, v.length_eq]) (String.ofList_injective h)
  cases u
  cases v
  simpa using bytesDigits_injective digits

end Uuid

/-- A number is written with digits and a sign. -/
theorem Text.delimiter_notMem_int {c : Char} (hc : c ∈ [';', '=']) (n : Int) :
    c ∉ (toString n).toList := by
  have digits : ∀ m : Nat, c ∉ m.repr.toList := by
    intro m hm
    rw [Nat.repr, String.toList_ofList] at hm
    have := Nat.isDigit_of_mem_toDigits (by decide) (by decide) hm
    simp only [List.mem_cons, List.not_mem_nil, or_false] at hc
    rcases hc with rfl | rfl <;> cases this
  rw [Int.toString_eq_repr, Int.repr_eq_if]
  split
  · exact digits _
  · rw [String.toList_append, List.mem_append, not_or]
    refine ⟨?_, digits _⟩
    simp only [List.mem_cons, List.not_mem_nil, or_false] at hc
    rcases hc with rfl | rfl <;> decide

/-! ## Empty keys -/

/-- An absent value is an empty key. -/
theorem Value.isNull_eq_false {v : Value} (h : v.isEmptyKey = false) : v.isNull = false := by
  rw [← Bool.not_eq_true] at h ⊢
  intro hnull
  apply h
  cases v with
  | varchar s => cases s <;> first | rfl | cases hnull
  | uuid u => cases u <;> first | rfl | cases hnull
  | blob b => cases b <;> first | rfl | cases hnull
  | _ => exact hnull

/-! ## Types whose text gives the value back -/

namespace FieldType

/-- The types of values that can be told apart by their text, unless they are absent. -/
def identityTypes : List FieldType := [.boolean, .int32, .int64, .text, .bytes, .uuid]

def IsIdentity (t : FieldType) : Prop :=
  t ∈ identityTypes ∨ ∃ inner ∈ identityTypes, t = .optional inner

/-- What such a type holds is held without the option, unless it is absent. -/
theorem IsIdentity.exists_inner {t : FieldType} (h : t.IsIdentity) :
    ∃ inner ∈ identityTypes, ∀ v, t.Holds v → v.isNull = false → inner.Holds v := by
  rcases h with h | ⟨inner, hinner, rfl⟩
  · exact ⟨t, h, fun v hv _ => hv⟩
  · refine ⟨inner, hinner, fun v hv hnull => ?_⟩
    rcases hv with rfl | hv
    · simp only [identityTypes, List.mem_cons, List.not_mem_nil, or_false] at hinner
      rcases hinner with rfl | rfl | rfl | rfl | rfl | rfl <;> cases hnull
    · exact hv

/-- Values of one type with the same text are the same. -/
theorem eq_of_text {t : FieldType} (ht : t.IsIdentity) {v w : Value} (hv : t.Holds v)
    (hw : t.Holds w) (hv' : v.isNull = false) (hw' : w.isNull = false)
    (h : v.text = w.text) : v = w := by
  obtain ⟨inner, hinner, holds⟩ := ht.exists_inner
  replace hv := holds v hv hv'
  replace hw := holds w hw hw'
  simp only [identityTypes, List.mem_cons, List.not_mem_nil, or_false] at hinner
  rcases hinner with rfl | rfl | rfl | rfl | rfl | rfl <;> obtain ⟨a, rfl⟩ := hv <;>
    obtain ⟨b, rfl⟩ := hw
  · cases a <;> cases b <;> first | rfl | exact absurd h (by decide)
  · rw [Int32.toInt_inj.mp (Int.repr_injective h)]
  · rw [Int64.toInt_inj.mp (Int.repr_injective h)]
  · rw [show a = b from h]
  · rw [Text.upperHex_injective h]
  · rw [Uuid.text_injective h]

/-- Only a text can have a delimiter in it. -/
theorem delimiter_notMem_text {t : FieldType} (ht : t.IsIdentity) {v : Value} (hv : t.Holds v)
    (htext : ∀ s, v ≠ .varchar (some s)) {c : Char} (hc : c ∈ [';', '=']) :
    c ∉ v.text.toList := by
  have digits : Text.hexDigits.all (fun d =>
      !([';', '='].contains d) && !([';', '='].contains d.toUpper)) = true := by decide
  have hex : ∀ d ∈ Text.hexDigits, d ∉ [';', '='] ∧ d.toUpper ∉ [';', '='] := fun d hd => by
    simpa using List.all_eq_true.mp digits d hd
  by_cases hnull : v.isNull = true
  · have : v.text = "" := by
      cases v <;> simp_all [Value.isNull, Value.text]
    simp [this]
  obtain ⟨inner, hinner, holds⟩ := ht.exists_inner
  replace hv := holds v hv (by simpa using hnull)
  simp only [identityTypes, List.mem_cons, List.not_mem_nil, or_false] at hinner
  rcases hinner with rfl | rfl | rfl | rfl | rfl | rfl <;> obtain ⟨a, rfl⟩ := hv
  · simp only [List.mem_cons, List.not_mem_nil, or_false] at hc
    rcases hc with rfl | rfl <;> cases a <;> decide
  · exact Text.delimiter_notMem_int hc a.toInt
  · exact Text.delimiter_notMem_int hc a.toInt
  · exact absurd rfl (htext a)
  · intro h
    simp only [Value.text, upperHex, String.toList_ofList, List.mem_map] at h
    obtain ⟨d, hd, rfl⟩ := h
    exact (hex d (Text.mem_bytesDigits hd)).2 hc
  · intro h
    simp only [Value.text, Uuid.text, String.toList_ofList] at h
    rcases Uuid.mem_hyphenate h with rfl | h
    · simp at hc
    · exact (hex c (Text.mem_bytesDigits h)).1 hc

end FieldType

/-! ## Types of keys -/

namespace FieldType

/-- The types of single keys: numbers, texts and identifiers, which may be absent. -/
def keyTypes : List FieldType := [.int32, .int64, .text, .uuid]

def IsKey (t : FieldType) : Prop := t ∈ keyTypes ∨ ∃ inner ∈ keyTypes, t = .optional inner

theorem IsKey.isIdentity {t : FieldType} (h : t.IsKey) : t.IsIdentity := by
  have among : ∀ t ∈ keyTypes, t ∈ identityTypes := by decide
  rcases h with h | ⟨inner, hinner, rfl⟩
  · exact .inl (among t h)
  · exact .inr ⟨inner, among inner hinner, rfl⟩

/-- Keys of one type with the same text are the same. -/
theorem text_injective {t : FieldType} (ht : t.IsKey) {v w : Value} (hv : t.Holds v)
    (hw : t.Holds w) (hv' : v.isEmptyKey = false) (hw' : w.isEmptyKey = false)
    (h : v.text = w.text) : v = w :=
  eq_of_text ht.isIdentity hv hw (Value.isNull_eq_false hv') (Value.isNull_eq_false hw') h

/-- A cell that is read as a key that is not empty is not empty. -/
theorem isEmptyKey_of_convert {t : FieldType} (ht : t.IsKey) {v w : Value}
    (h : t.convert v = .ok w) (hw : w.isEmptyKey = false) : v.isEmptyKey = false := by
  have inner : ∀ t ∈ keyTypes, ∀ v w, t.convert v = .ok w → w.isEmptyKey = false →
      v.isEmptyKey = false := by
    intro t ht v w h hw
    simp only [keyTypes, List.mem_cons, List.not_mem_nil, or_false] at ht
    rcases ht with rfl | rfl | rfl | rfl
    · simp only [convert, readInt32] at h
      split at h <;> first | rfl | cases h
    · simp only [convert, readInt64] at h
      split at h <;> first | rfl | cases h
    · simp only [convert, readText] at h
      split at h
      · cases h
        exact hw
      · cases h
    · simp only [convert, readUuid] at h
      split at h
      · cases h
        exact hw
      · split at h
        next u hu =>
          cases h
          simp only [Value.isEmptyKey] at hw ⊢
          rw [hu, Option.any_some, hw, Bool.or_false]
          by_contra hempty
          rw [Bool.not_eq_false, String.isEmpty_iff] at hempty
          rw [hempty] at hu
          cases hu
        next => cases h
      next bytes =>
        split at h
        next u hu =>
          cases bytes with
          | nil => cases hu
          | cons b bs => rfl
        next => cases h
      · cases h
  rcases ht with ht | ⟨t', ht', rfl⟩
  · exact inner t ht v w h hw
  · simp only [convert] at h
    split at h
    · cases h
      simp only [keyTypes, List.mem_cons, List.not_mem_nil, or_false] at ht'
      rcases ht' with rfl | rfl | rfl | rfl <;> cases hw
    · exact inner t' ht' v w h hw

end FieldType

/-! ## Keys that are found equal -/

/-- Cells that the database finds equal are read as the same key. -/
def Semantics.ReadsAlike (s : Semantics) : Prop :=
  ∀ t : FieldType, t.IsKey → ∀ v w a b, s.test .equal v w = some true → t.convert v = .ok a →
    t.convert w = .ok b → a = b

theorem FieldType.convert_of_sortKey {t : FieldType} (ht : t ∈ keyTypes) {v w a b : Value}
    (hv : v.isNull = false) (hw : w.isNull = false) (h : v.sortKey = w.sortKey)
    (ha : t.convert v = .ok a) (hb : t.convert w = .ok b) : a = b := by
  -- an integer is read alike in both widths
  have widths : ∀ (m : Int32) (n : Int64), m.toInt = n.toInt → ∀ c d,
      t.convert (.int32 (some m)) = .ok c → t.convert (.int64 (some n)) = .ok d → c = d := by
    intro m n hmn c d hc hd
    obtain rfl : n = m.toInt64 := Int64.toInt_inj.mp (by rw [Int32.toInt_toInt64, hmn])
    simp only [keyTypes, List.mem_cons, List.not_mem_nil, or_false] at ht
    rcases ht with rfl | rfl | rfl | rfl
    · simp only [convert, readInt32, Int32.toInt32_toInt64, if_true] at hc hd
      exact Except.ok.inj (hc.symm.trans hd)
    · simp only [convert, readInt64] at hc hd
      exact Except.ok.inj (hc.symm.trans hd)
    · cases hc
    · cases hc
  rcases Value.eq_or_number_of_sortKey hv hw h with rfl | ⟨m, n, hmn, ⟨rfl, rfl⟩ | ⟨rfl, rfl⟩⟩
  · exact Except.ok.inj (ha.symm.trans hb)
  · exact widths m n hmn a b ha hb
  · exact (widths m n hmn b a hb ha).symm

theorem Semantics.readsAlike_byContent : byContent.ReadsAlike := by
  intro t ht v w a b hequal ha hb
  obtain ⟨hv, hw, tied⟩ := byContent.test_equal_eq_true.mp hequal
  have hsort : v.sortKey = w.sortKey := Std.LawfulEqCmp.eq_of_compare tied
  rcases ht with ht | ⟨inner, hinner, rfl⟩
  · exact FieldType.convert_of_sortKey ht hv hw hsort ha hb
  · simp only [FieldType.convert, hv, hw, Bool.false_eq_true, if_false] at ha hb
    exact FieldType.convert_of_sortKey hinner hv hw hsort ha hb

end GraphStore
