import GraphStore.Value.FieldType
import Mathlib.Algebra.Order.Group.Nat

/-!
# Points in time read from text

The stored text of a point in time is read as that point in time, and a numeral of a fixed width as
its number. Years from 1 to 999 before the year 0 are the exception: the sign takes the place of one
of the four digits that are read, so that their text is not read at all
(`Timestamp.parse?_storedText`).

Reading comes to four layouts that are tried in turn (`Timestamp.parse?_eq_findSome?`), of which the
stored text can only have the first. A field that holds points in time therefore takes every text
that has one of the layouts, and the stored text of a point in time as that point in time
(`FieldType.convert_timestamp_text`).
-/

set_option autoImplicit false

namespace GraphStore

/-! ## Numerals -/

namespace Text

theorem isDigit_decimalDigit (n : Nat) : isDigit (decimalDigit n) = true := by
  have digits : ∀ d < 10, isDigit (Char.ofNat (48 + d)) = true := by decide
  exact digits _ (Nat.mod_lt n (by decide))

theorem toNat_decimalDigit (n : Nat) : (decimalDigit n).toNat - 48 = n % 10 := by
  have digits : ∀ d < 10, (Char.ofNat (48 + d)).toNat - 48 = d := by decide
  exact digits _ (Nat.mod_lt n (by decide))

theorem digitChar_mod (n : Nat) : (n % 10).digitChar = decimalDigit n := by
  have digits : ∀ d < 10, d.digitChar = Char.ofNat (48 + d) := by decide
  exact digits _ (Nat.mod_lt n (by decide))

theorem all_isDigit_digitsOf (width n : Nat) : (digitsOf width n).all isDigit = true := by
  induction width generalizing n with
  | zero => rfl
  | succ width ih => simp [digitsOf, ih, isDigit_decimalDigit]

theorem readDigits_cons (acc : Nat) (c : Char) (rest : List Char) :
    readDigits acc (c :: rest) = readDigits (acc * 10 + (c.toNat - 48)) rest := by
  change readDigits (acc * 10 + (c.toNat - 48)) rest = _
  exact Eq.refl _

theorem readDigits_append (acc : Nat) (xs ys : List Char) :
    readDigits acc (xs ++ ys) = readDigits (readDigits acc xs) ys := by
  induction xs generalizing acc with
  | nil => rfl
  | cons x xs ih => rw [List.cons_append, readDigits_cons, readDigits_cons, ih]

theorem readDigits_digitsOf {width n : Nat} (h : n < 10 ^ width) :
    readDigits 0 (digitsOf width n) = n := by
  induction width generalizing n with
  | zero =>
      have : n = 0 := by simpa using h
      exact this.symm
  | succ width ih =>
      have shorter : n / 10 < 10 ^ width := by
        rw [Nat.pow_succ] at h
        omega
      rw [digitsOf, readDigits_append, ih shorter, readDigits_cons, toNat_decimalDigit]
      change n / 10 * 10 + n % 10 = n
      omega

/-- A numeral is taken off the front of a text as its number. -/
theorem takeNumeral?_digitsOf {width n : Nat} (h : n < 10 ^ width) (rest : List Char) :
    takeNumeral? width (digitsOf width n ++ rest) = some (n, rest) := by
  have front : (digitsOf width n ++ rest).take width = digitsOf width n :=
    List.take_left' (length_digitsOf width n)
  have behind : (digitsOf width n ++ rest).drop width = rest :=
    List.drop_left' (length_digitsOf width n)
  simp only [takeNumeral?, front, behind, length_digitsOf, all_isDigit_digitsOf,
    readDigits_digitsOf h, and_self, if_true]

theorem digitsOf_zero (width : Nat) : digitsOf width 0 = List.replicate width '0' := by
  induction width with
  | zero => rfl
  | succ width ih =>
      rw [digitsOf, Nat.zero_div, ih, List.replicate_succ']
      rfl

/-- The shortest numeral of a number, with zeros in front, is the one of a fixed width. -/
theorem replicate_append_toDigits {width n : Nat} (hwidth : 0 < width) (h : n < 10 ^ width) :
    List.replicate (width - (Nat.toDigits 10 n).length) '0' ++ Nat.toDigits 10 n =
      digitsOf width n := by
  induction width generalizing n with
  | zero => cases hwidth
  | succ width ih =>
      rw [digitsOf, ← digitChar_mod]
      by_cases hshort : n < 10
      · rw [Nat.toDigits_of_lt_base hshort, Nat.mod_eq_of_lt hshort, Nat.div_eq_of_lt hshort,
          digitsOf_zero]
        rfl
      · have shorter : n / 10 < 10 ^ width := by
          rw [Nat.pow_succ] at h
          omega
        have positive : 0 < width := by
          by_contra hzero
          obtain rfl : width = 0 := by omega
          omega
        rw [Nat.toDigits_of_base_le (by decide) (by omega), List.length_append,
          List.length_singleton, Nat.add_sub_add_right, ← List.append_assoc, ih positive shorter]

theorem toList_padZeros (width n : Nat) : (padZeros width (toString n)).toList =
    List.replicate (width - (Nat.toDigits 10 n).length) '0' ++ Nat.toDigits 10 n := by
  rw [padZeros, String.toList_append, String.toList_ofList, Nat.toString_eq_ofList_toDigits,
    String.toList_ofList, ← String.length_toList, String.toList_ofList]

end Text

namespace Timestamp

open Text

/-! ## Years -/

variable {year : Int} {rest : List Char}

/-- The text of the year is not read: with its sign it has four characters, and so one digit less
than are read. -/
def IsShortYear (year : Int) : Prop := -1000 < year ∧ year < 0

instance (year : Int) : Decidable (IsShortYear year) :=
  inferInstanceAs (Decidable (-1000 < year ∧ year < 0))

theorem toList_signedYear_of_nonneg (hyear : 0 ≤ year) (hrange : year ≤ 9999) :
    (signedYear year).toList = digitsOf 4 year.natAbs := by
  rw [signedYear, if_neg (by omega), toList_padZeros,
    replicate_append_toDigits (by decide) (by omega)]

theorem toList_signedYear_of_neg (hyear : year < 0) : (signedYear year).toList =
    '-' :: (List.replicate (3 - (Nat.toDigits 10 year.natAbs).length) '0' ++
      Nat.toDigits 10 year.natAbs) := by
  rw [signedYear, if_pos hyear, String.toList_append, toList_padZeros]
  rfl

/-- A year of four digits before the year 0. -/
theorem toList_signedYear_of_long (hyear : year ≤ -1000) (hrange : -9999 ≤ year) :
    (signedYear year).toList = '-' :: digitsOf 4 year.natAbs := by
  have long : ¬ (Nat.toDigits 10 year.natAbs).length ≤ 3 := by
    rw [Nat.length_toDigits_le_iff (by decide) (by decide)]
    omega
  rw [toList_signedYear_of_neg (by omega),
    ← replicate_append_toDigits (by decide) (show year.natAbs < 10 ^ 4 by omega)]
  -- there is no room for zeros in front
  rw [show 3 - (Nat.toDigits 10 year.natAbs).length = 0 by omega,
    show 4 - (Nat.toDigits 10 year.natAbs).length = 0 by omega]

theorem toList_signedYear_of_short (hyear : IsShortYear year) :
    (signedYear year).toList = '-' :: digitsOf 3 year.natAbs := by
  obtain ⟨hlong, hneg⟩ := hyear
  rw [toList_signedYear_of_neg hneg, replicate_append_toDigits (by decide) (by omega)]

/-- A digit is no sign. -/
theorem takeYear?_of_isDigit {c : Char} (hc : isDigit c = true) :
    takeYear? (c :: rest) = (takeNumeral? 4 (c :: rest)).map fun (n, r) => ((n : Int), r) := by
  unfold takeYear?
  split
  next heq =>
    cases heq
    cases hc
  next heq =>
    cases heq
    cases hc
  next => rfl

/-- A hyphen after three digits is not one more. -/
theorem takeNumeral?_of_short (n : Nat) :
    takeNumeral? 4 (digitsOf 3 n ++ '-' :: rest) = none := by
  have front : (digitsOf 3 n ++ '-' :: rest).take 4 = digitsOf 3 n ++ ['-'] := by
    rw [List.take_append, length_digitsOf, List.take_of_length_le (by simp)]
    rfl
  have hyphen : (digitsOf 3 n ++ ['-']).all isDigit = false := by
    rw [List.all_append]
    exact Bool.and_false _
  simp only [takeNumeral?, front, hyphen, Bool.false_eq_true, and_false, if_false]

theorem takeYear?_signedYear (hrange : -9999 ≤ year ∧ year ≤ 9999) :
    takeYear? ((signedYear year).toList ++ '-' :: rest) =
      if IsShortYear year then none else some (year, '-' :: rest) := by
  by_cases hshort : IsShortYear year
  · rw [if_pos hshort, toList_signedYear_of_short hshort]
    change (takeNumeral? 4 (digitsOf 3 year.natAbs ++ '-' :: rest)).map _ = none
    rw [takeNumeral?_of_short]
    rfl
  rw [if_neg hshort]
  have numeral := takeNumeral?_digitsOf (show year.natAbs < 10 ^ 4 by omega) ('-' :: rest)
  by_cases hneg : year < 0
  · have long : year ≤ -1000 := by
      by_contra hlong
      exact hshort ⟨by omega, hneg⟩
    rw [toList_signedYear_of_long long hrange.1]
    change (takeNumeral? 4 (digitsOf 4 year.natAbs ++ '-' :: rest)).map _ = _
    rw [numeral]
    change some (-(year.natAbs : Int), '-' :: rest) = _
    rw [show -(year.natAbs : Int) = year by omega]
  · rw [toList_signedYear_of_nonneg (by omega) hrange.2]
    obtain ⟨c, cs, hdigits⟩ := List.exists_cons_of_length_pos
      (show 0 < (digitsOf 4 year.natAbs).length by simp)
    have digit : isDigit c = true := by
      have all := all_isDigit_digitsOf 4 year.natAbs
      rw [hdigits, List.all_cons, Bool.and_eq_true] at all
      exact all.1
    rw [hdigits, List.cons_append] at numeral ⊢
    rw [takeYear?_of_isDigit digit, numeral]
    change some ((year.natAbs : Int), '-' :: rest) = _
    rw [show (year.natAbs : Int) = year by omega]

/-! ## Layouts -/

/-- A way to write a point in time: what stands between the date and the time of day, and whether a
fraction of a second is written. -/
structure Layout where
  separator : Char
  fraction : Bool
deriving DecidableEq, Repr

/-- The layouts that are read, in the order in which they are tried. -/
def layouts : List Layout := [⟨' ', true⟩, ⟨' ', false⟩, ⟨'T', true⟩, ⟨'T', false⟩]

/-- The end of a text with a fraction of a second, which has at least one digit, or without one. -/
def readEnd? : Bool → List Char → Option Nat
  | false, [] => some 0
  | true, '.' :: digits =>
      if !digits.isEmpty && digits.all isDigit then some (readFraction digits) else none
  | _, _ => none

/-- Takes a date off the front. -/
def takeDate? (s : List Char) : Option ((Int × Nat × Nat) × List Char) := do
  let (year, s) ← takeYear? s
  let (month, s) ← takeNumeral? 2 (← takeChar? '-' s)
  let (day, s) ← takeNumeral? 2 (← takeChar? '-' s)
  some ((year, month, day), s)

/-- Reads the time of day on a date, and the end of the text in a given way. -/
def readClock? (readEnd : List Char → Option Nat) (date : Int × Nat × Nat) (s : List Char) :
    Option Timestamp := do
  let (hour, s) ← takeNumeral? 2 s
  let (minute, s) ← takeNumeral? 2 (← takeChar? ':' s)
  let (second, s) ← takeNumeral? 2 (← takeChar? ':' s)
  let nanosecond ← readEnd s
  ofParts? date.1 date.2.1 date.2.2 hour minute second nanosecond

/-- The point in time that is written in a layout. -/
def Layout.read? (l : Layout) (s : String) : Option Timestamp := do
  let (date, s) ← takeDate? s.toList
  readClock? (readEnd? l.fraction) date (← takeChar? l.separator s)

theorem bind_or_bind {α β : Type} (x : Option α) (f g : α → Option β) :
    (x.bind f).or (x.bind g) = x.bind fun a => (f a).or (g a) := by
  cases x <;> rfl

/-- A text ends with a fraction or without one. -/
theorem readTail?_bind {α : Type} (s : List Char) (f : Nat → Option α) :
    (readTail? s).bind f = ((readEnd? true s).bind f).or ((readEnd? false s).bind f) := by
  cases s with
  | nil => rfl
  | cons c digits =>
      have without : readEnd? false (c :: digits) = none := rfl
      rw [without, Option.bind_none, Option.or_none]
      by_cases hc : c = '.'
      · rw [hc]
        rfl
      · have neither : readTail? (c :: digits) = none ∧ readEnd? true (c :: digits) = none := by
          simp [readTail?, readEnd?, hc]
        rw [neither.1, neither.2]

theorem readClock?_readTail? (date : Int × Nat × Nat) (s : List Char) :
    readClock? readTail? date s =
      (readClock? (readEnd? true) date s).or (readClock? (readEnd? false) date s) := by
  simp only [readClock?, Option.bind_eq_bind, bind_or_bind, readTail?_bind]

/-- A character is one of two or the other. -/
theorem takeChar?_or_bind {α : Type} {c d : Char} (h : c ≠ d) (s : List Char)
    (f : List Char → Option α) : ((takeChar? c s).or (takeChar? d s)).bind f =
      ((takeChar? c s).bind f).or ((takeChar? d s).bind f) := by
  cases s with
  | nil => rfl
  | cons x rest =>
      unfold takeChar?
      by_cases hc : x = c
      · simp [hc, h]
      · simp [hc]

theorem parse?_eq_takeDate? (s : String) : parse? s = (takeDate? s.toList).bind fun (date, rest) =>
    ((takeChar? ' ' rest).or (takeChar? 'T' rest)).bind (readClock? readTail? date) := by
  simp only [parse?, takeDate?, Option.bind_eq_bind, Option.bind_assoc, Option.bind_some]
  rfl

/-- The two layouts with the same separator. -/
theorem read?_or_read? (separator : Char) (s : String) :
    (Layout.read? ⟨separator, true⟩ s).or (Layout.read? ⟨separator, false⟩ s) =
      (takeDate? s.toList).bind fun (date, rest) =>
        (takeChar? separator rest).bind (readClock? readTail? date) := by
  simp only [Layout.read?, Option.bind_eq_bind, bind_or_bind, ← readClock?_readTail?]

/-- **A text is read in the first layout that it has.** -/
theorem parse?_eq_findSome? (s : String) : parse? s = layouts.findSome? (·.read? s) := by
  have tried : layouts.findSome? (·.read? s) =
      ((Layout.read? ⟨' ', true⟩ s).or (Layout.read? ⟨' ', false⟩ s)).or
        ((Layout.read? ⟨'T', true⟩ s).or (Layout.read? ⟨'T', false⟩ s)) := by
    simp only [layouts, List.findSome?_cons, List.findSome?_nil]
    cases Layout.read? ⟨' ', true⟩ s <;> cases Layout.read? ⟨' ', false⟩ s <;>
      cases Layout.read? ⟨'T', true⟩ s <;> cases Layout.read? ⟨'T', false⟩ s <;> rfl
  rw [tried, read?_or_read?, read?_or_read?, parse?_eq_takeDate?]
  simp only [bind_or_bind, takeChar?_or_bind (show ' ' ≠ 'T' by decide)]

/-! ## The whole text -/

/-- The time of day in the stored text. -/
def storedClock (t : Timestamp) : List Char :=
  digitsOf 2 t.hour ++ ':' :: (digitsOf 2 t.minute ++ ':' :: (digitsOf 2 t.second ++
    '.' :: digitsOf 9 t.nanosecond))

theorem toList_storedText (t : Timestamp) : t.storedText.toList =
    (signedYear t.year).toList ++ '-' :: (digitsOf 2 t.month ++ '-' :: (digitsOf 2 t.day ++
      ' ' :: t.storedClock)) := by
  simp [storedText, storedClock, two]

/-- Nine digits after the point are the nanoseconds. -/
theorem readTail?_digitsOf {n : Nat} (h : n < 10 ^ 9) :
    readTail? ('.' :: digitsOf 9 n) = some n := by
  have nonempty : (digitsOf 9 n).isEmpty = false := by
    rw [← Bool.not_eq_true, List.isEmpty_iff_length_eq_zero, length_digitsOf]
    decide
  have fraction : readFraction (digitsOf 9 n) = n := by
    rw [readFraction, length_digitsOf, List.take_left' (length_digitsOf 9 n), readDigits_digitsOf h]
  rw [readTail?, nonempty, all_isDigit_digitsOf, fraction]
  rfl

theorem takeChar?_cons (c : Char) (rest : List Char) : takeChar? c (c :: rest) = some rest :=
  if_pos rfl

theorem ofParts?_eq (t : Timestamp) :
    ofParts? t.year t.month t.day t.hour t.minute t.second t.nanosecond = some t := by
  rw [ofParts?, dif_pos t.year_range, dif_pos t.month_range, dif_pos t.day_range,
    dif_pos t.clock_range]

theorem takeDate?_storedText (t : Timestamp) : takeDate? t.storedText.toList =
    if IsShortYear t.year then none
    else some ((t.year, t.month, t.day), ' ' :: t.storedClock) := by
  have hmonth : t.month < 10 ^ 2 := by
    have := t.month_range
    omega
  have hday : t.day < 10 ^ 2 := by
    have last : daysInMonth t.year t.month ≤ 31 := by
      unfold daysInMonth
      split_ifs <;> decide
    have := t.day_range
    omega
  rw [toList_storedText, takeDate?, takeYear?_signedYear t.year_range]
  by_cases hshort : IsShortYear t.year
  · rw [if_pos hshort, if_pos hshort]
    rfl
  · simp only [if_neg hshort, Option.bind_eq_bind, Option.bind_some, takeChar?_cons,
      takeNumeral?_digitsOf hmonth, takeNumeral?_digitsOf hday]

theorem readClock?_storedClock (readEnd : List Char → Option Nat) (t : Timestamp) :
    readClock? readEnd (t.year, t.month, t.day) t.storedClock =
      (readEnd ('.' :: digitsOf 9 t.nanosecond)).bind fun nanosecond =>
        ofParts? t.year t.month t.day t.hour t.minute t.second nanosecond := by
  obtain ⟨hhour, hminute, hsecond, -⟩ := t.clock_range
  have clock (n : Nat) (hn : n < 60) (rest : List Char) :
      takeNumeral? 2 (digitsOf 2 n ++ rest) = some (n, rest) :=
    takeNumeral?_digitsOf (by omega) rest
  simp only [readClock?, storedClock, Option.bind_eq_bind, Option.bind_some, takeChar?_cons,
    clock t.hour (by omega), clock t.minute hminute, clock t.second hsecond]

/-- The stored text has the first of the layouts and no other one. -/
theorem read?_storedText (l : Layout) (t : Timestamp) : l.read? t.storedText =
    if l = ⟨' ', true⟩ ∧ ¬ IsShortYear t.year then some t else none := by
  obtain ⟨separator, fraction⟩ := l
  rw [Layout.read?, takeDate?_storedText]
  by_cases hshort : IsShortYear t.year
  · rw [if_pos hshort, if_neg fun h => h.2 hshort]
    rfl
  simp only [if_neg hshort, Option.bind_eq_bind, Option.bind_some, Layout.mk.injEq]
  by_cases hspace : separator = ' '
  · rw [hspace, takeChar?_cons, Option.bind_some, readClock?_storedClock]
    cases fraction with
    | false =>
        rw [if_neg fun h => Bool.false_ne_true h.1.2]
        rfl
    | true =>
        have fractionRead : readEnd? true ('.' :: digitsOf 9 t.nanosecond) = some t.nanosecond :=
          readTail?_digitsOf t.clock_range.2.2.2
        rw [fractionRead, Option.bind_some, ofParts?_eq, if_pos ⟨⟨rfl, rfl⟩, hshort⟩]
  · have apart : takeChar? separator (' ' :: t.storedClock) = none := if_neg (Ne.symm hspace)
    rw [apart, Option.bind_none, if_neg fun h => hspace h.1.1]

/-- **The stored text of a point in time is read as that point in time**, or not read at all. -/
theorem parse?_storedText (t : Timestamp) :
    parse? t.storedText = if IsShortYear t.year then none else some t := by
  rw [parse?_eq_findSome?]
  simp only [layouts, List.findSome?_cons, read?_storedText]
  by_cases hshort : IsShortYear t.year <;> simp [hshort]

end Timestamp

/-! ## Fields -/

namespace FieldType

open Timestamp

/-- **A field of points in time takes the texts that have a layout**, in the first layout that they
have, and no other ones. Of the texts that are stored these are all but those of the years from 1 to
999 before the year 0, and each is taken as the point in time that it was written for. -/
theorem convert_timestamp_text (s : String) (t : Timestamp) :
    (timestamp.convert (.varchar (some s)) =
      match layouts.findSome? (·.read? s) with
      | some t' => .ok (.timestamp (some t'))
      | none => .error (.notTimestampText s)) ∧
    timestamp.convert (.varchar (some t.storedText)) =
      if IsShortYear t.year then .error (.notTimestampText t.storedText)
      else .ok (.timestamp (some t)) := by
  have taken (s : String) : timestamp.convert (.varchar (some s)) =
      match parse? s with
      | some t' => .ok (.timestamp (some t'))
      | none => .error (.notTimestampText s) := rfl
  constructor
  · rw [taken, parse?_eq_findSome?]
  · rw [taken, parse?_storedText]
    by_cases hshort : IsShortYear t.year
    · rw [if_pos hshort, if_pos hshort]
    · rw [if_neg hshort, if_neg hshort]

/-- The ides of March in the year 44 before the common era, which is the year 43 before the year 0,
are not read from their stored text. -/
theorem convert_storedText_ides :
    let ides : Timestamp :=
      ⟨-43, 3, 15, 0, 0, 0, 0, by decide, by decide, by decide, by decide⟩
    ides.storedText = "-043-03-15 00:00:00.000000000" ∧
    timestamp.convert (.varchar (some ides.storedText)) =
      .error (.notTimestampText "-043-03-15 00:00:00.000000000") := by
  decide +kernel

end FieldType

end GraphStore
