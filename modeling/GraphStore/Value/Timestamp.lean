import GraphStore.Text.Numeral

/-!
# Points in calendar time

A date of the proleptic Gregorian calendar with a time of day to the nanosecond, and no time
zone. `Timestamp.storedText` is the form kept by databases without a type for it, and
`Timestamp.parse?` reads that form and its usual variants.
-/

set_option autoImplicit false

namespace GraphStore

def isLeapYear (year : Int) : Bool := year % 4 == 0 && (year % 100 != 0 || year % 400 == 0)

def daysInMonth (year : Int) (month : Nat) : Nat :=
  if month = 2 then if isLeapYear year then 29 else 28
  else if month = 4 ∨ month = 6 ∨ month = 9 ∨ month = 11 then 30 else 31

/-- A date and time of day that exist; years have at most four digits. -/
structure Timestamp where
  year : Int
  month : Nat
  day : Nat
  hour : Nat
  minute : Nat
  second : Nat
  nanosecond : Nat
  year_range : -9999 ≤ year ∧ year ≤ 9999
  month_range : 1 ≤ month ∧ month ≤ 12
  day_range : 1 ≤ day ∧ day ≤ daysInMonth year month
  clock_range : hour < 24 ∧ minute < 60 ∧ second < 60 ∧ nanosecond < 1000000000
deriving DecidableEq, Repr

namespace Timestamp

open Text

/-- The timestamp with these parts, when there is one. -/
def ofParts? (year : Int) (month day hour minute second nanosecond : Nat) : Option Timestamp :=
  if hy : -9999 ≤ year ∧ year ≤ 9999 then
    if hm : 1 ≤ month ∧ month ≤ 12 then
      if hd : 1 ≤ day ∧ day ≤ daysInMonth year month then
        if hc : hour < 24 ∧ minute < 60 ∧ second < 60 ∧ nanosecond < 1000000000 then
          some ⟨year, month, day, hour, minute, second, nanosecond, hy, hm, hd, hc⟩
        else none
      else none
    else none
  else none

/-- The start of 1970. -/
def epoch : Timestamp :=
  ⟨1970, 1, 1, 0, 0, 0, 0, by decide, by decide, by decide, by decide⟩

instance : Inhabited Timestamp := ⟨epoch⟩

/-! ## Text -/

def two (n : Nat) : String := String.ofList (digitsOf 2 n)

/-- The year in at least four characters, the sign of a negative year being one of them. -/
def signedYear (year : Int) : String :=
  if year < 0 then "-" ++ padZeros 3 (toString year.natAbs) else padZeros 4 (toString year.natAbs)

/-- The stored form: all parts padded, nine digits of fraction. -/
def storedText (t : Timestamp) : String :=
  signedYear t.year ++ "-" ++ two t.month ++ "-" ++ two t.day ++ " " ++
    two t.hour ++ ":" ++ two t.minute ++ ":" ++ two t.second ++ "." ++
    String.ofList (digitsOf 9 t.nanosecond)

/-- The fraction of a second without its trailing zeros, but with at least one digit. -/
def shortFraction (nanosecond : Nat) : String :=
  let kept := ((digitsOf 9 nanosecond).reverse.dropWhile (· == '0')).reverse
  if kept.isEmpty then "0" else String.ofList kept

/-- The form shown in messages: four digits of year after a sign, the hour as short as it is. -/
def shownText (t : Timestamp) : String :=
  (if t.year < 0 then "-" else "") ++ padZeros 4 (toString t.year.natAbs) ++ "-" ++
    two t.month ++ "-" ++ two t.day ++ " " ++ toString t.hour ++ ":" ++ two t.minute ++ ":" ++
    two t.second ++ "." ++ shortFraction t.nanosecond

/-! ## Reading -/

/-- Takes the character `c` off the front. -/
def takeChar? (c : Char) : List Char → Option (List Char)
  | [] => none
  | d :: rest => if d = c then some rest else none

/-- A year of four digits after an optional sign. -/
def takeYear? (s : List Char) : Option (Int × List Char) :=
  match s with
  | '-' :: rest => (takeNumeral? 4 rest).map fun (n, r) => (-(n : Int), r)
  | '+' :: rest => (takeNumeral? 4 rest).map fun (n, r) => ((n : Int), r)
  | _ => (takeNumeral? 4 s).map fun (n, r) => ((n : Int), r)

/-- The nanoseconds of a fraction: nine digits, short ones filled up, later ones dropped. -/
def readFraction (digits : List Char) : Nat :=
  readDigits 0 (digits ++ List.replicate (9 - digits.length) '0' |>.take 9)

/-- The end of a text: nothing, or a point and at least one digit. -/
def readTail? (s : List Char) : Option Nat :=
  match s with
  | [] => some 0
  | '.' :: digits => if !digits.isEmpty && digits.all isDigit then some (readFraction digits) else none
  | _ => none

/-- The timestamp written as `YYYY-MM-DD`, a space or `T`, `hh:mm:ss` and an optional
fraction. -/
def parse? (s : String) : Option Timestamp := do
  let (year, s) ← takeYear? s.toList
  let (month, s) ← takeNumeral? 2 (← takeChar? '-' s)
  let (day, s) ← takeNumeral? 2 (← takeChar? '-' s)
  let s ← (takeChar? ' ' s).or (takeChar? 'T' s)
  let (hour, s) ← takeNumeral? 2 s
  let (minute, s) ← takeNumeral? 2 (← takeChar? ':' s)
  let (second, s) ← takeNumeral? 2 (← takeChar? ':' s)
  let nanosecond ← readTail? s
  ofParts? year month day hour minute second nanosecond

/-! ## Later moments -/

/-- The same day, `micros` microseconds later; the clock stops at the end of the day. -/
def addMicros (t : Timestamp) (micros : Nat) : Timestamp :=
  let nanos := ((t.hour * 60 + t.minute) * 60 + t.second) * 1000000000 + t.nanosecond + micros * 1000
  let seconds := nanos / 1000000000
  (ofParts? t.year t.month t.day (seconds / 3600) (seconds / 60 % 60) (seconds % 60)
    (nanos % 1000000000)).getD t

end Timestamp

end GraphStore
