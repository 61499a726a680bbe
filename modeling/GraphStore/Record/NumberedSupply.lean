import GraphStore.Record.Editing

/-!
# A supply that can be recognised

For runs that are to be repeated: random identifiers that all begin alike and carry their number,
and a clock that advances by a microsecond at every reading. Both can be recognised in what a run
leaves behind, also inside texts.
-/

set_option autoImplicit false

namespace GraphStore.NumberedSupply

/-- The bytes that all identifiers begin with. -/
def heading : List UInt8 := [0x9d, 0x1f, 0x7a, 0x55, 0xc3, 0x0b, 0x4e, 0x2a, 0xb8, 0xf1, 0x6d, 0x93]

/-- The number in the last four bytes. -/
def numberBytes (n : Nat) : List UInt8 :=
  [n >>> 24, n >>> 16, n >>> 8, n].map UInt8.ofNat

def uuid (n : Nat) : Uuid := ⟨heading ++ numberBytes n, rfl⟩

/-- The place of an identifier in the supply, the first being 1. -/
def place? (bytes : List UInt8) : Option Nat :=
  if bytes.length = 16 ∧ bytes.take 12 = heading then
    some ((bytes.drop 12).foldl (fun n b => n * 256 + b.toNat) 0 + 1)
  else none

/-- The first reading of the clock. -/
def start : Timestamp :=
  ⟨2026, 7, 1, 11, 22, 33, 445566000, by decide, by decide, by decide, by decide⟩

def supply : Supply := { randomUuid := uuid, clock := start.addMicros }

/-- Whether a timestamp is a reading of the clock, for up to half a million readings. -/
def isReading (t : Timestamp) : Bool :=
  (t.year, t.month, t.day, t.hour, t.minute, t.second) == (2026, 7, 1, 11, 22, 33) &&
    445566000 ≤ t.nanosecond && t.nanosecond % 1000 == 0

/-- The text with every identifier of the supply replaced by what is written for its
place. -/
def replaceFrom (write : Nat → String) : Nat → List Char → List Char
  | 0, s => s
  | _, [] => []
  | fuel + 1, c :: rest =>
      match (if c = '9' then Uuid.parse? (String.ofList ((c :: rest).take 36)) else none).bind
          (place? ·.bytes) with
      | some n => (write n).toList ++ replaceFrom write fuel (rest.drop 35)
      | none => c :: replaceFrom write fuel rest

def replaceAll (write : Nat → String) (s : String) : String :=
  String.ofList (replaceFrom write s.length s.toList)

end GraphStore.NumberedSupply
