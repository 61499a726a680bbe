import GraphStore.Sqlite.Frame

/-!
# Functions

Functions of cells, and aggregates, which are functions of the cells of a group of rows. Names of
functions are looked up without regard to case.
-/

set_option autoImplicit false

namespace GraphStore.Sqlite

open Text (utf8 readUtf8)

/-- What a function gives for its arguments, none of which is null unless it says so. -/
inductive Function where
  /-- Null when an argument is null. -/
  | strict (f : List Cell → Except Fault Cell)
  | lenient (f : List Cell → Cell)
  | ofWorld (f : World → Cell)

/-- The characters of a cell as text. -/
def Cell.chars (c : Cell) : List Char := (readUtf8 c.bytes).toList

def Cell.ofChars (cs : List Char) : Cell := .ofText (String.ofList cs)

def Cell.ofNat (n : Nat) : Cell := .integer (Int64.ofNat n)

namespace Function

/-! ## Numbers -/

def abs : Cell → Except Fault Cell
  | .integer n =>
      if n = Int64.minValue then .error .integerOverflow
      else .ok (.integer (if n < 0 then -n else n))
  | c => .ok (.ofReal (Binary64.ofFloat c.toReal.toFloat.abs))

/-- The sign of a number; null for a text that is none. -/
def sign (c : Cell) : Cell :=
  match c with
  | .integer n => .integer (if n < 0 then -1 else if n = 0 then 0 else 1)
  | .real x => .integer (if x.isZero then 0 else if x.negative then -1 else 1)
  | .text s =>
      match wholeNumber? s with
      | some n =>
          let x := n.toReal
          .integer (if x.isZero then 0 else if x.negative then -1 else 1)
      | none => .null
  | _ => .null

/-- A number rounded to a number of decimal places. -/
def round (c : Cell) (places : Int64) : Cell :=
  let x := c.toReal
  let places := min 30 (max 0 places.toInt).toNat
  let far := x.isInfinite || 1 <<< 52 ≤ x.ratio.1 / x.ratio.2
  if far then .real x
  else if places = 0 then
    let half : Float := if x.negative then -0.5 else 0.5
    .real (Binary64.ofInt (Binary64.ofFloat (x.toFloat + half)).truncated)
  else
    let (num, den) := x.ratio
    let scaled := (2 * num * Nat.pow 10 places + den) / (2 * den)
    .real (Binary64.ofRatio x.negative scaled (Nat.pow 10 places))

/-! ## Text -/

/-- The size of a text in characters, up to the first NUL, and of a blob in bytes. -/
def length : Cell → Cell
  | .blob b => .ofNat b.length
  | c => .ofNat (c.chars.takeWhile (· != '\x00')).length

/-- The part of a list from a place on, counted from one, or from the end when negative; a negative
size takes what is before the place. -/
def part {α : Type} (s : List α) (start : Int) (size : Option Int) : List α :=
  let len : Int := s.length
  let size := size.getD (len + 1)
  let (first, size) : Int × Int :=
    if start < 0 then
      let first := start + len
      if first < 0 then (0, if size < 0 then 0 else size + first) else (first, size)
    else if 0 < start then (start - 1, size)
    else (0, if 0 < size then size - 1 else size)
  let (first, size) : Int × Int :=
    if size < 0 then
      let back := min first (-size)
      (first - back, back)
    else (first, size)
  (s.drop first.toNat).take size.toNat

def substring (c : Cell) (start : Cell) (size : Option Cell) : Cell :=
  let start := start.toInteger.toInt
  let size := size.map (·.toInteger.toInt)
  match c with
  | .blob b => .blob (part b start size)
  | c => .ofChars (part c.chars start size)

/-- Characters of a set taken off the ends of a text. -/
def trim (left right : Bool) (s set : List Char) : List Char :=
  let s := if left then s.dropWhile set.contains else s
  if right then (s.reverse.dropWhile set.contains).reverse else s

/-- The text with every occurrence of a piece replaced. -/
def replaceAll (piece replacement : List Char) : List Char → List Char
  | [] => []
  | c :: s =>
      if !piece.isEmpty && piece.isPrefixOf (c :: s) then
        replacement ++ replaceAll piece replacement (s.drop (piece.length - 1))
      else c :: replaceAll piece replacement s
termination_by s => s.length

/-- The place of the first occurrence of a piece, counted from one; zero when there is none. -/
def placeOf {α : Type} [BEq α] (piece s : List α) : Nat :=
  go 1 s
where
  go (n : Nat) : List α → Nat
    | [] => if piece.isEmpty then n else 0
    | c :: s => if piece.isPrefixOf (c :: s) then n else go (n + 1) s

def instr (a b : Cell) : Cell :=
  match a, b with
  | .blob x, .blob y => .ofNat (placeOf y x)
  | a, b => .ofNat (placeOf b.chars a.chars)

def upperByte (b : UInt8) : UInt8 := if 0x61 ≤ b && b ≤ 0x7A then b - 32 else b

def hex (c : Cell) : Cell :=
  .text ((utf8 (String.ofList (Text.bytesDigits c.bytes))).map upperByte)

/-- A cell as a literal. -/
def quote : Cell → Cell
  | .null => .ofText "NULL"
  | .text s => .text (0x27 :: (s.flatMap fun b => if b = 0x27 then [0x27, 0x27] else [b]) ++ [0x27])
  | .blob b => .text (utf8 "X'" ++ (hex (.blob b)).bytes ++ utf8 "'")
  | c => .text c.bytes

/-- The texts of cells joined; nulls do not count. -/
def join (separator : List UInt8) (cs : List Cell) : Cell :=
  .text (List.intercalate separator ((cs.filter (!·.isNull)).map Cell.bytes))

/-! ## Choices -/

/-- The first cell that is least or greatest; null when one of them is null. -/
def extreme (greatest : Bool) (collation : Collation) : List Cell → Cell
  | [] => .null
  | c :: cs =>
      if (c :: cs).any Cell.isNull then .null
      else cs.foldl (fun best d =>
        let o := d.order collation best
        if (greatest && o == .gt) || (!greatest && o == .lt) then d else best) c

/-! ## Names -/

/-- The version that is reported. -/
def version : String := "3.50.2"

/-- The function of a name in lower case and a number of arguments. -/
def find? (name : String) (count : Nat) (collation : Collation) : Option Function :=
  let one (f : Cell → Cell) : Function := strict fun
    | [a] => .ok (f a)
    | _ => .ok .null
  let any (f : Cell → Cell) : Function := lenient fun
    | [a] => f a
    | _ => .null
  match name, count with
  | "abs", 1 => some (strict fun
      | [a] => abs a
      | _ => .ok .null)
  | "sign", 1 => some (one sign)
  | "round", 1 => some (one (round · 0))
  | "round", 2 => some (strict fun
      | [a, n] => .ok (round a n.toInteger)
      | _ => .ok .null)
  | "length", 1 => some (one length)
  | "octet_length", 1 => some (one (.ofNat ·.bytes.length))
  | "lower", 1 => some (one fun c => .text (c.bytes.map lowerByte))
  | "upper", 1 => some (one fun c => .text (c.bytes.map upperByte))
  | "typeof", 1 => some (any (.ofText ·.className))
  | "quote", 1 => some (any quote)
  | "hex", 1 => some (any hex)
  | "unicode", 1 => some (one fun c => c.chars.head?.elim .null (.ofNat ·.toNat))
  | "zeroblob", 1 => some (any fun c => .blob (List.replicate c.toInteger.toInt.toNat 0))
  | "instr", 2 => some (strict fun
      | [a, b] => .ok (instr a b)
      | _ => .ok .null)
  | "replace", 3 => some (strict fun
      | [s, a, b] => .ok (.ofChars (replaceAll a.chars b.chars s.chars))
      | _ => .ok .null)
  | "nullif", 2 => some (lenient fun
      | [a, b] => if !a.isNull && !b.isNull && a.sameAs collation b then .null else a
      | _ => .null)
  | "like", 2 => some (lenientMatch .like)
  | "like", 3 => some (lenientMatch .like)
  | "glob", 2 => some (lenientMatch .glob)
  | "last_insert_rowid", 0 => some (ofWorld fun w => .integer w.lastRowid)
  | "changes", 0 => some (ofWorld fun w => .ofNat w.changes)
  | "total_changes", 0 => some (ofWorld fun w => .ofNat w.totalChanges)
  | "sqlite_version", 0 => some (ofWorld fun _ => .ofText version)
  | "char", _ => some (lenient fun cs => .ofChars (cs.map fun c =>
      let n := c.toInteger.toInt
      if n < 0 ∨ 0x10FFFF < n then Text.replacement else Char.ofNat n.toNat))
  | "concat_ws", n + 2 => some (lenient fun
      | s :: cs => if s.isNull then .null else join s.bytes cs
      | [] => if n = 0 then .null else .null)
  | "concat", _ + 1 => some (lenient (join []))
  | "min", _ + 2 => some (lenient (extreme false collation))
  | "max", _ + 2 => some (lenient (extreme true collation))
  | "likely", 1 => some (any id)
  | "unlikely", 1 => some (any id)
  | name, count =>
      if (name == "substr" || name == "substring") && (count == 2 || count == 3) then
        some (strict fun
          | [s, a] => .ok (substring s a none)
          | [s, a, n] => .ok (substring s a (some n))
          | _ => .ok .null)
      else if ["trim", "ltrim", "rtrim"].contains name && (count == 1 || count == 2) then
        let left := name != "rtrim"
        let right := name != "ltrim"
        some (strict fun
          | [s] => .ok (.ofChars (trim left right s.chars [' ']))
          | [s, set] => .ok (.ofChars (trim left right s.chars set.chars))
          | _ => .ok .null)
      else none
where
  /-- A match written as a call: the pattern comes first. -/
  lenientMatch (op : PatternOp) : Function := strict fun
    | [p, s] => Cell.ofTruth <$> op.apply s p none
    | [p, s, e] => Cell.ofTruth <$> op.apply s p (some e)
    | _ => .ok .null

/-- Whether there is a function of this name for another number of arguments. -/
def isKnown (name : String) : Bool :=
  ["abs", "sign", "round", "length", "octet_length", "lower", "upper", "typeof", "quote", "hex",
    "unicode", "zeroblob", "instr", "replace", "nullif", "like", "glob", "last_insert_rowid",
    "changes", "total_changes", "sqlite_version", "concat_ws", "concat", "min", "max", "likely",
    "unlikely", "substr", "substring", "trim", "ltrim", "rtrim", "coalesce", "ifnull", "iif", "if",
    "count", "sum", "total", "avg", "group_concat", "string_agg"].contains name

def apply (f : Function) (world : World) (args : List Cell) : Except Fault Cell :=
  match f with
  | strict f => if args.any Cell.isNull then .ok .null else f args
  | lenient f => .ok (f args)
  | ofWorld f => .ok (f world)

end Function

/-! ## Aggregates -/

/-- What an aggregate makes of the arguments of the rows of a group. -/
abbrev Fold := List (List Cell) → Except Fault Cell

namespace Fold

/-- The first arguments that are not null. -/
def present (rows : List (List Cell)) : List Cell :=
  rows.filterMap fun r => (r.head?).filter (!·.isNull)

def count : Fold := fun rows => .ok (.ofNat (present rows).length)

/-- A sum of real numbers, with the error of every step kept for the end. -/
structure RunningSum where
  sum : Float := 0
  error : Float := 0

def RunningSum.add (s : RunningSum) (x : Float) : RunningSum :=
  let t := s.sum + x
  let e := if s.sum.abs > x.abs then (s.sum - t) + x else (x - t) + s.sum
  { sum := t, error := s.error + e }

def realSum (cs : List Cell) : Float :=
  let s := cs.foldl (fun s c => s.add c.toReal.toFloat) ({} : RunningSum)
  let t := s.sum + s.error
  if t.isNaN then s.sum else t

/-- The numbers that cells are added as. -/
def addends (rows : List (List Cell)) : List Cell :=
  (present rows).map fun c =>
    match c with
    | .text s => (wholeNumber? s).getD (.real c.toReal)
    | .blob _ => .real c.toReal
    | c => c

def integers? (cs : List Cell) : Option (List Int64) :=
  cs.mapM fun
    | .integer n => some n
    | _ => none

/-- A sum that still fits. -/
def runningSum? (s n : Int) : Option Int := (Cell.ofInt? (s + n)).map fun _ => s + n

/-- The sum: an integer when all are, null when there is nothing to add. -/
def sum : Fold := fun rows =>
  let cs := addends rows
  if cs.isEmpty then .ok .null
  else
    match integers? cs with
    | some ns =>
        match ns.foldlM (fun s n => runningSum? s n.toInt) 0 with
        | some s => .ok (.integer (Int64.ofInt s))
        | none => .error .integerOverflow
    | none => .ok (.ofReal (Binary64.ofFloat (realSum cs)))

def total : Fold := fun rows => .ok (.ofReal (Binary64.ofFloat (realSum (addends rows))))

def average : Fold := fun rows =>
  let cs := addends rows
  if cs.isEmpty then .ok .null
  else .ok (.ofReal (Binary64.ofFloat (realSum cs / cs.length.toFloat)))

def extreme (greatest : Bool) (collation : Collation) : Fold := fun rows =>
  .ok (Function.extreme greatest collation (present rows))

/-- The texts joined, each after the separator of its own row. -/
def concat : Fold := fun rows =>
  let rows := rows.filter fun r => !(r.headD .null).isNull
  match rows with
  | [] => .ok .null
  | first :: rest =>
      .ok (.text (rest.foldl (fun s r =>
        s ++ (r[1]?.elim (utf8 ",") Cell.bytes) ++ (r.headD .null).bytes) (first.headD .null).bytes))

/-- The aggregate of a name in lower case and a number of arguments. -/
def find? (name : String) (count : Nat) (collation : Collation) : Option Fold :=
  match name, count with
  | "count", 0 => some fun rows => .ok (.ofNat rows.length)
  | "count", 1 => some Fold.count
  | "sum", 1 => some sum
  | "total", 1 => some total
  | "avg", 1 => some average
  | "min", 1 => some (extreme false collation)
  | "max", 1 => some (extreme true collation)
  | "group_concat", 1 => some concat
  | "group_concat", 2 => some concat
  | "string_agg", 2 => some concat
  | _, _ => none

end Fold

end GraphStore.Sqlite
