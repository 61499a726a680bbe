import GraphStore.Sqlite.Command
import GraphStore.Sqlite.Lexeme

/-!
# Reading statements

A reader takes lexemes off the front of a statement. Where the next lexeme does not fit, reading
fails with that lexeme. Parameters are numbered as they are met; the same name has the same
number.
-/

set_option autoImplicit false

namespace GraphStore.Sqlite

/-- What is left to read, and the parameters met so far. -/
structure ReadState where
  rest : List Lexeme
  /-- The named parameters with their places. -/
  params : List (String × Nat) := []
  /-- The highest place of a parameter. -/
  places : Nat := 0

abbrev Reader := StateT ReadState (Except Fault)

/-! ## Names -/

/-- Words that are no names. -/
def reservedWords : List String :=
  ["add", "all", "alter", "and", "as", "autoincrement", "between", "case", "check", "collate",
    "commit", "constraint", "create", "default", "deferrable", "delete", "distinct", "drop",
    "else", "escape", "except", "exists", "foreign", "from", "group", "having", "in", "index",
    "insert", "intersect", "into", "is", "isnull", "join", "limit", "not", "nothing", "notnull",
    "null", "on", "or", "order", "primary", "references", "returning", "select", "set", "table",
    "then", "to", "transaction", "union", "unique", "update", "using", "values", "when", "where"]

/-- Words that are names except where a join can stand. -/
def joinWords : List String := ["cross", "full", "inner", "left", "natural", "outer", "right"]

namespace Lexeme

/-- The name that a lexeme is where a join could also stand. -/
def plainName? (l : Lexeme) : Option String :=
  match l.kind with
  | .word =>
      if reservedWords.contains l.keyword || joinWords.contains l.keyword then none else some l.text
  | .quotedName => some l.unquoted
  | _ => none

/-- The name that a lexeme is in an expression. -/
def columnName? (l : Lexeme) : Option String :=
  match l.kind with
  | .word => if reservedWords.contains l.keyword then none else some l.text
  | .quotedName => some l.unquoted
  | _ => none

/-- The name that a lexeme is where only a name can stand; a text will do. -/
def name? (l : Lexeme) : Option String :=
  if l.kind = .string then some l.unquoted else l.columnName?

/-- The name of a column or table after its expression, without `AS`. -/
def label? (l : Lexeme) : Option String :=
  if l.kind = .string then some l.unquoted else l.plainName?

end Lexeme

namespace Reader

variable {α : Type}

/-- The next lexeme. -/
def peek : Reader Lexeme := return (← get).rest.headD ⟨.stop, [], []⟩

/-- The lexeme after the next. -/
def peekSecond : Reader Lexeme := return ((← get).rest.drop 1).headD ⟨.stop, [], []⟩

def skip : Reader Unit := modify fun s => { s with rest := s.rest.drop 1 }

/-- The next lexeme does not fit. -/
def unexpected : Reader α := do
  let l ← peek
  match l.kind with
  | .stop => throw .incomplete
  | .broken => throw (.unrecognized l.text)
  | _ => throw (.unexpected l.text)

/-- Takes a keyword if it is next. -/
def tryWord (word : String) : Reader Bool := do
  if (← peek).isKeyword word then skip; return true
  else return false

def word (w : String) : Reader Unit := do
  if !(← tryWord w) then unexpected

/-- Takes several keywords in a row if the first is next. -/
def tryWords : List String → Reader Bool
  | [] => return true
  | w :: ws => do
      if !(← tryWord w) then return false
      for w in ws do word w
      return true

def trySymbol (symbol : String) : Reader Bool := do
  if (← peek).isSymbol symbol then skip; return true
  else return false

def symbol (s : String) : Reader Unit := do
  if !(← trySymbol s) then unexpected

/-- A lexeme that `read` makes something of. -/
def lexeme (read : Lexeme → Option α) : Reader α := do
  match read (← peek) with
  | some a => skip; return a
  | none => unexpected

def name : Reader String := lexeme Lexeme.name?

/-- A list with commas, of at most `fuel` items. -/
def commaList (item : Reader α) : Nat → Reader (List α)
  | 0 => throw .expressionTooDeep
  | fuel + 1 => do
      let a ← item
      if ← trySymbol "," then return a :: (← commaList item fuel) else return [a]

/-- Something in parentheses. -/
def parenthesized (item : Reader α) : Reader α := do
  symbol "("
  let a ← item
  symbol ")"
  return a

/-- A bound for the recursion of readers: they call each other at most so often before they take a
lexeme. -/
def fuel : Reader Nat := return 4 * (← get).rest.length + 16

/-- Blanks taken off both ends. -/
def trimmed (s : List Char) : List Char :=
  let blank (c : Char) : Bool := isSpace c || c == '\x0b'
  ((s.dropWhile blank).reverse.dropWhile blank).reverse

/-- What a reader reads, and its text. -/
def withText (read : Reader α) : Reader (α × String) := do
  let before := (← get).rest
  let a ← read
  let after := (← get).rest
  let taken := before.take (before.length - after.length)
  let gap := (after.head?.map (·.gap)).getD []
  return (a, String.ofList (trimmed (source taken |>.drop (taken.head?.elim 0 (·.gap.length))
    |> (· ++ gap))))

/-! ## Parameters -/

/-- The place of a parameter: the next one, the one it gives itself, or that of its name. -/
def paramPlace (written : String) : Reader Nat := do
  let s ← get
  let place? : Option Nat :=
    if written == "?" then some (s.places + 1)
    else if written.toList.head? == some '?' then (written.toList.drop 1 |> String.ofList).toNat?
    else some ((s.params.lookup written).getD (s.places + 1))
  match place? with
  | none => throw .parameterNumber
  | some place =>
      if place = 0 ∨ 32766 < place then throw .parameterNumber
      let params :=
        if written == "?" ∨ (s.params.lookup written).isSome then s.params
        else s.params ++ [(written, place)]
      set { s with params, places := max s.places place }
      return place

end Reader

end GraphStore.Sqlite
