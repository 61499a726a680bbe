import GraphStore.Text.Hex
import GraphStore.Text.Numeral

/-!
# Lexemes

A statement is cut into lexemes: words, quoted names, literals, parameters and symbols. Each keeps
the gap before it, blanks and comments, so that the text between two lexemes can be told again:
the lexemes of a text, their gaps included, are the text (`source_lexemes`).
-/

set_option autoImplicit false

namespace GraphStore.Sqlite

open Text (isDigit hexValue?)

inductive LexemeKind where
  /-- A keyword or a plain name. -/
  | word
  /-- A name in double quotes, backticks or brackets. -/
  | quotedName
  | string
  | number
  | blob
  | parameter
  | symbol
  /-- What is no lexeme. -/
  | broken
  /-- The end of the text. -/
  | stop
deriving DecidableEq, Repr

/-- A lexeme as it is written, and the gap before it. -/
structure Lexeme where
  kind : LexemeKind
  gap : List Char
  written : List Char
deriving DecidableEq, Repr

/-! ## Gaps -/

def isSpace (c : Char) : Bool :=
  c == ' ' || c == '\t' || c == '\n' || c == '\x0c' || c == '\r' || c == '\uFEFF'

/-- How many characters come before the end of a line. -/
def lineSize (s : List Char) : Nat := (s.takeWhile (· != '\n')).length

/-- The size of the rest of a comment, its end included; a comment without end takes all. -/
def blockSize : List Char → Nat
  | '*' :: '/' :: _ => 2
  | _ :: rest => blockSize rest + 1
  | [] => 0

/-- How many characters after the first belong to the blank or comment at the front. A vertical tab
is a blank only after other blanks. -/
def gapTail? (afterBlank : Bool) : List Char → Option Nat
  | '-' :: '-' :: rest => some (lineSize rest + 1)
  | '/' :: '*' :: c :: rest => some (blockSize (c :: rest) + 1)
  | c :: _ => if isSpace c || (afterBlank && c == '\x0b') then some 0 else none
  | [] => none

/-- The size of the gap at the front. -/
def gapSize (afterBlank : Bool) : List Char → Nat
  | [] => 0
  | c :: rest =>
      match gapTail? afterBlank (c :: rest) with
      | none => 0
      | some n => gapSize (isSpace c || c == '\x0b') (rest.drop n) + n + 1
termination_by s => s.length

/-! ## Literals and names -/

def isLetter (c : Char) : Bool :=
  ('a' ≤ c && c ≤ 'z') || ('A' ≤ c && c ≤ 'Z') || c == '_' || '\x80' ≤ c

def isNameChar (c : Char) : Bool := isLetter c || isDigit c || c == '$'

def isHexDigit (c : Char) : Bool := (hexValue? c).isSome

/-- The size of quoted text after its opening quote, the closing one included; a quote in the text
is written twice. -/
def quotedSize? (q : Char) : List Char → Option Nat
  | [] => none
  | [c] => if c = q then some 1 else none
  | c :: d :: rest =>
      if c = q then
        if d = q then (quotedSize? q rest).map (· + 2) else some 1
      else (quotedSize? q (d :: rest)).map (· + 1)

/-- The size of a run of digits; single underscores may stand in it. -/
def digitRun (isDigit : Char → Bool) (s : List Char) : Nat :=
  (s.takeWhile fun c => isDigit c || c == '_').length

/-- The size of an exponent at the front, or zero. -/
def exponentSize : List Char → Nat
  | e :: rest =>
      if e == 'e' || e == 'E' then
        match rest with
        | sign :: d :: _ =>
            if isDigit sign then digitRun isDigit rest + 1
            else if (sign == '+' || sign == '-') && isDigit d then
              digitRun isDigit (rest.drop 1) + 2
            else 0
        | [d] => if isDigit d then 2 else 0
        | [] => 0
      else 0
  | [] => 0

/-- The size of the number at the front, whose first character is a digit or a point. -/
def numberSize (s : List Char) : Nat :=
  match s with
  | '0' :: x :: d :: rest =>
      if (x == 'x' || x == 'X') && isHexDigit d then digitRun isHexDigit rest + 3 else decimalSize s
  | _ => decimalSize s
where
  decimalSize (s : List Char) : Nat :=
    let n := digitRun isDigit s
    let n := if (s.drop n).head? == some '.' then n + 1 + digitRun isDigit (s.drop (n + 1)) else n
    n + exponentSize (s.drop n)

/-- Whether every underscore stands between two digits. -/
def separatorsFit : List Char → Bool
  | a :: '_' :: b :: rest => isHexDigit a && isHexDigit b && separatorsFit (b :: rest)
  | _ :: '_' :: [] => false
  | _ :: rest => separatorsFit rest
  | [] => true

/-- The size of a parameter's name after its mark, and whether it has one. -/
def parameterSize (named : Bool) : List Char → Nat × Bool
  | ':' :: ':' :: rest => let (n, ok) := parameterSize named rest; (n + 2, ok)
  | '(' :: rest =>
      if named then
        let n := (rest.takeWhile fun c => !isSpace c && c != ')').length
        if (rest.drop n).head? == some ')' then (n + 2, true) else (n + 1, false)
      else (0, false)
  | c :: rest =>
      if isNameChar c then let (n, ok) := parameterSize true rest; (n + 1, ok) else (0, named)
  | [] => (0, named)

/-- The size of a blob literal after its letter and opening quote, and whether it is well formed:
pairs of digits up to the closing quote. -/
def blobSize (s : List Char) : Nat × Bool :=
  let n := (s.takeWhile (· != '\'')).length
  let closed := n < s.length
  (n + (if closed then 1 else 0), closed && n % 2 == 0 && (s.take n).all isHexDigit)

/-- The size of a symbol at the front. -/
def symbolSize : List Char → Nat
  | '|' :: '|' :: _ => 2
  | '=' :: '=' :: _ => 2
  | '<' :: '=' :: _ => 2
  | '<' :: '>' :: _ => 2
  | '<' :: '<' :: _ => 2
  | '>' :: '=' :: _ => 2
  | '>' :: '>' :: _ => 2
  | '!' :: '=' :: _ => 2
  | '-' :: '>' :: '>' :: _ => 3
  | '-' :: '>' :: _ => 2
  | _ => 1

/-- The kind of the lexeme at the front, and its size less one. -/
def classify (c : Char) (rest : List Char) : LexemeKind × Nat :=
  let quoted (kind : LexemeKind) : LexemeKind × Nat :=
    match quotedSize? c rest with
    | some n => (kind, n)
    | none => (.broken, rest.length)
  if c == '"' || c == '\x60' then quoted .quotedName
  else if c == '\'' then quoted .string
  else if c == '[' then
    let n := (rest.takeWhile (· != ']')).length
    if n < rest.length then (.quotedName, n + 1) else (.broken, n)
  else if isDigit c || (c == '.' && (rest.head?.any isDigit)) then
    let n := numberSize (c :: rest)
    let extra := ((c :: rest).drop n |>.takeWhile isNameChar).length
    let ok := extra == 0 && separatorsFit ((c :: rest).take n)
    (if ok then .number else .broken, n + extra - 1)
  else if (c == 'x' || c == 'X') && rest.head? == some '\'' then
    let (n, ok) := blobSize (rest.drop 1)
    (if ok then .blob else .broken, n + 1)
  else if isLetter c then (.word, (rest.takeWhile isNameChar).length)
  else if c == '?' then (.parameter, (rest.takeWhile isDigit).length)
  else if c == ':' || c == '@' || c == '$' || c == '#' then
    let (n, ok) := parameterSize false rest
    (if ok then .parameter else .broken, n)
  else if c == '!' && rest.head? != some '=' then (.broken, 0)
  else if "|=<>!-+*/%&~,;().".toList.contains c then (.symbol, symbolSize (c :: rest) - 1)
  else (.broken, 0)

/-- The lexemes of a text, the last of them its end. -/
def lexemes (s : List Char) : List Lexeme :=
  let gap := s.take (gapSize false s)
  match _h : s.drop (gapSize false s) with
  | [] => [⟨.stop, gap, []⟩]
  | c :: rest =>
      let (kind, n) := classify c rest
      ⟨kind, gap, c :: rest.take n⟩ :: lexemes (rest.drop n)
termination_by s.length
decreasing_by
  have := congrArg List.length _h
  simp at this ⊢
  omega

/-- The text that lexemes were cut from. -/
def source (ls : List Lexeme) : List Char := ls.flatMap fun l => l.gap ++ l.written

theorem source_lexemes (s : List Char) : source (lexemes s) = s := by
  fun_induction lexemes s with
  | case1 s gap h =>
      have : gap ++ s.drop (gapSize false s) = s := List.take_append_drop ..
      simp [source, ← h, this]
  | case2 s gap c rest h kind n _ ih =>
      have : gap ++ s.drop (gapSize false s) = s := List.take_append_drop ..
      rw [← this, h]
      simp [source] at ih ⊢
      rw [ih, List.take_append_drop]

namespace Lexeme

def text (l : Lexeme) : String := String.ofList l.written

/-- The word in lower case; empty when the lexeme is no word. -/
def keyword (l : Lexeme) : String :=
  if l.kind = .word then String.ofList (l.written.map Char.toLower) else ""

def isKeyword (l : Lexeme) (word : String) : Bool := l.kind == .word && l.keyword == word

def isSymbol (l : Lexeme) (s : String) : Bool := l.kind == .symbol && l.text == s

/-- The text inside quotes, with doubled quotes made single. -/
def unquoted (l : Lexeme) : String :=
  match l.written with
  | [] => ""
  | '[' :: rest => String.ofList (rest.take (rest.length - 1))
  | q :: rest => String.ofList (single q (rest.take (rest.length - 1)))
where
  single (q : Char) : List Char → List Char
    | c :: d :: rest => if c = q ∧ d = q then c :: single q rest else c :: single q (d :: rest)
    | s => s

end Lexeme

end GraphStore.Sqlite
