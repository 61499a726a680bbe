import GraphStore.Sql.Query

/-!
# Fragments of statements

A fragment is a piece of a statement before it is written in a dialect: literal text, columns and
parameters. Neighbouring texts are merged as they are added, so a fragment built by the
operations here never has two texts in a row, nor an empty one.
-/

set_option autoImplicit false

namespace GraphStore

/-- A column, qualified by the table or alias it belongs to, and the relation through which a
path reached it. -/
structure ColumnToken where
  relation : Option String := none
  table : String
  column : String
deriving DecidableEq, Repr

inductive Token where
  | text (s : String)
  | column (c : ColumnToken)
  | param (p : Param)
deriving DecidableEq, Repr

structure Fragment where
  tokens : List Token := []
deriving DecidableEq, Repr, Inhabited

namespace Fragment

def empty : Fragment := {}

def isEmpty (f : Fragment) : Bool := f.tokens.isEmpty

/-- `tokens` followed by the text `s`. -/
def addText (tokens : List Token) (s : String) : List Token :=
  if s.isEmpty then tokens
  else match tokens with
    | [] => [.text s]
    | [.text last] => [.text (last ++ s)]
    | t :: rest => t :: addText rest s

def pushText (f : Fragment) (s : String) : Fragment := ⟨addText f.tokens s⟩

def pushColumn (f : Fragment) (c : ColumnToken) : Fragment := ⟨f.tokens ++ [.column c]⟩

def pushParam (f : Fragment) (p : Param) : Fragment := ⟨f.tokens ++ [.param p]⟩

def push (f : Fragment) : Token → Fragment
  | .text s => f.pushText s
  | .column c => f.pushColumn c
  | .param p => f.pushParam p

/-- One fragment after another. -/
def append (f g : Fragment) : Fragment := g.tokens.foldl push f

instance : Append Fragment := ⟨append⟩

/-! ## Single tokens -/

def ofText (s : String) : Fragment := empty.pushText s

def ofColumn (c : ColumnToken) : Fragment := ⟨[.column c]⟩

def ofParam (p : Param) : Fragment := ⟨[.param p]⟩

/-- The fragments with a text between each two of them. -/
def joined (separator : String) : List Fragment → Fragment
  | [] => empty
  | [f] => f
  | f :: rest => f ++ ofText separator ++ joined separator rest

/-! ## What a fragment mentions -/

/-- The parameters in order of appearance. -/
def params (f : Fragment) : List Param :=
  f.tokens.filterMap fun | .param p => some p | _ => none

def columns (f : Fragment) : List ColumnToken :=
  f.tokens.filterMap fun | .column c => some c | _ => none

/-- The relations through which columns were reached. -/
def relations (f : Fragment) : List String := f.columns.filterMap (·.relation)

/-- The fragment with every column replaced. -/
def mapColumns (f : Fragment) (g : ColumnToken → ColumnToken) : Fragment :=
  ⟨f.tokens.map fun | .column c => .column (g c) | t => t⟩

end Fragment

end GraphStore
