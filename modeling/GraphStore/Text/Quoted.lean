import GraphStore.Text.Hex
import GraphStore.Text.Printable

/-!
# Quoted text

The form in which texts appear inside messages about values: between double quotes, with the
quote, the backslash and the common control characters escaped by a letter, and every other
character that cannot be shown by its code point.
-/

set_option autoImplicit false

namespace GraphStore.Text

/-- One character between the quotes. -/
def escapeChar (c : Char) : List Char :=
  if c = '"' then ['\\', '"']
  else if c = '\\' then ['\\', '\\']
  else if c = '\n' then ['\\', 'n']
  else if c = '\r' then ['\\', 'r']
  else if c = '\t' then ['\\', 't']
  else if c = '\x00' then ['\\', '0']
  else if isShown c then [c]
  else ['\\', 'u', '\x7b'] ++ hexNumeral c.toNat ++ ['\x7d']

/-- The text between double quotes. -/
def quoted (s : String) : String :=
  String.ofList ('"' :: s.toList.flatMap escapeChar ++ ['"'])

end GraphStore.Text
