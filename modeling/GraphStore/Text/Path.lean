/-!
# Dotted paths and qualified names

A property path is cut at every dot. The short name of a type is the last segment of its
qualified name, without type arguments.
-/

set_option autoImplicit false

namespace GraphStore.Text

/-- The pieces between the occurrences of `sep`; there is always at least one. -/
def cutAt (sep : Char) : List Char → List (List Char)
  | [] => [[]]
  | c :: rest =>
      if c = sep then [] :: cutAt sep rest
      else match cutAt sep rest with
        | [] => [[c]]
        | piece :: pieces => (c :: piece) :: pieces

/-- What stands before the first two colons in a row. -/
def untilColons : List Char → List Char
  | ':' :: ':' :: _ => []
  | c :: rest => c :: untilColons rest
  | [] => []

/-- The property names of a path. -/
def pathSegments (path : String) : List String := (cutAt '.' path.toList).map String.ofList

/-- The last segment of a qualified type name, up to its type arguments. -/
def shortTypeName (name : String) : String :=
  String.ofList (untilColons (name.toList.takeWhile (· != '<')).reverse).reverse

end GraphStore.Text
