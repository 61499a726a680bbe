import GraphStore.Number.Shortest

/-!
# Floating point numbers as text

Two ways of writing the shortest decimal. The plain form is always positional and gives integers
no point. The labelled form, used in messages about values, keeps a point in integers and turns
to an exponent outside `[1e-4, 1e16)`.
-/

set_option autoImplicit false

namespace GraphStore.Binary64

/-- Positional digits of `d`, with a point only where there is a fraction. -/
def positional (d : Decimal) : String :=
  let ds := toString d.digits
  if 0 ≤ d.shift then
    if d.digits = 0 then "0" else ds ++ String.ofList (List.replicate d.shift.toNat '0')
  else
    let places := (-d.shift).toNat
    if places < ds.length then
      let cut := ds.length - places
      String.ofList (ds.toList.take cut) ++ "." ++ String.ofList (ds.toList.drop cut)
    else "0." ++ String.ofList (List.replicate (places - ds.length) '0') ++ ds

/-- One digit, the others after a point, and the exponent of ten. -/
def exponential (d : Decimal) : String :=
  let ds := (toString d.digits).toList
  let e : Int := d.shift + ds.length - 1
  String.ofList (ds.take 1) ++
    (if ds.length = 1 then "" else "." ++ String.ofList (ds.drop 1)) ++ "e" ++ toString e

/-- The text of a number whose finite absolute value is written by `write`. -/
def signed (write : Decimal → String) (x : Binary64) : String :=
  if x.isNaN then "NaN"
  else (if x.negative then "-" else "") ++
    (if x.isInfinite then "inf" else write x.shortest)

/-- Positional, integers without a point. -/
def plainText (x : Binary64) : String := signed positional x

/-- Whether the labelled form of a decimal has an exponent. -/
def usesExponent (d : Decimal) : Bool :=
  let place : Int := d.shift + (toString d.digits).length - 1
  d.digits ≠ 0 && (place < -4 || 16 ≤ place)

/-- With a point in integers, and with an exponent when very small or very large. -/
def labelledText (x : Binary64) : String :=
  signed (fun d =>
    if usesExponent d then exponential d
    else if 0 ≤ d.shift then positional d ++ ".0" else positional d) x

end GraphStore.Binary64
