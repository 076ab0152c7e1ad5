import TextGrammar.Decimal.Shortest

/-! # Writing a float

A float is written with the fewest digits that read back. A `Layout` says for which sizes the point
stands in its place among the digits and what is put after a whole number; outside those sizes one
digit stands before the point and a power of ten follows.
-/

namespace TextGrammar.Decimal

/-- The decisions of a written form. -/
structure Layout where
  /-- The least and the greatest power of ten of the first digit to be written in place; without
  it, all are. -/
  inPlace : Option (Int × Int)
  /-- What follows a whole number. -/
  wholeMark : String

/-- The digits of a number with the point in its place. -/
def placed (wholeMark : String) (digits : List Char) (exponent : Int) : String :=
  let size : Int := digits.length + exponent
  if 0 ≤ exponent then
    .ofList (digits ++ List.replicate exponent.toNat '0') ++ wholeMark
  else if 0 < size then
    .ofList (digits.take size.toNat) ++ "." ++ .ofList (digits.drop size.toNat)
  else
    "0." ++ .ofList (List.replicate (-size).toNat '0' ++ digits)

/-- The digits of a number with the point after the first, and the power of ten. -/
def scientific (digits : List Char) (exponent : Int) : String :=
  let power : Int := digits.length + exponent - 1
  let mantissa := match digits with
    | first :: rest@(_ :: _) => .ofList [first] ++ "." ++ .ofList rest
    | _ => .ofList digits
  mantissa ++ "e" ++ toString power

/-- The coefficient without its trailing zeros, and how many there were. -/
def stripZeros (digits : List Char) : List Char × Nat :=
  let kept := (digits.reverse.dropWhile (· == '0')).reverse
  if kept.isEmpty then (['0'], 0) else (kept, digits.length - kept.length)

/-- A decimal in a layout. -/
def Layout.render (layout : Layout) (number : Decimal) : String :=
  let (digits, zeros) := stripZeros number.digits
  let exponent : Int := if number.coefficient = 0 then 0 else number.exponent + zeros
  let power : Int := digits.length + exponent - 1
  let inPlace := match layout.inPlace with
    | none => true
    | some (least, greatest) => number.coefficient = 0 || (least ≤ power && power ≤ greatest)
  let size :=
    if inPlace then placed layout.wholeMark digits exponent else scientific digits exponent
  if number.negative then "-" ++ size else size

/-- A float in a layout. -/
def Layout.renderFloat (layout : Layout) (number : Float) : String :=
  match shortest? number with
  | some decimal => layout.render decimal
  | none => if number.isNaN then "NaN" else if number < 0 then "-inf" else "inf"

end TextGrammar.Decimal
