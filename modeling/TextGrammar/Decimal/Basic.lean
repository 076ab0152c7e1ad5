/-! # Decimal numbers

A number as it is written: a sign of its own, so that minus zero can be told from zero, a
coefficient and a power of ten.
-/

namespace TextGrammar

/-- The number `coefficient · 10 ^ exponent`, with its sign. -/
structure Decimal where
  negative : Bool := false
  coefficient : Nat
  exponent : Int := 0
deriving DecidableEq, Repr, Inhabited

/-- The digits of the coefficient. -/
def Decimal.digits (number : Decimal) : List Char :=
  Nat.toDigits 10 number.coefficient

/-- How many digits stand before the point; zero or less when the number starts after it. -/
def Decimal.scale (number : Decimal) : Int :=
  number.digits.length + number.exponent

/-- The nearest float. Scales past what a float can hold are settled before any power is taken. -/
def Decimal.toFloat (number : Decimal) : Float :=
  let size :=
    if number.coefficient = 0 ∨ number.scale < -400 then 0
    else if 400 < number.scale then 1 / 0
    else match number.exponent with
      | .ofNat power => .ofScientific number.coefficient false power
      | .negSucc power => .ofScientific number.coefficient true (power + 1)
  if number.negative then -size else size

end TextGrammar
