/-! # Reading a float in one scaling

A quick way to read a decimal number: its digits go into a machine word while the word holds them,
and one multiplication or division by a power of ten makes the float. Digits that do not fit count
for their place only, so the float may miss the nearest one by a few last places.
-/

namespace TextGrammar.Decimal

/-- Take digits after those in a word, as long as the word holds them; the answer has the word and
how many were taken. -/
def intoWord (word : Nat) : List Char → Nat × Nat
  | [] => (word, 0)
  | ch :: rest =>
    let longer := word * 10 + (ch.toNat - '0'.toNat)
    if longer < UInt64.size then
      let (word, taken) := intoWord longer rest
      (word, taken + 1)
    else (word, 0)

/-- A number as a word and the power of ten that scales it. -/
structure Scaled where
  word : Nat
  power : Int
deriving DecidableEq, Repr

/-- The number that digits before and after a point write. Where the word is full, digits before
the point still scale it, and those after it are dropped. -/
def Scaled.ofDigits (whole fraction : List Char) (power : Int) : Scaled :=
  let (word, taken) := intoWord 0 whole
  let (word, takenAfter) := intoWord word fraction
  ⟨word, power + (whole.length - taken : Nat) - takenAfter⟩

/-- The greatest power of ten that a float holds. -/
def maxPower : Nat := 308

/-- Ten to a power that a float holds. -/
def tenTo (power : Nat) : Float :=
  .ofScientific 1 false power

/-- Divide by a power of ten, in steps that a float holds. -/
def shrink (value : Float) (power : Nat) : Float :=
  if power ≤ maxPower then value / tenTo power
  else if value == 0 then value
  else shrink (value / tenTo maxPower) (power - maxPower)
termination_by power
decreasing_by simp only [maxPower] at *; omega

/-- The float of a scaled number; none when it is too large for one. -/
def Scaled.toFloat? (number : Scaled) : Option Float :=
  let value := (UInt64.ofNat number.word).toFloat
  match number.power with
  | .ofNat power =>
    if power ≤ maxPower then
      let scaled := value * tenTo power
      if scaled.isFinite then some scaled else none
    else if value == 0 then some value
    else none
  | .negSucc power => some (shrink value (power + 1))

end TextGrammar.Decimal
