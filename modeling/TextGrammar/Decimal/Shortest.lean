import TextGrammar.Decimal.Basic

/-! # The shortest decimal for a float

A finite float stands for the reals that round to it. `shortest?` finds the decimal with the fewest
digits among them, and of those the nearest to the float, by exact arithmetic on naturals.
-/

namespace TextGrammar.Decimal

/-- The reals that round to a positive float: its value and both ends of the interval, as
numerators over a common denominator. The ends belong to it when `closed` is set. -/
structure Interval where
  low : Nat
  value : Nat
  high : Nat
  denominator : Nat
  closed : Bool

/-- The interval of `m · 2 ^ q`. The gap below is half as wide at a power of two, unless the
exponent cannot go lower. -/
def Interval.ofBinary (m : Nat) (q : Int) : Interval :=
  let below := if m = Nat.pow 2 52 ∧ -1074 < q then 1 else 2
  let scale := Nat.pow 2 (q - 2).toNat
  { low := (4 * m - below) * scale
    value := 4 * m * scale
    high := (4 * m + 2) * scale
    denominator := Nat.pow 2 (2 - q).toNat
    closed := m % 2 = 0 }

/-- Divide the interval by a power of ten. -/
def Interval.scaled (interval : Interval) (power : Int) : Interval :=
  let up := Nat.pow 10 (-power).toNat
  { interval with
    low := interval.low * up
    value := interval.value * up
    high := interval.high * up
    denominator := interval.denominator * Nat.pow 10 power.toNat }

/-- Whether a natural lies in the interval. -/
def Interval.holds (interval : Interval) (n : Nat) : Bool :=
  let point := n * interval.denominator
  if interval.closed then interval.low ≤ point && point ≤ interval.high
  else interval.low < point && point < interval.high

/-- The natural in the interval that is nearest to the value, among the value's two neighbours; of
two at the same distance the greater. -/
def Interval.nearest? (interval : Interval) : Option Nat :=
  let below := interval.value / interval.denominator
  let remainder := interval.value % interval.denominator
  match interval.holds below, interval.holds (below + 1) with
  | true, true => some (if 2 * remainder < interval.denominator then below else below + 1)
  | true, false => some below
  | false, true => some (below + 1)
  | false, false => none

/-- The number of digits before the point of a positive quotient, zero or less when it is below
one tenth. -/
def quotientScale (numerator denominator : Nat) : Int :=
  if denominator ≤ numerator then (Nat.toDigits 10 (numerator / denominator)).length
  else
    match (List.range 400).find? fun power => denominator ≤ numerator * Nat.pow 10 (power + 1) with
    | some power => -(power : Int)
    | none => -400

/-- The sign, coefficient and binary exponent of a float's bits; none for infinities and for what
is not a number. -/
def binary? (bits : UInt64) : Option (Bool × Nat × Int) :=
  let fraction := (bits &&& 0xFFFFFFFFFFFFF).toNat
  let biased := ((bits >>> 52) &&& 0x7FF).toNat
  let negative := bits >>> 63 != 0
  if biased = 2047 then none
  else if biased = 0 then some (negative, fraction, -1074)
  else some (negative, fraction + Nat.pow 2 52, (biased : Int) - 1075)

/-- The fewest digits that read back as the number `m · 2 ^ q`, which is not zero. -/
def shortestOfBinary (m : Nat) (q : Int) : Decimal :=
  let interval := Interval.ofBinary m q
  let scale := quotientScale interval.value interval.denominator
  let found := (List.range 17).findSome? fun (digits : Nat) =>
    let power := scale - (digits + 1 : Nat)
    (interval.scaled power).nearest?.map fun n => { coefficient := n, exponent := power }
  found.getD ⟨false, interval.value, 0⟩

/-- The shortest decimal of a finite float. -/
def shortest? (number : Float) : Option Decimal :=
  match binary? number.toBits with
  | none => none
  | some (negative, 0, _) => some ⟨negative, 0, 0⟩
  | some (negative, m, q) => some { shortestOfBinary m q with negative }

end TextGrammar.Decimal
