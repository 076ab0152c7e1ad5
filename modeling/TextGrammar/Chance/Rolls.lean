import TextGrammar.Chance.Keystream

/-! # Rolls

Selection reads rolls from a stream of floats between zero and one. Nothing but the count of rolls
already drawn ties one draw to the next, so any stream will do; a seed gives a reproducible one.
-/

namespace TextGrammar

/-- A stream of rolls, and how many of them were drawn. -/
structure Rolls where
  stream : Nat → Float
  drawn : Nat := 0

/-- The stream of a seed, from its start. -/
def Rolls.ofSeed (seed : UInt64) : Rolls :=
  let key := Chance.keyOfSeed seed
  { stream := Chance.keyedRoll key }

/-- The next roll. -/
def Rolls.head (rolls : Rolls) : Float :=
  rolls.stream rolls.drawn

/-- The rolls after the next one. -/
def Rolls.tail (rolls : Rolls) : Rolls :=
  { rolls with drawn := rolls.drawn + 1 }

/-- The index that a roll picks out of `count` alternatives. The roll is bent by the falloff: one
keeps it even, more favours early alternatives and less favours late ones. What falls outside is
clamped, and of one alternative nothing needs to be computed. -/
def pickIndex (falloff roll : Float) (count : Nat) : Nat :=
  if count ≤ 1 then 0
  else min (roll.pow falloff * count.toFloat).floor.toUInt64.toNat (count - 1)

end TextGrammar
