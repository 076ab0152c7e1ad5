/-! # A keyed stream of words

The ChaCha block function with twelve rounds, and a key grown from a 64-bit seed. Blocks are
numbered, so every word of the stream can be computed on its own.
-/

namespace TextGrammar.Chance

/-- The state of the block function: constants, key, block number and stream number. -/
abbrev Block := Vector UInt32 16

/-- The eight words of a key. -/
abbrev Key := Vector UInt32 8

/-- Rotate the bits of a word. -/
def rotateLeft (word : UInt32) (bits : UInt32) : UInt32 :=
  (word <<< bits) ||| (word >>> (32 - bits))

/-- Mix four words of a block. -/
def quarterRound (block : Block) (a b c d : Fin 16) : Block :=
  let mix (block : Block) (x y z : Fin 16) (bits : UInt32) : Block :=
    let sum := block[x] + block[y]
    (block.set x sum).set z (rotateLeft (block[z] ^^^ sum) bits)
  mix (mix (mix (mix block a b d 16) c d b 12) a b d 8) c d b 7

/-- Mix the columns of a block, then its diagonals. -/
def doubleRound (block : Block) : Block :=
  let columns := quarterRound (quarterRound (quarterRound (quarterRound block
    0 4 8 12) 1 5 9 13) 2 6 10 14) 3 7 11 15
  quarterRound (quarterRound (quarterRound (quarterRound columns
    0 5 10 15) 1 6 11 12) 2 7 8 13) 3 4 9 14

/-- The block function before any mixing. -/
def openingBlock (key : Key) (number : UInt64) : Block :=
  #v[0x61707865, 0x3320646e, 0x79622d32, 0x6b206574,
    key[0], key[1], key[2], key[3], key[4], key[5], key[6], key[7],
    number.toUInt32, (number >>> 32).toUInt32, 0, 0]

/-- A numbered block of the stream: six double rounds, added to where they started. -/
def streamBlock (key : Key) (number : UInt64) : Block :=
  let opening := openingBlock key number
  let mixed := (List.range 6).foldl (fun block _ => doubleRound block) opening
  mixed.zipWith (· + ·) opening

/-- Advance the generator that grows keys. -/
def growState (state : UInt64) : UInt64 :=
  state * 6364136223846793005 + 11634580027462260723

/-- The word that a state of the key generator yields: its high bits folded, and rotated right by
the top five. -/
def grownWord (state : UInt64) : UInt32 :=
  let folded := (((state >>> 18) ^^^ state) >>> 27).toUInt32
  let turn := (state >>> 59).toUInt32
  (folded >>> turn) ||| (folded <<< (32 - turn))

/-- The key grown from a seed. -/
def keyOfSeed (seed : UInt64) : Key :=
  Vector.ofFn fun index => grownWord (Nat.repeat growState (index + 1) seed)

/-- The roll with the given number in the stream of a key: two words, low word first, of which the
top 53 bits make a fraction of one. -/
def keyedRoll (key : Key) (index : Nat) : Float :=
  let block := streamBlock key (UInt64.ofNat (index / 8))
  let low := block.get ⟨2 * (index % 8), by omega⟩
  let high := block.get ⟨2 * (index % 8) + 1, by omega⟩
  let bits := ((high.toUInt64 <<< 32) ||| low.toUInt64) >>> 11
  bits.toFloat / 9007199254740992

end TextGrammar.Chance
