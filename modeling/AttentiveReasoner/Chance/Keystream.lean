/-!
Contract: a keystream of 64-bit words as a function of a 256-bit key and a
position.

Owns:
- the quarter round, the double round and the block function with twelve rounds;
- the layout of a block (constants, key, 64-bit block counter, zero nonce);
- the words of the stream: each block gives eight, low half first.

Does not own: how a key comes about or what the words are used for.
-/

namespace AttentiveReasoner.Chance

/-- The sixteen words of a block. -/
abbrev Block := Vector UInt32 16

/-- Rotation of a word towards its high end, by one to thirty-one places. -/
def rotateLeft (word : UInt32) (places : UInt32) : UInt32 :=
  (word <<< places) ||| (word >>> (32 - places))

namespace Block

/-- Mix the words at four places. -/
def quarterRound (block : Block) (i j k l : Fin 16) : Block :=
  let a := block.get i + block.get j
  let d := rotateLeft (block.get l ^^^ a) 16
  let c := block.get k + d
  let b := rotateLeft (block.get j ^^^ c) 12
  let a := a + b
  let d := rotateLeft (d ^^^ a) 8
  let c := c + d
  let b := rotateLeft (b ^^^ c) 7
  (((block.set i a).set j b).set k c).set l d

/-- Mix the four columns, then the four diagonals. -/
def doubleRound (block : Block) : Block :=
  ((((((((block.quarterRound 0 4 8 12).quarterRound 1 5 9 13).quarterRound
    2 6 10 14).quarterRound 3 7 11 15).quarterRound
    0 5 10 15).quarterRound 1 6 11 12).quarterRound
    2 7 8 13).quarterRound 3 4 9 14)

/-- Twelve rounds, and the initial words added to the result. -/
def scramble (block : Block) : Block :=
  Vector.zipWith (· + ·)
    block.doubleRound.doubleRound.doubleRound.doubleRound.doubleRound.doubleRound
    block

end Block

/-- The block of the given number before it is scrambled. -/
def initialBlock (key : Vector UInt32 8) (number : UInt64) : Block :=
  #v[0x61707865, 0x3320646e, 0x79622d32, 0x6b206574,
    key[0], key[1], key[2], key[3], key[4], key[5], key[6], key[7],
    number.toUInt32, (number >>> 32).toUInt32, 0, 0]

/-- The word of the stream at a position. -/
def keystream (key : Vector UInt32 8) (position : Nat) : UInt64 :=
  let block := (initialBlock key (UInt64.ofNat (position / 8))).scramble
  let low := 2 * (position % 8)
  (block.toArray.getD low 0).toUInt64 +
    (block.toArray.getD (low + 1) 0).toUInt64 <<< 32

end AttentiveReasoner.Chance
