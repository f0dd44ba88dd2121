import AttentiveReasoner.Chance.Keystream

/-!
Contract: the draws of a bag, as a sequence of 64-bit words.

Owns:
- the expansion of a 64-bit seed into a key;
- the sequence of a seed;
- the number of the half-open unit interval that a word stands for.

Does not own: who draws when. Every law about a bag holds for an arbitrary
sequence; only running a bag needs the one of a seed.
-/

namespace AttentiveReasoner.Chance

/-- A sequence of words, one for each draw. -/
abbrev Draws := Nat → UInt64

/-- One step of the seed's linear generator. -/
def seedStep (state : UInt64) : UInt64 :=
  state * 6364136223846793005 + 11634580027462260723

/-- The key word of a generator state: the folded high bits, rotated towards the
low end by the topmost five bits. -/
def seedWord (state : UInt64) : UInt32 :=
  let folded := (((state >>> 18) ^^^ state) >>> 27).toUInt32
  let places := (state >>> 59).toUInt32
  if places = 0 then folded else rotateLeft folded (32 - places)

/-- The states of the seed's linear generator after one step, two steps, and so
on. -/
def seedStates (state : UInt64) : (count : Nat) → List UInt64
  | 0 => []
  | count + 1 => seedStep state :: seedStates (seedStep state) count

/-- The key of a seed. -/
def seedKey (seed : UInt64) : Vector UInt32 8 :=
  Vector.ofFn (fun index => ((seedStates seed 8).map seedWord).getD index.val 0)

/-- The draws of a seed. -/
def Draws.ofSeed (seed : UInt64) : Draws :=
  let key := seedKey seed
  fun position => keystream key position

/-- The number of the interval from zero (included) to one (excluded) whose
first fifty-two binary digits are the topmost ones of the word. -/
def unitNumber (word : UInt64) : Float :=
  Float.ofBits (((1023 : UInt64) <<< 52) ||| (word >>> 12)) - 1

end AttentiveReasoner.Chance
