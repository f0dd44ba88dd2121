/-!
Contract: stamps, the record of where a sentence comes from.

Owns:
- the evidential base, the serial numbers of the inputs behind a sentence, and
  the cycle of its creation;
- the stamp of an input and of a conclusion from two premises;
- the overlap of two bases.

Does not own: the supply of serial numbers.

Two sentences with overlapping bases rest on a common input; to combine them
would count that input twice.
-/

namespace AttentiveReasoner.Evidence

/-- Where a sentence comes from. -/
structure Stamp where
  /-- Serial numbers of the inputs behind the sentence. -/
  base : List Nat
  /-- The cycle in which the sentence was made. -/
  cycle : Nat
deriving DecidableEq, Repr

namespace Stamp

/-- The largest number of serial numbers that a derived base keeps. -/
def baseLimit : Nat := 8

/-- The stamp of an input. -/
def input (serial cycle : Nat) : Stamp :=
  ⟨[serial], cycle⟩

/-- The members of two lists in turn, then the rest of the longer one. -/
def interleave : List Nat → List Nat → List Nat
  | [], right => right
  | left, [] => left
  | first :: left, second :: right => first :: second :: interleave left right

/-- A base with one more serial number, unless it is full or has it already. -/
def addSerial (base : List Nat) (serial : Nat) : List Nat :=
  if base.length < baseLimit && !base.contains serial then base ++ [serial] else base

/-- The stamp of a conclusion: the bases of its premises taken in turn. -/
def derived (first second : Stamp) (cycle : Nat) : Stamp :=
  ⟨(interleave first.base second.base).foldl addSerial [], cycle⟩

/-- Whether two bases have a serial number in common. -/
def overlaps (left right : Stamp) : Bool :=
  left.base.any right.base.contains

/-- The written form of a base. -/
def baseText (stamp : Stamp) : String :=
  "[" ++ ", ".intercalate (stamp.base.map toString) ++ "]"

end Stamp

end AttentiveReasoner.Evidence
