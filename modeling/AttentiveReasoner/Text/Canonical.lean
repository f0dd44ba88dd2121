import AttentiveReasoner.Text.CombiningClass
import AttentiveReasoner.Text.Decomposition
import Std.Data.HashMap

/-!
Contract: the composed canonical form (NFC) of a text.

Owns:
- the full canonical decomposition of a character, Hangul syllables included;
- the canonical order of combining marks;
- the composition of a starter with what follows it;
- the normal form built from the three.

Does not own: the mappings and classes, which are tables, and compatibility
mappings, which no canonical form applies.
-/

namespace AttentiveReasoner.Text

/-! ## Mappings by code point -/

/-- One step of canonical decomposition, for the characters that have one. -/
def decompositionOf : Std.HashMap Nat (List Nat) :=
  let withRun (map : Std.HashMap Nat (List Nat)) (run : Nat × Array Nat) :=
    (run.2.toList.zipIdx run.1).foldl
      (fun map image => map.insert image.2 [image.1]) map
  let singletons := (singletonRuns ++ ideographRuns).foldl withRun ∅
  pairMappings.foldl
    (fun map mapping => map.insert mapping.1 [mapping.2.1, mapping.2.2])
    singletons

/-- The character that a pair of characters composes to, if one does. A pair is
left alone where its composite is excluded or where the composite or the first
of the pair is itself a combining mark. -/
def compositionOf : Std.HashMap (Nat × Nat) Nat :=
  pairMappings.foldl
    (fun map mapping =>
      if compositionExclusions.contains mapping.1 ||
          combiningClass mapping.1 ≠ 0 ||
          combiningClass mapping.2.1 ≠ 0 then
        map
      else
        map.insert mapping.2 mapping.1)
    ∅

/-! ## Hangul syllables -/

/-- The leading consonant, the vowel and, where there is one, the trailing
consonant of a syllable. -/
def hangulDecomposition? (codePoint : Nat) : Option (List Nat) :=
  if 0xAC00 ≤ codePoint && codePoint < 0xAC00 + 11172 then
    let index := codePoint - 0xAC00
    let trailing := index % 28
    some
      ([0x1100 + index / 588, 0x1161 + index % 588 / 28] ++
        (if trailing = 0 then [] else [0x11A7 + trailing]))
  else
    none

/-- A leading consonant with a vowel, or a syllable without a trailing consonant
with one, as a syllable. -/
def hangulComposition? (first second : Nat) : Option Nat :=
  if 0x1100 ≤ first && first < 0x1100 + 19 &&
      0x1161 ≤ second && second < 0x1161 + 21 then
    some (0xAC00 + ((first - 0x1100) * 21 + (second - 0x1161)) * 28)
  else if 0xAC00 ≤ first && first < 0xAC00 + 11172 && (first - 0xAC00) % 28 = 0 &&
      0x11A7 < second && second < 0x11A7 + 28 then
    some (first + (second - 0x11A7))
  else
    none

/-! ## Decomposition -/

/-- The decomposition of a code point, following at most `depth` mappings one
after the other. -/
def decomposeWithin : (depth : Nat) → (codePoint : Nat) → List Nat
  | 0, codePoint => [codePoint]
  | depth + 1, codePoint =>
      match decompositionOf[codePoint]? with
      | some images => images.flatMap (decomposeWithin depth)
      | none => [codePoint]

/-- The full canonical decomposition of a code point. No chain of mappings is
longer than four. -/
def decompose (codePoint : Nat) : List Nat :=
  if codePoint < 0x00C0 then
    [codePoint]
  else
    match hangulDecomposition? codePoint with
    | some jamo => jamo
    | none => decomposeWithin 4 codePoint

/-! ## Canonical order -/

/-- Put a mark behind a reversed text: it passes the marks of a greater class,
and nothing passes a starter. -/
def insertMark (mark : Nat) : List Nat → List Nat
  | [] => [mark]
  | last :: before =>
      if combiningClass mark ≠ 0 && combiningClass mark < combiningClass last then
        last :: insertMark mark before
      else
        mark :: last :: before

/-- The text with every run of combining marks in the order of their classes;
marks of one class keep their order. -/
def orderMarks (text : List Nat) : List Nat :=
  (text.foldl (fun reversed mark => insertMark mark reversed) []).reverse

/-! ## Composition -/

/-- A text on its way to being composed: what is settled, the last starter, and
the marks behind it that did not compose; both lists are reversed. -/
structure Composing where
  settled : List Nat := []
  starter : Option Nat := none
  pending : List Nat := []
deriving DecidableEq, Repr

namespace Composing

/-- What is settled if nothing more composes. -/
def flush (state : Composing) : List Nat :=
  state.pending ++ state.starter.toList ++ state.settled

/-- The composite of two characters, if there is one. -/
def composite? (first second : Nat) : Option Nat :=
  match hangulComposition? first second with
  | some syllable => some syllable
  | none => compositionOf[(first, second)]?

/-- Whether a pending mark stands between the starter and a character: one of at
least the class of the character does. -/
def blocks (state : Composing) (character : Nat) : Bool :=
  match state.pending with
  | [] => false
  | last :: _ => combiningClass character ≤ combiningClass last

/-- Take the next character of an ordered text. -/
def add (state : Composing) (character : Nat) : Composing :=
  let joined :=
    match state.starter with
    | some starter =>
        if state.blocks character then none else composite? starter character
    | none => none
  match joined with
  | some composed => { state with starter := some composed }
  | none =>
      if combiningClass character = 0 then
        ⟨state.flush, some character, []⟩
      else if state.starter.isSome then
        { state with pending := character :: state.pending }
      else
        { state with settled := character :: state.settled }

end Composing

/-- The composition of a decomposed and ordered text. -/
def compose (text : List Nat) : List Nat :=
  (text.foldl Composing.add {}).flush.reverse

/-- The composed canonical form of a text. -/
def canonical (text : List Char) : List Char :=
  (compose (orderMarks (text.flatMap (fun character => decompose character.toNat)))).map
    Char.ofNat

end AttentiveReasoner.Text
