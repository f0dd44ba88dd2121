/-!
Contract: the white space of written text.

Owns:
- the characters with the property White_Space;
- the removal of white space from both ends of a text.

Does not own: which of these characters separate the parts of a notation.
-/

namespace AttentiveReasoner.Text

/-- Whether a character has the property White_Space. -/
def isBlank (character : Char) : Bool :=
  let codePoint := character.toNat
  (0x0009 ≤ codePoint && codePoint ≤ 0x000D) ||
    codePoint = 0x0020 || codePoint = 0x0085 || codePoint = 0x00A0 ||
    codePoint = 0x1680 || (0x2000 ≤ codePoint && codePoint ≤ 0x200A) ||
    codePoint = 0x2028 || codePoint = 0x2029 || codePoint = 0x202F ||
    codePoint = 0x205F || codePoint = 0x3000

/-- The text without the white space at its start and at its end. -/
def trim (text : List Char) : List Char :=
  ((text.dropWhile isBlank).reverse.dropWhile isBlank).reverse

end AttentiveReasoner.Text
