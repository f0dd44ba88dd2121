import AttentiveReasoner.Json.Numeral

/-!
Contract: JSON texts as sequences of tokens.

Owns:
- the tokens, with the contents of a string as characters and escaped code
  units;
- the scanner, a machine that takes one character at a time;
- the text that the contents of a string stand for.

Does not own: how tokens combine into values. Two tokens need no space between
them here; a grammar of values rejects the sequences that would need one.
-/

namespace AttentiveReasoner.Json

/-- One part of the contents of a string: a character, written as itself or by a
short escape, or a code unit written by its number. -/
inductive Piece where
  | character (value : Char)
  | codeUnit (value : Nat)
deriving DecidableEq, Repr

/-- A token of a JSON text. -/
inductive Token where
  | openSequence
  | closeSequence
  | openRecord
  | closeRecord
  | comma
  | colon
  | null
  | boolean (value : Bool)
  | numeral (value : Numeral)
  | text (pieces : List Piece)
deriving DecidableEq, Repr

/-! ## The text of a string -/

/-- The text of a string; nothing if it has a surrogate without a partner. -/
def decodePieces : List Piece → Option (List Char)
  | [] => some []
  | .character value :: rest => (decodePieces rest).map (value :: ·)
  | .codeUnit high :: .codeUnit low :: rest =>
      if 0xD800 ≤ high && high < 0xDC00 then
        if 0xDC00 ≤ low && low < 0xE000 then
          (decodePieces rest).map
            (Char.ofNat (0x10000 + (high - 0xD800) * 0x400 + (low - 0xDC00)) :: ·)
        else
          none
      else if 0xDC00 ≤ high && high < 0xE000 then
        none
      else
        (decodePieces (.codeUnit low :: rest)).map (Char.ofNat high :: ·)
  | .codeUnit unit :: rest =>
      if 0xD800 ≤ unit && unit < 0xE000 then
        none
      else
        (decodePieces rest).map (Char.ofNat unit :: ·)

/-! ## The parts of a numeral -/

/-- The part of a numeral that was read last. -/
inductive NumeralPart where
  | sign
  | soleZero
  | whole
  | point
  | fraction
  | exponentMark
  | exponentSign
  | exponent
deriving DecidableEq, Repr

/-- Whether a numeral may end behind a part. -/
def NumeralPart.isEnd : NumeralPart → Bool
  | .soleZero | .whole | .fraction | .exponent => true
  | _ => false

/-- The value of a decimal digit. -/
def digit? (character : Char) : Option Nat :=
  if '0' ≤ character && character ≤ '9' then
    some (character.toNat - '0'.toNat)
  else
    none

/-- The value of a hexadecimal digit. -/
def hexDigit? (character : Char) : Option Nat :=
  if '0' ≤ character && character ≤ '9' then
    some (character.toNat - '0'.toNat)
  else if 'a' ≤ character && character ≤ 'f' then
    some (character.toNat - 'a'.toNat + 10)
  else if 'A' ≤ character && character ≤ 'F' then
    some (character.toNat - 'A'.toNat + 10)
  else
    none

namespace Numeral

/-- Add a digit to the reversed whole part. -/
def addWhole (numeral : Numeral) (digit : Nat) : Numeral :=
  { numeral with whole := digit :: numeral.whole }

/-- Add a digit to the reversed fraction. -/
def addFraction (numeral : Numeral) (digit : Nat) : Numeral :=
  { numeral with fraction := some (digit :: numeral.fraction.getD []) }

/-- Add a digit to the reversed exponent. -/
def addExponent (numeral : Numeral) (digit : Nat) : Numeral :=
  match numeral.exponent with
  | none => { numeral with exponent := some (false, [digit]) }
  | some (lowers, digits) =>
      { numeral with exponent := some (lowers, digit :: digits) }

/-- The numeral with the digits of every part in the opposite order. -/
def reverse (numeral : Numeral) : Numeral :=
  { numeral with
    whole := numeral.whole.reverse
    fraction := numeral.fraction.map List.reverse
    exponent := numeral.exponent.map (fun part => (part.1, part.2.reverse)) }

/-- Continue a numeral with reversed parts by a character, if the character can
continue it. -/
def extend?
    (part : NumeralPart)
    (numeral : Numeral)
    (character : Char) :
    Option (NumeralPart × Numeral) :=
  let mark := character = 'e' || character = 'E'
  match part, digit? character with
  | .sign, some 0 => some (.soleZero, numeral.addWhole 0)
  | .sign, some digit => some (.whole, numeral.addWhole digit)
  | .whole, some digit => some (.whole, numeral.addWhole digit)
  | .point, some digit => some (.fraction, numeral.addFraction digit)
  | .fraction, some digit => some (.fraction, numeral.addFraction digit)
  | .exponentMark, some digit => some (.exponent, numeral.addExponent digit)
  | .exponentSign, some digit => some (.exponent, numeral.addExponent digit)
  | .exponent, some digit => some (.exponent, numeral.addExponent digit)
  | .soleZero, none | .whole, none =>
      if character = '.' then some (.point, numeral)
      else if mark then some (.exponentMark, numeral)
      else none
  | .fraction, none =>
      if mark then some (.exponentMark, numeral) else none
  | .exponentMark, none =>
      if character = '+' then
        some (.exponentSign, { numeral with exponent := some (false, []) })
      else if character = '-' then
        some (.exponentSign, { numeral with exponent := some (true, []) })
      else
        none
  | _, _ => none

end Numeral

/-! ## The scanner -/

/-- Where the scanner stands inside a token, or between two. The digits of a
numeral and the pieces of a string that is not complete are reversed. -/
inductive ScanMode where
  | between
  | word (rest : List Char) (token : Token)
  | numeral (part : NumeralPart) (value : Numeral)
  | text (reversed : List Piece)
  | escape (reversed : List Piece)
  | hexadecimal (reversed : List Piece) (missing : Nat) (value : Nat)
deriving DecidableEq, Repr

/-- A scanner: where it stands and the tokens it has read, the last one first. -/
structure Scanner where
  mode : ScanMode := .between
  tokens : List Token := []
deriving DecidableEq, Repr

namespace Scanner

/-- A token has ended. -/
def emit (scanner : Scanner) (token : Token) : Scanner :=
  ⟨.between, token :: scanner.tokens⟩

/-- The character behind a backslash, for the short escapes. -/
def shortEscape? (character : Char) : Option Char :=
  match character with
  | '"' => some '"'
  | '\\' => some '\\'
  | '/' => some '/'
  | 'b' => some '\x08'
  | 'f' => some '\x0c'
  | 'n' => some '\n'
  | 'r' => some '\r'
  | 't' => some '\t'
  | _ => none

/-- Take a character between two tokens. -/
def start (scanner : Scanner) (character : Char) : Option Scanner :=
  match character with
  | ' ' | '\n' | '\t' | '\r' => some { scanner with mode := .between }
  | '[' => some (scanner.emit .openSequence)
  | ']' => some (scanner.emit .closeSequence)
  | '\x7b' => some (scanner.emit .openRecord)
  | '\x7d' => some (scanner.emit .closeRecord)
  | ',' => some (scanner.emit .comma)
  | ':' => some (scanner.emit .colon)
  | '"' => some { scanner with mode := .text [] }
  | 'n' => some { scanner with mode := .word ['u', 'l', 'l'] .null }
  | 't' => some { scanner with mode := .word ['r', 'u', 'e'] (.boolean true) }
  | 'f' => some { scanner with mode := .word ['a', 'l', 's', 'e'] (.boolean false) }
  | '-' => some { scanner with mode := .numeral .sign ⟨true, [], none, none⟩ }
  | _ =>
      (Numeral.extend? .sign {} character).map
        (fun next => { scanner with mode := .numeral next.1 next.2 })

/-- Take the next character of a text. -/
def step (scanner : Scanner) (character : Char) : Option Scanner :=
  match scanner.mode with
  | .between => scanner.start character
  | .word [] token => (scanner.emit token).start character
  | .word (expected :: rest) token =>
      if character = expected then
        if rest.isEmpty then some (scanner.emit token)
        else some { scanner with mode := .word rest token }
      else
        none
  | .numeral part value =>
      match Numeral.extend? part value character with
      | some next => some { scanner with mode := .numeral next.1 next.2 }
      | none =>
          if part.isEnd then (scanner.emit (.numeral value.reverse)).start character
          else none
  | .text reversed =>
      if character = '"' then
        some (scanner.emit (.text reversed.reverse))
      else if character = '\\' then
        some { scanner with mode := .escape reversed }
      else if character.toNat < 0x20 then
        none
      else
        some { scanner with mode := .text (.character character :: reversed) }
  | .escape reversed =>
      if character = 'u' then
        some { scanner with mode := .hexadecimal reversed 4 0 }
      else
        (shortEscape? character).map
          (fun escaped => { scanner with mode := .text (.character escaped :: reversed) })
  | .hexadecimal reversed missing value =>
      (hexDigit? character).map
        (fun digit =>
          let value := value * 16 + digit
          if missing ≤ 1 then
            { scanner with mode := .text (.codeUnit value :: reversed) }
          else
            { scanner with mode := .hexadecimal reversed (missing - 1) value })

/-- The tokens read, if the text may end here. -/
def finish (scanner : Scanner) : Option (List Token) :=
  match scanner.mode with
  | .between => some scanner.tokens.reverse
  | .numeral part value =>
      if part.isEnd then some (scanner.emit (.numeral value.reverse)).tokens.reverse else none
  | _ => none

end Scanner

/-- The tokens of a text; nothing if it has a part that is no token. -/
def tokens? (text : List Char) : Option (List Token) :=
  (text.foldlM Scanner.step {}).bind Scanner.finish

end AttentiveReasoner.Json
