import AttentiveReasoner.Json.Token

/-!
Contract: the values of JSON texts.

Owns:
- the tree of a text, with numerals and strings as they were written;
- the grammar of values, as a machine with a stack of open containers.

Does not own: the meaning of numerals and strings. A numeral beyond every number
and a string with a lone surrogate are values; whoever needs their meaning finds
out that they have none. A text may nest to any depth.
-/

namespace AttentiveReasoner.Json

/-- The value of a JSON text, as it was written. -/
inductive Value where
  | null
  | boolean (value : Bool)
  | numeral (value : Numeral)
  | text (pieces : List Piece)
  | sequence (items : List Value)
  | record (fields : List (List Piece × Value))

/-- A container that is not closed yet, its last part first. A record carries the
key whose value is awaited. -/
inductive Container where
  | sequence (reversed : List Value)
  | record (reversed : List (List Piece × Value)) (key : List Piece)

/-- What may come next. -/
inductive Awaiting where
  | value
  | firstItem
  | firstKey
  | key
  | colon
  | separator
  | ending
deriving DecidableEq, Repr

/-- A text read up to some token: the open containers, the innermost first, and
what may come next. -/
structure Reader where
  stack : List Container := []
  awaiting : Awaiting := .value
  result : Value := .null

namespace Reader

/-- A value is complete. -/
def complete (reader : Reader) (value : Value) : Reader :=
  match reader.stack with
  | [] => ⟨[], .ending, value⟩
  | .sequence reversed :: outer =>
      { reader with stack := .sequence (value :: reversed) :: outer, awaiting := .separator }
  | .record reversed key :: outer =>
      { reader with
        stack := .record ((key, value) :: reversed) [] :: outer
        awaiting := .separator }

/-- A container opens. -/
def enter
    (reader : Reader)
    (container : Container)
    (awaiting : Awaiting) :
    Reader :=
  { reader with stack := container :: reader.stack, awaiting := awaiting }

/-- Close the innermost container, if it is a sequence. -/
def closeSequence (reader : Reader) : Option Reader :=
  match reader.stack with
  | .sequence reversed :: outer =>
      some ({ reader with stack := outer }.complete (.sequence reversed.reverse))
  | _ => none

/-- Close the innermost container, if it is a record. -/
def closeRecord (reader : Reader) : Option Reader :=
  match reader.stack with
  | .record reversed _ :: outer =>
      some ({ reader with stack := outer }.complete (.record reversed.reverse))
  | _ => none

/-- Take the first token of a value. -/
def beginValue (reader : Reader) (token : Token) : Option Reader :=
  match token with
  | .null => some (reader.complete .null)
  | .boolean value => some (reader.complete (.boolean value))
  | .numeral value => some (reader.complete (.numeral value))
  | .text pieces => some (reader.complete (.text pieces))
  | .openSequence => some (reader.enter (.sequence []) .firstItem)
  | .openRecord => some (reader.enter (.record [] []) .firstKey)
  | _ => none

/-- Take the key of a field. -/
def takeKey (reader : Reader) (token : Token) : Option Reader :=
  match token, reader.stack with
  | .text pieces, .record reversed _ :: outer =>
      some
        { reader with
          stack := .record reversed pieces :: outer
          awaiting := .colon }
  | _, _ => none

/-- Take the next token. -/
def step (reader : Reader) (token : Token) : Option Reader :=
  match reader.awaiting, token with
  | .value, _ => reader.beginValue token
  | .firstItem, .closeSequence => reader.closeSequence
  | .firstItem, _ => reader.beginValue token
  | .firstKey, .closeRecord => reader.closeRecord
  | .firstKey, _ => reader.takeKey token
  | .key, _ => reader.takeKey token
  | .colon, .colon => some { reader with awaiting := .value }
  | .separator, .closeSequence => reader.closeSequence
  | .separator, .closeRecord => reader.closeRecord
  | .separator, .comma =>
      match reader.stack with
      | .sequence _ :: _ => some { reader with awaiting := .value }
      | .record _ _ :: _ => some { reader with awaiting := .key }
      | [] => none
  | _, _ => none

end Reader

/-- The value of a text; nothing if the text is not one value. -/
def parse? (text : String) : Option Value :=
  ((tokens? text.toList).bind (List.foldlM Reader.step {})).bind (fun reader =>
    if reader.awaiting = .ending then some reader.result else none)

end AttentiveReasoner.Json
