import AttentiveReasoner.Json.Value
import AttentiveReasoner.Parameters.Basic

/-!
Contract: parameters as they are written in a file.

Owns:
- the name of every parameter in a file, and the order of the parameters;
- the values that each parameter accepts;
- reading a file, or the usual parameters where there is none.

Does not own: the syntax of the file, which is JSON.

A file is a record or a sequence. In a record a parameter occurs at most once and
unknown names are passed over; a sequence gives the parameters in their order and
may end early. Parameters that are not given keep their usual values.
-/

namespace AttentiveReasoner

open AttentiveReasoner.Json
open AttentiveReasoner.Numeric

/-- Why parameters could not be read. -/
inductive LoadError where
  /-- The file is not a text. -/
  | unreadable
  /-- The text does not denote parameters. -/
  | malformed
deriving DecidableEq, Repr

namespace Parameters

/-! ## Values -/

/-- A whole number of at most the given number of bits. It is written without
fraction, exponent and sign. -/
def count? (bits : Nat) (value : Value) : Option Nat :=
  match value with
  | .numeral numeral =>
      match numeral.number? with
      | some (.integer count) =>
          if 0 ≤ count && count < Numeric.powerOfTwo bits then some count.toNat else none
      | _ => none
  | _ => none

/-- A 32-bit floating-point number. A whole number is rounded once, any other one
by way of the 64-bit number it stands for. -/
def single? (value : Value) : Option Float32 :=
  match value with
  | .numeral numeral =>
      numeral.number?.map (fun number =>
        match number with
        | .integer whole => Single.ofRatio (whole < 0) whole.natAbs 1
        | .floating double => Double.toSingle double)
  | _ => none

/-- A seed, or none where the value is null. -/
def seed? (value : Value) : Option (Option UInt64) :=
  match value with
  | .null => some none
  | _ => (count? 64 value).map (fun count => some (UInt64.ofNat count))

/-! ## Parameters by name and place -/

/-- A parameter in a file: its name, and how a value sets it. -/
structure Field where
  name : String
  set : Value → Parameters → Option Parameters

/-- A parameter that is a whole number. -/
def countField
    (name : String)
    (bits : Nat)
    (set : Nat → Parameters → Parameters) :
    Field :=
  ⟨name, fun value parameters => (count? bits value).map (set · parameters)⟩

/-- A parameter that is a floating-point number. -/
def singleField
    (name : String)
    (set : Float32 → Parameters → Parameters) :
    Field :=
  ⟨name, fun value parameters => (single? value).map (set · parameters)⟩

/-- The parameters in the order of a sequence. -/
def fields : List Field :=
  [countField "task_buffer_size" 64
      (fun count parameters => { parameters with taskBufferSize := count }),
    countField "task_forgetting_cycle" 32
      (fun count parameters => { parameters with taskForgettingCycle := count }),
    countField "new_task_forgetting_cycle" 32
      (fun count parameters => { parameters with newTaskForgettingCycle := count }),
    countField "concept_bag_size" 64
      (fun count parameters => { parameters with conceptBagSize := count }),
    countField "concept_forgetting_cycle" 32
      (fun count parameters => { parameters with conceptForgettingCycle := count }),
    countField "task_link_bag_size" 64
      (fun count parameters => { parameters with taskLinkBagSize := count }),
    countField "task_link_forgetting_cycle" 32
      (fun count parameters => { parameters with taskLinkForgettingCycle := count }),
    countField "bag_levels" 64
      (fun count parameters => { parameters with bagLevels := count }),
    singleField "priority_floor"
      (fun number parameters => { parameters with priorityFloor := number }),
    countField "belief_table_size" 64
      (fun count parameters => { parameters with beliefTableSize := count }),
    singleField "default_judgment_priority"
      (fun number parameters => { parameters with judgmentPriority := number }),
    singleField "default_judgment_durability"
      (fun number parameters => { parameters with judgmentDurability := number }),
    singleField "default_question_priority"
      (fun number parameters => { parameters with questionPriority := number }),
    singleField "default_question_durability"
      (fun number parameters => { parameters with questionDurability := number }),
    ⟨"seed", fun value parameters =>
      (seed? value).map (fun seed => { parameters with seed := seed })⟩]

/-- The parameter of a name. -/
def field? (name : String) : Option Field :=
  fields.find? (·.name = name)

/-- Parameters from the fields of a record, with the names that have occurred. -/
def readField
    (state : List String × Parameters)
    (entry : List Piece × Value) :
    Option (List String × Parameters) :=
  match decodePieces entry.1 with
  | none => none
  | some characters =>
      match field? (String.ofList characters) with
      | none => some state
      | some field =>
          if state.1.contains field.name then none
          else
            (field.set entry.2 state.2).map (fun parameters =>
              (field.name :: state.1, parameters))

/-- Parameters from the value of a file. -/
def ofValue? (value : Value) : Option Parameters :=
  match value with
  | .record entries => (entries.foldlM readField ([], {})).map (·.2)
  | .sequence items =>
      if fields.length < items.length then
        none
      else
        (fields.zip items).foldlM
          (fun parameters entry => entry.1.set entry.2 parameters) {}
  | _ => none

/-- Parameters from the contents of a file; the usual ones where there is no
file. -/
def load (file : Option ByteArray) : Except LoadError Parameters :=
  match file with
  | none => .ok {}
  | some bytes =>
      match String.fromUTF8? bytes with
      | none => .error .unreadable
      | some text =>
          match (parse? text).bind ofValue? with
          | none => .error .malformed
          | some parameters => .ok parameters

end Parameters

end AttentiveReasoner
