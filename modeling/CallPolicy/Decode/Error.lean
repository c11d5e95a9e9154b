import CallPolicy.Decimal
import CallPolicy.Rule
import CallPolicy.Text.Quoted

set_option autoImplicit false

/-! # Errors of decoding

A configuration is decoded from a tree of values. A decoding error says what is wrong and where:
`Fault` is the cause and the path leads to the value. `DecodeError.message` words both; the two
formats that configurations are written in word a few things differently. -/

namespace CallPolicy

/-- The formats that configurations are written in. -/
inductive Format where
  | json
  | yaml
deriving DecidableEq

/-! ## What was found -/

/-- How wide an integer is: 64 bits, or 128 bits without or with a sign. -/
inductive IntegerWidth where
  | word
  | wide
  | wideSigned
deriving DecidableEq

/-- What stands where something else was expected. -/
inductive Found where
  | null
  | bool (value : Bool)
  | integer (value : Int) (width : IntegerWidth)
  | real (value : Decimal)
  | infinite (negative : Bool)
  | notANumber
  | string (value : String)
  | sequence
  | map
  /-- A choice that carries no value. -/
  | bareChoice
  /-- A value that names its own type. -/
  | tagged
  /-- No value at all. -/
  | absent
deriving DecidableEq

/-- The wording of what was found. -/
def Found.text (format : Format) : Found → String
  | .null => match format with
    | .json => "null"
    | .yaml => "unit value"
  | .bool value => s!"boolean `{value}`"
  | .integer value width =>
    let suffix := match width with
      | .word => ""
      | .wide => " as u128"
      | .wideSigned => " as i128"
    s!"integer `{value}`" ++ suffix
  | .real value =>
    let shown := match format with
      | .json => value.compact
      | .yaml => value.full
    s!"floating point `{shown}`"
  | .infinite negative => if negative then "floating point `-inf`" else "floating point `inf`"
  | .notANumber => "floating point `NaN`"
  | .string value => "string " ++ quoted value
  | .sequence => "sequence"
  | .map => "map"
  | .bareChoice => "unit variant"
  | .tagged => "enum"
  | .absent => "Option value"

/-! ## Causes -/

/-- Why a tree of values does not decode. -/
inductive Fault where
  | invalidType (found : Found) (expected : String)
  | invalidValue (found : Found) (expected : String)
  | invalidLength (length : Nat) (expected : String)
  | missingField (name : String)
  | duplicateField (name : String)
  | unknownVariant (name : String) (allowed : List String)
  /-- The decoded rules hold an empty pattern. -/
  | emptyPattern (error : EmptyPattern)
  /-- The decoded pattern is empty. -/
  | emptyText
  /-- A text that should be a duration is none. -/
  | malformedDuration
  /-- The text is not well formed. -/
  | malformedText
  /-- The text ends before a value. -/
  | endOfText
  | severalDocuments
  | unknownAnchor
  /-- Anchored values were used again too often. -/
  | tooManyRepetitions
deriving DecidableEq

/-- The wording of the cause. -/
def Fault.text (format : Format) : Fault → String
  | .invalidType found expected =>
    "invalid type: " ++ found.text format ++ ", expected " ++ expected
  | .invalidValue found expected =>
    "invalid value: " ++ found.text format ++ ", expected " ++ expected
  | .invalidLength length expected => s!"invalid length {length}, expected " ++ expected
  | .missingField name => s!"missing field `{name}`"
  | .duplicateField name => s!"duplicate field `{name}`"
  | .unknownVariant name allowed =>
    s!"unknown variant `{name}`, expected one of " ++
      ", ".intercalate (allowed.map fun a => s!"`{a}`")
  | .emptyPattern error => error.message
  | .emptyText => "method pattern must not be empty"
  | .malformedDuration => "malformed duration"
  | .malformedText => "malformed text"
  | .endOfText => "EOF while parsing a value"
  | .severalDocuments =>
    "deserializing from YAML containing more than one document is not supported"
  | .unknownAnchor => "unknown anchor"
  | .tooManyRepetitions => "repetition limit exceeded"

/-- Does the cause lie in the spelling of the text, and not in what it says? -/
def Fault.isMalformed : Fault → Bool
  | .malformedDuration | .malformedText => true
  | _ => false

/-! ## Places -/

/-- One step from a value to a part of it. -/
inductive Step where
  | key (name : String)
  | index (n : Nat)
  /-- The member of a map under a key that is not plain text. -/
  | unnamed
deriving DecidableEq

/-- The wording of a path behind what has been written of it already. -/
def Step.pathText (written : String) : List Step → String
  | [] => written
  | .index n :: rest => pathText ((if written.isEmpty then "." else written) ++ s!"[{n}]") rest
  | .key name :: rest => pathText ((if written.isEmpty then "" else written ++ ".") ++ name) rest
  | .unnamed :: rest => pathText ((if written.isEmpty then "" else written ++ ".") ++ "?") rest

/-- A decoding error: the cause, and the path from the root to the value at fault. -/
structure DecodeError where
  path : List Step
  fault : Fault
deriving DecidableEq

namespace DecodeError

/-- The error at the root. -/
def here (fault : Fault) : DecodeError := ⟨[], fault⟩

/-- The same error, seen from one step further up. -/
def under (step : Step) (e : DecodeError) : DecodeError := { e with path := step :: e.path }

/-- Is the cause about one value, so that its place is told? -/
def hasPlace (e : DecodeError) : Bool :=
  match e.fault with
  | .endOfText | .severalDocuments | .unknownAnchor | .tooManyRepetitions | .malformedText => false
  | _ => !e.path.isEmpty

/-- The wording of the error. Places are told in YAML only. -/
def message (format : Format) (e : DecodeError) : String :=
  let text := e.fault.text format
  match format with
  | .json => text
  | .yaml => if e.hasPlace then Step.pathText "" e.path ++ ": " ++ text else text

end DecodeError

end CallPolicy
