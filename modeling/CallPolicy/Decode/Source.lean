import CallPolicy.Decode.Error
import CallPolicy.Json.Number

set_option autoImplicit false

/-! # Decoding from a tree of values

Configuration can be read from values of several formats. `Source` lists the questions that a
decoder asks of a value, whatever its format; decoders of lists and records are written once over
it. A record is decoded field by field in the order in which its members stand, so the first
member at fault gives the error. JSON values are such a source: text is a JSON string and nothing
else, and a record is an object or an array of its fields. -/

namespace CallPolicy

/-- A value as it is read when nothing is expected of it. -/
inductive View (ν : Type) where
  | string (text : String)
  | map (members : List (ν × ν))
  | other (found : Found)

/-- What is asked for when a record is expected. -/
inductive Record (ν : Type) where
  /-- The members under their keys. -/
  | keyed (members : List (ν × ν))
  /-- The fields in the order of their declaration. -/
  | positional (items : List ν)

/-- Values of a format, and how they answer a decoder. `m` carries the decoding errors. -/
class Source (m : Type → Type) (ν : Type) where
  /-- The text of a value where text is expected; the argument words that expectation. -/
  text : String → ν → m String
  /-- The items of a value where a sequence is expected. -/
  items : ν → m (List ν)
  /-- The parts of a value where a record of that name is expected. -/
  record : String → ν → m (Record ν)
  /-- The value as it stands. -/
  view : ν → m (View ν)
  /-- Passes over a value that is not wanted. -/
  skip : ν → m Unit
  /-- The step that leads to the member under a key. -/
  step : ν → Step

section

variable {m : Type → Type} [Monad m] [MonadExceptOf DecodeError m] {ν : Type} [Source m ν]

/-- Fails at the current value. -/
def failHere {α : Type} (fault : Fault) : m α :=
  throw (.here fault)

/-- Runs a decoder on a part of the current value. -/
def within {α : Type} (step : Step) (x : m α) : m α :=
  tryCatch x fun e => throw (e.under step)

/-! ## Lists -/

/-- Decodes the items from index `n` on. -/
def itemsFrom {α : Type} (read : ν → m α) (n : Nat) : List ν → m (List α)
  | [] => pure []
  | v :: rest => do
    let x ← within (.index n) (read v)
    let xs ← itemsFrom read (n + 1) rest
    return x :: xs

/-- Decodes a sequence. -/
def readList {α : Type} (read : ν → m α) (v : ν) : m (List α) := do
  itemsFrom read 0 (← Source.items v)

/-- Decodes text. -/
def readText (v : ν) : m String :=
  Source.text "a string" v

/-- Decodes a sequence of texts. -/
def readTexts (v : ν) : m (List String) :=
  readList readText v

/-! ## Records -/

/-- The fields of a record type in the order of their declaration: name and decoder. Every field
    decodes to the one type `φ`, which tells the fields apart. -/
structure Fields (m : Type → Type) (ν φ : Type) where
  /-- The name of the record type. -/
  name : String
  entries : List (String × (ν → m φ))

/-- The decoded fields of a record. -/
structure Decoded (φ : Type) where
  values : List φ
  /-- The cause to give for a field that is not there. -/
  missing : String → Fault

/-- Decodes keyed members in order. A key that names no field is passed over with its value; a
    field may not be given twice. -/
def readMembers {φ : Type} (entries : List (String × (ν → m φ))) (seen : List String) :
    List (ν × ν) → m (List φ)
  | [] => pure []
  | (k, v) :: rest => do
    let name ← Source.text "field identifier" k
    match entries.lookup name with
    | none => do
      Source.skip v
      readMembers entries seen rest
    | some read =>
      if seen.contains name then failHere (.duplicateField name)
      else do
        let x ← within (Source.step m k) (read v)
        let xs ← readMembers entries (name :: seen) rest
        return x :: xs

/-- Decodes the fields of a record given by position. -/
def readPositions {φ : Type} : List (String × (ν → m φ)) → List ν → m (List φ)
  | (_, read) :: entries, v :: rest => do
    let x ← read v
    let xs ← readPositions entries rest
    return x :: xs
  | _, _ => pure []

/-- Says how many fields a record should have. -/
def expectedFields {φ : Type} (fields : Fields m ν φ) : String :=
  let n := fields.entries.length
  let noun := if n = 1 then "element" else "elements"
  "struct " ++ fields.name ++ s!" with {n} {noun}"

/-- Decodes the fields of a record. Given by position there may be fewer than all of them, but not
    more. -/
def readRecord {φ : Type} (fields : Fields m ν φ) (v : ν) : m (Decoded φ) := do
  match ← Source.record fields.name v with
  | .keyed members => do
    let values ← readMembers fields.entries [] members
    return ⟨values, .missingField⟩
  | .positional items => do
    let values ← readPositions fields.entries items
    if fields.entries.length < items.length then
      failHere (.invalidLength items.length "fewer elements in array")
    else return ⟨values, fun _ => .invalidLength items.length (expectedFields fields)⟩

/-- The value of a field that must be there. -/
def required {φ α : Type} (d : Decoded φ) (name : String) (pick : φ → Option α) : m α :=
  match d.values.findSome? pick with
  | some x => pure x
  | none => failHere (d.missing name)

/-- The value of a field that may be left out. -/
def optional {φ α : Type} (d : Decoded φ) (pick : φ → Option α) (default : α) : α :=
  (d.values.findSome? pick).getD default

end

/-! ## JSON values -/

/-- What a JSON value is, in the words of an error. -/
def Json.found : Json → Found
  | .null => .null
  | .bool value => .bool value
  | .int value => .integer value .word
  | .real value => .real value
  | .string value => .string value
  | .array _ => .sequence
  | .object _ => .map

/-- The members of an object with their keys as values. -/
def Json.keyed (members : List (String × Json)) : List (Json × Json) :=
  members.map fun (k, v) => (.string k, v)

/-- Decoding of JSON values. -/
abbrev JsonDecode := Except DecodeError

instance : Source JsonDecode Json where
  text expected
    | .string s => pure s
    | v => failHere (.invalidType v.found expected)
  items
    | .array items => pure items
    | v => failHere (.invalidType v.found "a sequence")
  record name
    | .object members => pure (.keyed (Json.keyed members))
    | .array items => pure (.positional items)
    | v => failHere (.invalidType v.found ("struct " ++ name))
  view
    | .string s => pure (.string s)
    | .object members => pure (.map (Json.keyed members))
    | v => pure (.other v.found)
  skip _ := pure ()
  step
    | .string s => .key s
    | _ => .unnamed

/-! ## Results -/

section

variable {ε ε' α β : Type}

theorem bind_eq_ok_iff {x : Except ε α} {f : α → Except ε β} {b : β} :
    x >>= f = .ok b ↔ ∃ a, x = .ok a ∧ f a = .ok b := by
  cases x <;> simp [bind, Except.bind]

theorem mapError_eq_ok_iff {f : ε → ε'} {x : Except ε α} {a : α} :
    x.mapError f = .ok a ↔ x = .ok a := by
  cases x with
  | error e => exact ⟨fun h => (by cases h), fun h => (by cases h)⟩
  | ok b =>
    show Except.ok b = .ok a ↔ Except.ok b = .ok a
    simp

/-- For results whose type cannot be compared as a whole. -/
theorem toOption_eq_some_iff {x : Except ε α} {a : α} : x.toOption = some a ↔ x = .ok a := by
  cases x <;> simp [Except.toOption]

end

end CallPolicy
