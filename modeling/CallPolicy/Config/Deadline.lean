import CallPolicy.Decode.Source
import CallPolicy.Duration

set_option autoImplicit false

/-! # Default deadlines as they are written

The deadline that a client gives to calls which set none; thirty seconds if nothing is written. -/

namespace CallPolicy

/-- The configured default deadline. -/
structure DeadlineConfig where
  defaultDeadline : Duration := .ofSeconds 30
deriving DecidableEq

/-- The configured default deadline is zero. -/
structure ZeroDeadline where
deriving DecidableEq

/-- The wording of the error. -/
def ZeroDeadline.message (_ : ZeroDeadline) : String :=
  "invalid deadline: default deadline must be greater than zero"

section

variable {m : Type → Type} [Monad m] [MonadExceptOf DecodeError m] {ν : Type} [Source m ν]

/-- Decodes a duration, which is written as text. -/
def Duration.read (v : ν) : m Duration := do
  match ← Source.view v with
  | .string text => match Duration.ofText? text with
    | some d => pure d
    | none => failHere .malformedDuration
  | .map _ => failHere (.invalidType .map expected)
  | .other found => failHere (.invalidType found expected)
where
  expected : String := "expect duration string,e.g:'1min+30'"

/-- Decodes a default deadline. -/
def DeadlineConfig.read (v : ν) : m DeadlineConfig := do
  let fields : Fields m ν Duration :=
    { name := "DeadlineConfig", entries := [("default_deadline", Duration.read)] }
  let d ← readRecord fields v
  let absent : DeadlineConfig := {}
  return ⟨optional d some absent.defaultDeadline⟩

end

/-- Refuses a deadline that has passed from the start. -/
def DeadlineConfig.validate (c : DeadlineConfig) : Except ZeroDeadline Unit :=
  if c.defaultDeadline.isZero then .error ⟨⟩ else .ok ()

end CallPolicy
