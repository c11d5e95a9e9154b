import CallPolicy.Decode.Source

set_option autoImplicit false

/-! # Requirements as they are written

A requirement without argument is its name; one with an argument is a map whose only key is the
name. In a policy `Requirement.read` decodes it, from any format. `Requirement.ofJson` decodes a
requirement that stands on its own in JSON, and also takes `null` as the argument of a requirement
that has none. -/

namespace CallPolicy.Requirement

/-- The kinds of requirement. -/
inductive Kind where
  | permitAll
  | denyAll
  | authenticated
  | hasAuthority
  | hasAnyAuthority
deriving DecidableEq

/-- The kinds in the order in which messages list them. -/
def Kind.all : List Kind :=
  [.permitAll, .denyAll, .authenticated, .hasAuthority, .hasAnyAuthority]

/-- The written name of a kind. -/
def Kind.name : Kind → String
  | .permitAll => "permit_all"
  | .denyAll => "deny_all"
  | .authenticated => "authenticated"
  | .hasAuthority => "has_authority"
  | .hasAnyAuthority => "has_any_authority"

/-- The kind of that name. -/
def Kind.ofName? (name : String) : Option Kind :=
  Kind.all.find? (·.name == name)

/-- The fault of a name that is no kind. -/
def unknownKind (name : String) : Fault :=
  .unknownVariant name (Kind.all.map Kind.name)

/-! ## Encoding -/

/-- The written form of a requirement. -/
def toJson : Requirement → Json
  | .permitAll => .string Kind.permitAll.name
  | .denyAll => .string Kind.denyAll.name
  | .authenticated => .string Kind.authenticated.name
  | .hasAuthority a => .object [(Kind.hasAuthority.name, .string a)]
  | .hasAnyAuthority l => .object [(Kind.hasAnyAuthority.name, .strings l)]

/-! ## Decoding -/

section

variable {m : Type → Type} [Monad m] [MonadExceptOf DecodeError m] {ν : Type} [Source m ν]

/-- The kind of that name, or an error here. -/
def readKind (name : String) : m Kind :=
  match Kind.ofName? name with
  | some kind => pure kind
  | none => failHere (unknownKind name)

/-- The requirement written as a bare name. -/
def readBare (name : String) : m Requirement := do
  match ← readKind name with
  | .permitAll => pure .permitAll
  | .denyAll => pure .denyAll
  | .authenticated => pure .authenticated
  | .hasAuthority | .hasAnyAuthority => failHere (.invalidType .bareChoice "newtype variant")

/-- The fault of a map that should have one key. -/
def singleKey : Fault :=
  .invalidValue .map "map with a single key"

/-- Refuses members behind the first. -/
def endOfMap : List (ν × ν) → m Unit
  | [] => pure ()
  | (k, _) :: _ => do
    Source.skip k
    failHere singleKey

/-- The requirement written as a map from its name to its argument. -/
def readMap : List (ν × ν) → m Requirement
  | [] => failHere singleKey
  | (k, v) :: rest => do
    match ← readKind (← Source.text "variant identifier" k) with
    | .permitAll | .denyAll | .authenticated => failHere (.invalidType .map "unit variant")
    | .hasAuthority => do
      let a ← within (Source.step m k) (readText v)
      endOfMap rest
      return .hasAuthority a
    | .hasAnyAuthority => do
      let l ← within (Source.step m k) (readTexts v)
      endOfMap rest
      return .hasAnyAuthority l

/-- Decodes a requirement of a policy. -/
def read (v : ν) : m Requirement := do
  match ← Source.view v with
  | .string name => readBare name
  | .map members => readMap members
  | .other found => failHere (.invalidType found "enum Requirement")

end

/-- A requirement without argument, given the value that stands for the argument. -/
def ofNull (r : Requirement) : Json → JsonDecode Requirement
  | .null => pure r
  | v => failHere (.invalidType v.found "unit")

/-- Decodes a requirement that stands on its own in JSON. -/
def ofJson : Json → JsonDecode Requirement
  | .string name => readBare name
  | .object [(name, v)] => do
    match ← readKind name with
    | .permitAll => ofNull .permitAll v
    | .denyAll => ofNull .denyAll v
    | .authenticated => ofNull .authenticated v
    | .hasAuthority => return .hasAuthority (← readText v)
    | .hasAnyAuthority => return .hasAnyAuthority (← readTexts v)
  | .object _ => failHere singleKey
  | v => failHere (.invalidType v.found "string or map")

end CallPolicy.Requirement
