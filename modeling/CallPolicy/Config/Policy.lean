import CallPolicy.Config.Requirement

set_option autoImplicit false

/-! # Policies

A policy is the written form of a rule table: an ordered list of rules. It decodes without a look
at the patterns; `Policy.validate` and `Policy.table` both refuse empty ones. -/

namespace CallPolicy

/-- Ordered authorization rules; a call that no rule selects is denied. -/
structure Policy where
  rules : List Rule := []
deriving DecidableEq

/-! ## Encoding -/

/-- The written form of a rule. -/
def Rule.toJson (r : Rule) : Json :=
  .object [("method", .string r.method), ("require", r.require.toJson)]

/-- The written form of a policy. -/
def Policy.toJson (p : Policy) : Json :=
  .object [("rules", .array (p.rules.map Rule.toJson))]

/-! ## Decoding -/

section

variable {m : Type → Type} [Monad m] [MonadExceptOf DecodeError m] {ν : Type} [Source m ν]

/-- A decoded field of a rule. -/
inductive Rule.Field where
  | method (text : String)
  | require (requirement : Requirement)

/-- The fields of a rule. -/
def Rule.fields : Fields m ν Rule.Field where
  name := "RuleConfig"
  entries :=
    [("method", fun v => return .method (← readText v)),
      ("require", fun v => return .require (← Requirement.read v))]

/-- Decodes a rule. -/
def Rule.read (v : ν) : m Rule := do
  let d ← readRecord Rule.fields v
  let method ← required d "method" fun | .method text => some text | _ => none
  let require ← required d "require" fun | .require r => some r | _ => none
  return ⟨method, require⟩

/-- Decodes a policy. -/
def Policy.read (v : ν) : m Policy := do
  let fields : Fields m ν (List Rule) :=
    { name := "AuthorizationConfig", entries := [("rules", readList Rule.read)] }
  let d ← readRecord fields v
  return ⟨optional d some []⟩

end

/-! ## Checking, and making a table -/

namespace Policy

/-- Refuses the first rule without a pattern. -/
def validate (p : Policy) : Except EmptyPattern Unit :=
  match p.rules.findIdx? (·.method == "") with
  | some index => .error ⟨index⟩
  | none => .ok ()

/-- The table of the rules, and what was reported while it was made. -/
def table (p : Policy) : Except EmptyPattern RuleTable × List Event :=
  (p.rules.foldl (fun (b : TableBuilder) r => b.add r.method r.require) {}).build

/-- The policy that a table was made from. -/
def ofTable (t : RuleTable) : Policy := ⟨t.toRules⟩

end Policy

/-! ## Tables as they are written -/

/-- A table is written as its policy. -/
def RuleTable.toJson (t : RuleTable) : Json :=
  (Policy.ofTable t).toJson

/-- The table that a decoded policy stands for, if it holds no empty pattern. With it comes what
    was reported while it was made. -/
def RuleTable.ofPolicy (p : Policy) : Except Fault (RuleTable × List Event) :=
  match p.table with
  | (.ok table, events) => .ok (table, events)
  | (.error e, _) => .error (.emptyPattern e)

/-- Decodes a table from JSON. -/
def RuleTable.ofJson (v : Json) : JsonDecode (RuleTable × List Event) := do
  (RuleTable.ofPolicy (← Policy.read v)).mapError .here

/-! ## Patterns as they are written -/

/-- A pattern is written as its text. -/
def Pattern.toJson (p : Pattern) : Json :=
  .string p.text

/-- The pattern that a decoded text stands for, if it is not empty. -/
def Pattern.ofDecoded (text : String) : Except Fault Pattern :=
  match Pattern.ofText? text with
  | some pattern => .ok pattern
  | none => .error .emptyText

/-- Decodes a pattern from JSON. -/
def Pattern.ofJson (v : Json) : JsonDecode Pattern := do
  (Pattern.ofDecoded (← readText v)).mapError .here

end CallPolicy
