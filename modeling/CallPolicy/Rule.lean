import CallPolicy.Event
import CallPolicy.Pattern
import CallPolicy.Requirement

set_option autoImplicit false

/-! # Rules and rule tables

A rule pairs a pattern text with a requirement. A table is a list of rules whose patterns have
been read; the first rule whose pattern selects the method decides a call, and a call that no rule
selects is denied.

`RuleTable.build` reads the patterns in order. It reports every pattern that selects nothing, up
to the first empty one, which makes the whole build fail. -/

namespace CallPolicy

/-! ## Rules as written -/

/-- A rule as it is written down. -/
structure Rule where
  method : String
  require : Requirement
deriving DecidableEq

/-- The rule at an index has no pattern. -/
structure EmptyPattern where
  index : Nat
deriving DecidableEq

/-- The wording of the error. -/
def EmptyPattern.message (e : EmptyPattern) : String :=
  let index := e.index
  s!"rule {index}: method pattern must not be empty"

/-! ## Tables -/

/-- A rule whose pattern has been read. -/
structure TableRule where
  pattern : Pattern
  require : Requirement
deriving DecidableEq

/-- The rule that a table rule was made from. -/
def TableRule.toRule (r : TableRule) : Rule := ⟨r.pattern.text, r.require⟩

/-- The rules that calls are checked against, in order. -/
structure RuleTable where
  rules : List TableRule
deriving DecidableEq

/-- The answer to a call together with the rule that gave it, if one did. -/
structure Verdict where
  decision : Decision
  deciding : Option (Nat × TableRule)
deriving DecidableEq

namespace RuleTable

/-- The first rule at or after index `n` that selects the method. -/
def decidingFrom (n : Nat) (method : String) : List TableRule → Option (Nat × TableRule)
  | [] => none
  | r :: rest => if r.pattern.selects method then some (n, r) else decidingFrom (n + 1) method rest

/-- The rule that decides calls of the method, with its index. -/
def deciding (t : RuleTable) (method : String) : Option (Nat × TableRule) :=
  decidingFrom 0 method t.rules

/-- The answer to a call of the method by the caller. -/
def verdict (t : RuleTable) (method : String) (caller : Option Principal) : Verdict :=
  match t.deciding method with
  | some (i, r) => ⟨r.require.decision caller, some (i, r)⟩
  | none => ⟨.deny, none⟩

/-- The decision alone. -/
def decision (t : RuleTable) (method : String) (caller : Option Principal) : Decision :=
  (t.verdict method caller).decision

/-- The rules as they were written. -/
def toRules (t : RuleTable) : List Rule := t.rules.map TableRule.toRule

/-! ## Building a table -/

/-- Reads the patterns of the rules from index `n` on. The events are those of the rules before
    the first empty pattern. -/
def readFrom (n : Nat) : List Rule → Except EmptyPattern (List TableRule) × List Event
  | [] => (.ok [], [])
  | rule :: rest =>
    match Pattern.ofText? rule.method with
    | none => (.error ⟨n⟩, [])
    | some pattern =>
      let (table, events) := readFrom (n + 1) rest
      let warning := if pattern.canMatch then [] else [Event.ruleNeverMatches n rule.method]
      (table.map (⟨pattern, rule.require⟩ :: ·), warning ++ events)

/-- The table of the rules, and what was reported while it was made. -/
def build (rules : List Rule) : Except EmptyPattern RuleTable × List Event :=
  let (table, events) := readFrom 0 rules
  (table.map RuleTable.mk, events)

end RuleTable

/-! ## Adding rules one by one -/

/-- Rules collected for a table; `build` leaves the collection as it is. -/
structure TableBuilder where
  rules : List Rule := []

namespace TableBuilder

/-- Adds a rule behind those already there. -/
def add (b : TableBuilder) (method : String) (require : Requirement) : TableBuilder :=
  ⟨b.rules ++ [⟨method, require⟩]⟩

/-- Lets everyone call. -/
def permitAll (b : TableBuilder) (method : String) : TableBuilder := b.add method .permitAll

/-- Lets nobody call. -/
def denyAll (b : TableBuilder) (method : String) : TableBuilder := b.add method .denyAll

/-- Asks for an authenticated caller. -/
def authenticated (b : TableBuilder) (method : String) : TableBuilder := b.add method .authenticated

/-- Asks for an authority. -/
def hasAuthority (b : TableBuilder) (method authority : String) : TableBuilder :=
  b.add method (.hasAuthority authority)

/-- Asks for one of several authorities. -/
def hasAnyAuthority (b : TableBuilder) (method : String) (authorities : List String) :
    TableBuilder :=
  b.add method (.hasAnyAuthority authorities)

/-- The table of the rules collected so far. -/
def build (b : TableBuilder) : Except EmptyPattern RuleTable × List Event :=
  RuleTable.build b.rules

end TableBuilder

end CallPolicy
