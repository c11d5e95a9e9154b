import CallPolicy.Principal

set_option autoImplicit false

/-! # Requirements

What a rule asks of the caller. A caller who did not authenticate is `none`. -/

namespace CallPolicy

/-- The answer to a call. -/
inductive Decision where
  | allow
  | deny
deriving DecidableEq

/-- Is the call let through? -/
def Decision.isAllow : Decision → Bool
  | .allow => true
  | .deny => false

theorem Decision.isAllow_iff {d : Decision} : d.isAllow = true ↔ d = .allow := by
  cases d <;> simp [Decision.isAllow]

theorem Decision.isAllow_eq_false_iff {d : Decision} : d.isAllow = false ↔ d = .deny := by
  cases d <;> simp [Decision.isAllow]

/-- The word for the answer. -/
def Decision.name : Decision → String
  | .allow => "allow"
  | .deny => "deny"

/-- What a call must satisfy once its method is selected by a rule. -/
inductive Requirement where
  /-- Everyone may call. -/
  | permitAll
  /-- Nobody may call. -/
  | denyAll
  /-- Any authenticated caller may. -/
  | authenticated
  /-- A caller with the authority may. -/
  | hasAuthority (authority : String)
  /-- A caller with at least one of the authorities may. -/
  | hasAnyAuthority (authorities : List String)
deriving DecidableEq

/-- Does the caller satisfy the requirement? -/
def Requirement.admits : Requirement → Option Principal → Bool
  | .permitAll, _ => true
  | .denyAll, _ => false
  | .authenticated, caller => caller.isSome
  | .hasAuthority a, caller => caller.any (·.hasAuthority a)
  | .hasAnyAuthority l, caller => caller.any (·.hasAnyAuthority l)

/-- The decision of the requirement on the caller. -/
def Requirement.decision (r : Requirement) (caller : Option Principal) : Decision :=
  if r.admits caller then .allow else .deny

end CallPolicy
