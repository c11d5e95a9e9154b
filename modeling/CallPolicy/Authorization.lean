import CallPolicy.Http.Status
import CallPolicy.Resolver
import CallPolicy.Rule
import CallPolicy.Service

set_option autoImplicit false

/-! # Authorization of calls

The layer of a server that lets a call through to the service behind it, or answers it itself. The
method of a call is the path of its request, the caller is whom the resolver finds, and the rule
table decides. A caller who was found is made known to the service. -/

namespace CallPolicy

/-- The method that a path names: the path without one leading slash. -/
def methodOfPath (path : String) : String :=
  match path.toList with
  | '/' :: rest => String.ofList rest
  | _ => path

/-- How a refused call ends. Who did not say who they are may do better. -/
def denialStatus (caller : Option Principal) : Status :=
  match caller with
  | none => .unauthenticated "authentication required"
  | some _ => .permissionDenied "access denied"

/-- The rules of a server, and how it finds its callers. -/
structure Authorization where
  table : RuleTable
  resolver : Resolver

namespace Authorization

variable {σ α β γ ε : Type}

/-- The method that a request calls. -/
def method (request : Request α β) : String :=
  methodOfPath request.target.path

/-- What is decided about a request from the caller. -/
def verdict (a : Authorization) (request : Request α β) (caller : Option Principal) : Verdict :=
  a.table.verdict (method request) caller

/-- What is reported about a request from the caller. -/
def event (a : Authorization) (request : Request α β) (caller : Option Principal) : Event :=
  let v := a.verdict request caller
  let judgement : Judgement :=
    ⟨method request, v.deciding.map fun (_, rule) => rule.pattern.text, caller.map Principal.id⟩
  match v.decision with
  | .allow => .callAuthorized judgement
  | .deny => .callDenied judgement

/-- The request as the service sees it. A caller known from before stays unless one is found. -/
def forwarded (request : Request α β) (caller : Option Principal) : Request α β :=
  { request with caller := caller.or request.caller }

/-- Answers one request, with the help of the service if the call is let through. -/
def call [Inhabited γ] (a : Authorization) (inner : Service σ (Request α β) ε (Response γ))
    (state : σ) (request : Request α β) : Reply σ ε (Response γ) :=
  let found := a.resolver request.headers
  let reported := found.events ++ [a.event request found.caller]
  match (a.verdict request found.caller).decision with
  | .allow =>
    let reply := inner.call state (forwarded request found.caller)
    { reply with events := reported ++ reply.events }
  | .deny =>
    { state, outcome := .ok (denialStatus found.caller).toResponse, events := reported }

/-- The service behind the layer. -/
def layer [Inhabited γ] (a : Authorization) (inner : Service σ (Request α β) ε (Response γ)) :
    Service σ (Request α β) ε (Response γ) where
  ready := inner.ready
  call := a.call inner

end Authorization

end CallPolicy
