import CallPolicy.Config.Deadline
import CallPolicy.Http.Message
import CallPolicy.Service

set_option autoImplicit false

/-! # Default deadlines of calls

The layer of a client that gives a timeout to every call that has none. A timeout that is there
already stays as it is, even if it cannot be read: refusing it is for the server. -/

namespace CallPolicy

/-- The deadline of a call: its own if it has one, else the default. -/
def effectiveDeadline (own : Option Duration) (default : Duration) : Duration :=
  own.getD default

/-- The deadline that is given to calls without one. -/
structure DefaultDeadline where
  deadline : Duration
deriving DecidableEq

namespace DefaultDeadline

variable {σ ε α β γ : Type}

/-- The layer of a configuration, unless that is refused. -/
def ofConfig (c : DeadlineConfig) : Except ZeroDeadline DefaultDeadline := do
  c.validate
  return ⟨c.defaultDeadline⟩

/-- The header that carries the timeout of a call. -/
def timeoutHeader : String := "grpc-timeout"

/-- The timeout that a header value denotes. -/
def readTimeout (value : HeaderValue) : Except TimeoutFault Duration :=
  match value.text? with
  | none => .error .notText
  | some text => (Timeout.decode text).mapError .malformed

/-- The headers with a timeout, and what was reported about it. -/
def prepare (d : DefaultDeadline) (headers : Headers) : Headers × List Event :=
  match headers.first? timeoutHeader with
  | some value => match readTimeout value with
    | .ok _ => (headers, [])
    | .error fault => (headers, [.timeoutKept fault])
  | none =>
    let deadline := effectiveDeadline none d.deadline
    match HeaderValue.ofText? (Timeout.encode deadline) with
    | some value => (headers.set timeoutHeader value, [.deadlineApplied deadline])
    | none => (headers, [.deadlineNotEncoded])

/-- Sends one request on, with a timeout. -/
def call (d : DefaultDeadline) (inner : Service σ (Request α β) ε γ) (state : σ)
    (request : Request α β) : Reply σ ε γ :=
  let (headers, reported) := d.prepare request.headers
  let reply := inner.call state { request with headers }
  { reply with events := reported ++ reply.events }

/-- The service behind the layer. -/
def layer (d : DefaultDeadline) (inner : Service σ (Request α β) ε γ) :
    Service σ (Request α β) ε γ where
  ready := inner.ready
  call := d.call inner

end DefaultDeadline

end CallPolicy
