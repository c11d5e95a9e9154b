import CallPolicy.Event

set_option autoImplicit false

/-! # Services and their runs

A service answers requests one after the other and may change its state on the way. A layer turns
a service into another one; what it reports stands in order with what the service reports.

`Service.callAll` answers a list of requests. `Service.stateAfter` is where the service stands once
it has, and gives every single answer: the request at index `i` is answered in the state after the
requests before it (`Service.callAll_getElem?`). `Service.recording` also keeps the requests that it
was given, so that what a service is called with can be read off its state. -/

namespace CallPolicy

/-- What a service gives back: its new state, the outcome of the request, and what it reported. -/
structure Reply (σ ε α : Type) where
  state : σ
  outcome : Except ε α
  events : List Event := []

/-- A service with states `σ` that answers requests `ρ` with an `α`, or fails with an `ε`. -/
structure Service (σ ρ ε α : Type) where
  /-- Why no request can be taken, in a state where none can. -/
  ready : σ → Except ε Unit
  call : σ → ρ → Reply σ ε α

namespace Service

variable {σ ρ ε α : Type}

/-- Sends one request, if the service is ready for it. -/
def send (s : Service σ ρ ε α) (state : σ) (request : ρ) : Reply σ ε α :=
  match s.ready state with
  | .ok () => s.call state request
  | .error e => { state, outcome := .error e }

/-- Calls the service with each of the requests in turn. -/
def callAll (s : Service σ ρ ε α) (state : σ) : List ρ → List (Reply σ ε α)
  | [] => []
  | request :: rest =>
    let reply := s.call state request
    reply :: s.callAll reply.state rest

/-! ## Runs -/

/-- The state of the service once it has answered the requests. -/
def stateAfter (s : Service σ ρ ε α) (state : σ) : List ρ → σ
  | [] => state
  | request :: rest => s.stateAfter (s.call state request).state rest

@[simp] theorem length_callAll (s : Service σ ρ ε α) (state : σ) (requests : List ρ) :
    (s.callAll state requests).length = requests.length := by
  induction requests generalizing state with
  | nil => rfl
  | cons request rest ih => simp [callAll, ih]

/-- Each request is answered in the state after the requests before it. -/
theorem callAll_getElem? (s : Service σ ρ ε α) (state : σ) (requests : List ρ) (i : Nat) :
    (s.callAll state requests)[i]? =
      requests[i]?.map (s.call (s.stateAfter state (requests.take i))) := by
  induction requests generalizing state i with
  | nil => simp [callAll]
  | cons request rest ih =>
    obtain _ | i := i
    · simp [callAll, stateAfter]
    · simp [callAll, stateAfter, ih]

/-! ## Recording -/

/-- The service, with the requests that it was given so far, in order. -/
def recording (s : Service σ ρ ε α) : Service (σ × List ρ) ρ ε α where
  ready := fun (state, _) => s.ready state
  call := fun (state, seen) request =>
    let reply := s.call state request
    { reply with state := (reply.state, seen ++ [request]) }

theorem stateAfter_recording (s : Service σ ρ ε α) (state : σ) (seen requests : List ρ) :
    s.recording.stateAfter (state, seen) requests =
      (s.stateAfter state requests, seen ++ requests) := by
  induction requests generalizing state seen with
  | nil => simp [stateAfter]
  | cons request rest ih =>
    show s.recording.stateAfter ((s.call state request).state, seen ++ [request]) rest = _
    rw [ih, stateAfter, List.append_assoc, List.singleton_append]

end Service

end CallPolicy
