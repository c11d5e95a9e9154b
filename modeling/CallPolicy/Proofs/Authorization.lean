import CallPolicy.Authorization

set_option autoImplicit false

/-! # The guarded service

What the authorization layer does to a run of the service behind it. Each request either goes
through with its caller replaced (`Authorization.call_of_allows`) or is answered in place
(`Authorization.call_of_refuses`); everything else is read off these two steps. -/

namespace CallPolicy

/-! ## Methods named by paths -/

/-- What a path names is the path without one leading slash. -/
theorem methodOfPath_eq_iff {path method : String} :
    methodOfPath path = method ↔
      path = "/" ++ method ∨ path = method ∧ path.toList.head? ≠ some '/' := by
  unfold methodOfPath
  split
  · rename_i rest hrest
    have hpath : path = "/" ++ String.ofList rest := String.toList_inj.1 (by simp [hrest])
    constructor
    · rintro rfl
      exact .inl hpath
    · rintro (hslash | ⟨-, hhead⟩)
      · rw [hslash] at hpath
        exact ((String.append_right_inj "/").1 hpath).symm
      · simp [hrest] at hhead
  · rename_i hslash
    have hhead : path.toList.head? ≠ some '/' := fun h => by
      obtain ⟨rest, hrest⟩ := List.head?_eq_some_iff.1 h
      exact hslash rest hrest
    constructor
    · rintro rfl
      exact .inr ⟨rfl, hhead⟩
    · rintro (rfl | ⟨rfl, -⟩)
      · simp at hhead
      · rfl

namespace Authorization

variable {σ α β γ ε : Type}

/-! ## One request -/

/-- Is the request let through? The table decides on the method of its path and on the caller that
    the resolver finds in its headers. -/
def allows (a : Authorization) (request : Request α β) : Bool :=
  (a.table.decision (methodOfPath request.target.path)
    (a.resolver request.headers).caller).isAllow

/-- The request as the layer passes it on. -/
def forward (a : Authorization) (request : Request α β) : Request α β :=
  forwarded request (a.resolver request.headers).caller

theorem allows_iff {a : Authorization} {request : Request α β} :
    a.allows request = true ↔
      (a.verdict request (a.resolver request.headers).caller).decision = .allow :=
  Decision.isAllow_iff

theorem allows_eq_false_iff {a : Authorization} {request : Request α β} :
    a.allows request = false ↔
      (a.verdict request (a.resolver request.headers).caller).decision = .deny :=
  Decision.isAllow_eq_false_iff

/-- The method of a request is whatever its path is written with, behind one slash or none. -/
theorem allows_iff_of_path {a : Authorization} {request : Request α β} {method : String}
    (h : request.target.path = "/" ++ method ∨
      request.target.path = method ∧ request.target.path.toList.head? ≠ some '/') :
    a.allows request = true ↔
      a.table.decision method (a.resolver request.headers).caller = .allow := by
  rw [allows, methodOfPath_eq_iff.2 h, Decision.isAllow_iff]

/-- What the layer reports about the request. -/
def report (a : Authorization) (request : Request α β) : List Event :=
  let found := a.resolver request.headers
  found.events ++ [a.event request found.caller]

/-- The answer of the layer to a request that it does not let through. -/
def refusal [Inhabited γ] (a : Authorization) (request : Request α β) : Response γ :=
  (denialStatus (a.resolver request.headers).caller).toResponse

variable [Inhabited γ]

/-- A request that is let through is answered by the inner service. -/
theorem call_of_allows {a : Authorization} {inner : Service σ (Request α β) ε (Response γ)}
    {state : σ} {request : Request α β} (h : a.allows request = true) :
    a.call inner state request =
      let reply := inner.call state (a.forward request)
      { reply with events := a.report request ++ reply.events } := by
  rw [allows_iff] at h
  simp [call, h, forward, report]

/-- A request that is not let through leaves the inner service alone. -/
theorem call_of_refuses {a : Authorization} {inner : Service σ (Request α β) ε (Response γ)}
    {state : σ} {request : Request α β} (h : a.allows request = false) :
    a.call inner state request =
      { state, outcome := .ok (a.refusal request), events := a.report request } := by
  rw [allows_eq_false_iff] at h
  simp [call, h, refusal, report]

/-- What is sent to a refused client: who is unknown is asked to authenticate. -/
theorem first?_refusal (a : Authorization) (request : Request α β) :
    (a.refusal request : Response γ).headers.first? "grpc-status" =
      some (.ofText (if (a.resolver request.headers).caller.isSome then "7" else "16")) := by
  show (denialStatus (a.resolver request.headers).caller).headers.first? "grpc-status" = _
  rw [Status.first?_codeHeader]
  cases (a.resolver request.headers).caller with
  | none =>
    show some (HeaderValue.ofText (toString 16)) = some (.ofText "16")
    decide
  | some p =>
    show some (HeaderValue.ofText (toString 7)) = some (.ofText "7")
    decide

theorem statusCode?_refusal (a : Authorization) (request : Request α β) :
    (a.refusal request : Response γ).statusCode? =
      some (if (a.resolver request.headers).caller.isSome then 7 else 16) := by
  show ((a.refusal request : Response γ).headers.first? "grpc-status").bind
    (fun value => value.text?.bind (digitsValue? 10 ·.toList)) = _
  rw [first?_refusal]
  cases (a.resolver request.headers).caller with
  | none =>
    show (HeaderValue.ofText "16").text?.bind (digitsValue? 10 ·.toList) = some 16
    decide
  | some p =>
    simp only [Option.isSome_some, if_true]
    show (HeaderValue.ofText "7").text?.bind (digitsValue? 10 ·.toList) = some 7
    decide

/-! ## Runs -/

/-- The requests of a run that reach the inner service, as they reach it. -/
def passed (a : Authorization) (requests : List (Request α β)) : List (Request α β) :=
  (requests.filter a.allows).map a.forward

/-- A run of the guarded service takes the inner service through the requests that it lets through,
    and through nothing else. -/
theorem stateAfter_layer (a : Authorization) (inner : Service σ (Request α β) ε (Response γ))
    (state : σ) (requests : List (Request α β)) :
    (a.layer inner).stateAfter state requests = inner.stateAfter state (a.passed requests) := by
  induction requests generalizing state with
  | nil => rfl
  | cons request rest ih =>
    show (a.layer inner).stateAfter (a.call inner state request).state rest = _
    rw [ih]
    -- one step of the guarded service is one step of the inner service, or none
    cases hallow : a.allows request with
    | true => simp [call_of_allows hallow, passed, hallow, Service.stateAfter]
    | false => simp [call_of_refuses hallow, passed, hallow]

/-- **Complete mediation.** In a run of the guarded service the inner service is called exactly with
    the requests that are let through, in order and once each, with nothing changed but the caller.
    A request is let through iff the table allows the method that its path is written with, behind
    one slash or none, to the caller that the resolver finds. The answers of the inner service are
    returned as they are; every other request leaves it as it was and is answered with an empty
    response that carries the status of the refusal. -/
theorem layer_mediates (a : Authorization) (inner : Service σ (Request α β) ε (Response γ))
    (state : σ) (requests : List (Request α β)) :
    (a.layer inner.recording).stateAfter (state, []) requests =
      (inner.stateAfter state (a.passed requests), a.passed requests) ∧
    (∀ (request : Request α β) (method : String),
      request.target.path = "/" ++ method ∨
        request.target.path = method ∧ request.target.path.toList.head? ≠ some '/' →
      (a.allows request = true ↔
        a.table.decision method (a.resolver request.headers).caller = .allow)) ∧
    (∀ request : Request α β,
      a.forward request = { request with caller := (a.forward request).caller }) ∧
    ((a.layer inner).callAll state requests).length = requests.length ∧
    ∀ i : Fin requests.length,
      let reached := inner.stateAfter state (a.passed (requests.take i))
      ∃ reply, ((a.layer inner).callAll state requests)[i.val]? = some reply ∧
        if a.allows requests[i] then
          reply.state = (inner.call reached (a.forward requests[i])).state ∧
          reply.outcome = (inner.call reached (a.forward requests[i])).outcome
        else
          reply.state = reached ∧ ∃ response, reply.outcome = .ok response ∧
            response.code = 200 ∧ response.body = default ∧
            response.headers.first? "grpc-status" =
              some (.ofText (if (a.resolver requests[i].headers).caller.isSome then "7" else "16")) ∧
            response.statusCode? =
              some (if (a.resolver requests[i].headers).caller.isSome then 7 else 16) := by
  refine ⟨?_, fun request method => allows_iff_of_path, fun request => rfl,
    Service.length_callAll .., fun i => ?_⟩
  · rw [stateAfter_layer, Service.stateAfter_recording, List.nil_append]
  · -- the guarded service answers request `i` in the state that the requests let through led to
    have hreply : ((a.layer inner).callAll state requests)[i.val]? =
        some (a.call inner (inner.stateAfter state (a.passed (requests.take i))) requests[i]) := by
      rw [Service.callAll_getElem?, stateAfter_layer]
      simp [layer]
    refine ⟨_, hreply, ?_⟩
    split
    · rename_i hallow
      rw [call_of_allows hallow]
      exact ⟨rfl, rfl⟩
    · rename_i hrefuse
      rw [call_of_refuses (Bool.not_eq_true _ ▸ hrefuse)]
      exact ⟨rfl, a.refusal requests[i], rfl, rfl, rfl, first?_refusal a requests[i],
        statusCode?_refusal a requests[i]⟩

/-- With a rule for `S/M` alone a call of this method goes through, written with one slash before it
    or with none. Two slashes name another method, which is refused. -/
theorem slash_before_method_left_out :
    ∃ rule : TableRule, rule.toRule = ⟨"S/M", .permitAll⟩ ∧
      let a : Authorization := ⟨⟨[rule]⟩, .anonymous⟩
      let request (path : String) : Request Unit Unit :=
        { target := ⟨path, none⟩, headers := .ofList [], extras := (), body := () }
      let inner : Service Unit (Request Unit Unit) Empty (Response Unit) :=
        ⟨fun _ => .ok (), fun _ _ => ⟨(), .ok ⟨200, .ofList [], ()⟩, []⟩⟩
      a.allows (request "/S/M") = true ∧ a.allows (request "S/M") = true ∧
      a.allows (request "//S/M") = false ∧
      ((a.layer inner.recording).stateAfter ((), [])
        [request "/S/M", request "//S/M", request "S/M"]).2 = [request "/S/M", request "S/M"] := by
  let rule : TableRule := ⟨⟨"S/M", .qualified (.literal ['S']) (.literal ['M']), by decide, by decide⟩,
    .permitAll⟩
  refine ⟨rule, rfl, ?_⟩
  intro a request inner
  obtain ⟨hrun, hallows, -⟩ :=
    layer_mediates a inner () [request "/S/M", request "//S/M", request "S/M"]
  have hslash : a.allows (request "/S/M") = true :=
    (hallows (request "/S/M") "S/M" (.inl rfl)).2 (by decide)
  have hnone : a.allows (request "S/M") = true :=
    (hallows (request "S/M") "S/M" (.inr ⟨rfl, by decide⟩)).2 (by decide)
  have htwo : a.allows (request "//S/M") = false := by
    rw [← Bool.not_eq_true, hallows (request "//S/M") "/S/M" (.inl rfl)]
    decide
  refine ⟨hslash, hnone, htwo, ?_⟩
  rw [hrun, passed, List.filter_cons_of_pos hslash,
    List.filter_cons_of_neg (Bool.not_eq_true _ ▸ htwo), List.filter_cons_of_pos hnone]
  rfl

end Authorization

end CallPolicy
