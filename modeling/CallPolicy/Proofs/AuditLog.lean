import CallPolicy.Proofs.Credentials
import CallPolicy.Proofs.Path

set_option autoImplicit false

/-! # The audit log

Of every request the layer reports one event of its own (`Authorization.ownEvent`). The event says
which method was called and by whom, which rule decided, and whether the request was let through.
What is absent has a stand-in. The log does not tell a caller of the name `<anonymous>` from no
caller, but a rule that is written `<none>` never decides (`not_denotes_standIn`), so this text in
the log always means that there was no rule. -/

namespace CallPolicy

/-! ## The stand-in for a rule -/

/-- The text that stands for a rule where there is none denotes no method. -/
theorem not_denotes_standIn (method : String) : ¬ Denotes "<none>" method := by
  intro h
  have hform : Form.ofText "<none>".toList ≠ .nothing := Form.ofText_ne_nothing_iff.2
    h.eq_star_or_segments
  exact hform (by decide)

namespace RuleTable

variable {t : RuleTable} {method : String}

/-- What the log writes for the rule that decides. -/
def decidingText (t : RuleTable) (method : String) : String :=
  ((t.deciding method).map fun found => found.2.pattern.text).getD "<none>"

theorem decidingText_of_firstAt {i : Nat} {r : TableRule}
    (h : FirstAt (fun r => Denotes r.pattern.text method) t.rules i r) :
    t.decidingText method = r.pattern.text := by
  rw [decidingText, deciding_eq_some_iff_denotes.2 h]
  rfl

/-- The log writes the stand-in only where no rule decides. -/
theorem decidingText_eq_standIn_iff :
    t.decidingText method = "<none>" ↔ ∀ r ∈ t.rules, ¬ Denotes r.pattern.text method := by
  rw [← deciding_eq_none_iff_denotes]
  constructor
  · intro htext
    cases hdeciding : t.deciding method with
    | none => rfl
    | some found =>
      -- the text of a rule that decides denotes the method, and the stand-in denotes none
      have hfirst := deciding_eq_some_iff_denotes.1 hdeciding
      have hdenotes : Denotes found.2.pattern.text method := hfirst.2.1
      rw [← decidingText_of_firstAt hfirst, htext] at hdenotes
      exact absurd hdenotes (not_denotes_standIn method)
  · intro hnone
    rw [decidingText, hnone]
    rfl

end RuleTable

/-! ## The event of a request -/

/-- Is the event about a call? -/
def Event.judges : Event → Bool
  | .callAuthorized _ | .callDenied _ => true
  | _ => false

namespace Authorization

variable {σ α β γ ε : Type} {a : Authorization} {request : Request α β}

/-- What the layer finds out about the request. -/
def judgement (a : Authorization) (request : Request α β) : Judgement :=
  ⟨method request, (a.table.deciding (method request)).map fun found => found.2.pattern.text,
    (a.resolver request.headers).caller.map Principal.id⟩

/-- What the layer itself reports of the request. -/
def ownEvent (a : Authorization) (request : Request α β) : Event :=
  a.event request (a.resolver request.headers).caller

theorem ownEvent_eq (a : Authorization) (request : Request α β) :
    a.ownEvent request =
      if a.allows request then .callAuthorized (a.judgement request)
      else .callDenied (a.judgement request) := by
  rw [judgement, ← RuleTable.verdict_deciding a.table _ (a.resolver request.headers).caller]
  cases hallow : a.allows request with
  | true => simp only [ownEvent, event, allows_iff.1 hallow]; rfl
  | false => simp only [ownEvent, event, allows_eq_false_iff.1 hallow]; rfl

theorem judges_ownEvent (a : Authorization) (request : Request α β) :
    (a.ownEvent request).judges = true := by
  rw [ownEvent_eq]
  split <;> rfl

theorem fields_ownEvent (a : Authorization) (request : Request α β) :
    (a.ownEvent request).fields = [("method", methodOfPath request.target.path),
      ("pattern", a.table.decidingText (methodOfPath request.target.path)),
      ("principal",
        ((a.resolver request.headers).caller.map Principal.id).getD "<anonymous>")] := by
  rw [ownEvent_eq]
  split <;> rfl

/-- The event is a refusal iff the request is refused. -/
theorem ownEvent_denied_iff :
    (a.ownEvent request).level = .warn ∧ (a.ownEvent request).message = "call denied" ↔
      a.allows request = false := by
  rw [ownEvent_eq]
  cases a.allows request <;> simp [Event.level, Event.message]

/-- The event is an admission iff the request is let through. -/
theorem ownEvent_authorized_iff :
    (a.ownEvent request).level = .debug ∧ (a.ownEvent request).message = "call authorized" ↔
      a.allows request = true := by
  rw [ownEvent_eq]
  cases a.allows request <;> simp [Event.level, Event.message]

/-- The rule that decides asks something of the caller, and that settles the request. -/
theorem allows_iff_holds {i : Nat} {r : TableRule}
    (h : FirstAt (fun r => Denotes r.pattern.text (methodOfPath request.target.path))
      a.table.rules i r) :
    a.allows request = true ↔ r.require.Holds (a.resolver request.headers).caller := by
  rw [allows, Decision.isAllow_iff, RuleTable.decision, RuleTable.verdict,
    RuleTable.deciding_eq_some_iff_denotes.2 h]
  exact r.require.decision_eq_allow_iff _

/-! ## The event and the call -/

variable [Inhabited γ] {inner : Service σ (Request α β) ε (Response γ)} {state : σ}

/-- The requests that the service behind the layer is called with while this one is answered. -/
def given (a : Authorization) (inner : Service σ (Request α β) ε (Response γ)) (state : σ)
    (request : Request α β) : List (Request α β) :=
  ((a.layer inner.recording).call (state, []) request).state.2

theorem given_eq (a : Authorization) (inner : Service σ (Request α β) ε (Response γ)) (state : σ)
    (request : Request α β) :
    a.given inner state request = if a.allows request then [a.forward request] else [] := by
  rw [given, seen_call_layer]
  simp only [allows_iff]

theorem given_eq_nil_iff : a.given inner state request = [] ↔ a.allows request = false := by
  simp [given_eq]

theorem given_eq_forward_iff :
    a.given inner state request = [a.forward request] ↔ a.allows request = true := by
  simp [given_eq]

/-- The event stands behind those of the resolver, and before those of the service for what it is
    given. -/
theorem events_call_layer_of_given (a : Authorization)
    (inner : Service σ (Request α β) ε (Response γ)) (state : σ) (request : Request α β) :
    ((a.layer inner).call state request).events = (a.resolver request.headers).events ++
      a.ownEvent request ::
        (a.given inner state request).flatMap fun passed => (inner.call state passed).events := by
  rw [events_call_layer, reportedBehind, ownEvent, given_eq]
  cases a.allows request <;> simp

/-- What an event with these fields says is true of the request, of what the service behind was
    given meanwhile, and of the outcome. -/
structure TellsTruth (a : Authorization) (request : Request α β) (passed : List (Request α β))
    (outcome : Except ε (Response γ)) (e : Event) (method pattern principal : String) : Prop where
  fields : e.fields = [("method", method), ("pattern", pattern), ("principal", principal)]
  none_or_once : passed = [] ∨ passed = [a.forward request]
  denied_iff : e.level = .warn ∧ e.message = "call denied" ↔ passed = []
  authorized_iff : e.level = .debug ∧ e.message = "call authorized" ↔ passed = [a.forward request]
  method_of_path : request.target.path = "/" ++ method ∨
    request.target.path = method ∧ request.target.path.toList.head? ≠ some '/'
  pattern_of_rule : ∀ i r, FirstAt (fun r => Denotes r.pattern.text method) a.table.rules i r →
    pattern = r.pattern.text ∧
      (passed = [a.forward request] ↔ r.require.Holds (a.resolver request.headers).caller)
  pattern_eq_standIn_iff : pattern = "<none>" ↔
    ∀ r ∈ a.table.rules, ¬ Denotes r.pattern.text method
  principal_of_some : ∀ p, (a.resolver request.headers).caller = some p → principal = p.id
  principal_of_none : (a.resolver request.headers).caller = none → principal = "<anonymous>"
  refused : passed = [] → principal ≠ "<anonymous>" →
    ∃ response, outcome = .ok response ∧ response.statusCode? = some 7

/-- What the layer reports of a request is true. -/
theorem tellsTruth_ownEvent (a : Authorization) (inner : Service σ (Request α β) ε (Response γ))
    (state : σ) (request : Request α β) :
    ∃ method pattern principal, a.TellsTruth request (a.given inner state request)
      ((a.layer inner).call state request).outcome (a.ownEvent request) method pattern
      principal := by
  refine ⟨_, _, _, {
    fields := fields_ownEvent a request
    none_or_once := ?once
    denied_iff := ownEvent_denied_iff.trans given_eq_nil_iff.symm
    authorized_iff := ownEvent_authorized_iff.trans given_eq_forward_iff.symm
    method_of_path := methodOfPath_eq_iff.1 rfl
    pattern_of_rule := fun i r hfirst => ⟨RuleTable.decidingText_of_firstAt hfirst,
      given_eq_forward_iff.trans (allows_iff_holds hfirst)⟩
    pattern_eq_standIn_iff := RuleTable.decidingText_eq_standIn_iff
    principal_of_some := fun p hp => by rw [hp]; rfl
    principal_of_none := fun hnone => by rw [hnone]; rfl
    refused := fun hgiven hprincipal => ⟨a.refusal request, ?answer, ?code⟩ }⟩
  case once =>
    rw [given_eq_nil_iff, given_eq_forward_iff]
    exact Bool.eq_false_or_eq_true _ |>.symm
  case answer =>
    show (a.call inner state request).outcome = _
    rw [call_of_refuses (given_eq_nil_iff.1 hgiven)]
  case code =>
    have hcaller : (a.resolver request.headers).caller.isSome = true := by
      rw [Option.isSome_iff_ne_none]
      intro hnone
      exact hprincipal (by rw [hnone]; rfl)
    rw [statusCode?_refusal, if_pos hcaller]

/-! ## Runs -/

/-- What the layer itself reports of the requests of a run. -/
def log (a : Authorization) (requests : List (Request α β)) : List Event :=
  requests.map a.ownEvent

/-- Where neither the resolver nor the service behind reports of calls, a run reports of them what
    the layer itself does, and nothing else. -/
theorem judging_events_callAll {a : Authorization}
    {inner : Service σ (Request α β) ε (Response γ)}
    (hresolver : ∀ headers, ∀ e ∈ (a.resolver headers).events, e.judges = false)
    (hinner : ∀ state request, ∀ e ∈ (inner.call state request).events, e.judges = false)
    (state : σ) (requests : List (Request α β)) :
    (((a.layer inner).callAll state requests).flatMap Reply.events).filter Event.judges =
      a.log requests := by
  induction requests generalizing state with
  | nil => rfl
  | cons request rest ih =>
    -- of what the reply reports only the layer's own event is kept
    have hbefore : (a.resolver request.headers).events.filter Event.judges = [] := by
      rw [List.filter_eq_nil_iff]
      intro e he
      rw [hresolver _ e he]
      exact Bool.false_ne_true
    have hbehind : ((a.given inner state request).flatMap fun passed =>
        (inner.call state passed).events).filter Event.judges = [] := by
      rw [List.filter_eq_nil_iff]
      intro e he
      obtain ⟨passed, -, hpassed⟩ := List.mem_flatMap.1 he
      rw [hinner _ _ e hpassed]
      exact Bool.false_ne_true
    show (((a.layer inner).call state request).events ++
      ((a.layer inner).callAll ((a.layer inner).call state request).state rest).flatMap
        Reply.events).filter Event.judges = _
    rw [events_call_layer_of_given, List.filter_append, List.filter_append,
      List.filter_cons_of_pos (judges_ownEvent a request), hbefore, hbehind, ih]
    rfl

/-- **The audit log tells the truth.** In every run the layer reports one event of its own for each
    request, in order: the event stands between those of the resolver and those of the service
    behind, and what it says is true (`TellsTruth`). Where the resolver and the service report of
    no calls, these are all events of the run that do. No rule that is written `<none>` ever
    decides. -/
theorem audit_log_truthful (a : Authorization) (inner : Service σ (Request α β) ε (Response γ))
    (state : σ) (requests : List (Request α β)) :
    (a.log requests).length = requests.length ∧
    (∀ i request, requests[i]? = some request →
      let reached := (a.layer inner).stateAfter state (requests.take i)
      let passed := a.given inner reached request
      ∃ reply e, ((a.layer inner).callAll state requests)[i]? = some reply ∧
        (a.log requests)[i]? = some e ∧
        reply.events = (a.resolver request.headers).events ++
          e :: passed.flatMap (fun request => (inner.call reached request).events) ∧
        ∃ method pattern principal,
          a.TellsTruth request passed reply.outcome e method pattern principal) ∧
    ((∀ headers, ∀ e ∈ (a.resolver headers).events, e.judges = false) →
      (∀ state request, ∀ e ∈ (inner.call state request).events, e.judges = false) →
      (((a.layer inner).callAll state requests).flatMap Reply.events).filter Event.judges =
        a.log requests) ∧
    ∀ r : TableRule, r.pattern.text = "<none>" →
      ∀ method i, a.table.deciding method ≠ some (i, r) := by
  refine ⟨List.length_map .., fun i request hrequest => ?_,
    fun hresolver hinner => judging_events_callAll hresolver hinner state requests,
    fun r htext method i hdeciding => ?_⟩
  · intro reached passed
    have hreply : ((a.layer inner).callAll state requests)[i]? =
        some ((a.layer inner).call reached request) := by
      rw [Service.callAll_getElem?, hrequest]
      rfl
    have hevent : (a.log requests)[i]? = some (a.ownEvent request) := by
      rw [log, List.getElem?_map, hrequest]
      rfl
    exact ⟨_, _, hreply, hevent, events_call_layer_of_given a inner reached request,
      tellsTruth_ownEvent a inner reached request⟩
  · have hdenotes : Denotes r.pattern.text method :=
      (RuleTable.deciding_eq_some_iff_denotes.1 hdeciding).2.1
    rw [htext] at hdenotes
    exact not_denotes_standIn method hdenotes

/-- A run through a table with a rule that is written `<none>`: a call that a rule lets through, one
    that a rule refuses to a known caller, and one of a method that has the text of the first rule
    and is yet selected by none. -/
theorem log_beside_standIn_rule :
    let standIn : TableRule := ⟨⟨"<none>", _, by decide, rfl⟩, .permitAll⟩
    let a : Authorization :=
      ⟨⟨[standIn, ⟨⟨"Simple/*", _, by decide, rfl⟩, .hasAuthority "admin"⟩,
        ⟨⟨"Health.*", _, by decide, rfl⟩, .permitAll⟩]⟩,
        fun headers => ⟨(headers.first? "user").map fun _ => ⟨"alice", .ofList ["user"]⟩, []⟩⟩
    let inner : Service Unit (Request Unit String) Empty (Response String) :=
      ⟨fun _ => .ok (), fun _ _ => ⟨(), .ok ⟨200, .ofList [], "hello"⟩, []⟩⟩
    let requests : List (Request Unit String) :=
      [⟨⟨"/Health/Check", none⟩, .ofList [], none, (), "Ann"⟩,
        ⟨⟨"/Simple/SayHello", none⟩, .ofList [("user", .ofText "1")], none, (), "Ben"⟩,
        ⟨⟨"/<none>", none⟩, .ofList [], none, (), "Cleo"⟩]
    a.log requests =
      [.callAuthorized ⟨"Health/Check", some "Health.*", none⟩,
        .callDenied ⟨"Simple/SayHello", some "Simple/*", some "alice"⟩,
        .callDenied ⟨"<none>", none, none⟩] ∧
    (((a.layer inner).callAll () requests).flatMap Reply.events).filter Event.judges =
      a.log requests ∧
    (∃ reply response, ((a.layer inner).callAll () requests)[1]? = some reply ∧
      reply.outcome = .ok response ∧ response.statusCode? = some 7) ∧
    ∀ method i, a.table.deciding method ≠ some (i, standIn) := by
  intro standIn a inner requests
  obtain ⟨-, heach, hrun, hnever⟩ := audit_log_truthful a inner () requests
  obtain ⟨reply, _, hreply, -, -, _, _, principal, htruth⟩ := heach 1 _ rfl
  have hcaller : principal = "alice" := htruth.principal_of_some _ rfl
  obtain ⟨response, houtcome, hcode⟩ :=
    htruth.refused (given_eq_nil_iff.2 (by decide +kernel)) (by rw [hcaller]; decide)
  exact ⟨by decide +kernel, hrun (fun _ _ he => nomatch he) (fun _ _ _ he => nomatch he),
    ⟨reply, response, hreply, houtcome, hcode⟩, hnever standIn rfl⟩

end Authorization

end CallPolicy
