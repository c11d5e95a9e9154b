import CallPolicy.DefaultDeadline
import CallPolicy.Proofs.Headers
import CallPolicy.Proofs.Timeout

set_option autoImplicit false

/-! # The client with a default deadline

What the default-deadline layer does to a request: it adds one field, or nothing at all
(`DefaultDeadline.call_eq`). Whatever it adds can be read back, so a layer behind it finds a timeout
and has nothing to do (`DefaultDeadline.report_forwardHeaders`); of several layers only the
outermost counts. -/

namespace CallPolicy

theorem Timeout.isVisible_encode (d : Duration) :
    (HeaderValue.ofText (Timeout.encode d)).IsVisible :=
  HeaderValue.isVisible_ofText fun _ => Timeout.visible_of_mem_encode

namespace DefaultDeadline

variable {σ ε α β γ : Type}

/-! ## One layer -/

/-- The headers as the layer passes them on: a timeout is added where there is none. -/
def forwardHeaders (d : DefaultDeadline) (headers : Headers) : Headers :=
  if headers.values timeoutHeader = [] then
    headers.append timeoutHeader (.ofText (Timeout.encode d.deadline))
  else headers

/-- What the layer reports: the timeout that it adds, or one that cannot be read. -/
def report (d : DefaultDeadline) (headers : Headers) : List Event :=
  match headers.values timeoutHeader with
  | [] => [.deadlineApplied d.deadline]
  | value :: _ => match readTimeout value with
    | .ok _ => []
    | .error fault => [.timeoutKept fault]

/-- The timeout that the layer adds can be written, and nothing but its absence is looked at. -/
theorem prepare_eq (d : DefaultDeadline) (headers : Headers) :
    d.prepare headers = (d.forwardHeaders headers, d.report headers) := by
  unfold prepare forwardHeaders report
  rw [Headers.first?_eq_head?_values]
  cases hvalues : headers.values timeoutHeader with
  | nil =>
    have hwritten : HeaderValue.ofText? (Timeout.encode d.deadline) =
        some (.ofText (Timeout.encode d.deadline)) :=
      HeaderValue.ofText?_of_isVisible (Timeout.isVisible_encode d.deadline)
    simp [effectiveDeadline, hwritten, Headers.set_eq_append hvalues]
  | cons value later =>
    cases hread : readTimeout value with
    | ok t => simp [hread]
    | error fault => simp [hread]

/-- The request as the layer passes it on. -/
def forward (d : DefaultDeadline) (request : Request α β) : Request α β :=
  { request with headers := d.forwardHeaders request.headers }

/-- The layer calls the service once, and answers what the service does. -/
theorem call_eq (d : DefaultDeadline) (inner : Service σ (Request α β) ε γ) (state : σ)
    (request : Request α β) :
    d.call inner state request =
      let reply := inner.call state (d.forward request)
      { reply with events := d.report request.headers ++ reply.events } := by
  simp only [call, prepare_eq, forward]

/-! ## Several layers -/

/-- The service behind several layers, the outermost first. -/
def stack (layers : List DefaultDeadline) (inner : Service σ (Request α β) ε γ) :
    Service σ (Request α β) ε γ :=
  layers.foldr (fun d s => d.layer s) inner

theorem forwardHeaders_of_present (d : DefaultDeadline) {headers : Headers}
    (h : headers.values timeoutHeader ≠ []) : d.forwardHeaders headers = headers :=
  if_neg h

theorem values_forwardHeaders (d : DefaultDeadline) {headers : Headers}
    (h : headers.values timeoutHeader = []) :
    (d.forwardHeaders headers).values timeoutHeader =
      [.ofText (Timeout.encode d.deadline)] := by
  rw [forwardHeaders, if_pos h, Headers.values_append, h, if_pos rfl, List.nil_append]

/-- Behind a layer there is nothing to add. -/
theorem forwardHeaders_forwardHeaders (d e : DefaultDeadline) (headers : Headers) :
    e.forwardHeaders (d.forwardHeaders headers) = d.forwardHeaders headers := by
  apply forwardHeaders_of_present
  by_cases h : headers.values timeoutHeader = []
  · simp [d.values_forwardHeaders h]
  · rwa [d.forwardHeaders_of_present h]

theorem exists_readTimeout_encode (d : Duration) :
    ∃ t, readTimeout (.ofText (Timeout.encode d)) = .ok t := by
  obtain ⟨t, ht⟩ := Timeout.exists_decode_encode d
  have htext : HeaderValue.text? (.ofText (Timeout.encode d)) = some (Timeout.encode d) :=
    HeaderValue.text?_eq_some_iff.2 ⟨Timeout.isVisible_encode d, rfl⟩
  refine ⟨t, ?_⟩
  simp only [readTimeout, htext, ht]
  rfl

theorem report_forwardHeaders (d e : DefaultDeadline) {headers : Headers}
    (h : headers.values timeoutHeader = []) : e.report (d.forwardHeaders headers) = [] := by
  obtain ⟨t, ht⟩ := exists_readTimeout_encode d.deadline
  simp only [report, d.values_forwardHeaders h, ht]

/-- Several layers pass a request on as the outermost does, and each reports on what it finds. -/
theorem call_stack (d : DefaultDeadline) (below : List DefaultDeadline)
    (inner : Service σ (Request α β) ε γ) (state : σ) (request : Request α β) :
    (stack (d :: below) inner).call state request =
      let reply := inner.call state (d.forward request)
      { reply with
        events := d.report request.headers ++
          (below.flatMap (·.report (d.forwardHeaders request.headers)) ++ reply.events) } := by
  induction below generalizing d request with
  | nil => exact d.call_eq inner state request
  | cons e rest ih =>
    show d.call (stack (e :: rest) inner) state request = _
    -- what the next layer passes on is what it was given
    have hforward : e.forward (d.forward request) = d.forward request := by
      simp only [forward, forwardHeaders_forwardHeaders]
    rw [call_eq, ih e, hforward]
    simp only [forward, forwardHeaders_forwardHeaders, List.flatMap_cons, List.append_assoc]

/-- What several layers report on a request: the outermost that it adds a timeout, or all of them
    that the one they find cannot be read. -/
theorem report_stack (d : DefaultDeadline) (below : List DefaultDeadline) (headers : Headers) :
    d.report headers ++ below.flatMap (·.report (d.forwardHeaders headers)) =
      if headers.values timeoutHeader = [] then [.deadlineApplied d.deadline]
      else (d :: below).flatMap (·.report headers) := by
  split
  · rename_i habsent
    have hsilent : below.flatMap (·.report (d.forwardHeaders headers)) = [] :=
      List.flatMap_eq_nil_iff.2 fun e _ => d.report_forwardHeaders e habsent
    rw [hsilent, List.append_nil, report, habsent]
  · rename_i hpresent
    rw [d.forwardHeaders_of_present hpresent, List.flatMap_cons]

/-- **A timeout is never overridden.** A request that carries a timeout, of whatever bytes, reaches
    the service as it is; any other reaches it with one more field, the default of the outermost
    layer. The service is called once, and its result is returned. The default can always be
    written, and the layers behind the outermost report nothing where it was added. -/
theorem layers_keep_timeout (d : DefaultDeadline) (below : List DefaultDeadline)
    (inner : Service σ (Request α β) ε γ) (state : σ) (request : Request α β) :
    let passed :=
      if request.headers.values "grpc-timeout" = [] then
        { request with
          headers := request.headers.append "grpc-timeout" (.ofText (Timeout.encode d.deadline)) }
      else request
    let answer := inner.call state passed
    ((d.layer inner.recording).call (state, []) request).state.2 = [passed] ∧
    (d.layer inner).call state request =
      { answer with events := d.report request.headers ++ answer.events } ∧
    .deadlineNotEncoded ∉ (d.prepare request.headers).2 ∧
    ((stack (d :: below) inner.recording).call (state, []) request).state.2 = [passed] ∧
    (stack (d :: below) inner).call state request =
      { answer with
        events :=
          (if request.headers.values "grpc-timeout" = [] then [.deadlineApplied d.deadline]
          else (d :: below).flatMap (·.report request.headers)) ++ answer.events } := by
  intro passed answer
  have hpassed : d.forward request = passed := by
    by_cases habsent : request.headers.values "grpc-timeout" = []
    · simp [forward, forwardHeaders, timeoutHeader, passed, habsent]
    · simp [forward, forwardHeaders, timeoutHeader, passed, habsent]
  refine ⟨?_, ?_, ?_, ?_, ?_⟩
  · show (d.call inner.recording (state, []) request).state.2 = _
    rw [call_eq, hpassed]
    rfl
  · show d.call inner state request = _
    rw [call_eq, hpassed]
  · rw [prepare_eq, report]
    split
    · simp
    · split <;> simp
  · rw [call_stack, hpassed]
    rfl
  · rw [call_stack, hpassed, ← timeoutHeader, ← report_stack, List.append_assoc]

end DefaultDeadline

end CallPolicy
