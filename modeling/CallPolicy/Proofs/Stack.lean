import CallPolicy.Proofs.Authorization

set_option autoImplicit false

/-! # Stacks of authorization layers

A service may be guarded several times over. Every layer decides on the same path and the same
headers, since none of them changes either; what a layer may change is the caller, and it does so
only if its own resolver finds one. The caller that the service sees is therefore the one found by
the innermost layer that found any, and the one that came with the request where no layer did
(`Authorization.foldl_forward`). -/

namespace CallPolicy

namespace Authorization

variable {σ α β γ ε : Type} [Inhabited γ]

/-- The service behind several layers, the outermost first. -/
def stack (layers : List Authorization) (inner : Service σ (Request α β) ε (Response γ)) :
    Service σ (Request α β) ε (Response γ) :=
  layers.foldr (fun a s => a.layer s) inner

/-- The caller that the innermost of several layers finds, of those that find one. -/
def innermostCaller (layers : List Authorization) (headers : Headers) : Option Principal :=
  layers.reverse.findSome? fun a => (a.resolver headers).caller

theorem innermostCaller_cons (a : Authorization) (layers : List Authorization) (headers : Headers) :
    innermostCaller (a :: layers) headers =
      (innermostCaller layers headers).or (a.resolver headers).caller := by
  simp [innermostCaller, List.findSome?_append]

theorem innermostCaller_concat (a : Authorization) (outer : List Authorization)
    (headers : Headers) :
    innermostCaller (outer ++ [a]) headers =
      (a.resolver headers).caller.or (innermostCaller outer headers) := by
  cases h : (a.resolver headers).caller <;> simp [innermostCaller, h]

/-- What a request has become behind several layers. -/
theorem foldl_forward (layers : List Authorization) (request : Request α β) :
    layers.foldl (fun r a => a.forward r) request =
      { request with caller := (innermostCaller layers request.headers).or request.caller } := by
  induction layers generalizing request with
  | nil => rfl
  | cons a rest ih =>
    rw [List.foldl_cons, ih, innermostCaller_cons, Option.or_assoc]
    rfl

/-- A request reaches the service behind several layers iff each of them lets it through. -/
theorem state_call_stack (layers : List Authorization)
    (inner : Service σ (Request α β) ε (Response γ)) (state : σ) (request : Request α β) :
    ((stack layers inner).call state request).state =
      if layers.all (·.allows request) then
        (inner.call state (layers.foldl (fun r a => a.forward r) request)).state
      else state := by
  induction layers generalizing request with
  | nil => rfl
  | cons a rest ih =>
    show (a.call (stack rest inner) state request).state = _
    cases hallow : a.allows request with
    | true =>
      -- the layers further in decide on the same path and headers
      have hsame : rest.all (·.allows (a.forward request)) = rest.all (·.allows request) := rfl
      rw [call_of_allows hallow]
      simp only [ih, hsame, List.all_cons, hallow, Bool.true_and, List.foldl_cons]
    | false => simp [call_of_refuses hallow, hallow]

/-- What the service behind several layers is called with: the request itself, with the caller that
    the layers left with it. -/
theorem seen_call_stack (layers : List Authorization)
    (inner : Service σ (Request α β) ε (Response γ)) (state : σ) (request : Request α β) :
    ((stack layers inner.recording).call (state, []) request).state.2 =
      if layers.all (·.allows request) then
        [{ request with caller := (innermostCaller layers request.headers).or request.caller }]
      else [] := by
  rw [state_call_stack]
  split
  · rw [foldl_forward]
    rfl
  · rfl

/-- **The forwarded caller.** Behind a stack of layers, `a` the innermost, the service sees the
    caller that `a` finds; where `a` finds none, it sees the one that a layer further out found, and
    else the one that came with the request. So it sees what `a` found iff `a` found someone, or
    nobody was attached to the request before it reached `a`. -/
theorem stack_forwards_resolved_iff (outer : List Authorization) (a : Authorization)
    (inner : Service σ (Request α β) ε (Response γ)) (state : σ) (request : Request α β) :
    let reached := ((stack (outer ++ [a]) inner.recording).call (state, []) request).state.2
    let found := (a.resolver request.headers).caller
    let attached := (innermostCaller outer request.headers).or request.caller
    if (outer ++ [a]).all (·.allows request) then
      ∃ caller, reached = [{ request with caller }] ∧ caller = found.or attached ∧
        (caller = found ↔ found.isSome ∨ attached = none)
    else reached = [] := by
  intro reached found attached
  have hreached : reached = if (outer ++ [a]).all (·.allows request) then
      [{ request with caller := found.or attached }] else [] := by
    rw [← Option.or_assoc, ← innermostCaller_concat]
    exact seen_call_stack (outer ++ [a]) inner state request
  split
  · rename_i hallow
    rw [if_pos hallow] at hreached
    refine ⟨found.or attached, hreached, rfl, ?_⟩
    cases found with
    | none => simp
    | some p => simp
  · rename_i hrefuse
    rw [hreached, if_neg hrefuse]

/-- A call that is let through without a caller of its own still carries the one that it came
    with. -/
theorem anonymous_call_keeps_attached_caller :
    ¬ ∀ (a : Authorization) (inner : Service Unit (Request Unit String) Empty (Response String))
      (request : Request Unit String),
      ∀ seen ∈ ((a.layer inner.recording).call ((), []) request).state.2,
        seen.caller = (a.resolver request.headers).caller := by
  intro h
  have hseen := h ⟨⟨[⟨⟨"*", .everything, by decide, rfl⟩, .permitAll⟩]⟩, .anonymous⟩
    ⟨fun _ => .ok (), fun _ _ => ⟨(), .ok { body := "" }, []⟩⟩
    { target := ⟨"/Simple/SayHello", none⟩, caller := some (.ofId "mallory"), extras := (),
      body := "" }
  have hcaller := hseen _ (List.mem_singleton.2 rfl)
  cases hcaller

end Authorization

end CallPolicy
