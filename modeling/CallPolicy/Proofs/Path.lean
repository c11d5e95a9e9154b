import CallPolicy.Proofs.Authorization
import CallPolicy.Proofs.Rule
import CallPolicy.Proofs.Segments

set_option autoImplicit false

/-! # Malformed paths

A path names a method by what is left of it without one leading slash. Only what holds exactly one
slash is a method; anything else is denoted by the pattern `*` alone
(`Denotes.eq_star_or_one_slash`), so no rule but the first of that text can decide a call with such
a path. -/

namespace CallPolicy

/-! ## Malformed paths -/

/-- Without one leading slash, if it has any, the path does not hold exactly one slash. -/
def MalformedPath (path : String) : Prop :=
  ∃ method : String, (path = "/" ++ method ∨ path = method ∧ path.toList.head? ≠ some '/') ∧
    method.toList.count '/' ≠ 1

theorem malformedPath_iff {path : String} :
    MalformedPath path ↔ (methodOfPath path).toList.count '/' ≠ 1 := by
  simp only [MalformedPath, ← methodOfPath_eq_iff]
  simp

instance (path : String) : Decidable (MalformedPath path) :=
  decidable_of_iff _ malformedPath_iff.symm

example : ∀ path ∈ ["//S/M", "/S/M/", "/S//M", "/S", "/", ""], MalformedPath path := by decide

/-! ## What decides a malformed method -/

namespace RuleTable

/-- The rule is written `*`. -/
def IsStar (r : TableRule) : Prop := r.pattern.text = "*"

/-- A malformed method is decided by the first rule that is written `*`. -/
theorem deciding_malformed_iff {t : RuleTable} {method : String} (h : method.toList.count '/' ≠ 1)
    {i : Nat} {r : TableRule} :
    t.deciding method = some (i, r) ↔ FirstAt IsStar t.rules i r := by
  simp only [deciding_eq_some_iff_denotes, denotes_iff_eq_star h]
  rfl

theorem verdict_malformed_of_firstAt {t : RuleTable} {method : String}
    (h : method.toList.count '/' ≠ 1) {i : Nat} {r : TableRule}
    (hfirst : FirstAt IsStar t.rules i r) (caller : Option Principal) :
    t.verdict method caller = ⟨r.require.decision caller, some (i, r)⟩ := by
  rw [verdict, (deciding_malformed_iff h).2 hfirst]

theorem verdict_malformed_of_no_star {t : RuleTable} {method : String}
    (h : method.toList.count '/' ≠ 1) (hnone : ∀ r ∈ t.rules, ¬ IsStar r)
    (caller : Option Principal) : t.verdict method caller = ⟨.deny, none⟩ := by
  have hdeciding : t.deciding method = none := by
    simp only [deciding_eq_none_iff_denotes, denotes_iff_eq_star h]
    exact hnone
  rw [verdict, hdeciding]

end RuleTable

namespace Authorization

variable {σ α β γ ε : Type} [Inhabited γ]

/-- What the service behind the layer is called with. -/
theorem seen_call_layer (a : Authorization) (inner : Service σ (Request α β) ε (Response γ))
    (state : σ) (request : Request α β) :
    ((a.layer inner.recording).call (state, []) request).state.2 =
      if (a.verdict request (a.resolver request.headers).caller).decision = .allow then
        [a.forward request]
      else [] := by
  show (a.call inner.recording (state, []) request).state.2 = _
  split
  · rename_i hallow
    rw [call_of_allows (allows_iff.2 hallow)]
    rfl
  · rename_i hrefuse
    rw [call_of_refuses (by rwa [← Bool.not_eq_true, allows_iff])]

/-- **Malformed paths are left to `*`.** A request reaches the service iff the verdict lets it
    through. With a malformed path no rule decides but the first that is written `*`: the verdict is
    what this rule requires, and a refusal where there is no such rule. The verdict on
    `/service/method` is the one that the table gives on `service/method`. -/
theorem malformed_path_decided_by_star (a : Authorization)
    (inner : Service σ (Request α β) ε (Response γ)) (state : σ) (request : Request α β) :
    let caller := (a.resolver request.headers).caller
    let verdict := a.verdict request caller
    ((a.layer inner.recording).call (state, []) request).state.2 =
      (if verdict.decision = .allow then [a.forward request] else []) ∧
    (MalformedPath request.target.path →
      (∀ i r, verdict.deciding = some (i, r) ↔ FirstAt RuleTable.IsStar a.table.rules i r) ∧
      (∀ i r, FirstAt RuleTable.IsStar a.table.rules i r →
        verdict = ⟨r.require.decision caller, some (i, r)⟩) ∧
      ((∀ r ∈ a.table.rules, ¬ RuleTable.IsStar r) → verdict = ⟨.deny, none⟩)) ∧
    ∀ service method, request.target.path = "/" ++ service ++ "/" ++ method →
      verdict = a.table.verdict (service ++ "/" ++ method) caller := by
  intro caller verdict
  refine ⟨seen_call_layer a inner state request, fun hmalformed => ?_,
    fun service method hpath => ?_⟩
  · have hslashes := malformedPath_iff.1 hmalformed
    refine ⟨fun i r => ?_,
      fun i r hfirst => RuleTable.verdict_malformed_of_firstAt hslashes hfirst caller,
      fun hnone => RuleTable.verdict_malformed_of_no_star hslashes hnone caller⟩
    rw [← RuleTable.deciding_malformed_iff hslashes, ← RuleTable.verdict_deciding a.table _ caller]
    rfl
  · have hmethod : methodOfPath request.target.path = service ++ "/" ++ method :=
      methodOfPath_eq_iff.2 (.inl (by rw [hpath, String.append_assoc, String.append_assoc,
        String.append_assoc]))
    show a.table.verdict (methodOfPath request.target.path) caller = _
    rw [hmethod]

/-- A slash too many leads past a rule for all methods to the rule for all calls. -/
theorem doubled_slash_left_to_star :
    ∃ methods calls : TableRule,
      methods.toRule = ⟨"*/*", .permitAll⟩ ∧ calls.toRule = ⟨"*", .authenticated⟩ ∧
      let request (path : String) : Request Unit Unit :=
        { target := ⟨path, none⟩, headers := .ofList [], extras := (), body := () }
      MalformedPath "//S/M" ∧
      Authorization.verdict ⟨⟨[methods, calls]⟩, .anonymous⟩ (request "//S/M") none =
        ⟨.deny, some (1, calls)⟩ ∧
      Authorization.verdict ⟨⟨[methods]⟩, .anonymous⟩ (request "//S/M") none = ⟨.deny, none⟩ ∧
      Authorization.verdict ⟨⟨[methods, calls]⟩, .anonymous⟩ (request "/S/M") none =
        RuleTable.verdict ⟨[methods, calls]⟩ "S/M" none := by
  let methods : TableRule := ⟨⟨"*/*", .qualified .any .any, by decide, by decide⟩, .permitAll⟩
  let calls : TableRule := ⟨⟨"*", .everything, by decide, rfl⟩, .authenticated⟩
  let inner : Service Unit (Request Unit Unit) Empty (Response Unit) :=
    ⟨fun _ => .ok (), fun _ _ => ⟨(), .ok { body := () }, []⟩⟩
  have hmalformed : MalformedPath "//S/M" := by decide
  have hcalls : RuleTable.IsStar calls := rfl
  have hmethods : ¬ RuleTable.IsStar methods := by
    show ¬ "*/*" = "*"
    decide
  have hfirst : FirstAt RuleTable.IsStar [methods, calls] 1 calls :=
    (firstAt_cons_of_neg hmethods).2 ⟨0, rfl, (firstAt_cons_of_pos hcalls).2 ⟨rfl, rfl⟩⟩
  refine ⟨methods, calls, rfl, rfl, hmalformed, ?_, ?_, ?_⟩
  · exact ((malformed_path_decided_by_star ⟨⟨[methods, calls]⟩, .anonymous⟩ inner () _).2.1
      hmalformed).2.1 1 _ hfirst
  · exact ((malformed_path_decided_by_star ⟨⟨[methods]⟩, .anonymous⟩ inner () _).2.1
      hmalformed).2.2 fun r hr => List.mem_singleton.1 hr ▸ hmethods
  · exact (malformed_path_decided_by_star ⟨⟨[methods, calls]⟩, .anonymous⟩ inner () _).2.2
      "S" "M" rfl

end Authorization

end CallPolicy
