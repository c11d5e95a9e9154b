import CallPolicy.Proofs.Policy
import CallPolicy.Proofs.Segments

set_option autoImplicit false

/-! # Tables built by calls

A builder takes one rule with each call and looks at the patterns only when the table is built. So
a build is a function of the calls: it fails at the first empty text, warns about the texts in front
of that place that are no way to write a pattern (`RuleTable.exists_warned`), and otherwise keeps
every rule where it was added (`TableBuilder.build_freezes_calls`). -/

namespace CallPolicy

/-! ## Calls -/

namespace TableBuilder

/-- A call that adds a rule. -/
inductive Call where
  | add (method : String) (require : Requirement)
  | permitAll (method : String)
  | denyAll (method : String)
  | authenticated (method : String)
  | hasAuthority (method authority : String)
  | hasAnyAuthority (method : String) (authorities : List String)

/-- The rule that is called for. -/
def Call.rule : Call → Rule
  | .add method require => ⟨method, require⟩
  | .permitAll method => ⟨method, .permitAll⟩
  | .denyAll method => ⟨method, .denyAll⟩
  | .authenticated method => ⟨method, .authenticated⟩
  | .hasAuthority method authority => ⟨method, .hasAuthority authority⟩
  | .hasAnyAuthority method authorities => ⟨method, .hasAnyAuthority authorities⟩

/-- The builder after a call. -/
def apply (b : TableBuilder) : Call → TableBuilder
  | .add method require => b.add method require
  | .permitAll method => b.permitAll method
  | .denyAll method => b.denyAll method
  | .authenticated method => b.authenticated method
  | .hasAuthority method authority => b.hasAuthority method authority
  | .hasAnyAuthority method authorities => b.hasAnyAuthority method authorities

/-- A new builder after calls in order. -/
def ofCalls (calls : List Call) : TableBuilder := calls.foldl apply {}

/-- Each call puts its rule behind those already there. -/
theorem rules_apply (b : TableBuilder) (call : Call) :
    (b.apply call).rules = b.rules ++ [call.rule] := by
  cases call <;> rfl

theorem rules_foldl_apply (b : TableBuilder) (calls : List Call) :
    (calls.foldl apply b).rules = b.rules ++ calls.map Call.rule := by
  induction calls generalizing b with
  | nil => simp
  | cons call rest ih =>
    rw [List.foldl_cons, ih, rules_apply, List.append_assoc, List.map_cons, List.singleton_append]

theorem rules_ofCalls (calls : List Call) : (ofCalls calls).rules = calls.map Call.rule := by
  rw [ofCalls, rules_foldl_apply, List.nil_append]

end TableBuilder

/-! ## Texts that are no way to write a pattern -/

/-- The text is not `*`, names no service in the dotted spelling, and does not hold one slash. -/
structure Unmatchable (text : String) : Prop where
  not_star : text ≠ "*"
  not_dotted : ∀ service, service ≠ "" → '/' ∉ service.toList → text ≠ service ++ ".*"
  not_one_slash : text.toList.count '/' ≠ 1

/-- A text with one slash has a half on each side of it. -/
theorem exists_halves {text : String} (h : text.toList.count '/' = 1) :
    ∃ a b, text = a ++ "/" ++ b ∧ '/' ∉ a.toList ∧ '/' ∉ b.toList := by
  have hmem : '/' ∈ text.toList := List.count_pos_iff.1 (by omega)
  obtain ⟨a, b, htext, ha⟩ := List.eq_append_cons_of_mem hmem
  have hb : '/' ∉ b := by
    rw [htext, List.count_append, List.count_cons_self, List.count_eq_zero.2 ha] at h
    exact List.count_eq_zero.1 (by omega)
  exact ⟨String.ofList a, String.ofList b, Denotes.text_eq htext, by simpa, by simpa⟩

/-- The texts that are read as a pattern of nothing, said of the texts alone. -/
theorem Form.ofText_eq_nothing_iff_unmatchable {text : String} :
    Form.ofText text.toList = .nothing ↔ Unmatchable text := by
  rw [← not_iff_not, ← ne_eq, Form.ofText_ne_nothing_iff]
  constructor
  · rintro (rfl | ⟨a, b, hsegments⟩) hnone
    · exact hnone.not_star rfl
    · cases hsegments with
      | slash ha hb => exact hnone.not_one_slash (count_slash_halves ha hb)
      | dotted hne hs => exact hnone.not_dotted _ hne hs rfl
  · intro hsome
    by_contra hnone
    rw [not_or, not_exists] at hnone
    refine hsome ⟨hnone.1, fun service hne hs htext => ?_, fun hone => ?_⟩
    · exact hnone.2 service ⟨"*", htext ▸ .dotted hne hs⟩
    · obtain ⟨a, b, rfl, ha, hb⟩ := exists_halves hone
      exact hnone.2 a ⟨b, .slash ha hb⟩

/-! ## What a build reports -/

namespace RuleTable

/-- A build reads up to the first rule without a pattern. -/
theorem readable_getElem?_eq_some_iff {rules : List Rule} {i : Nat} {rule : Rule} :
    (readable rules)[i]? = some rule ↔ rules[i]? = some rule ∧
      ∀ j ≤ i, ∀ earlier, rules[j]? = some earlier → earlier.method ≠ "" := by
  induction rules generalizing i with
  | nil => simp [readable]
  | cons first rest ih =>
    by_cases hempty : first.method = ""
    · have hread : readable (first :: rest) = [] := by simp [readable, hempty]
      rw [hread]
      constructor
      · intro h
        simp at h
      · rintro ⟨-, hbefore⟩
        exact absurd hempty (hbefore 0 (Nat.zero_le i) first rfl)
    · have hread : readable (first :: rest) = first :: readable rest := by simp [readable, hempty]
      rw [hread]
      cases i with
      | zero =>
        simp only [List.getElem?_cons_zero, Nat.le_zero]
        constructor
        · rintro h
          refine ⟨h, ?_⟩
          rintro _ rfl earlier hearlier
          obtain rfl : first = earlier := by simpa using hearlier
          exact hempty
        · exact fun h => h.1
      | succ i =>
        rw [List.getElem?_cons_succ, List.getElem?_cons_succ, ih]
        refine and_congr_right fun _ => ⟨fun hbefore j hj earlier hearlier => ?_,
          fun hbefore j hj earlier hearlier => ?_⟩
        · cases j with
          | zero =>
            obtain rfl : first = earlier := by simpa using hearlier
            exact hempty
          | succ j => exact hbefore j (by omega) earlier (by simpa using hearlier)
        · exact hbefore (j + 1) (by omega) earlier (by simpa using hearlier)

/-- The warnings of a build, in order: index and text of each rule that is read and whose text is no
    way to write a pattern. -/
theorem exists_warned (rules : List Rule) : ∃ warned : List (Nat × String),
    (build rules).2 = warned.map (fun w => .ruleNeverMatches w.1 w.2) ∧
    warned.Pairwise (fun w v => w.1 < v.1) ∧
    ∀ i text, (i, text) ∈ warned ↔ ∃ rule, (readable rules)[i]? = some rule ∧
      rule.method = text ∧ Unmatchable text := by
  classical
  let found : Rule × Nat → Option (Nat × String) := fun r =>
    if Unmatchable r.1.method then some (r.2, r.1.method) else none
  refine ⟨(readable rules).zipIdx.filterMap found, ?_, ?_, fun i text => ?_⟩
  · show (readFrom 0 rules).2 = _
    rw [readFrom_events, List.map_filterMap]
    congr
    funext r
    by_cases h : Unmatchable r.1.method
    · simp [warning?, found, h, Form.ofText_eq_nothing_iff_unmatchable]
    · simp [warning?, found, h, Form.ofText_eq_nothing_iff_unmatchable]
  · -- the indices count up, and no warning changes the one that it is found at
    have hindices : (readable rules).zipIdx.Pairwise fun r s => r.2 < s.2 := by
      rw [← List.pairwise_map, List.zipIdx_map_snd]
      exact List.pairwise_lt_range' 1
    refine hindices.filterMap found fun r s hlt w hw v hv => ?_
    cases (Option.ite_none_right_eq_some.1 hw).2
    cases (Option.ite_none_right_eq_some.1 hv).2
    exact hlt
  · rw [List.mem_filterMap]
    constructor
    · rintro ⟨⟨rule, j⟩, hread, hfound⟩
      obtain ⟨hnone, heq⟩ := Option.ite_none_right_eq_some.1 hfound
      cases heq
      exact ⟨rule, List.mem_zipIdx_iff_getElem?.1 hread, rfl, hnone⟩
    · rintro ⟨rule, hread, rfl, hnone⟩
      exact ⟨(rule, i), List.mem_zipIdx_iff_getElem?.2 hread, if_pos hnone⟩

end RuleTable

/-! ## Builds -/

namespace TableBuilder

/-- **Builds of calls.** A build succeeds iff no call gave an empty text. The table then holds one
    rule for each call, in order, with the text and the requirement of the call; otherwise the error
    names the first call with an empty text. In both cases the warnings name, in order and once
    each, the calls in front of the first empty text whose text is no way to write a pattern. -/
theorem build_freezes_calls (calls : List Call) :
    ((∃ t, (ofCalls calls).build.1 = .ok t) ↔ ∀ call ∈ calls, call.rule.method ≠ "") ∧
    (∀ t, (ofCalls calls).build.1 = .ok t ↔ t.toRules = calls.map Call.rule) ∧
    (∀ e, (ofCalls calls).build.1 = .error e ↔
      ∃ call, FirstAt (fun c => c.rule.method = "") calls e.index call) ∧
    ∃ warned : List (Nat × String),
      (ofCalls calls).build.2 = warned.map (fun w => .ruleNeverMatches w.1 w.2) ∧
      warned.Pairwise (fun w v => w.1 < v.1) ∧
      ∀ i text, (i, text) ∈ warned ↔ ∃ call, calls[i]? = some call ∧ call.rule.method = text ∧
        (∀ j ≤ i, ∀ earlier, calls[j]? = some earlier → earlier.rule.method ≠ "") ∧
        Unmatchable text := by
  simp only [build, rules_ofCalls]
  refine ⟨?_, fun t => RuleTable.build_eq_ok_iff, fun e => ?_, ?_⟩
  · rw [RuleTable.exists_build_eq_ok_iff, List.forall_mem_map]
  · rw [RuleTable.build_eq_error_iff]
    simp only [firstAt_map_iff]
    constructor
    · rintro ⟨_, call, -, hfirst⟩
      exact ⟨call, hfirst⟩
    · rintro ⟨call, hfirst⟩
      exact ⟨_, call, rfl, hfirst⟩
  · obtain ⟨warned, hevents, horder, hwarned⟩ := RuleTable.exists_warned (calls.map Call.rule)
    refine ⟨warned, hevents, horder, fun i text => ?_⟩
    rw [hwarned]
    simp only [RuleTable.readable_getElem?_eq_some_iff, List.getElem?_map, Option.map_eq_some_iff]
    constructor
    · rintro ⟨_, ⟨⟨call, hcall, rfl⟩, hbefore⟩, htext, hnone⟩
      refine ⟨call, hcall, htext, fun j hj earlier hearlier => ?_, hnone⟩
      exact hbefore j hj _ ⟨earlier, hearlier, rfl⟩
    · rintro ⟨call, hcall, htext, hbefore, hnone⟩
      refine ⟨call.rule, ⟨⟨call, hcall, rfl⟩, ?_⟩, htext, hnone⟩
      rintro j hj _ ⟨earlier, hearlier, rfl⟩
      exact hbefore j hj earlier hearlier

example : (ofCalls [.permitAll "a.*", .denyAll "a/b/c", .authenticated "", .permitAll "b"]).build =
    (.error ⟨2⟩, [.ruleNeverMatches 1 "a/b/c"]) := rfl

end TableBuilder

end CallPolicy
