import CallPolicy.Config.Load
import CallPolicy.Proofs.Rule

set_option autoImplicit false

/-! # Ways to a rule table

A policy becomes a table in one walk over its rules (`Policy.table`) and is checked in another
(`Policy.validate`); a YAML text is read as a table right away (`RuleTable.ofYaml`) or as a policy
that is checked and made into a table later (`Policy.ofYaml`). Both walks stop at the first rule
without a pattern (`Policy.table_eq_error_iff`, `Policy.validate_eq_error_iff`), so all of these
accept the same rules and blame the same one. -/

namespace CallPolicy

/-! ## The two walks -/

/-- Is the rule written without a pattern? -/
def Rule.LacksPattern (r : Rule) : Prop := r.method = ""

/-- Reading the patterns from index `n` on fails at the first rule without one. -/
theorem RuleTable.readFrom_eq_error_iff {n : Nat} {rules : List Rule} {e : EmptyPattern} :
    (readFrom n rules).1 = .error e ↔
      ∃ k rule, e.index = n + k ∧ FirstAt Rule.LacksPattern rules k rule := by
  induction rules generalizing n with
  | nil => simp [readFrom, not_firstAt_nil]
  | cons rule rest ih =>
    cases hpattern : Pattern.ofText? rule.method with
    | none =>
      have hempty : rule.LacksPattern := (Pattern.ofText?_eq_none_iff _).1 hpattern
      obtain ⟨index⟩ := e
      rw [readFrom, hpattern]
      simp only [firstAt_cons_of_pos hempty, Except.error.injEq, EmptyPattern.mk.injEq]
      constructor
      · rintro rfl
        exact ⟨0, rule, rfl, rfl, rfl⟩
      · rintro ⟨_, _, rfl, rfl, -⟩
        rfl
    | some pattern =>
      have hempty : ¬ rule.LacksPattern := fun h => by
        rw [(Pattern.ofText?_eq_none_iff _).2 h] at hpattern
        cases hpattern
      -- the rest is read from `n + 1` on, and each of its rules stands one further behind
      rw [readFrom_cons_of_some hpattern, map_eq_error_iff, ih]
      constructor
      · rintro ⟨k, r, hindex, hfirst⟩
        exact ⟨k + 1, r, by omega, (firstAt_cons_of_neg hempty).2 ⟨k, rfl, hfirst⟩⟩
      · rintro ⟨_, r, hindex, hfirst⟩
        obtain ⟨k, rfl, hrest⟩ := (firstAt_cons_of_neg hempty).1 hfirst
        exact ⟨k, r, by omega, hrest⟩

/-- A build fails at the first rule without a pattern. -/
theorem RuleTable.build_eq_error_iff {rules : List Rule} {e : EmptyPattern} :
    (build rules).1 = .error e ↔ ∃ rule, FirstAt Rule.LacksPattern rules e.index rule := by
  rw [build, map_eq_error_iff, readFrom_eq_error_iff]
  constructor
  · rintro ⟨k, rule, hindex, hfirst⟩
    obtain rfl : e.index = k := by omega
    exact ⟨rule, hfirst⟩
  · rintro ⟨rule, hfirst⟩
    exact ⟨e.index, rule, by omega, hfirst⟩

namespace Policy

/-- Adding the rules of a list one by one leaves them in order behind those already there. -/
theorem foldl_add (b : TableBuilder) (rules : List Rule) :
    rules.foldl (fun b r => b.add r.method r.require) b = ⟨b.rules ++ rules⟩ := by
  induction rules generalizing b with
  | nil => simp
  | cons rule rest ih =>
    rw [List.foldl_cons, ih, TableBuilder.add, List.append_assoc, List.singleton_append]

theorem table_eq_build (p : Policy) : p.table = RuleTable.build p.rules := by
  rw [table, foldl_add, TableBuilder.build, List.nil_append]

theorem table_eq_error_iff {p : Policy} {e : EmptyPattern} :
    p.table.1 = .error e ↔ ∃ rule, FirstAt Rule.LacksPattern p.rules e.index rule := by
  rw [table_eq_build, RuleTable.build_eq_error_iff]

theorem validate_eq_error_iff {p : Policy} {e : EmptyPattern} :
    p.validate = .error e ↔ ∃ rule, FirstAt Rule.LacksPattern p.rules e.index rule := by
  have hsearch : p.rules.findIdx? (·.method == "") = some e.index ↔
      ∃ rule, FirstAt Rule.LacksPattern p.rules e.index rule := by
    simp only [findIdx?_eq_some_iff_firstAt, beq_iff_eq]
    rfl
  rw [← hsearch]
  unfold validate
  split
  · rename_i index hindex
    obtain ⟨blamed⟩ := e
    simp [hindex]
  · rename_i hnone
    simp [hnone]

theorem validate_eq_map_table (p : Policy) : p.validate = p.table.1.map fun _ => () := by
  cases htable : p.table.1 with
  | error e => exact validate_eq_error_iff.2 (table_eq_error_iff.1 htable)
  | ok t =>
    cases hcheck : p.validate with
    | error e =>
      -- what the check blames, the table would blame as well
      rw [table_eq_error_iff.2 (validate_eq_error_iff.1 hcheck)] at htable
      cases htable
    | ok u => rfl

theorem validate_eq_ok_iff {p : Policy} : p.validate = .ok () ↔ ∃ t, p.table.1 = .ok t := by
  rw [validate_eq_map_table]
  cases p.table.1 <;> simp [Except.map]

/-- A policy passes the check iff no rule is written without a pattern. -/
theorem validate_eq_ok_iff_methods {p : Policy} :
    p.validate = .ok () ↔ ∀ r ∈ p.rules, r.method ≠ "" := by
  rw [validate_eq_ok_iff, table_eq_build, RuleTable.exists_build_eq_ok_iff]

theorem toRules_of_table {p : Policy} {t : RuleTable} (h : p.table.1 = .ok t) :
    t.toRules = p.rules := by
  rw [table_eq_build] at h
  exact RuleTable.toRules_of_build h

/-- The policy of the table that was made of it is the policy itself. -/
theorem ofTable_of_table {p : Policy} {t : RuleTable} (h : p.table.1 = .ok t) : ofTable t = p := by
  rw [ofTable, toRules_of_table h]

end Policy

namespace RuleTable

/-- A table is made again from the policy that was written for it. -/
theorem table_ofTable (t : RuleTable) : (Policy.ofTable t).table.1 = .ok t := by
  rw [Policy.table_eq_build, build_eq_ok_iff]
  rfl

theorem exists_events_ofTable (t : RuleTable) :
    ∃ events, (Policy.ofTable t).table = (.ok t, events) :=
  ⟨_, Prod.ext t.table_ofTable rfl⟩

end RuleTable

/-! ## Reading a text -/

namespace Policy

theorem checked_eq_ok_iff {p q : Policy} : p.checked = .ok q ↔ p.validate = .ok () ∧ p = q := by
  rw [checked, bind_eq_ok_iff]
  simp only [mapError_eq_ok_iff, pure, Except.pure, Except.ok.injEq]
  exact ⟨fun ⟨_, h⟩ => h, fun h => ⟨(), h⟩⟩

theorem checked_of_error {p : Policy} {e : EmptyPattern} (h : p.validate = .error e) :
    p.checked = .error (.emptyPattern e) := by
  rw [checked, h]
  rfl

/-- A policy is loaded from a text iff the text decodes to it and it passes the check. -/
theorem ofYaml_eq_ok_iff {text : String} {p : Policy} :
    ofYaml text = .ok p ↔ decodeYaml Policy.read text = .ok p ∧ p.validate = .ok () := by
  simp only [ofYaml, loadText, bind_eq_ok_iff, mapError_eq_ok_iff, checked_eq_ok_iff]
  constructor
  · rintro ⟨q, hdecode, hcheck, rfl⟩
    exact ⟨hdecode, hcheck⟩
  · rintro ⟨hdecode, hcheck⟩
    exact ⟨p, hdecode, hcheck, rfl⟩

theorem ofYaml_of_error {text : String} {p : Policy} {e : EmptyPattern}
    (hdecode : decodeYaml Policy.read text = .ok p) (hcheck : p.validate = .error e) :
    ofYaml text = .error (.emptyPattern e) := by
  rw [ofYaml, loadText, hdecode]
  exact checked_of_error hcheck

end Policy

namespace RuleTable

theorem ofPolicy_eq_ok_iff {p : Policy} {t : RuleTable} {events : List Event} :
    ofPolicy p = .ok (t, events) ↔ p.table = (.ok t, events) := by
  unfold ofPolicy
  split
  · rename_i table reported htable
    simp [htable]
  · rename_i e reported htable
    simp [htable]

theorem ofPolicy_of_error {p : Policy} {e : EmptyPattern} (h : p.table.1 = .error e) :
    ofPolicy p = .error (.emptyPattern e) := by
  unfold ofPolicy
  split
  · rename_i table reported htable
    simp [htable] at h
  · rename_i blamed reported htable
    obtain rfl : blamed = e := by simpa [htable] using h
    rfl

/-- A table is read from a text iff the text decodes to a policy that can be made into it. -/
theorem ofYaml_eq_ok_iff {text : String} {t : RuleTable} {events : List Event} :
    ofYaml text = .ok (t, events) ↔
      ∃ p, decodeYaml Policy.read text = .ok p ∧ p.table = (.ok t, events) := by
  simp only [ofYaml, decodeYamlTo, mapError_eq_ok_iff, bind_eq_ok_iff, ofPolicy_eq_ok_iff]

theorem ofYaml_of_error {text : String} {p : Policy} {e : EmptyPattern}
    (hdecode : decodeYaml Policy.read text = .ok p) (htable : p.table.1 = .error e) :
    ofYaml text = .error (.here (.emptyPattern e)) := by
  rw [ofYaml, decodeYamlTo, hdecode]
  show (ofPolicy p).mapError DecodeError.here = _
  rw [ofPolicy_of_error htable]
  rfl

end RuleTable

/-- **One judgement on all ways.** A policy passes the check iff it can be made into a table, and
    otherwise both blame the first rule without a pattern; the table holds the rules of the policy
    in order. A text is read as a table iff it is loaded as a policy that is made into this table,
    with the same reports. Where the text decodes to a policy that does not pass the check, both
    ways fail with the error of the check, and say so in the same words. -/
theorem Policy.entry_points_agree :
    (∀ p : Policy,
      (p.validate = .ok () ↔ ∃ t, p.table.1 = .ok t) ∧
      (∀ e, p.validate = .error e ↔ p.table.1 = .error e) ∧
      (∀ e, p.validate = .error e ↔ ∃ rule, FirstAt Rule.LacksPattern p.rules e.index rule) ∧
      ∀ t, p.table.1 = .ok t → t.toRules = p.rules) ∧
    ∀ text : String,
      (∀ t events, RuleTable.ofYaml text = .ok (t, events) ↔
        ∃ p, Policy.ofYaml text = .ok p ∧ p.table = (.ok t, events)) ∧
      ∀ p e, decodeYaml Policy.read text = .ok p → p.validate = .error e →
        Policy.ofYaml text = .error (.emptyPattern e) ∧
        RuleTable.ofYaml text = .error (.here (.emptyPattern e)) ∧
        (DecodeError.here (.emptyPattern e)).message .yaml =
          (ConfigError.emptyPattern e).message := by
  refine ⟨fun p => ⟨validate_eq_ok_iff, fun e => ?_, fun e => validate_eq_error_iff,
    fun t => toRules_of_table⟩, fun text => ⟨fun t events => ?_, fun p e hdecode hcheck => ?_⟩⟩
  · rw [validate_eq_error_iff, table_eq_error_iff]
  · rw [RuleTable.ofYaml_eq_ok_iff]
    constructor
    · rintro ⟨p, hdecode, htable⟩
      have hcheck : p.validate = .ok () := validate_eq_ok_iff.2 ⟨t, by rw [htable]⟩
      exact ⟨p, ofYaml_eq_ok_iff.2 ⟨hdecode, hcheck⟩, htable⟩
    · rintro ⟨p, hload, htable⟩
      exact ⟨p, (ofYaml_eq_ok_iff.1 hload).1, htable⟩
  · have htable : p.table.1 = .error e := table_eq_error_iff.2 (validate_eq_error_iff.1 hcheck)
    exact ⟨ofYaml_of_error hdecode hcheck, RuleTable.ofYaml_of_error hdecode htable, rfl⟩

/-- A text whose second rule has no pattern is refused for that rule both ways, and a policy without
    such a rule becomes a table. -/
theorem Policy.second_rule_lacks_pattern :
    let text := "rules:\n  - method: Simple/SayHello\n    require: permit_all\n" ++
      "  - method: \"\"\n    require: permit_all\n"
    (Policy.ofYaml text = .error (.emptyPattern ⟨1⟩) ∧
      RuleTable.ofYaml text = .error (.here (.emptyPattern ⟨1⟩))) ∧
    ∃ t, (Policy.mk [⟨"Simple.*", .denyAll⟩]).table.1 = .ok t ∧
      t.toRules = [⟨"Simple.*", .denyAll⟩] := by
  intro text
  have hdecode : decodeYaml Policy.read text =
      .ok ⟨[⟨"Simple/SayHello", .permitAll⟩, ⟨"", .permitAll⟩]⟩ :=
    toOption_eq_some_iff.1 (by decide +kernel)
  have hfailed := (Policy.entry_points_agree.2 text).2 _ ⟨1⟩ hdecode rfl
  obtain ⟨t, ht⟩ : ∃ t, (Policy.mk [⟨"Simple.*", .denyAll⟩]).table.1 = .ok t := ⟨_, rfl⟩
  exact ⟨⟨hfailed.1, hfailed.2.1⟩, t, ht, (Policy.entry_points_agree.1 _).2.2.2 t ht⟩

end CallPolicy
