import CallPolicy.Proofs.Classifiers
import CallPolicy.Proofs.Policy

set_option autoImplicit false

/-! # Edits of a policy

What happens to the decisions when a rule is put into a list of rules. The search stops in front of
the new rule, at the new rule or behind it (`RuleTable.deciding_insertAt`); only where it stops at the
new rule is the decision the new rule's, everywhere else it is the one from before. -/

namespace CallPolicy

/-! ## Edits of the builder -/

namespace TableBuilder

/-- Puts a rule at position `k`; the rules from there on come behind it. -/
def insertAt (b : TableBuilder) (k : Nat) (method : String) (require : Requirement) :
    TableBuilder :=
  ⟨b.rules.take k ++ ⟨method, require⟩ :: b.rules.drop k⟩

/-- Adds several rules, one after the other. -/
def addAll (b : TableBuilder) (rules : List Rule) : TableBuilder :=
  rules.foldl (fun b rule => b.add rule.method rule.require) b

theorem rules_addAll (b : TableBuilder) (rules : List Rule) :
    (b.addAll rules).rules = b.rules ++ rules :=
  congrArg TableBuilder.rules (Policy.foldl_add b rules)

/-- A rule that is added stands behind all others. -/
theorem add_eq_insertAt (b : TableBuilder) (method : String) (require : Requirement) :
    b.add method require = b.insertAt b.rules.length method require := by
  simp [add, insertAt]

end TableBuilder

/-! ## Edits of a table -/

namespace RuleTable

/-- Puts a rule at position `k`; the rules from there on come behind it. -/
def insertAt (t : RuleTable) (k : Nat) (r : TableRule) : RuleTable :=
  ⟨t.rules.take k ++ r :: t.rules.drop k⟩

/-- The table of edited rules is the edited table. -/
theorem build_insertAt {b : TableBuilder} {t : RuleTable} (h : b.build.1 = .ok t) (k : Nat)
    (p : Pattern) (require : Requirement) :
    (b.insertAt k p.text require).build.1 = .ok (t.insertAt k ⟨p, require⟩) := by
  refine build_eq_ok_iff.2 ?_
  have hrules : t.toRules = b.rules := toRules_of_build h
  simp only [toRules, insertAt, TableBuilder.insertAt, ← hrules, List.map_append, List.map_cons,
    List.map_take, List.map_drop, TableRule.toRule]

/-- Where the search through the edited table stops: in front of the new rule, at it, or behind it
    at a rule that has moved by one. -/
theorem deciding_insertAt (t : RuleTable) (k : Nat) (r : TableRule) (method : String) :
    (t.insertAt k r).deciding method =
      (decidingFrom 0 method (t.rules.take k)).or
        (if r.pattern.selects method then some ((t.rules.take k).length, r)
        else (decidingFrom (t.rules.take k).length method (t.rules.drop k)).map
          fun (i, q) => (i + 1, q)) := by
  rw [deciding, insertAt, decidingFrom_append, decidingFrom, decidingFrom_add, Nat.zero_add]

/-- The same search before the edit. -/
theorem deciding_eq_or (t : RuleTable) (k : Nat) (method : String) :
    t.deciding method = (decidingFrom 0 method (t.rules.take k)).or
      (decidingFrom (t.rules.take k).length method (t.rules.drop k)) := by
  have happend := decidingFrom_append 0 method (t.rules.take k) (t.rules.drop k)
  rwa [List.take_append_drop, Nat.zero_add] at happend

/-- The new rule decides what it selects and no rule in front of it does. -/
theorem decision_insertAt (t : RuleTable) (k : Nat) (r : TableRule) (method : String)
    (caller : Option Principal) :
    (t.insertAt k r).decision method caller =
      if r.pattern.selects method = true ∧ ∀ q ∈ t.rules.take k, q.pattern.selects method = false
      then r.require.decision caller
      else t.decision method caller := by
  rw [decision_eq_getD, decision_eq_getD, deciding_insertAt, t.deciding_eq_or k method]
  cases hfront : decidingFrom 0 method (t.rules.take k) with
  | some found =>
    -- a rule in front decides, before and after
    have hselected : ¬ ∀ q ∈ t.rules.take k, q.pattern.selects method = false := fun hnone => by
      rw [decidingFrom_eq_none_iff.2 hnone] at hfront
      cases hfront
    simp [hselected]
  | none =>
    have hpassed := decidingFrom_eq_none_iff.1 hfront
    by_cases hr : r.pattern.selects method = true
    · rw [if_pos hr, if_pos ⟨hr, hpassed⟩]
      rfl
    · rw [if_neg hr, if_neg fun h => hr h.1, Option.none_or, Option.none_or, Option.map_map]
      rfl

/-- A rule whose pattern cannot match makes no difference, wherever it is put. -/
theorem decision_insertAt_of_not_canMatch (t : RuleTable) (k : Nat) {r : TableRule}
    (h : r.pattern.canMatch = false) (method : String) (caller : Option Principal) :
    (t.insertAt k r).decision method caller = t.decision method caller := by
  rw [decision_insertAt, if_neg]
  rintro ⟨hselects, -⟩
  rw [Pattern.canMatch_of_selects hselects] at h
  cases h

/-- A refusal behind all rules makes no difference: what gets there is refused anyway. -/
theorem decision_insertAt_denyAll (t : RuleTable) (p : Pattern) (method : String)
    (caller : Option Principal) :
    (t.insertAt t.rules.length ⟨p, .denyAll⟩).decision method caller =
      t.decision method caller := by
  rw [decision_insertAt, List.take_length]
  split
  · rename_i hreached
    rw [decision_eq_getD, deciding_eq_none_iff.2 hreached.2]
    rfl
  · rfl

/-- Rules behind the one that decides change nothing about the verdict. -/
theorem verdict_append {t : RuleTable} {method : String} (h : t.deciding method ≠ none)
    (more : List TableRule) (caller : Option Principal) :
    (RuleTable.mk (t.rules ++ more)).verdict method caller = t.verdict method caller := by
  obtain ⟨found, hfound⟩ := Option.ne_none_iff_exists'.1 h
  have hsame : (RuleTable.mk (t.rules ++ more)).deciding method = t.deciding method := by
    rw [deciding, decidingFrom_append, ← deciding, hfound, Option.some_or]
  rw [verdict, hsame, verdict]

end RuleTable

/-- **Effect of an edit.** A rule with a pattern can be put at any position of rules that build. It
    decides the calls of the methods that its pattern selects and no rule in front of it does; all
    other calls are decided as before. So rules behind the others leave the verdict on every method
    that was selected before as it was, a pattern that cannot match changes no decision wherever it
    is put, and neither does a refusal of whatever pattern behind all rules. -/
theorem TableBuilder.edit_effect {b : TableBuilder} {t : RuleTable} (h : b.build.1 = .ok t) :
    (∀ k text require, text ≠ "" → ∃ p u, Pattern.ofText? text = some p ∧
      (b.insertAt k text require).build.1 = .ok u ∧ ∀ method caller,
        u.decision method caller =
          if p.selects method = true ∧ ∀ q ∈ t.rules.take k, q.pattern.selects method = false
          then require.decision caller
          else t.decision method caller) ∧
    (∀ more : List Rule, (∀ rule ∈ more, rule.method ≠ "") →
      ∃ u, (b.addAll more).build.1 = .ok u ∧ ∀ method, t.deciding method ≠ none →
        ∀ caller, u.verdict method caller = t.verdict method caller) ∧
    (∀ k text require p, Pattern.ofText? text = some p → p.canMatch = false →
      ∃ u, (b.insertAt k text require).build.1 = .ok u ∧
        ∀ method caller, u.decision method caller = t.decision method caller) ∧
    ∀ text, text ≠ "" → ∃ u, (b.denyAll text).build.1 = .ok u ∧
      ∀ method caller, u.decision method caller = t.decision method caller := by
  refine ⟨fun k text require hne => ?_, fun more hmore => ?_, fun k text require p hp hmatch => ?_,
    fun text hne => ?_⟩
  · let p : Pattern := ⟨text, _, hne, rfl⟩
    exact ⟨p, t.insertAt k ⟨p, require⟩, dif_neg hne, RuleTable.build_insertAt h k p require,
      t.decision_insertAt k ⟨p, require⟩⟩
  · obtain ⟨tail, rfl⟩ := RuleTable.exists_toRules hmore
    refine ⟨⟨t.rules ++ tail.rules⟩, RuleTable.build_eq_ok_iff.2 ?_,
      fun method hmatched => RuleTable.verdict_append hmatched tail.rules⟩
    rw [rules_addAll, ← RuleTable.toRules_of_build h]
    exact List.map_append
  · obtain rfl := Pattern.text_of_ofText? hp
    exact ⟨t.insertAt k ⟨p, require⟩, RuleTable.build_insertAt h k p require,
      t.decision_insertAt_of_not_canMatch k hmatch⟩
  · let p : Pattern := ⟨text, _, hne, rfl⟩
    have hlength : t.rules.length = b.rules.length := by
      rw [← RuleTable.toRules_of_build h, RuleTable.toRules, List.length_map]
    refine ⟨t.insertAt t.rules.length ⟨p, .denyAll⟩, ?_, t.decision_insertAt_denyAll p⟩
    rw [denyAll, add_eq_insertAt, ← hlength]
    exact RuleTable.build_insertAt h _ p .denyAll

/-- The same rule closes a method when it is put in front, and changes nothing behind the rule for
    this method. A rule for all calls at the end leaves the methods with a rule alone; a text with
    two slashes in front and a refusal at the end change no decision. -/
theorem TableBuilder.edit_in_front_and_behind :
    let b : TableBuilder := ⟨[⟨"Simple/*", .authenticated⟩, ⟨"Health/Check", .permitAll⟩]⟩
    ∃ t, b.build.1 = .ok t ∧ t.decision "Health/Check" none = .allow ∧
      (∃ u, (b.insertAt 1 "*/Check" .denyAll).build.1 = .ok u ∧
        u.decision "Health/Check" none = .deny) ∧
      (∃ u, (b.insertAt 2 "*/Check" .denyAll).build.1 = .ok u ∧
        u.decision "Health/Check" none = .allow) ∧
      (∃ u, (b.addAll [⟨"*", .permitAll⟩]).build.1 = .ok u ∧
        ∀ caller, u.verdict "Simple/SayHello" caller = t.verdict "Simple/SayHello" caller) ∧
      (∃ u, (b.insertAt 0 "a/b/c" .permitAll).build.1 = .ok u ∧
        ∀ method caller, u.decision method caller = t.decision method caller) ∧
      ∃ u, (b.denyAll "*").build.1 = .ok u ∧
        ∀ method caller, u.decision method caller = t.decision method caller := by
  intro b
  let t : RuleTable := ⟨[⟨⟨"Simple/*", _, by decide, rfl⟩, .authenticated⟩,
    ⟨⟨"Health/Check", _, by decide, rfl⟩, .permitAll⟩]⟩
  have hbuild : b.build.1 = .ok t := RuleTable.build_eq_ok_iff.2 rfl
  obtain ⟨hinsert, happend, hunmatchable, hdeny⟩ := edit_effect hbuild
  refine ⟨t, hbuild, by decide, ?_, ?_, ?_, ?_, hdeny "*" (by decide)⟩
  · obtain ⟨p, u, hp, hu, hdecision⟩ := hinsert 1 "*/Check" .denyAll (by decide)
    obtain rfl : ⟨"*/Check", _, by decide, rfl⟩ = p := Option.some.inj hp
    exact ⟨u, hu, (hdecision "Health/Check" none).trans (by decide)⟩
  · obtain ⟨p, u, hp, hu, hdecision⟩ := hinsert 2 "*/Check" .denyAll (by decide)
    obtain rfl : ⟨"*/Check", _, by decide, rfl⟩ = p := Option.some.inj hp
    exact ⟨u, hu, (hdecision "Health/Check" none).trans (by decide)⟩
  · obtain ⟨u, hu, hsame⟩ := happend [⟨"*", .permitAll⟩] (by decide)
    exact ⟨u, hu, hsame "Simple/SayHello" (by decide)⟩
  · exact hunmatchable 0 "a/b/c" .permitAll ⟨"a/b/c", _, by decide, rfl⟩ rfl (by decide)

end CallPolicy
