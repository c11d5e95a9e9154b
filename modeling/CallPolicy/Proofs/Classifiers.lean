import CallPolicy.Proofs.Rule
import CallPolicy.Proofs.Segments

set_option autoImplicit false

/-! # What the classifiers of patterns say

A pattern is classified by the form that its text is read into, before any method is known. The
classes speak of methods all the same: a pattern that can match selects the method that is made of
its own segments (`Segments.denotes_self`), and only the wildcard selects a malformed one. So the
warnings of a build are about exactly the rules that no call will ever meet. -/

namespace CallPolicy

/-! ## Classes and methods -/

/-- A text that is read as more than nothing denotes a well formed method. -/
theorem exists_denotes {text : String} (h : Form.ofText text.toList ≠ .nothing) :
    ∃ method : String, method.toList.count '/' = 1 ∧ Denotes text method := by
  rcases Form.ofText_ne_nothing_iff.1 h with rfl | ⟨a, b, hsegments⟩
  · exact ⟨"/", by decide, .everything "/"⟩
  · obtain ⟨ha, hb⟩ := hsegments.slash_not_mem
    exact ⟨a ++ "/" ++ b, count_slash_halves ha hb, hsegments.denotes_self⟩

theorem Form.ofText_eq_nothing_iff {text : String} :
    Form.ofText text.toList = .nothing ↔ ∀ method, ¬ Denotes text method := by
  constructor
  · intro h method hdenotes
    exact Form.ofText_ne_nothing_iff.2 hdenotes.eq_star_or_segments h
  · intro h
    by_contra hne
    obtain ⟨method, -, hdenotes⟩ := exists_denotes hne
    exact h method hdenotes

namespace Pattern

/-- A pattern that can match selects a well formed method. -/
theorem exists_selects_of_canMatch {p : Pattern} (h : p.canMatch = true) :
    ∃ method : String, method.toList.count '/' = 1 ∧ p.selects method = true := by
  rw [canMatch, p.form_eq, bne_iff_ne] at h
  simp only [p.selects_iff_denotes]
  exact exists_denotes h

theorem selects_of_isWildcard {p : Pattern} (h : p.isWildcard = true) (method : String) :
    p.selects method = true := by
  rw [p.selects_iff_denotes, isWildcard_iff.1 h]
  exact .everything method

/-- A pattern that selects a malformed method is the wildcard. -/
theorem isWildcard_of_selects {p : Pattern} {method : String} (hslash : method.toList.count '/' ≠ 1)
    (h : p.selects method = true) : p.isWildcard = true :=
  isWildcard_iff.2 ((denotes_iff_eq_star hslash).1 ((p.selects_iff_denotes method).1 h))

theorem canMatch_iff_exists_well_formed {p : Pattern} : p.canMatch = true ↔
    ∃ method : String, method.toList.count '/' = 1 ∧ p.selects method = true := by
  constructor
  · exact exists_selects_of_canMatch
  · rintro ⟨method, -, hselects⟩
    exact canMatch_of_selects hselects

theorem canMatch_iff_exists {p : Pattern} :
    p.canMatch = true ↔ ∃ method, p.selects method = true := by
  constructor
  · intro h
    obtain ⟨method, -, hselects⟩ := exists_selects_of_canMatch h
    exact ⟨method, hselects⟩
  · rintro ⟨method, hselects⟩
    exact canMatch_of_selects hselects

theorem isWildcard_iff_exists_malformed {p : Pattern} : p.isWildcard = true ↔
    ∃ method : String, method.toList.count '/' ≠ 1 ∧ p.selects method = true := by
  constructor
  · intro h
    exact ⟨"", by decide, selects_of_isWildcard h ""⟩
  · rintro ⟨method, hslash, hselects⟩
    exact isWildcard_of_selects hslash hselects

theorem isWildcard_iff_forall {p : Pattern} :
    p.isWildcard = true ↔ ∀ method, p.selects method = true := by
  constructor
  · exact selects_of_isWildcard
  · -- the empty method is malformed, so who selects all methods selects a malformed one
    intro h
    exact isWildcard_of_selects (by decide) (h "")

end Pattern

/-! ## Warnings of a build -/

namespace RuleTable

/-- A build warns about a rule iff it reads that far and the rule's text denotes no method. -/
theorem warned_iff {rules : List Rule} {i : Nat} {rule : Rule} (h : rules[i]? = some rule) :
    Event.ruleNeverMatches i rule.method ∈ (build rules).2 ↔
      i < (readable rules).length ∧ ∀ method, ¬ Denotes rule.method method := by
  rw [← Form.ofText_eq_nothing_iff]
  exact ruleNeverMatches_mem_build_iff h

/-- A build that succeeds reads all rules, so it warns about each whose pattern selects nothing. -/
theorem warned_iff_of_build {rules : List Rule} {t : RuleTable} (hbuild : (build rules).1 = .ok t)
    {i : Nat} {r : TableRule} (hr : t.rules[i]? = some r) :
    Event.ruleNeverMatches i r.pattern.text ∈ (build rules).2 ↔
      ∀ method, r.pattern.selects method = false := by
  have hrule : rules[i]? = some r.toRule := by
    rw [← toRules_of_build hbuild, toRules_getElem?, hr]
    rfl
  have hread : i < (readable rules).length := by
    rw [readable_of_build hbuild]
    exact (List.getElem?_eq_some_iff.1 hrule).1
  simp only [r.pattern.selects_eq_false_iff]
  exact (warned_iff hrule).trans (and_iff_right hread)

end RuleTable

/-! ## The classifiers -/

namespace Pattern

/-- **Classifiers.** Every text but the empty one is read as a pattern. It can match iff it selects
    some method, and then it selects one with exactly one slash. It is the wildcard iff it selects
    every method, and already if it selects one that does not hold exactly one slash. A build that
    succeeds warns about a rule iff its pattern selects no method at all, and any build warns about
    the rules that it reads, those in front of the first empty text, iff their texts denote none. -/
theorem classifiers_exact :
    (∀ text, text ≠ "" → ∃ p, Pattern.ofText? text = some p ∧
      (p.canMatch = true ↔ ∃ method, p.selects method = true) ∧
      (p.canMatch = true ↔
        ∃ method : String, method.toList.count '/' = 1 ∧ p.selects method = true) ∧
      (p.isWildcard = true ↔ ∀ method, p.selects method = true) ∧
      (p.isWildcard = true ↔
        ∃ method : String, method.toList.count '/' ≠ 1 ∧ p.selects method = true)) ∧
    ∀ b : TableBuilder,
      (∀ t, b.build.1 = .ok t → ∀ i r, t.rules[i]? = some r →
        (Event.ruleNeverMatches i r.pattern.text ∈ b.build.2 ↔
          ∀ method, r.pattern.selects method = false)) ∧
      ∀ i rule, b.rules[i]? = some rule →
        (Event.ruleNeverMatches i rule.method ∈ b.build.2 ↔
          i < (RuleTable.readable b.rules).length ∧ ∀ method, ¬ Denotes rule.method method) := by
  refine ⟨fun text hne => ?_, fun b => ⟨fun t hbuild i r hr => ?_, fun i rule hrule => ?_⟩⟩
  · exact ⟨⟨text, _, hne, rfl⟩, dif_neg hne, canMatch_iff_exists, canMatch_iff_exists_well_formed,
      isWildcard_iff_forall, isWildcard_iff_exists_malformed⟩
  · exact RuleTable.warned_iff_of_build hbuild hr
  · exact RuleTable.warned_iff hrule

/-- A dotted text selects some methods and not all of them. Of the rules of a table, the one whose
    text holds two slashes meets no call; a build that fails at its second rule has warned about the
    first one, and about none behind. -/
theorem dotted_text_classified :
    (∃ p, Pattern.ofText? "Simple.*" = some p ∧ (∃ method, p.selects method = true) ∧
      ¬ ∀ method, p.selects method = true) ∧
    (let b : TableBuilder := ⟨[⟨"Simple.*", .permitAll⟩, ⟨"a/b/c", .denyAll⟩]⟩
      ∃ t r, b.build.1 = .ok t ∧ t.rules[1]? = some r ∧
        ∀ method, r.pattern.selects method = false) ∧
    let b : TableBuilder := ⟨[⟨"Simple", .permitAll⟩, ⟨"", .denyAll⟩, ⟨"Other", .permitAll⟩]⟩
    Event.ruleNeverMatches 0 "Simple" ∈ b.build.2 ∧
      Event.ruleNeverMatches 2 "Other" ∉ b.build.2 := by
  refine ⟨?_, ?_, ?_⟩
  · obtain ⟨p, hp, hmatch, -, hwildcard, -⟩ := classifiers_exact.1 "Simple.*" (by decide)
    obtain rfl : ⟨"Simple.*", _, by decide, rfl⟩ = p := Option.some.inj hp
    exact ⟨_, hp, hmatch.1 (by decide), fun h => absurd (hwildcard.2 h) (by decide)⟩
  · intro b
    let dead : TableRule := ⟨⟨"a/b/c", .nothing, by decide, by decide⟩, .denyAll⟩
    let t : RuleTable := ⟨[⟨⟨"Simple.*", _, by decide, rfl⟩, .permitAll⟩, dead]⟩
    have hbuild : b.build.1 = .ok t := RuleTable.build_eq_ok_iff.2 rfl
    have hwarned := (classifiers_exact.2 b).1 t hbuild 1 dead rfl
    exact ⟨t, dead, hbuild, rfl, hwarned.1 (by decide)⟩
  · intro b
    refine ⟨by decide, fun h => ?_⟩
    have hread := ((classifiers_exact.2 b).2 2 ⟨"Other", .permitAll⟩ rfl).1 h
    exact absurd hread.1 (by decide)

end Pattern

end CallPolicy
