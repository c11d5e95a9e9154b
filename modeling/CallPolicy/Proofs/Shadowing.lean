import CallPolicy.Proofs.Rule
import CallPolicy.Proofs.Segments

set_option autoImplicit false

/-! # Rules that can never decide

A rule decides no call at all if its pattern selects nothing, or if an earlier rule selects whatever
it selects. There is no third case: several rules do not take from a rule together what none of them
takes alone. For every pattern has a typical method, with a name that nobody uses wherever the
pattern says `*`, and a text denotes this method only if it subsumes the pattern
(`exists_typical_method`). -/

namespace CallPolicy

/-! ## Subsumption -/

/-- The first text is `*`, or both have two segments and each segment of the first is `*` or the
    same as that of the second. -/
def Subsumes (wide narrow : String) : Prop :=
  wide = "*" ∨ ∃ a b c d, Segments wide a b ∧ Segments narrow c d ∧
    (a = "*" ∨ a = c) ∧ (b = "*" ∨ b = d)

/-- A text denotes whatever is denoted by a text that it subsumes. -/
theorem Subsumes.denotes {wide narrow method : String} (h : Subsumes wide narrow)
    (hmethod : Denotes narrow method) : Denotes wide method := by
  rcases h with rfl | ⟨a, b, c, d, hwide, hnarrow, hac, hbd⟩
  · exact .everything method
  · obtain ⟨s, m, rfl, hs, hm, hcs, hdm⟩ := hnarrow.denotes_iff.1 hmethod
    refine hwide.denotes_iff.2 ⟨s, m, rfl, hs, hm, ?_, ?_⟩
    · rcases hac with hstar | rfl
      · exact .inl hstar
      · exact hcs
    · rcases hbd with hstar | rfl
      · exact .inl hstar
      · exact hdm

/-- Subsumption, read off the forms of the two texts. -/
def Form.covers : Form → Form → Bool
  | .everything, _ => true
  | .qualified a b, .qualified c d => (a == .any || a == c) && (b == .any || b == d)
  | _, _ => false

theorem Form.covers_qualified_iff {a b c d : String} :
    (Form.qualified (.ofText a.toList) (.ofText b.toList)).covers
        (.qualified (.ofText c.toList) (.ofText d.toList)) = true ↔
      (a = "*" ∨ a = c) ∧ (b = "*" ∨ b = d) := by
  simp only [Form.covers, Bool.and_eq_true, Bool.or_eq_true, beq_iff_eq,
    Segment.ofText_eq_any_iff, Segment.ofText_inj, String.toList_inj]

theorem subsumes_iff_covers {wide narrow : String} :
    Subsumes wide narrow ↔
      (Form.ofText wide.toList).covers (Form.ofText narrow.toList) = true := by
  constructor
  · rintro (hstar | ⟨a, b, c, d, hwide, hnarrow, hac, hbd⟩)
    · rw [Form.ofText_eq_everything_iff.2 hstar]
      rfl
    · rw [hwide.form_eq, hnarrow.form_eq, Form.covers_qualified_iff]
      exact ⟨hac, hbd⟩
  · intro h
    cases hwide : Form.ofText wide.toList with
    | everything => exact .inl (Form.ofText_eq_everything_iff.1 hwide)
    | nothing => simp [Form.covers, hwide] at h
    | qualified x y =>
      cases hnarrow : Form.ofText narrow.toList with
      | everything => simp [Form.covers, hwide, hnarrow] at h
      | nothing => simp [Form.covers, hwide, hnarrow] at h
      | qualified x' y' =>
        obtain ⟨a, b, hab⟩ := exists_segments hwide
        obtain ⟨c, d, hcd⟩ := exists_segments hnarrow
        rw [hab.form_eq, hcd.form_eq, Form.covers_qualified_iff] at h
        exact .inr ⟨a, b, c, d, hab, hcd, h⟩

instance (wide narrow : String) : Decidable (Subsumes wide narrow) :=
  decidable_of_iff _ subsumes_iff_covers.symm

/-! ## Typical methods -/

/-- A name that is longer than each of the texts. -/
def unusedName (texts : List String) : String :=
  String.ofList (List.replicate ((texts.map String.toList).flatten.length + 1) 'x')

theorem slash_not_mem_unusedName (texts : List String) : '/' ∉ (unusedName texts).toList := by
  simp [unusedName]

/-- No segment of the texts is the unused name. -/
theorem Segments.ne_unusedName {texts : List String} {text a b : String} (h : Segments text a b)
    (hmem : text ∈ texts) : a ≠ unusedName texts ∧ b ≠ unusedName texts := by
  have hlong : text.length < (unusedName texts).length := by
    have hle : text.toList.length ≤ (texts.map String.toList).flatten.length :=
      (List.sublist_flatten_of_mem (List.mem_map_of_mem hmem)).length_le
    rw [String.length_toList] at hle
    simp only [unusedName, String.length_ofList, List.length_replicate]
    omega
  obtain ⟨ha, hb⟩ := h.length_le
  exact ⟨fun heq => by rw [heq] at ha; omega, fun heq => by rw [heq] at hb; omega⟩

/-- A segment that agrees with the typical half of another one is `*` or the same. -/
theorem eq_of_agrees_typicalHalf {name a c : String} (hname : a ≠ name)
    (h : a = "*" ∨ a = typicalHalf name c) : a = "*" ∨ a = c := by
  unfold typicalHalf at h
  split at h
  · exact .inl (h.resolve_right hname)
  · exact h

/-- A pattern that can match denotes a method that is denoted by no text of a list but those that
    subsume the pattern. -/
theorem exists_typical_method {narrow : String} (texts : List String)
    (h : narrow = "*" ∨ ∃ c d, Segments narrow c d) :
    ∃ method, Denotes narrow method ∧
      ∀ wide ∈ texts, Denotes wide method → Subsumes wide narrow := by
  rcases h with rfl | ⟨c, d, hnarrow⟩
  · -- what holds no slash is a method to `*` alone
    refine ⟨"", .everything "", fun wide _ hdenotes => .inl ?_⟩
    exact (denotes_iff_eq_star (by decide)).1 hdenotes
  · let name := unusedName texts
    have hname : '/' ∉ name.toList := slash_not_mem_unusedName texts
    have hs : '/' ∉ (typicalHalf name c).toList :=
      slash_not_mem_typicalHalf hname hnarrow.slash_not_mem.1
    have hm : '/' ∉ (typicalHalf name d).toList :=
      slash_not_mem_typicalHalf hname hnarrow.slash_not_mem.2
    refine ⟨typicalHalf name c ++ "/" ++ typicalHalf name d, ?_, fun wide hmem hdenotes => ?_⟩
    · exact (hnarrow.denotes_halves_iff hs hm).2
        ⟨agrees_typicalHalf name c, agrees_typicalHalf name d⟩
    · rcases hdenotes.eq_star_or_segments with hstar | ⟨a, b, hwide⟩
      · exact .inl hstar
      · obtain ⟨hane, hbne⟩ := hwide.ne_unusedName hmem
        obtain ⟨hac, hbd⟩ := (hwide.denotes_halves_iff hs hm).1 hdenotes
        exact .inr ⟨a, b, c, d, hwide, hnarrow, eq_of_agrees_typicalHalf hane hac,
          eq_of_agrees_typicalHalf hbne hbd⟩

/-! ## Shadowed rules -/

namespace RuleTable

variable {t : RuleTable} {j : Nat} {r : TableRule}

/-- A rule that decides a method is subsumed by no rule before it. -/
theorem not_subsumes_of_deciding {method : String} (h : t.deciding method = some (j, r)) :
    ∀ i < j, ∀ q, t.rules[i]? = some q → ¬ Subsumes q.pattern.text r.pattern.text := by
  obtain ⟨-, hdenotes, hbefore⟩ := deciding_eq_some_iff_denotes.1 h
  intro i hi q hq hsubsumes
  exact hbefore i hi q hq (hsubsumes.denotes hdenotes)

/-- A rule that can match and is subsumed by no rule before it decides its typical method. -/
theorem exists_deciding_of_not_subsumes (h : t.rules[j]? = some r)
    (hmatch : r.pattern.canMatch = true)
    (hnone : ∀ i < j, ∀ q, t.rules[i]? = some q → ¬ Subsumes q.pattern.text r.pattern.text) :
    ∃ method, t.deciding method = some (j, r) := by
  obtain ⟨method, hdenotes, htypical⟩ := exists_typical_method
    (t.rules.map fun q => q.pattern.text) (Pattern.canMatch_iff.1 hmatch)
  refine ⟨method, deciding_eq_some_iff_denotes.2 ⟨h, hdenotes, fun i hi q hq hearlier => ?_⟩⟩
  have hmem : q.pattern.text ∈ t.rules.map fun q => q.pattern.text :=
    List.mem_map_of_mem (List.mem_of_getElem? hq)
  exact hnone i hi q hq (htypical _ hmem hearlier)

/-- **Shadowing.** A rule decides some method iff its pattern can match and no single rule before it
    has a pattern that subsumes its own. So a rule is dead iff its pattern cannot match or one
    earlier rule alone subsumes it. -/
theorem decides_some_method_iff (h : t.rules[j]? = some r) :
    ((∃ method, t.deciding method = some (j, r)) ↔ r.pattern.canMatch = true ∧
      ∀ i < j, ∀ q, t.rules[i]? = some q → ¬ Subsumes q.pattern.text r.pattern.text) ∧
    ((∀ method, t.deciding method ≠ some (j, r)) ↔ r.pattern.canMatch = false ∨
      ∃ i < j, ∃ q, t.rules[i]? = some q ∧ Subsumes q.pattern.text r.pattern.text) := by
  have halive : (∃ method, t.deciding method = some (j, r)) ↔ r.pattern.canMatch = true ∧
      ∀ i < j, ∀ q, t.rules[i]? = some q → ¬ Subsumes q.pattern.text r.pattern.text := by
    constructor
    · rintro ⟨method, hdeciding⟩
      obtain ⟨-, hselects, -⟩ := deciding_eq_some_iff.1 hdeciding
      have hdenotes := (r.pattern.selects_iff_denotes method).1 hselects
      exact ⟨Pattern.canMatch_iff.2 hdenotes.eq_star_or_segments,
        not_subsumes_of_deciding hdeciding⟩
    · rintro ⟨hmatch, hnone⟩
      exact exists_deciding_of_not_subsumes h hmatch hnone
  refine ⟨halive, ?_⟩
  rw [← not_exists, halive, Decidable.not_and_iff_not_or_not, Bool.not_eq_true]
  simp only [Classical.not_forall, Decidable.not_not, exists_prop]

/-- The rules for one service and for one name leave a method to the rule for all methods, but
    nothing to a second rule for the service. -/
theorem rule_behind_two_others_decides :
    let t : RuleTable := ⟨[⟨⟨"Simple/*", _, by decide, rfl⟩, .authenticated⟩,
      ⟨⟨"*/Check", _, by decide, rfl⟩, .permitAll⟩, ⟨⟨"*/*", _, by decide, rfl⟩, .denyAll⟩,
      ⟨⟨"Simple.*", _, by decide, rfl⟩, .permitAll⟩]⟩
    (∃ method, t.deciding method = some (2, t.rules[2])) ∧
      ∀ method, t.deciding method ≠ some (3, t.rules[3]) := by
  intro t
  refine ⟨(decides_some_method_iff rfl).1.2 ⟨by decide, fun i hi q hq => ?_⟩,
    (decides_some_method_iff rfl).2.2 (.inr ⟨0, by decide, t.rules[0], rfl, by decide⟩)⟩
  obtain rfl | rfl : i = 0 ∨ i = 1 := by omega
  · cases hq
    decide
  · cases hq
    decide

end RuleTable

end CallPolicy
