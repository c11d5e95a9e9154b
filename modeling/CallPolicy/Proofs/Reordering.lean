import CallPolicy.Proofs.Classifiers
import Mathlib.Logic.Equiv.Fin.Rotate

set_option autoImplicit false

/-! # Rules in another order

Rules may change places as long as no two of them that conflict do: those that ask for different
things and have patterns with a method in common (`RuleTable.SafeReordering`). The rule that decides
a call need not be the same afterwards, but it asks for the same
(`RuleTable.SafeReordering.exists_deciding`). Whether two patterns have a method in common is read
off their segments (`Pattern.overlaps_iff`), so conflicts are found without looking at methods. -/

namespace CallPolicy

/-! ## Patterns with a common method -/

/-- Some method is selected by both patterns. -/
def Pattern.Overlaps (p q : Pattern) : Prop :=
  ∃ method, p.selects method = true ∧ q.selects method = true

/-- One of the texts is `*`, or both have two segments and in each place one of the segments is `*`
    or both are the same. -/
def Meets (left right : String) : Prop :=
  left = "*" ∨ right = "*" ∨ ∃ a b c d, Segments left a b ∧ Segments right c d ∧
    (a = "*" ∨ c = "*" ∨ a = c) ∧ (b = "*" ∨ d = "*" ∨ b = d)

/-- Segments that agree with one half are `*` or the same. -/
theorem agree_of_common_half {a c s : String} (ha : a = "*" ∨ a = s) (hc : c = "*" ∨ c = s) :
    a = "*" ∨ c = "*" ∨ a = c := by
  rcases ha with hstar | rfl
  · exact .inl hstar
  · exact .inr (hc.imp_right Eq.symm)

/-- The typical half of one segment, with the other for a name, agrees with both if any half does. -/
theorem agrees_typicalHalf_of_agree {a c : String} (h : a = "*" ∨ c = "*" ∨ a = c) :
    c = "*" ∨ c = typicalHalf c a := by
  unfold typicalHalf
  split
  · exact .inr rfl
  · rename_i hstar
    exact (h.resolve_left hstar).imp_right Eq.symm

theorem Meets.of_denotes {left right method : String} (hleft : Denotes left method)
    (hright : Denotes right method) : Meets left right := by
  rcases hleft.eq_star_or_segments with hstar | ⟨a, b, hab⟩
  · exact .inl hstar
  · rcases hright.eq_star_or_segments with hstar | ⟨c, d, hcd⟩
    · exact .inr (.inl hstar)
    · obtain ⟨s, m, rfl, hs, hm, has, hbm⟩ := hab.denotes_iff.1 hleft
      obtain ⟨hcs, hdm⟩ := (hcd.denotes_halves_iff hs hm).1 hright
      exact .inr (.inr ⟨a, b, c, d, hab, hcd, agree_of_common_half has hcs,
        agree_of_common_half hbm hdm⟩)

/-- Texts that meet denote a common method, if they denote any method at all. -/
theorem Meets.exists_denotes {left right : String} (h : Meets left right)
    (hleft : ∃ method, Denotes left method) (hright : ∃ method, Denotes right method) :
    ∃ method, Denotes left method ∧ Denotes right method := by
  rcases h with rfl | rfl | ⟨a, b, c, d, hab, hcd, hac, hbd⟩
  · obtain ⟨method, hmethod⟩ := hright
    exact ⟨method, .everything method, hmethod⟩
  · obtain ⟨method, hmethod⟩ := hleft
    exact ⟨method, hmethod, .everything method⟩
  · have hs := slash_not_mem_typicalHalf hcd.slash_not_mem.1 hab.slash_not_mem.1
    have hm := slash_not_mem_typicalHalf hcd.slash_not_mem.2 hab.slash_not_mem.2
    refine ⟨typicalHalf c a ++ "/" ++ typicalHalf d b, ?_, ?_⟩
    · exact (hab.denotes_halves_iff hs hm).2 ⟨agrees_typicalHalf c a, agrees_typicalHalf d b⟩
    · exact (hcd.denotes_halves_iff hs hm).2
        ⟨agrees_typicalHalf_of_agree hac, agrees_typicalHalf_of_agree hbd⟩

/-- Two patterns have a method in common iff both can match and their texts meet. -/
theorem Pattern.overlaps_iff {p q : Pattern} :
    p.Overlaps q ↔ p.canMatch = true ∧ q.canMatch = true ∧ Meets p.text q.text := by
  constructor
  · rintro ⟨method, hp, hq⟩
    exact ⟨canMatch_of_selects hp, canMatch_of_selects hq,
      .of_denotes ((p.selects_iff_denotes method).1 hp) ((q.selects_iff_denotes method).1 hq)⟩
  · rintro ⟨hp, hq, hmeets⟩
    obtain ⟨s, hs⟩ := canMatch_iff_exists.1 hp
    obtain ⟨m, hm⟩ := canMatch_iff_exists.1 hq
    obtain ⟨method, hleft, hright⟩ := hmeets.exists_denotes
      ⟨s, (p.selects_iff_denotes s).1 hs⟩ ⟨m, (q.selects_iff_denotes m).1 hm⟩
    exact ⟨method, (p.selects_iff_denotes method).2 hleft, (q.selects_iff_denotes method).2 hright⟩

/-- Meeting, read off the forms of the two texts. -/
def Form.meets : Form → Form → Bool
  | .everything, _ => true
  | _, .everything => true
  | .qualified a b, .qualified c d =>
    (a == .any || c == .any || a == c) && (b == .any || d == .any || b == d)
  | _, _ => false

theorem Form.meets_qualified_iff {a b c d : String} :
    (Form.qualified (.ofText a.toList) (.ofText b.toList)).meets
        (.qualified (.ofText c.toList) (.ofText d.toList)) = true ↔
      (a = "*" ∨ c = "*" ∨ a = c) ∧ (b = "*" ∨ d = "*" ∨ b = d) := by
  simp only [Form.meets, Bool.and_eq_true, Bool.or_eq_true, beq_iff_eq, or_assoc,
    Segment.ofText_eq_any_iff, Segment.ofText_inj, String.toList_inj]

theorem meets_iff_form_meets {left right : String} :
    Meets left right ↔ (Form.ofText left.toList).meets (Form.ofText right.toList) = true := by
  constructor
  · rintro (hstar | hstar | ⟨a, b, c, d, hab, hcd, hac, hbd⟩)
    · rw [Form.ofText_eq_everything_iff.2 hstar]
      rfl
    · rw [Form.ofText_eq_everything_iff.2 hstar]
      cases Form.ofText left.toList <;> rfl
    · rw [hab.form_eq, hcd.form_eq, Form.meets_qualified_iff]
      exact ⟨hac, hbd⟩
  · intro h
    cases hleft : Form.ofText left.toList with
    | everything => exact .inl (Form.ofText_eq_everything_iff.1 hleft)
    | nothing =>
      cases hright : Form.ofText right.toList with
      | everything => exact .inr (.inl (Form.ofText_eq_everything_iff.1 hright))
      | nothing => simp [Form.meets, hleft, hright] at h
      | qualified x' y' => simp [Form.meets, hleft, hright] at h
    | qualified x y =>
      cases hright : Form.ofText right.toList with
      | everything => exact .inr (.inl (Form.ofText_eq_everything_iff.1 hright))
      | nothing => simp [Form.meets, hleft, hright] at h
      | qualified x' y' =>
        obtain ⟨a, b, hab⟩ := exists_segments hleft
        obtain ⟨c, d, hcd⟩ := exists_segments hright
        rw [hab.form_eq, hcd.form_eq, Form.meets_qualified_iff] at h
        exact .inr (.inr ⟨a, b, c, d, hab, hcd, h⟩)

instance (left right : String) : Decidable (Meets left right) :=
  decidable_of_iff _ meets_iff_form_meets.symm

instance (p q : Pattern) : Decidable (p.Overlaps q) :=
  decidable_of_iff _ Pattern.overlaps_iff.symm

/-! ## Rules that change places -/

/-- The rules may answer one call differently: they ask for different things and have patterns with
    a method in common. -/
def TableRule.Conflicts (r q : TableRule) : Prop :=
  r.require ≠ q.require ∧ r.pattern.Overlaps q.pattern

instance (r q : TableRule) : Decidable (r.Conflicts q) :=
  inferInstanceAs (Decidable (_ ∧ _))

namespace RuleTable

/-- The second table holds the rules of the first, each of them once and at its new place, and of
    two rules that conflict the one in front stays in front. -/
structure SafeReordering (t u : RuleTable) (place : Fin t.rules.length ≃ Fin u.rules.length) :
    Prop where
  same : ∀ i, u.rules[place i] = t.rules[i]
  keeps : ∀ i j, i < j → t.rules[i].Conflicts t.rules[j] → place i < place j

namespace SafeReordering

variable {t u : RuleTable} {place : Fin t.rules.length ≃ Fin u.rules.length}

/-- Every rule of the second table has its place from the first. -/
theorem exists_place (h : SafeReordering t u place) {k : Nat} {q : TableRule}
    (hq : u.rules[k]? = some q) : ∃ j, (place j).val = k ∧ t.rules[j] = q := by
  obtain ⟨hk, rfl⟩ := List.getElem?_eq_some_iff.1 hq
  obtain ⟨j, hj⟩ := place.surjective ⟨k, hk⟩
  refine ⟨j, congrArg Fin.val hj, ?_⟩
  rw [← h.same j]
  simp only [hj, Fin.getElem_fin]

/-- A call that no rule of the first table decides is decided by none of the second. -/
theorem deciding_eq_none (h : SafeReordering t u place) {method : String}
    (hnone : t.deciding method = none) : u.deciding method = none := by
  rw [deciding_eq_none_iff] at hnone ⊢
  intro q hq
  obtain ⟨k, hk⟩ := List.getElem?_of_mem hq
  obtain ⟨j, -, rfl⟩ := h.exists_place hk
  exact hnone _ (List.getElem_mem _)

/-- A rule that is selected stands nowhere in front of the one that decides. -/
theorem not_lt_of_deciding {method : String} {k : Nat} {q : TableRule}
    (hdeciding : u.deciding method = some (k, q)) {i : Fin u.rules.length}
    (hselects : u.rules[i].pattern.selects method = true) : ¬ i.val < k := fun hlt =>
  (deciding_eq_some_iff.1 hdeciding).2.2 i hlt _ (List.getElem?_eq_getElem i.isLt) hselects

/-- The rule that decides a call afterwards asks for what the one asked for that decided it. -/
theorem exists_deciding (h : SafeReordering t u place) {method : String} {i : Nat} {r : TableRule}
    (hdeciding : t.deciding method = some (i, r)) :
    ∃ k q, u.deciding method = some (k, q) ∧ q.require = r.require := by
  obtain ⟨hr, hselects, -⟩ := deciding_eq_some_iff.1 hdeciding
  obtain ⟨hi, rfl⟩ := List.getElem?_eq_some_iff.1 hr
  have hplaced : u.rules[place ⟨i, hi⟩].pattern.selects method = true := by
    rw [h.same]
    exact hselects
  cases hafter : u.deciding method with
  | none =>
    have hpassed := deciding_eq_none_iff.1 hafter _ (List.getElem_mem (place ⟨i, hi⟩).isLt)
    cases hplaced.symm.trans hpassed
  | some found =>
    obtain ⟨k, q⟩ := found
    refine ⟨k, q, rfl, ?_⟩
    obtain ⟨hq, hqselects, -⟩ := deciding_eq_some_iff.1 hafter
    obtain ⟨j, rfl, rfl⟩ := h.exists_place hq
    by_contra hrequire
    -- the two rules conflict, so the one in front has stayed in front and would decide
    have hne : i ≠ j.val := by
      rintro rfl
      exact hrequire rfl
    have hij : i < j := by
      have := not_lt_of_deciding hdeciding hqselects
      omega
    have hconflict : t.rules[i].Conflicts t.rules[j] :=
      ⟨fun heq => hrequire heq.symm, method, hselects, hqselects⟩
    exact not_lt_of_deciding hafter hplaced (h.keeps ⟨i, hi⟩ j hij hconflict)

theorem decision_eq (h : SafeReordering t u place) (method : String) (caller : Option Principal) :
    u.decision method caller = t.decision method caller := by
  rw [decision_eq_getD, decision_eq_getD]
  cases hdeciding : t.deciding method with
  | none => rw [h.deciding_eq_none hdeciding]
  | some found =>
    obtain ⟨k, q, hafter, hrequire⟩ := h.exists_deciding hdeciding
    simp only [hafter, Option.map_some, Option.getD_some, hrequire]

end SafeReordering

/-- **Safe reordering.** A table whose rules change places decides every call as before, as long as
    the rules that ask for different things and have patterns with a method in common stay in
    order. Two patterns have a method in common iff both can match and one of them is `*` or, place
    by place, one of their segments is `*` or both are the same. -/
theorem reordered_decides_alike :
    (∀ (t u : RuleTable) (place : Fin t.rules.length ≃ Fin u.rules.length),
      SafeReordering t u place →
      ∀ method caller, u.decision method caller = t.decision method caller) ∧
    ∀ p q : Pattern, p.Overlaps q ↔
      p.canMatch = true ∧ q.canMatch = true ∧ Meets p.text q.text :=
  ⟨fun _ _ _ h => h.decision_eq, fun _ _ => Pattern.overlaps_iff⟩

/-- A rule for one method of another service moves in front of two that conflict. These stay in
    order: the other way around they decide a call of the method that both select differently. -/
theorem rule_of_other_service_moves :
    let a : TableRule := ⟨⟨"Simple.*", _, by decide, rfl⟩, .authenticated⟩
    let b : TableRule := ⟨⟨"*/Check", _, by decide, rfl⟩, .permitAll⟩
    let c : TableRule := ⟨⟨"Other/Watch", _, by decide, rfl⟩, .denyAll⟩
    SafeReordering ⟨[a, b, c]⟩ ⟨[c, a, b]⟩ (finRotate 3) ∧
      (∀ method caller, decision ⟨[c, a, b]⟩ method caller = decision ⟨[a, b, c]⟩ method caller) ∧
      a.Conflicts b ∧
      decision ⟨[b, a, c]⟩ "Simple/Check" none ≠ decision ⟨[a, b, c]⟩ "Simple/Check" none := by
  intro a b c
  have hsafe : SafeReordering ⟨[a, b, c]⟩ ⟨[c, a, b]⟩ (finRotate 3) := ⟨by decide, by decide⟩
  exact ⟨hsafe, reordered_decides_alike.1 _ _ _ hsafe, by decide, by decide⟩

end RuleTable

end CallPolicy
