import CallPolicy.Proofs.Pattern
import CallPolicy.Rule

set_option autoImplicit false

/-! # First-match evaluation

What a table decides, said of the rules as they were written: the first rule whose text denotes the
method decides, by what it requires of the caller. The search over the table is described once, by
`RuleTable.deciding_eq_some_iff` and `RuleTable.deciding_eq_none_iff`; a table that was built holds
the rules that it was built from, in order. -/

namespace CallPolicy

/-! ## Requirements -/

/-- When a caller satisfies a requirement, said of the members of the caller's set. -/
def Requirement.Holds : Requirement → Option Principal → Prop
  | .permitAll, _ => True
  | .denyAll, _ => False
  | .authenticated, caller => ∃ p, caller = some p
  | .hasAuthority a, caller => ∃ p, caller = some p ∧ a ∈ p.authorities.toList
  | .hasAnyAuthority l, caller => ∃ p, caller = some p ∧ ∃ a ∈ l, a ∈ p.authorities.toList

theorem Requirement.admits_iff_holds (r : Requirement) (caller : Option Principal) :
    r.admits caller = true ↔ r.Holds caller := by
  cases r with
  | permitAll => simp [admits, Holds]
  | denyAll => simp [admits, Holds]
  | authenticated => simp [admits, Holds, Option.isSome_iff_exists]
  | hasAuthority a =>
    cases caller <;> simp [admits, Holds, Principal.hasAuthority, AuthoritySet.contains_iff]
  | hasAnyAuthority l =>
    cases caller <;>
      simp [admits, Holds, Principal.hasAnyAuthority, Principal.hasAuthority,
        AuthoritySet.contains_iff]

theorem Requirement.decision_eq_allow_iff (r : Requirement) (caller : Option Principal) :
    r.decision caller = .allow ↔ r.Holds caller := by
  rw [← r.admits_iff_holds]
  unfold Requirement.decision
  split <;> simp_all

/-! ## The first element with a property -/

section

variable {α : Type} {P : α → Prop}

/-- The element `x` at index `i` has the property, and no element before it does. -/
def FirstAt (P : α → Prop) (l : List α) (i : Nat) (x : α) : Prop :=
  l[i]? = some x ∧ P x ∧ ∀ j < i, ∀ y, l[j]? = some y → ¬ P y

theorem not_firstAt_nil {i : Nat} {x : α} : ¬ FirstAt P [] i x := by
  rintro ⟨hx, -⟩
  simp at hx

theorem firstAt_cons_of_pos {y : α} {l : List α} (hy : P y) {i : Nat} {x : α} :
    FirstAt P (y :: l) i x ↔ i = 0 ∧ x = y := by
  constructor
  · rintro ⟨hx, -, hbefore⟩
    obtain _ | i := i
    · exact ⟨rfl, by simpa using hx.symm⟩
    · exact absurd hy (hbefore 0 (Nat.succ_pos i) y rfl)
  · rintro ⟨rfl, rfl⟩
    exact ⟨rfl, hy, fun j hj => absurd hj (Nat.not_lt_zero j)⟩

theorem firstAt_cons_of_neg {y : α} {l : List α} (hy : ¬ P y) {i : Nat} {x : α} :
    FirstAt P (y :: l) i x ↔ ∃ k, i = k + 1 ∧ FirstAt P l k x := by
  constructor
  · rintro ⟨hx, hP, hbefore⟩
    obtain _ | i := i
    · obtain rfl : y = x := by simpa using hx
      exact absurd hP hy
    · exact ⟨i, rfl, hx, hP, fun j hj z hz => hbefore (j + 1) (Nat.succ_lt_succ hj) z hz⟩
  · rintro ⟨k, rfl, hx, hP, hbefore⟩
    refine ⟨hx, hP, fun j hj z hz => ?_⟩
    obtain _ | j := j
    · obtain rfl : y = z := by simpa using hz
      exact hy
    · exact hbefore j (Nat.lt_of_succ_lt_succ hj) z hz

/-- The first image with a property is the image of the first element whose image has it. -/
theorem firstAt_map_iff {β : Type} {f : β → α} {l : List β} {i : Nat} {x : α} :
    FirstAt P (l.map f) i x ↔ ∃ b, f b = x ∧ FirstAt (fun b => P (f b)) l i b := by
  simp only [FirstAt, List.getElem?_map, Option.map_eq_some_iff]
  constructor
  · rintro ⟨⟨b, hb, rfl⟩, hP, hbefore⟩
    exact ⟨b, rfl, hb, hP, fun j hj c hc => hbefore j hj (f c) ⟨c, hc, rfl⟩⟩
  · rintro ⟨b, rfl, hb, hP, hbefore⟩
    refine ⟨⟨b, hb, rfl⟩, hP, ?_⟩
    rintro j hj _ ⟨c, hc, rfl⟩
    exact hbefore j hj c hc

/-- The library's search for an index finds the first element that passes the test. -/
theorem findIdx?_eq_some_iff_firstAt {p : α → Bool} {l : List α} {i : Nat} :
    l.findIdx? p = some i ↔ ∃ x, FirstAt (p · = true) l i x := by
  rw [List.findIdx?_eq_some_iff_getElem]
  constructor
  · rintro ⟨hi, hp, hbefore⟩
    refine ⟨l[i], List.getElem?_eq_getElem hi, hp, fun j hj y hy => ?_⟩
    obtain ⟨-, rfl⟩ := List.getElem?_eq_some_iff.1 hy
    exact hbefore j hj
  · rintro ⟨x, hx, hp, hbefore⟩
    obtain ⟨hi, rfl⟩ := List.getElem?_eq_some_iff.1 hx
    exact ⟨hi, hp, fun j hj => hbefore j hj _ (List.getElem?_eq_getElem (hj.trans hi))⟩

end

/-! ## Mapped results -/

section

variable {ε α β : Type}

theorem map_eq_ok_iff {f : α → β} {x : Except ε α} {b : β} :
    x.map f = .ok b ↔ ∃ a, x = .ok a ∧ f a = b := by
  cases x <;> simp [Except.map]

theorem map_eq_error_iff {f : α → β} {x : Except ε α} {e : ε} :
    x.map f = .error e ↔ x = .error e := by
  cases x <;> simp [Except.map]

end

/-! ## The search -/

namespace RuleTable

/-- The search finds the first rule that selects the method, and counts from `n`. -/
theorem decidingFrom_eq_some_iff {n i : Nat} {method : String} {rules : List TableRule}
    {r : TableRule} :
    decidingFrom n method rules = some (i, r) ↔
      ∃ k, i = n + k ∧ FirstAt (fun q => q.pattern.selects method = true) rules k r := by
  induction rules generalizing n with
  | nil => simp [decidingFrom, not_firstAt_nil]
  | cons q rest ih =>
    rw [decidingFrom]
    by_cases hq : q.pattern.selects method = true
    · have hhead := @firstAt_cons_of_pos _ (fun q => q.pattern.selects method = true) q rest hq
      simp only [if_pos hq, hhead, Option.some.injEq, Prod.mk.injEq]
      constructor
      · rintro ⟨rfl, rfl⟩
        exact ⟨0, rfl, rfl, rfl⟩
      · rintro ⟨_, rfl, rfl, rfl⟩
        exact ⟨rfl, rfl⟩
    · -- the head is passed over, which moves every index of the rest by one
      have htail := @firstAt_cons_of_neg _ (fun q => q.pattern.selects method = true) q rest hq
      simp only [if_neg hq, ih, htail]
      constructor
      · rintro ⟨k, rfl, hfirst⟩
        exact ⟨k + 1, by omega, k, rfl, hfirst⟩
      · rintro ⟨_, rfl, k, rfl, hfirst⟩
        exact ⟨k, by omega, hfirst⟩

theorem decidingFrom_eq_none_iff {n : Nat} {method : String} {rules : List TableRule} :
    decidingFrom n method rules = none ↔ ∀ r ∈ rules, r.pattern.selects method = false := by
  induction rules generalizing n with
  | nil => simp [decidingFrom]
  | cons q rest ih =>
    rw [decidingFrom]
    by_cases hq : q.pattern.selects method = true
    · simp [hq]
    · simp [hq, ih]

/-- The rules in front are searched first. -/
theorem decidingFrom_append (n : Nat) (method : String) (front back : List TableRule) :
    decidingFrom n method (front ++ back) =
      (decidingFrom n method front).or (decidingFrom (n + front.length) method back) := by
  induction front generalizing n with
  | nil => simp [decidingFrom]
  | cons q rest ih =>
    rw [List.cons_append, decidingFrom, decidingFrom]
    split
    · rfl
    · rw [ih, List.length_cons, Nat.add_assoc, Nat.add_comm 1]

/-- Where the count starts makes no difference to which rule is found. -/
theorem decidingFrom_add (n d : Nat) (method : String) (rules : List TableRule) :
    decidingFrom (n + d) method rules =
      (decidingFrom n method rules).map fun (i, r) => (i + d, r) := by
  induction rules generalizing n with
  | nil => rfl
  | cons q rest ih =>
    rw [decidingFrom, decidingFrom]
    split
    · rfl
    · rw [Nat.add_right_comm, ih]

/-- The rule that decides is the first in the table that selects the method. -/
theorem deciding_eq_some_iff {t : RuleTable} {method : String} {i : Nat} {r : TableRule} :
    t.deciding method = some (i, r) ↔
      FirstAt (fun q => q.pattern.selects method = true) t.rules i r := by
  rw [deciding, decidingFrom_eq_some_iff]
  simp

theorem deciding_eq_none_iff {t : RuleTable} {method : String} :
    t.deciding method = none ↔ ∀ r ∈ t.rules, r.pattern.selects method = false :=
  decidingFrom_eq_none_iff

theorem deciding_eq_some_iff_denotes {t : RuleTable} {method : String} {i : Nat} {r : TableRule} :
    t.deciding method = some (i, r) ↔
      FirstAt (fun q => Denotes q.pattern.text method) t.rules i r := by
  simp only [deciding_eq_some_iff, Pattern.selects_iff_denotes]

theorem deciding_eq_none_iff_denotes {t : RuleTable} {method : String} :
    t.deciding method = none ↔ ∀ r ∈ t.rules, ¬ Denotes r.pattern.text method := by
  simp only [deciding_eq_none_iff, Pattern.selects_eq_false_iff]

@[simp] theorem verdict_deciding (t : RuleTable) (method : String) (caller : Option Principal) :
    (t.verdict method caller).deciding = t.deciding method := by
  unfold verdict
  split <;> simp_all

/-- The decision is that of the rule found, and a refusal if none is. -/
theorem decision_eq_getD (t : RuleTable) (method : String) (caller : Option Principal) :
    t.decision method caller =
      ((t.deciding method).map fun (_, r) => r.require.decision caller).getD .deny := by
  unfold decision verdict
  split <;> simp_all

theorem decision_eq_allow_iff {t : RuleTable} {method : String} {caller : Option Principal} :
    t.decision method caller = .allow ↔
      ∃ i r, t.deciding method = some (i, r) ∧ r.require.Holds caller := by
  unfold decision verdict
  cases hd : t.deciding method with
  | none => simp
  | some found =>
    obtain ⟨i, r⟩ := found
    simp only [Requirement.decision_eq_allow_iff, Option.some.injEq, Prod.mk.injEq]
    exact ⟨fun h => ⟨i, r, ⟨rfl, rfl⟩, h⟩, by rintro ⟨_, _, ⟨rfl, rfl⟩, h⟩; exact h⟩

/-! ## Tables that were built -/

/-- The event aside, a rule with a pattern is put in front of those read behind it. -/
theorem readFrom_cons_of_some {n : Nat} {rule : Rule} {rest : List Rule}
    {pattern : Pattern} (h : Pattern.ofText? rule.method = some pattern) :
    (readFrom n (rule :: rest)).1 =
      (readFrom (n + 1) rest).1.map (⟨pattern, rule.require⟩ :: ·) := by
  rw [readFrom, h]

/-- Reading rules keeps their order, texts and requirements. -/
theorem readFrom_toRule {n : Nat} {rules : List Rule} {table : List TableRule}
    (h : (readFrom n rules).1 = .ok table) : table.map TableRule.toRule = rules := by
  induction rules generalizing n table with
  | nil =>
    cases h
    rfl
  | cons rule rest ih =>
    cases hpattern : Pattern.ofText? rule.method with
    | none =>
      rw [readFrom, hpattern] at h
      cases h
    | some pattern =>
      rw [readFrom_cons_of_some hpattern] at h
      obtain ⟨tail, hrest, rfl⟩ := map_eq_ok_iff.1 h
      rw [List.map_cons, ih hrest, TableRule.toRule, Pattern.text_of_ofText? hpattern]

theorem toRules_of_build {rules : List Rule} {t : RuleTable} (h : (build rules).1 = .ok t) :
    t.toRules = rules := by
  obtain ⟨table, hread, rfl⟩ := map_eq_ok_iff.1 h
  exact readFrom_toRule hread

/-- The rules that table rules were made from are read back as those table rules. -/
theorem readFrom_map_toRule (n : Nat) (rules : List TableRule) :
    (readFrom n (rules.map TableRule.toRule)).1 = .ok rules := by
  induction rules generalizing n with
  | nil => rfl
  | cons r rest ih =>
    rw [List.map_cons, readFrom_cons_of_some (Pattern.ofText?_text r.pattern), ih]
    rfl

/-- Rules are built into the one table that is written like them. -/
theorem build_eq_ok_iff {rules : List Rule} {t : RuleTable} :
    (build rules).1 = .ok t ↔ t.toRules = rules := by
  refine ⟨toRules_of_build, ?_⟩
  rintro rfl
  exact map_eq_ok_iff.2 ⟨t.rules, readFrom_map_toRule 0 t.rules, rfl⟩

/-- Rules that all have a pattern are those of some table. -/
theorem exists_toRules {rules : List Rule} (h : ∀ rule ∈ rules, rule.method ≠ "") :
    ∃ t : RuleTable, t.toRules = rules := by
  induction rules with
  | nil => exact ⟨⟨[]⟩, rfl⟩
  | cons rule rest ih =>
    obtain ⟨hrule, hrest⟩ := List.forall_mem_cons.1 h
    obtain ⟨t, rfl⟩ := ih hrest
    exact ⟨⟨⟨⟨rule.method, _, hrule, rfl⟩, rule.require⟩ :: t.rules⟩, rfl⟩

/-- A build fails exactly if some rule has no pattern. -/
theorem exists_build_eq_ok_iff {rules : List Rule} :
    (∃ t, (build rules).1 = .ok t) ↔ ∀ rule ∈ rules, rule.method ≠ "" := by
  constructor
  · rintro ⟨t, hbuild⟩
    rw [← toRules_of_build hbuild]
    intro rule hrule
    obtain ⟨r, -, rfl⟩ := List.mem_map.1 hrule
    exact r.pattern.text_ne
  · intro hmethods
    obtain ⟨t, ht⟩ := exists_toRules hmethods
    exact ⟨t, build_eq_ok_iff.2 ht⟩

/-! ## What a build reports -/

/-- The rules in front of the first one without a pattern. A build reads no further. -/
def readable (rules : List Rule) : List Rule := rules.takeWhile (·.method != "")

/-- What is reported about the rule at an index: a pattern that selects nothing. -/
def warning? (i : Nat) (rule : Rule) : Option Event :=
  if Form.ofText rule.method.toList = .nothing then some (.ruleNeverMatches i rule.method) else none

/-- The rules that are read are reported on in order, each at most once. -/
theorem readFrom_events (n : Nat) (rules : List Rule) :
    (readFrom n rules).2 = ((readable rules).zipIdx n).filterMap fun (rule, i) => warning? i rule := by
  induction rules generalizing n with
  | nil => rfl
  | cons rule rest ih =>
    cases hpattern : Pattern.ofText? rule.method with
    | none =>
      have hempty : rule.method = "" := (Pattern.ofText?_eq_none_iff _).1 hpattern
      have hread : readable (rule :: rest) = [] := by simp [readable, hempty]
      rw [readFrom, hpattern, hread]
      rfl
    | some pattern =>
      have hne : rule.method ≠ "" := fun h => by
        rw [(Pattern.ofText?_eq_none_iff _).2 h] at hpattern
        cases hpattern
      have hread : readable (rule :: rest) = rule :: readable rest := by simp [readable, hne]
      have hform : pattern.form = Form.ofText rule.method.toList := by
        rw [pattern.form_eq, Pattern.text_of_ofText? hpattern]
      rw [hread, List.zipIdx_cons, List.filterMap_cons, ← ih]
      by_cases hnothing : Form.ofText rule.method.toList = .nothing
      · simp [readFrom, hpattern, warning?, Pattern.canMatch, hform, hnothing]
      · simp [readFrom, hpattern, warning?, Pattern.canMatch, hform, hnothing]

theorem mem_events_build_iff {rules : List Rule} {e : Event} :
    e ∈ (build rules).2 ↔ ∃ i rule, (readable rules)[i]? = some rule ∧ warning? i rule = some e := by
  show e ∈ (readFrom 0 rules).2 ↔ _
  simp only [readFrom_events, List.mem_filterMap, Prod.exists, List.mem_zipIdx_iff_getElem?]
  exact exists_comm

/-- A build that succeeds has read all rules. -/
theorem readable_of_build {rules : List Rule} {t : RuleTable} (h : (build rules).1 = .ok t) :
    readable rules = rules := by
  rw [readable, List.takeWhile_eq_self_iff, ← toRules_of_build h]
  intro rule hrule
  obtain ⟨r, -, rfl⟩ := List.mem_map.1 hrule
  exact bne_iff_ne.2 r.pattern.text_ne

/-- A rule is reported iff the build reads that far and the pattern selects nothing. -/
theorem ruleNeverMatches_mem_build_iff {rules : List Rule} {i : Nat} {rule : Rule}
    (h : rules[i]? = some rule) :
    Event.ruleNeverMatches i rule.method ∈ (build rules).2 ↔
      i < (readable rules).length ∧ Form.ofText rule.method.toList = .nothing := by
  rw [mem_events_build_iff]
  constructor
  · rintro ⟨j, other, hread, hwarning⟩
    obtain ⟨hnothing, hevent⟩ := Option.ite_none_right_eq_some.1 hwarning
    obtain ⟨rfl, hmethod⟩ := Event.ruleNeverMatches.inj (Option.some.inj hevent)
    exact ⟨(List.getElem?_eq_some_iff.1 hread).1, hmethod ▸ hnothing⟩
  · rintro ⟨hi, hnothing⟩
    have hread : (readable rules)[i]? = some rule := by
      rw [← h, List.prefix_iff_getElem?.1 (List.takeWhile_prefix _) i hi]
      exact List.getElem?_eq_getElem hi
    exact ⟨i, rule, hread, if_pos hnothing⟩

/-! ## Rules as they were written -/

/-- The rule at index `i`, as it was written, is the first whose text denotes the method. -/
def DenotesFirst (rules : List Rule) (method : String) (i : Nat) (rule : Rule) : Prop :=
  rules[i]? = some rule ∧ Denotes rule.method method ∧
    ∀ j < i, ∀ earlier, rules[j]? = some earlier → ¬ Denotes earlier.method method

theorem toRules_getElem? (t : RuleTable) (i : Nat) :
    t.toRules[i]? = t.rules[i]?.map TableRule.toRule := by
  simp [toRules]

/-- The deciding rule of a table, by the texts of its rules. -/
theorem deciding_eq_some_iff_denotesFirst {t : RuleTable} {method : String} {i : Nat}
    {r : TableRule} :
    t.deciding method = some (i, r) ↔
      t.rules[i]? = some r ∧ DenotesFirst t.toRules method i r.toRule := by
  rw [deciding_eq_some_iff_denotes]
  simp only [FirstAt, DenotesFirst, toRules_getElem?]
  constructor
  · rintro ⟨hr, hden, hbefore⟩
    refine ⟨hr, by simp [hr], hden, fun j hj earlier hearlier => ?_⟩
    obtain ⟨q, hq, rfl⟩ := Option.map_eq_some_iff.1 hearlier
    exact hbefore j hj q hq
  · rintro ⟨hr, -, hden, hbefore⟩
    exact ⟨hr, hden, fun j hj q hq => hbefore j hj q.toRule (by simp [hq])⟩

/-- A rule of the texts that is first to denote a method decides it in the table. -/
theorem deciding_of_denotesFirst {t : RuleTable} {method : String} {i : Nat} {rule : Rule}
    (h : DenotesFirst t.toRules method i rule) :
    ∃ r, t.rules[i]? = some r ∧ r.toRule = rule ∧ t.deciding method = some (i, r) := by
  have hrule := h.1
  rw [toRules_getElem?] at hrule
  obtain ⟨r, hr, rfl⟩ := Option.map_eq_some_iff.1 hrule
  exact ⟨r, hr, rfl, deciding_eq_some_iff_denotesFirst.2 ⟨hr, h⟩⟩

theorem deciding_eq_none_of_not_denotes {t : RuleTable} {method : String}
    (h : ∀ rule ∈ t.toRules, ¬ Denotes rule.method method) : t.deciding method = none :=
  deciding_eq_none_iff_denotes.2 fun r hr => h r.toRule (List.mem_map_of_mem hr)

end RuleTable

/-- **Reference semantics.** A table that was built allows a call iff, of the rules that it was
    built from, the first whose text denotes the method asks for something that holds of the caller.
    That rule is the one reported with the decision; where no text denotes the method, the call is
    denied and no rule is reported. -/
theorem TableBuilder.verdict_eq_denotation {b : TableBuilder} {t : RuleTable}
    (h : b.build.1 = .ok t) (method : String) (caller : Option Principal) :
    (t.decision method caller = .allow ↔
      ∃ i rule, RuleTable.DenotesFirst b.rules method i rule ∧ rule.require.Holds caller) ∧
    (∀ i rule, RuleTable.DenotesFirst b.rules method i rule →
      ∃ r, t.rules[i]? = some r ∧ r.toRule = rule ∧
        t.verdict method caller = ⟨t.decision method caller, some (i, r)⟩) ∧
    ((∀ rule ∈ b.rules, ¬ Denotes rule.method method) →
      t.verdict method caller = ⟨.deny, none⟩) := by
  have hrules : t.toRules = b.rules := RuleTable.toRules_of_build h
  rw [← hrules]
  refine ⟨?_, fun i rule hfirst => ?_, fun hnone => ?_⟩
  · rw [RuleTable.decision_eq_allow_iff]
    constructor
    · rintro ⟨i, r, hdeciding, hholds⟩
      exact ⟨i, r.toRule, (RuleTable.deciding_eq_some_iff_denotesFirst.1 hdeciding).2, hholds⟩
    · rintro ⟨i, rule, hfirst, hholds⟩
      obtain ⟨r, -, rfl, hdeciding⟩ := RuleTable.deciding_of_denotesFirst hfirst
      exact ⟨i, r, hdeciding, hholds⟩
  · obtain ⟨r, hr, hrule, hdeciding⟩ := RuleTable.deciding_of_denotesFirst hfirst
    refine ⟨r, hr, hrule, ?_⟩
    rw [← hdeciding, ← RuleTable.verdict_deciding t method caller]
    rfl
  · rw [RuleTable.verdict, RuleTable.deciding_eq_none_of_not_denotes hnone]

/-- A dotted rule behind one for another service: it decides a call of its own service, and no rule
    decides a method with a slash too many. -/
theorem TableBuilder.verdict_behind_other_service :
    ∃ t, (TableBuilder.mk [⟨"Other/*", .permitAll⟩,
        ⟨"Simple.*", .hasAnyAuthority ["b", "a"]⟩]).build.1 = .ok t ∧
      t.decision "Simple/SayHello" (some ((Principal.ofId "user").withAuthority "a")) = .allow ∧
      (∃ r, t.rules[1]? = some r ∧ r.toRule = ⟨"Simple.*", .hasAnyAuthority ["b", "a"]⟩ ∧
        t.verdict "Simple/SayHello" none = ⟨t.decision "Simple/SayHello" none, some (1, r)⟩) ∧
      t.verdict "Simple/SayHello/" none = ⟨.deny, none⟩ := by
  have hfirst : RuleTable.DenotesFirst [⟨"Other/*", .permitAll⟩,
      ⟨"Simple.*", .hasAnyAuthority ["b", "a"]⟩] "Simple/SayHello" 1
      ⟨"Simple.*", .hasAnyAuthority ["b", "a"]⟩ := by
    refine ⟨rfl, by decide, fun j hj earlier hearlier => ?_⟩
    obtain rfl : j = 0 := by omega
    cases hearlier
    decide
  obtain ⟨t, hbuild⟩ : ∃ t, (TableBuilder.mk [⟨"Other/*", .permitAll⟩,
      ⟨"Simple.*", .hasAnyAuthority ["b", "a"]⟩]).build.1 = .ok t := ⟨_, rfl⟩
  refine ⟨t, hbuild, ?_, ?_, ?_⟩
  · refine (TableBuilder.verdict_eq_denotation hbuild _ _).1.2 ⟨1, _, hfirst, _, rfl, "a", ?_, ?_⟩
    · decide
    · decide
  · exact (TableBuilder.verdict_eq_denotation hbuild _ _).2.1 1 _ hfirst
  · refine (TableBuilder.verdict_eq_denotation hbuild _ _).2.2 ?_
    simp only [List.forall_mem_cons, List.not_mem_nil, false_implies, implies_true, and_true]
    exact ⟨by decide, by decide⟩

end CallPolicy
