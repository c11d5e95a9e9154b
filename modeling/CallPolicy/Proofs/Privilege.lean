import CallPolicy.Proofs.Rule

set_option autoImplicit false

/-! # Decisions and the privilege of callers

What a decision may depend on. A caller counts only by the authorities that it holds, and more of
them never turn a call down (`Requirement.Holds.mono`); which rule decides is settled before anyone
looks at the caller. The authorities of a caller are those that its last grants leave
(`Principal.mem_grantAll_iff`), in whatever order and however often they were granted. -/

namespace CallPolicy

/-! ## Building callers -/

/-- A step in building a caller. -/
inductive Grant where
  /-- One more authority. -/
  | one (authority : String)
  /-- These authorities in place of all before. -/
  | exactly (authorities : List String)
deriving DecidableEq

/-- What is left of the authorities listed first, and of those granted one after the other. -/
def Grant.left (held : List String) : List Grant → List String
  | [] => held
  | .one a :: rest => left (a :: held) rest
  | .exactly l :: rest => left l rest

namespace Principal

/-- The caller after one grant. -/
def grant (p : Principal) : Grant → Principal
  | .one a => p.withAuthority a
  | .exactly l => p.withAuthorities l

/-- The caller after several grants. -/
def grantAll (p : Principal) (grants : List Grant) : Principal :=
  grants.foldl grant p

theorem mem_withAuthority_iff {p : Principal} {a x : String} :
    x ∈ (p.withAuthority a).authorities.toList ↔ x = a ∨ x ∈ p.authorities.toList :=
  AuthoritySet.mem_toList_insert

theorem mem_withAuthorities_iff {p : Principal} {l : List String} {x : String} :
    x ∈ (p.withAuthorities l).authorities.toList ↔ x ∈ l :=
  AuthoritySet.mem_toList_ofList

/-- The set that is built has the members of the list that is left. -/
theorem mem_grantAll_iff {p : Principal} {held : List String} {grants : List Grant} {x : String}
    (hheld : ∀ a, a ∈ p.authorities.toList ↔ a ∈ held) :
    x ∈ (p.grantAll grants).authorities.toList ↔ x ∈ Grant.left held grants := by
  induction grants generalizing p held with
  | nil => exact hheld x
  | cons g rest ih =>
    cases g with
    | one a =>
      refine ih fun b => ?_
      rw [grant, mem_withAuthority_iff, List.mem_cons, hheld b]
    | exactly l => exact ih fun b => mem_withAuthorities_iff

end Principal

/-! ## The rank of callers -/

/-- The first caller holds nothing that the second does not: a call without a caller ranks below
    all others, and of two callers only the authorities count. -/
def RanksBelow : Option Principal → Option Principal → Prop
  | none, _ => True
  | some _, none => False
  | some p, some q => ∀ a ∈ p.authorities.toList, a ∈ q.authorities.toList

theorem ranksBelow_none (caller : Option Principal) : RanksBelow none caller :=
  trivial

/-- What holds of a caller holds of every caller of a higher rank. -/
theorem Requirement.Holds.mono {r : Requirement} {caller higher : Option Principal}
    (hrank : RanksBelow caller higher) (h : r.Holds caller) : r.Holds higher := by
  cases r with
  | permitAll => trivial
  | denyAll => exact h.elim
  | authenticated =>
    obtain ⟨p, rfl⟩ := h
    cases higher with
    | none => exact hrank.elim
    | some q => exact ⟨q, rfl⟩
  | hasAuthority a =>
    obtain ⟨p, rfl, ha⟩ := h
    cases higher with
    | none => exact hrank.elim
    | some q => exact ⟨q, rfl, hrank a ha⟩
  | hasAnyAuthority l =>
    obtain ⟨p, rfl, a, hl, ha⟩ := h
    cases higher with
    | none => exact hrank.elim
    | some q => exact ⟨q, rfl, a, hl, hrank a ha⟩

namespace RuleTable

theorem decision_mono {t : RuleTable} {method : String} {caller higher : Option Principal}
    (hrank : RanksBelow caller higher) (h : t.decision method caller = .allow) :
    t.decision method higher = .allow := by
  obtain ⟨i, r, hdeciding, hholds⟩ := decision_eq_allow_iff.1 h
  exact decision_eq_allow_iff.2 ⟨i, r, hdeciding, hholds.mono hrank⟩

/-- Callers of the same rank get the same answer from the same rule. -/
theorem verdict_congr {t : RuleTable} {method : String} {caller other : Option Principal}
    (hbelow : RanksBelow caller other) (habove : RanksBelow other caller) :
    t.verdict method caller = t.verdict method other := by
  have hallow : t.decision method caller = .allow ↔ t.decision method other = .allow :=
    ⟨decision_mono hbelow, decision_mono habove⟩
  have hdecision : t.decision method caller = t.decision method other := by
    cases hc : t.decision method caller <;> cases ho : t.decision method other <;> simp_all
  have hdeciding : (t.verdict method caller).deciding = (t.verdict method other).deciding := by
    rw [verdict_deciding, verdict_deciding]
  calc t.verdict method caller
      = ⟨t.decision method caller, (t.verdict method caller).deciding⟩ := rfl
    _ = ⟨t.decision method other, (t.verdict method other).deciding⟩ := by rw [hdecision, hdeciding]
    _ = t.verdict method other := rfl

/-- **Only privilege counts.** What is open to a call without a caller is open to every caller, and
    what is open to a caller is open to all that hold at least its authorities. Callers that were
    built in any two ways get the same answer from the same rule if the same authorities are left
    of their grants, whatever their names. Which rule decides does not depend on the caller. -/
theorem verdict_by_privilege (t : RuleTable) (method : String) :
    (t.decision method none = .allow → ∀ p, t.decision method (some p) = .allow) ∧
    (∀ p q : Principal, (∀ a ∈ p.authorities.toList, a ∈ q.authorities.toList) →
      t.decision method (some p) = .allow → t.decision method (some q) = .allow) ∧
    (∀ (p q : Principal) (grants others : List Grant),
      (∀ a, a ∈ Grant.left p.authorities.toList grants ↔
        a ∈ Grant.left q.authorities.toList others) →
      t.verdict method (some (p.grantAll grants)) = t.verdict method (some (q.grantAll others))) ∧
    ∀ caller other, (t.verdict method caller).deciding = (t.verdict method other).deciding := by
  refine ⟨fun h p => decision_mono (ranksBelow_none _) h, fun p q hsub => decision_mono hsub,
    fun p q grants others hleft => ?_, fun caller other => ?_⟩
  · have hsame : ∀ a, a ∈ (p.grantAll grants).authorities.toList ↔
        a ∈ (q.grantAll others).authorities.toList := fun a => by
      rw [Principal.mem_grantAll_iff fun _ => Iff.rfl, Principal.mem_grantAll_iff fun _ => Iff.rfl,
        hleft a]
    exact verdict_congr (fun a => (hsame a).1) fun a => (hsame a).2
  · rw [verdict_deciding, verdict_deciding]

/-- Two callers whose authorities were granted in another order, one of them twice and behind a
    replacement, get the same answer; a caller with one authority more is let through as well, and
    a method that is open without a caller is open to all. -/
theorem verdict_of_reordered_grants :
    let t : RuleTable := ⟨[⟨⟨"Simple/*", _, by decide, rfl⟩, .hasAnyAuthority ["ops", "dev"]⟩,
      ⟨⟨"*", _, by decide, rfl⟩, .permitAll⟩]⟩
    let p := Principal.ofId "alice"
    let q := Principal.ofId "bob"
    let grants : List Grant := [.one "dev", .one "audit"]
    let others : List Grant := [.one "ops", .exactly ["audit", "audit"], .one "dev"]
    t.verdict "Simple/SayHello" (some (p.grantAll grants)) =
        t.verdict "Simple/SayHello" (some (q.grantAll others)) ∧
      t.decision "Simple/SayHello" (some ((q.grantAll others).withAuthority "ops")) = .allow ∧
      ∀ caller, t.decision "Health/Check" (some caller) = .allow := by
  intro t p q grants others
  refine ⟨(t.verdict_by_privilege _).2.2.1 p q grants others fun a => ?_,
    (t.verdict_by_privilege _).2.1 (q.grantAll others) _ (fun a ha => ?_) (by decide),
    (t.verdict_by_privilege _).1 (by decide)⟩
  · show a ∈ ["audit", "dev"] ↔ a ∈ ["dev", "audit", "audit"]
    grind
  · exact Principal.mem_withAuthority_iff.2 (.inr ha)

end RuleTable

end CallPolicy
