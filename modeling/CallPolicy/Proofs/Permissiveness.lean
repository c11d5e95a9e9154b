import CallPolicy.Proofs.Privilege
import Mathlib.Data.List.Forall2

set_option autoImplicit false

/-! # How much a requirement asks for

`Requirement.Below` orders requirements by how they are written. The order is that of the callers
who satisfy them, and a few callers are enough to tell (`Requirement.below_of_tellingCallers`): none
at all, one without authorities, and for each authority that is asked for one who holds nothing
else. A table whose rules ask for more, each in its place, lets no more calls through
(`RuleTable.Tightens`). -/

namespace CallPolicy

namespace Requirement

/-! ## The order -/

/-- The authorities of which a caller must hold one, where that is what is asked. -/
def asked? : Requirement → Option (List String)
  | .hasAuthority a => some [a]
  | .hasAnyAuthority l => some l
  | _ => none

/-- The first requirement asks for at least as much as the second. What nobody satisfies is below
    everything. To ask for one of some authorities is below asking for one of more, and all of this
    is below asking for any caller; everything is below what everyone satisfies. -/
inductive Below : Requirement → Requirement → Prop where
  | refl (r : Requirement) : Below r r
  | denyAll (r : Requirement) : Below .denyAll r
  | noAuthority (r : Requirement) : Below (.hasAnyAuthority []) r
  | fewer {r r' : Requirement} {l l' : List String} (h : r.asked? = some l)
      (h' : r'.asked? = some l') (hsub : ∀ a ∈ l, a ∈ l') : Below r r'
  | authenticated {r : Requirement} {l : List String} (h : r.asked? = some l) :
      Below r .authenticated
  | permitAll (r : Requirement) : Below r .permitAll

/-- To ask for one of several authorities, in either spelling. -/
theorem holds_iff_of_asked? {r : Requirement} {l : List String} (h : r.asked? = some l)
    {caller : Option Principal} :
    r.Holds caller ↔ ∃ p, caller = some p ∧ ∃ a ∈ l, a ∈ p.authorities.toList := by
  cases r with
  | hasAuthority a =>
    cases h
    simp [Holds]
  | hasAnyAuthority l' =>
    cases h
    rfl
  | permitAll => cases h
  | denyAll => cases h
  | authenticated => cases h

/-- What holds of a caller holds above as well. -/
theorem Below.holds {r r' : Requirement} (h : r.Below r') {caller : Option Principal}
    (hcaller : r.Holds caller) : r'.Holds caller := by
  cases h with
  | refl => exact hcaller
  | denyAll => exact hcaller.elim
  | noAuthority =>
    obtain ⟨p, -, a, ha, -⟩ := hcaller
    cases ha
  | fewer hr hr' hsub =>
    obtain ⟨p, hp, a, ha, hheld⟩ := (holds_iff_of_asked? hr).1 hcaller
    exact (holds_iff_of_asked? hr').2 ⟨p, hp, a, hsub a ha, hheld⟩
  | authenticated hr =>
    obtain ⟨p, hp, -⟩ := (holds_iff_of_asked? hr).1 hcaller
    exact ⟨p, hp⟩
  | permitAll => trivial

/-! ## Telling callers -/

/-- A caller that holds one authority and nothing else. -/
def bearer (a : String) : Principal := (Principal.ofId "").withAuthority a

/-- The callers that tell a requirement from those that it is not below. -/
def tellingCallers (r : Requirement) : List (Option Principal) :=
  none :: some (Principal.ofId "") :: (r.asked?.getD []).map fun a => some (bearer a)

theorem holds_none_iff {r : Requirement} : r.Holds none ↔ r = .permitAll := by
  cases r <;> simp [Holds]

theorem holds_bare_iff {r : Requirement} {id : String} :
    r.Holds (some (Principal.ofId id)) ↔ r = .permitAll ∨ r = .authenticated := by
  cases r <;> simp [Holds, Principal.ofId, AuthoritySet.empty]

theorem holds_bearer_iff {r : Requirement} {a : String} :
    r.Holds (some (bearer a)) ↔
      r = .permitAll ∨ r = .authenticated ∨ ∃ l, r.asked? = some l ∧ a ∈ l := by
  have hheld : ∀ x, x ∈ (bearer a).authorities.toList ↔ x = a := fun x => by
    simp [bearer, Principal.mem_withAuthority_iff, Principal.ofId, AuthoritySet.empty]
  cases r <;> simp [Holds, asked?, hheld, eq_comm]

/-- What asks for authorities is below a requirement that holds of the bearer of each of them. -/
theorem below_of_bearers {r r' : Requirement} {l : List String} (hasked : r.asked? = some l)
    (h : ∀ a ∈ l, r'.Holds (some (bearer a))) : r.Below r' := by
  cases l with
  | nil =>
    cases r with
    | hasAnyAuthority l =>
      cases hasked
      exact .noAuthority r'
    | _ => cases hasked
  | cons a rest =>
    -- the bearer of the first one tells what kind of requirement the other is
    rcases holds_bearer_iff.1 (h a List.mem_cons_self) with rfl | rfl | ⟨l', hasked', -⟩
    · exact .permitAll r
    · exact .authenticated hasked
    · refine .fewer hasked hasked' fun b hb => ?_
      rcases holds_bearer_iff.1 (h b hb) with rfl | rfl | ⟨l'', hasked'', hb''⟩
      · cases hasked'
      · cases hasked'
      · rw [hasked', Option.some.injEq] at hasked''
        exact hasked'' ▸ hb''

/-- If each telling caller of a requirement that satisfies it satisfies another one too, it is
    below the other one. -/
theorem below_of_tellingCallers {r r' : Requirement}
    (h : ∀ caller ∈ r.tellingCallers, r.Holds caller → r'.Holds caller) : r.Below r' := by
  have hbearers : ∀ l, r.asked? = some l → ∀ a ∈ l, r'.Holds (some (bearer a)) := by
    intro l hasked a ha
    have hmem : some (bearer a) ∈ r.tellingCallers := by
      rw [tellingCallers, hasked]
      exact List.mem_cons_of_mem _ (List.mem_cons_of_mem _ (List.mem_map_of_mem ha))
    exact h _ hmem (holds_bearer_iff.2 (.inr (.inr ⟨l, hasked, ha⟩)))
  cases r with
  | permitAll =>
    rw [holds_none_iff.1 (h none (by simp [tellingCallers]) trivial)]
    exact .refl _
  | denyAll => exact .denyAll r'
  | authenticated =>
    rcases holds_bare_iff.1 (h (some (Principal.ofId "")) (by simp [tellingCallers]) ⟨_, rfl⟩) with
      rfl | rfl
    · exact .permitAll _
    · exact .refl _
  | hasAuthority a => exact below_of_bearers rfl (hbearers [a] rfl)
  | hasAnyAuthority l => exact below_of_bearers rfl (hbearers l rfl)

theorem below_iff_tellingCallers {r r' : Requirement} :
    r.Below r' ↔ ∀ caller ∈ r.tellingCallers, r.admits caller = true → r'.admits caller = true := by
  simp only [admits_iff_holds]
  exact ⟨fun h _ _ => h.holds, below_of_tellingCallers⟩

instance (r r' : Requirement) : Decidable (r.Below r') :=
  decidable_of_iff _ below_iff_tellingCallers.symm

example : (Requirement.hasAuthority "a").Below (.hasAnyAuthority ["b", "a", "b"]) ∧
    ¬ (Requirement.hasAnyAuthority ["b", "a"]).Below (.hasAuthority "a") := by decide

end Requirement

/-! ## Tables that ask for more -/

/-- The first rule is for the same methods as the second and asks for at least as much. -/
def TableRule.Tightens (r q : TableRule) : Prop :=
  r.pattern.text = q.pattern.text ∧ r.require.Below q.require

namespace RuleTable

/-- The tables have the same texts in the same order, and each rule of the first one asks for at
    least as much as the one in its place. -/
def Tightens (t u : RuleTable) : Prop := List.Forall₂ TableRule.Tightens t.rules u.rules

/-- Both searches stop in the same place. -/
theorem decidingFrom_of_tightens {rules others : List TableRule}
    (h : List.Forall₂ TableRule.Tightens rules others) {n i : Nat} {method : String}
    {r : TableRule} (hdeciding : decidingFrom n method rules = some (i, r)) :
    ∃ q, decidingFrom n method others = some (i, q) ∧ r.Tightens q := by
  induction h generalizing n with
  | nil => cases hdeciding
  | @cons head other rest others' hhead _ ih =>
    rw [decidingFrom] at hdeciding ⊢
    rw [← Pattern.ext_text hhead.1]
    by_cases hselects : head.pattern.selects method = true
    · rw [if_pos hselects] at hdeciding ⊢
      cases hdeciding
      exact ⟨other, rfl, hhead⟩
    · rw [if_neg hselects] at hdeciding ⊢
      exact ih hdeciding

theorem Tightens.allow {t u : RuleTable} (h : t.Tightens u) {method : String}
    {caller : Option Principal} (hallow : t.decision method caller = .allow) :
    u.decision method caller = .allow := by
  obtain ⟨i, r, hdeciding, hholds⟩ := decision_eq_allow_iff.1 hallow
  obtain ⟨q, hother, -, hbelow⟩ := decidingFrom_of_tightens h hdeciding
  exact decision_eq_allow_iff.2 ⟨i, q, hother, hbelow.holds hholds⟩

/-- **Permissiveness.** One requirement is below another iff every caller that it lets through is let
    through by the other. A table whose rules ask for at least as much as those of another table
    with the same texts lets a call through only if the other one does. -/
theorem permissiveness_exact :
    (∀ r r' : Requirement,
      r.Below r' ↔ ∀ caller, r.decision caller = .allow → r'.decision caller = .allow) ∧
    ∀ t u : RuleTable, t.Tightens u → ∀ method caller,
      t.decision method caller = .allow → u.decision method caller = .allow := by
  refine ⟨fun r r' => ?_, fun t u h method caller => h.allow⟩
  simp only [Requirement.decision_eq_allow_iff]
  exact ⟨fun h _ => h.holds, fun h => Requirement.below_of_tellingCallers fun caller _ => h caller⟩

/-- To ask for one of no authorities, or for fewer authorities, tightens a rule: a call that is let
    through stays let through in the looser table. To ask for one of two authorities is not below
    asking for one of them. -/
theorem fewer_authorities_tighten :
    let strict : RuleTable := ⟨[⟨⟨"Simple/*", _, by decide, rfl⟩, .hasAuthority "a"⟩,
      ⟨⟨"*", _, by decide, rfl⟩, .hasAnyAuthority []⟩]⟩
    let loose : RuleTable := ⟨[⟨⟨"Simple/*", _, by decide, rfl⟩, .hasAnyAuthority ["b", "a", "b"]⟩,
      ⟨⟨"*", _, by decide, rfl⟩, .denyAll⟩]⟩
    strict.Tightens loose ∧
      loose.decision "Simple/Check" (some ((Principal.ofId "user").withAuthority "a")) = .allow ∧
      ∃ caller, (Requirement.hasAnyAuthority ["b", "a"]).decision caller = .allow ∧
        (Requirement.hasAuthority "a").decision caller ≠ .allow := by
  intro strict loose
  have htightens : strict.Tightens loose :=
    .cons ⟨rfl, by decide⟩ (.cons ⟨rfl, by decide⟩ .nil)
  refine ⟨htightens, permissiveness_exact.2 strict loose htightens _ _ (by decide), ?_⟩
  have hnot := mt (permissiveness_exact.1 (.hasAnyAuthority ["b", "a"]) (.hasAuthority "a")).2
    (by decide)
  push Not at hnot
  exact hnot

end RuleTable

end CallPolicy
