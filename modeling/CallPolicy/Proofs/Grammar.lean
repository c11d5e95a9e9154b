import CallPolicy.Proofs.DecodeJson
import CallPolicy.Proofs.Policy

set_option autoImplicit false

/-! # The grammar of policies in JSON

Which JSON values say a policy, and which policy: `Policy.Says` and its like are about values alone
and know no decoder. Each decoder accepts exactly the values that say something, and gives back what
they say (`Requirement.read_eq_ok_iff`, `Rule.read_eq_ok_iff`, `Policy.read_eq_ok_iff`). -/

namespace CallPolicy

open Json

/-! ## What values say -/

/-- The value says a requirement: it is the name of one without argument, or an object whose only
    member has the name of one with an argument. -/
inductive Requirement.Says : Json → Requirement → Prop where
  | permitAll : Says (.string "permit_all") .permitAll
  | denyAll : Says (.string "deny_all") .denyAll
  | authenticated : Says (.string "authenticated") .authenticated
  | hasAuthority (a : String) : Says (.object [("has_authority", .string a)]) (.hasAuthority a)
  | hasAnyAuthority (l : List String) :
      Says (.object [("has_any_authority", .array (l.map .string))]) (.hasAnyAuthority l)

/-- The value says a rule: an object with a method and a requirement, and with any other members, or
    the two in an array. -/
inductive Rule.Says : Json → Rule → Prop where
  | members {members : List (String × Json)} {method : String} {v : Json} {r : Requirement}
      (hmethod : valuesOf members "method" = [.string method])
      (hrequire : valuesOf members "require" = [v]) (h : Requirement.Says v r) :
      Says (.object members) ⟨method, r⟩
  | items {method : String} {v : Json} {r : Requirement} (h : Requirement.Says v r) :
      Says (.array [.string method, v]) ⟨method, r⟩

/-- The value says a policy: an object with an array of rules, and with any other members, or that
    array alone in an array. Where it is left out there are no rules. -/
inductive Policy.Says : Json → Policy → Prop where
  | noMember {members : List (String × Json)} (hnone : valuesOf members "rules" = []) :
      Says (.object members) ⟨[]⟩
  | members {members : List (String × Json)} {items : List Json} {rules : List Rule}
      (hrules : valuesOf members "rules" = [.array items])
      (heach : List.Forall₂ Rule.Says items rules) : Says (.object members) ⟨rules⟩
  | noItem : Says (.array []) ⟨[]⟩
  | items {items : List Json} {rules : List Rule} (heach : List.Forall₂ Rule.Says items rules) :
      Says (.array [.array items]) ⟨rules⟩

/-! ## Requirements -/

namespace Requirement

theorem readKind_eq_ok_iff {name : String} {kind : Kind} :
    (readKind name : JsonDecode Kind) = .ok kind ↔ name = kind.name := by
  constructor
  · intro h
    unfold readKind Kind.ofName? at h
    split at h
    · rename_i found hfound
      cases h
      have hname := List.find?_some hfound
      exact (beq_iff_eq.1 hname).symm
    · exact absurd h failHere_ne_ok
  · rintro rfl
    cases kind <;> rfl

theorem readBare_eq_ok_iff {name : String} {r : Requirement} :
    (readBare name : JsonDecode Requirement) = .ok r ↔ Says (.string name) r := by
  rw [readBare, bind_eq_ok_iff]
  simp only [readKind_eq_ok_iff]
  constructor
  · rintro ⟨kind, rfl, h⟩
    cases kind with
    | permitAll => cases h; exact .permitAll
    | denyAll => cases h; exact .denyAll
    | authenticated => cases h; exact .authenticated
    | hasAuthority => exact absurd h failHere_ne_ok
    | hasAnyAuthority => exact absurd h failHere_ne_ok
  · intro h
    cases h with
    | permitAll => exact ⟨.permitAll, rfl, rfl⟩
    | denyAll => exact ⟨.denyAll, rfl, rfl⟩
    | authenticated => exact ⟨.authenticated, rfl, rfl⟩

theorem endOfMap_eq_ok_iff {members : List (String × Json)} :
    (endOfMap (keyed members) : JsonDecode Unit) = .ok () ↔ members = [] := by
  cases members with
  | nil => exact ⟨fun _ => rfl, fun _ => rfl⟩
  | cons member rest => exact ⟨fun h => absurd h failHere_ne_ok, fun h => (by cases h)⟩

theorem readMap_eq_ok_iff {members : List (String × Json)} {r : Requirement} :
    (readMap (keyed members) : JsonDecode Requirement) = .ok r ↔ Says (.object members) r := by
  cases members with
  | nil => exact ⟨fun h => absurd h failHere_ne_ok, fun h => (by cases h)⟩
  | cons member rest =>
    obtain ⟨name, v⟩ := member
    rw [keyed, List.map_cons, readMap, text_string, pure_bind, bind_eq_ok_iff, ← keyed]
    simp only [readKind_eq_ok_iff]
    constructor
    · rintro ⟨kind, rfl, h⟩
      cases kind with
      | permitAll => exact absurd h failHere_ne_ok
      | denyAll => exact absurd h failHere_ne_ok
      | authenticated => exact absurd h failHere_ne_ok
      | hasAuthority =>
        obtain ⟨a, ha, h⟩ := bind_eq_ok_iff.1 h
        obtain ⟨_, hend, h⟩ := bind_eq_ok_iff.1 h
        obtain rfl := readText_eq_ok_iff.1 (within_eq_ok_iff.1 ha)
        obtain rfl := endOfMap_eq_ok_iff.1 hend
        cases h
        exact .hasAuthority a
      | hasAnyAuthority =>
        obtain ⟨l, hl, h⟩ := bind_eq_ok_iff.1 h
        obtain ⟨_, hend, hr⟩ := bind_eq_ok_iff.1 h
        obtain rfl := endOfMap_eq_ok_iff.1 hend
        rw [readTexts_eq_ok_iff.1 (within_eq_ok_iff.1 hl)]
        cases hr
        exact .hasAnyAuthority l
    · intro h
      cases h with
      | hasAuthority a =>
        exact ⟨.hasAuthority, rfl, bind_eq_ok_iff.2
          ⟨a, within_eq_ok_iff.2 rfl, bind_eq_ok_iff.2 ⟨(), rfl, rfl⟩⟩⟩
      | hasAnyAuthority l =>
        exact ⟨.hasAnyAuthority, rfl, bind_eq_ok_iff.2 ⟨l,
          within_eq_ok_iff.2 (readTexts_eq_ok_iff.2 rfl), bind_eq_ok_iff.2 ⟨(), rfl, rfl⟩⟩⟩

theorem read_eq_ok_iff {v : Json} {r : Requirement} :
    (Requirement.read v : JsonDecode Requirement) = .ok r ↔ Says v r := by
  cases v with
  | string name => exact readBare_eq_ok_iff
  | object members => exact readMap_eq_ok_iff
  | _ => exact ⟨fun h => absurd h failHere_ne_ok, fun h => (by cases h)⟩

end Requirement

/-! ## Rules -/

namespace Rule

/-- The fields of a rule in JSON. -/
abbrev jsonFields : Fields JsonDecode Json Field := fields

theorem isField_method : IsField jsonFields.entries "method" readText
    (fun | .method text => some text | _ => none) := by
  refine .of_lookup Field.method rfl (fun v x => ?_) (fun _ => rfl) ?_
  · exact bind_eq_ok_iff.trans (by simp [pure, Except.pure])
  · rw [jsonFields, fields, List.forall_mem_cons, List.forall_mem_singleton]
    refine ⟨fun hne => absurd rfl hne, fun _ v x hx => ?_⟩
    obtain ⟨r, -, h⟩ := bind_eq_ok_iff.1 hx
    cases h
    rfl

theorem isField_require : IsField jsonFields.entries "require" Requirement.read
    (fun | .require r => some r | _ => none) := by
  refine .of_lookup Field.require rfl (fun v x => ?_) (fun _ => rfl) ?_
  · exact bind_eq_ok_iff.trans (by simp [pure, Except.pure])
  · rw [jsonFields, fields, List.forall_mem_cons, List.forall_mem_singleton]
    refine ⟨fun _ v x hx => ?_, fun hne => absurd rfl hne⟩
    obtain ⟨text, -, h⟩ := bind_eq_ok_iff.1 hx
    cases h
    rfl

/-- A rule is read iff the fields that the value gives hold its method and its requirement. -/
theorem read_eq_ok_iff_givesFields {v : Json} {r : Rule} :
    (Rule.read v : JsonDecode Rule) = .ok r ↔ ∃ values, GivesFields jsonFields.entries v values ∧
      values.findSome? (fun | .method text => some text | _ => none) = some r.method ∧
      values.findSome? (fun | .require q => some q | _ => none) = some r.require := by
  simp only [← exists_readRecord_iff]
  constructor
  · intro h
    obtain ⟨⟨values, missing⟩, hrecord, h⟩ := bind_eq_ok_iff.1 h
    obtain ⟨method, hmethod, h⟩ := bind_eq_ok_iff.1 h
    obtain ⟨require, hrequire, h⟩ := bind_eq_ok_iff.1 h
    cases h
    exact ⟨values, ⟨missing, hrecord⟩, required_eq_ok_iff.1 hmethod, required_eq_ok_iff.1 hrequire⟩
  · rintro ⟨values, ⟨missing, hrecord⟩, hmethod, hrequire⟩
    exact bind_eq_ok_iff.2 ⟨_, hrecord, bind_eq_ok_iff.2 ⟨r.method, required_eq_ok_iff.2 hmethod,
      bind_eq_ok_iff.2 ⟨r.require, required_eq_ok_iff.2 hrequire, rfl⟩⟩⟩

theorem read_eq_ok_iff {v : Json} {r : Rule} :
    (Rule.read v : JsonDecode Rule) = .ok r ↔ Says v r := by
  rw [read_eq_ok_iff_givesFields]
  constructor
  · rintro ⟨values, hfields, hmethod, hrequire⟩
    cases hfields with
    | members hvalues =>
      -- a field that is found has one value, and that is what its decoder accepted
      obtain ⟨t, ht, hread⟩ := (isField_method.findSome?_eq_some_iff hvalues).1 hmethod
      obtain ⟨v, hv, hsays⟩ := (isField_require.findSome?_eq_some_iff hvalues).1 hrequire
      rw [readText_eq_ok_iff.1 hread] at ht
      exact .members ht hv (Requirement.read_eq_ok_iff.1 hsays)
    | @items items _ hlength hvalues =>
      -- of the two fields given by position none may be left out
      match items, hlength, hvalues with
      | [], _, .nil => cases hmethod
      | [v], _, .cons hv .nil =>
        obtain ⟨text, -, h⟩ := bind_eq_ok_iff.1 hv
        cases h
        cases hrequire
      | [v, w], _, .cons hv (.cons hw .nil) =>
        obtain ⟨text, htext, h⟩ := bind_eq_ok_iff.1 hv
        cases h
        obtain ⟨q, hq, h⟩ := bind_eq_ok_iff.1 hw
        cases h
        cases hmethod
        cases hrequire
        obtain rfl : v = .string r.method := readText_eq_ok_iff.1 htext
        exact .items (Requirement.read_eq_ok_iff.1 hq)
  · intro h
    cases h with
    | @members members method v q hmethod hrequire hsays =>
      have hread := Requirement.read_eq_ok_iff.2 hsays
      obtain ⟨values, hvalues⟩ : ∃ values, readMembers jsonFields.entries [] (keyed members) =
          .ok values := by
        apply exists_readMembers
        rw [jsonFields, fields, List.forall_mem_cons, List.forall_mem_singleton]
        exact ⟨.inr (isField_method.accepted hmethod rfl),
          .inr (isField_require.accepted hrequire hread)⟩
      exact ⟨values, .members hvalues,
        (isField_method.findSome?_eq_some_iff hvalues).2 ⟨_, hmethod, rfl⟩,
        (isField_require.findSome?_eq_some_iff hvalues).2 ⟨_, hrequire, hread⟩⟩
    | @items method v q hsays =>
      have hread := Requirement.read_eq_ok_iff.2 hsays
      refine ⟨[.method method, .require q], .items (Nat.le_refl 2) ?_, rfl, rfl⟩
      exact .cons rfl (.cons (bind_eq_ok_iff.2 ⟨q, hread, rfl⟩) .nil)

end Rule

/-! ## Policies -/

theorem forall₂_read_iff {items : List Json} {rules : List Rule} :
    List.Forall₂ (fun v r => (Rule.read v : JsonDecode Rule) = .ok r) items rules ↔
      List.Forall₂ Rule.Says items rules := by
  simp only [Rule.read_eq_ok_iff]

namespace Policy

/-- The only field of a policy in JSON. -/
abbrev jsonFields : Fields JsonDecode Json (List Rule) :=
  { name := "AuthorizationConfig", entries := [("rules", readList Rule.read)] }

theorem isField_rules : IsField jsonFields.entries "rules" (readList Rule.read) some := by
  refine .of_lookup id rfl (fun v x => by simp) (fun _ => rfl) ?_
  rw [jsonFields, List.forall_mem_singleton]
  exact fun hne => absurd rfl hne

/-- A policy is read iff its rules, if the value gives any, are those of the field. -/
theorem read_eq_ok_iff_givesFields {v : Json} {p : Policy} :
    (Policy.read v : JsonDecode Policy) = .ok p ↔ ∃ values,
      GivesFields jsonFields.entries v values ∧ (values.findSome? some).getD [] = p.rules := by
  constructor
  · intro h
    obtain ⟨⟨values, missing⟩, hrecord, h⟩ := bind_eq_ok_iff.1 h
    cases h
    exact ⟨values, exists_readRecord_iff.1 ⟨missing, hrecord⟩, rfl⟩
  · rintro ⟨values, hfields, hrules⟩
    obtain ⟨missing, hrecord⟩ : ∃ missing, readRecord jsonFields v = .ok ⟨values, missing⟩ :=
      exists_readRecord_iff.2 hfields
    obtain ⟨rules⟩ := p
    cases hrules
    exact bind_eq_ok_iff.2 ⟨_, hrecord, rfl⟩

theorem read_eq_ok_iff {v : Json} {p : Policy} :
    (Policy.read v : JsonDecode Policy) = .ok p ↔ Says v p := by
  obtain ⟨rules⟩ := p
  rw [read_eq_ok_iff_givesFields]
  constructor
  · rintro ⟨values, hfields, rfl⟩
    cases hfields with
    | members hvalues =>
      cases hfound : values.findSome? some with
      | none => exact .noMember ((isField_rules.findSome?_eq_none_iff hvalues).1 hfound)
      | some rules =>
        obtain ⟨v, hv, hread⟩ := (isField_rules.findSome?_eq_some_iff hvalues).1 hfound
        obtain ⟨items, rfl, heach⟩ := readList_eq_ok_iff.1 hread
        exact .members hv (forall₂_read_iff.1 heach)
    | @items items _ hlength hvalues =>
      match items, hlength, hvalues with
      | [], _, .nil => exact .noItem
      | [v], _, .cons hread .nil =>
        obtain ⟨items, hv, heach⟩ := readList_eq_ok_iff.1 hread
        obtain rfl : v = .array items := hv
        exact .items (forall₂_read_iff.1 heach)
  · intro h
    cases h with
    | @noMember members hnone =>
      obtain ⟨values, hvalues⟩ : ∃ values, readMembers jsonFields.entries [] (keyed members) =
          .ok values := exists_readMembers (List.forall_mem_singleton.2 (.inl hnone))
      refine ⟨values, .members hvalues, ?_⟩
      rw [(isField_rules.findSome?_eq_none_iff hvalues).2 hnone]
      rfl
    | @members members items _ hone heach =>
      have hread := readList_eq_ok_iff.2 ⟨items, rfl, forall₂_read_iff.2 heach⟩
      obtain ⟨values, hvalues⟩ : ∃ values, readMembers jsonFields.entries [] (keyed members) =
          .ok values :=
        exists_readMembers (List.forall_mem_singleton.2 (.inr (isField_rules.accepted hone hread)))
      refine ⟨values, .members hvalues, ?_⟩
      rw [(isField_rules.findSome?_eq_some_iff hvalues).2 ⟨_, hone, hread⟩]
      rfl
    | noItem => exact ⟨[], .items (Nat.zero_le 1) .nil, rfl⟩
    | items heach =>
      have hread := readList_eq_ok_iff.2 ⟨_, rfl, forall₂_read_iff.2 heach⟩
      exact ⟨[rules], .items (Nat.le_refl 1) (.cons hread .nil), rfl⟩

end Policy

/-! ## Tables -/

namespace RuleTable

theorem ofJson_eq_ok_iff {v : Json} {t : RuleTable} {events : List Event} :
    ofJson v = .ok (t, events) ↔ ∃ p, Policy.Says v p ∧ p.table = (.ok t, events) := by
  simp only [ofJson, bind_eq_ok_iff, mapError_eq_ok_iff, ofPolicy_eq_ok_iff, Policy.read_eq_ok_iff]

/-- A table is read from the values that say the policy written for it. -/
theorem exists_ofJson_eq_ok_iff {v : Json} {t : RuleTable} :
    (∃ events, ofJson v = .ok (t, events)) ↔ Policy.Says v (Policy.ofTable t) := by
  simp only [ofJson_eq_ok_iff]
  constructor
  · rintro ⟨events, p, hsays, htable⟩
    rwa [Policy.ofTable_of_table (by rw [htable])]
  · intro hsays
    obtain ⟨events, htable⟩ := t.exists_events_ofTable
    exact ⟨events, _, hsays, htable⟩

theorem exists_of_says_iff {v : Json} :
    (∃ t, Policy.Says v (Policy.ofTable t)) ↔
      ∃ p, Policy.Says v p ∧ ∀ rule ∈ p.rules, rule.method ≠ "" := by
  constructor
  · rintro ⟨t, hsays⟩
    exact ⟨_, hsays, exists_build_eq_ok_iff.1 ⟨t, build_eq_ok_iff.2 rfl⟩⟩
  · rintro ⟨⟨rules⟩, hsays, hmethods⟩
    obtain ⟨t, rfl⟩ := exists_toRules hmethods
    exact ⟨t, hsays⟩

end RuleTable

/-! ## What says nothing -/

theorem Requirement.Says.bare {name : String} {r : Requirement} (h : Says (.string name) r) :
    name = "permit_all" ∨ name = "deny_all" ∨ name = "authenticated" := by
  cases h <;> simp

theorem Requirement.Says.single {members : List (String × Json)} {r : Requirement}
    (h : Says (.object members) r) :
    ∃ name v, members = [(name, v)] ∧ (name = "has_authority" ∨ name = "has_any_authority") := by
  cases h with
  | hasAuthority a => exact ⟨_, _, rfl, .inl rfl⟩
  | hasAnyAuthority l => exact ⟨_, _, rfl, .inr rfl⟩

theorem Policy.Says.not_null {members : List (String × Json)} {p : Policy}
    (h : Says (.object members) p) : ("rules", Json.null) ∉ members := by
  rw [← mem_valuesOf]
  cases h with
  | noMember hnone => simp [hnone]
  | members hone => simp [hone]

/-- **The decoder accepts its grammar and nothing else.** A value is read as a requirement, or as a
    policy, iff it says one, and as that one. It is read as a table iff it says a policy in which
    every rule has a method; the table holds the rules of that policy in order. A bare name with a
    requirement is that of one without argument, an object with a requirement has one member, which
    is named for one with an argument, and no `null` stands for the rules that are left out. -/
theorem Policy.read_exact :
    (∀ (v : Json) (r : Requirement), (Requirement.read v : JsonDecode Requirement) = .ok r ↔
      Requirement.Says v r) ∧
    (∀ (v : Json) (p : Policy), (Policy.read v : JsonDecode Policy) = .ok p ↔ Policy.Says v p) ∧
    (∀ (v : Json) (t : RuleTable), (∃ events, RuleTable.ofJson v = .ok (t, events)) ↔
      Policy.Says v ⟨t.toRules⟩) ∧
    (∀ v : Json, (∃ t events, RuleTable.ofJson v = .ok (t, events)) ↔
      ∃ p, Policy.Says v p ∧ ∀ rule ∈ p.rules, rule.method ≠ "") ∧
    (∀ (name : String) (r : Requirement),
      (Requirement.read (Json.string name) : JsonDecode Requirement) = .ok r →
        name = "permit_all" ∨ name = "deny_all" ∨ name = "authenticated") ∧
    (∀ (members : List (String × Json)) (r : Requirement),
      (Requirement.read (Json.object members) : JsonDecode Requirement) = .ok r →
        ∃ name v, members = [(name, v)] ∧
          (name = "has_authority" ∨ name = "has_any_authority")) ∧
    ∀ (v : Json) (p : Policy), (Policy.read v : JsonDecode Policy) = .ok p →
      v ≠ .null ∧ v ≠ .array [.null] ∧
        ∀ members, v = .object members → ("rules", Json.null) ∉ members := by
  refine ⟨fun v r => Requirement.read_eq_ok_iff, fun v p => read_eq_ok_iff,
    fun v t => RuleTable.exists_ofJson_eq_ok_iff, fun v => ?_, fun name r h => ?_,
    fun members r h => ?_, fun v p h => ?_⟩
  · simp only [RuleTable.exists_ofJson_eq_ok_iff, RuleTable.exists_of_says_iff]
  · exact (Requirement.read_eq_ok_iff.1 h).bare
  · exact (Requirement.read_eq_ok_iff.1 h).single
  · have hsays := read_eq_ok_iff.1 h
    refine ⟨?_, ?_, ?_⟩
    · rintro rfl
      cases hsays
    · rintro rfl
      cases hsays
    · rintro members rfl
      exact hsays.not_null

/-- A policy with a member of no meaning, a rule in an array and a rule in an object is read as it
    is meant, also as a table; a bare name and an object are read as requirements. -/
theorem Policy.read_with_ignored_members :
    let members := [("comment", Json.null), ("rules", .array [
      .array [.string "Simple.*", .string "authenticated"],
      .object [("require", .object [("has_any_authority", .array [.string "a", .string "b"])]),
        ("note", .bool true), ("method", .string "*")]])]
    let p : Policy := ⟨[⟨"Simple.*", .authenticated⟩, ⟨"*", .hasAnyAuthority ["a", "b"]⟩]⟩
    let single := [("has_authority", Json.string "a")]
    ((Policy.read (Json.object members) : JsonDecode Policy) = .ok p ∧
      ("rules", Json.null) ∉ members ∧
      ∃ t events, RuleTable.ofJson (.object members) = .ok (t, events)) ∧
    ((Requirement.read (Json.string "deny_all") : JsonDecode Requirement) = .ok .denyAll ∧
      ("deny_all" = "permit_all" ∨ "deny_all" = "deny_all" ∨ "deny_all" = "authenticated")) ∧
    (Requirement.read (Json.object single) : JsonDecode Requirement) = .ok (.hasAuthority "a") ∧
      ∃ name v, single = [(name, v)] ∧ (name = "has_authority" ∨ name = "has_any_authority") := by
  intro members p single
  have hany : Requirement.Says (.object [("has_any_authority", .array [.string "a", .string "b"])])
      (.hasAnyAuthority ["a", "b"]) := .hasAnyAuthority ["a", "b"]
  have hsays : Policy.Says (.object members) p :=
    .members rfl (.cons (.items .authenticated) (.cons (.members rfl rfl hany) .nil))
  have hmethods : ∀ rule ∈ p.rules, rule.method ≠ "" := by decide
  obtain ⟨hrequirement, hpolicy, -, htable, hbare, hsingle, hnull⟩ := Policy.read_exact
  have hread := (hpolicy _ p).2 hsays
  have hdeny := (hrequirement _ _).2 .denyAll
  have hauthority := (hrequirement _ _).2 (.hasAuthority "a")
  exact ⟨⟨hread, (hnull _ p hread).2.2 members rfl, (htable _).2 ⟨p, hsays, hmethods⟩⟩,
    ⟨hdeny, hbare _ _ hdeny⟩, hauthority, hsingle _ _ hauthority⟩

end CallPolicy
