import CallPolicy.Proofs.Policy
import CallPolicy.Proofs.Written

set_option autoImplicit false

/-! # Written forms in JSON

What is written as JSON is decoded to what it was written from. A JSON object does not keep the
order of its members, so the written form is recovered from every value that differs from it in
that order only (`Json.Reorders`). -/

namespace CallPolicy

/-- What the members of one list have in common with those at the same places of another, where the
    first list ensures what turns one relation into the other. -/
theorem forall₂_of_imp_mem {α β : Type} {R S : α → β → Prop} {l : List α} {l' : List β}
    (himp : ∀ a ∈ l, ∀ b, R a b → S a b) (h : List.Forall₂ R l l') : List.Forall₂ S l l' := by
  have hboth : List.Forall₂ (fun a b => (∀ b, R a b → S a b) ∧ R a b) l l' :=
    (List.forall₂_and_left l l').2 ⟨himp, h⟩
  exact hboth.imp fun a b hab => hab.1 b hab.2

/-! ## JSON values as sources -/

instance : LawfulDecoding JsonDecode where
  tryCatch_pure _ _ := rfl

namespace Json

/-- The second value is the first with the members of its objects in any order. -/
inductive Reorders : Json → Json → Prop where
  | string (text : String) : Reorders (.string text) (.string text)
  | array {items others : List Json} (heach : List.Forall₂ (fun j w => Reorders j w) items others) :
    Reorders (.array items) (.array others)
  | object {members arranged others : List (String × Json)} (horder : arranged.Perm members)
    (hnames : arranged.map Prod.fst = others.map Prod.fst)
    (heach : List.Forall₂ (fun j w => Reorders (Prod.snd j) (Prod.snd w)) arranged others) :
    Reorders (.object members) (.object others)

theorem reorders_refl {j : Json} (hj : j.Textual) : j.Reorders j := by
  induction hj with
  | string text => exact .string text
  | array _ ih => exact .array (List.forall₂_same.2 ih)
  | object _ _ ih => exact .object (.refl _) rfl (List.forall₂_same.2 ih)

theorem keys_of_names {arranged others : List (String × Json)}
    (hnames : arranged.map Prod.fst = others.map Prod.fst) :
    List.Forall₂ (fun j w => IsText JsonDecode (Prod.fst w) (Prod.fst j)) arranged
      (keyed others) := by
  have hsame : List.Forall₂ Eq (arranged.map Prod.fst) (others.map Prod.fst) :=
    List.forall₂_eq_eq_eq ▸ hnames
  rw [List.forall₂_map_left_iff, List.forall₂_map_right_iff] at hsame
  refine List.forall₂_map_right_iff.2 (hsame.imp fun j w hname expected => ?_)
  rw [hname]
  rfl

/-- A value with its members in any order stands for the written form. -/
theorem standsFor_of_reorders {j w : Json} (hj : j.Textual) (hw : j.Reorders w) :
    StandsFor JsonDecode j w := by
  induction hj generalizing w with
  | string text =>
    cases hw
    exact .string (fun _ => rfl) rfl
  | array _ ih =>
    cases hw with
    | array heach => exact .array rfl (forall₂_of_imp_mem (fun j hj _ => ih j hj) heach)
  | object _ _ ih =>
    cases hw with
    | object horder hnames heach =>
      have hvalues := forall₂_of_imp_mem (S := fun j w => StandsFor JsonDecode j.2 w.2)
        (fun j hj _ => ih j (horder.mem_iff.1 hj)) heach
      exact .object (fun _ => rfl) rfl horder (keys_of_names hnames)
        (List.forall₂_map_right_iff.2 hvalues)

end Json

/-! ## Recovering what was written -/

section

variable {α : Type}

/-- The written form is decoded to `a`, and so is the same value with the members of its objects in
    any other order. -/
def DecodesTo (read : Json → JsonDecode α) (written : Json) (a : α) : Prop :=
  read written = .ok a ∧ ∀ other, written.Reorders other → read other = .ok a

theorem decodesTo_of_recovers {read : Json → JsonDecode α} {written : Json} {a : α}
    (hwritten : written.Textual) (hread : Recovers read written a) :
    DecodesTo read written a := by
  have hany : ∀ other, written.Reorders other → read other = .ok a := fun other hother =>
    hread other (Json.standsFor_of_reorders hwritten hother)
  exact ⟨hany written (Json.reorders_refl hwritten), hany⟩

end

/-- A written table is decoded to the table, with the reports that its policy gives. -/
theorem RuleTable.decodesTo_ofJson {t : RuleTable} {events : List Event}
    (h : (Policy.ofTable t).table = (.ok t, events)) :
    DecodesTo RuleTable.ofJson t.toJson (t, events) := by
  obtain ⟨hwritten, hother⟩ := decodesTo_of_recovers (Policy.ofTable t).textual_toJson
    (Policy.ofTable t).recovers_read
  have hmade : ∀ w : Json, Policy.read w = (.ok (Policy.ofTable t) : JsonDecode Policy) →
      RuleTable.ofJson w = .ok (t, events) := fun w hw => by
    rw [RuleTable.ofJson, hw]
    exact mapError_eq_ok_iff.2 (RuleTable.ofPolicy_eq_ok_iff.2 h)
  exact ⟨hmade _ hwritten, fun w hw => hmade w (hother w hw)⟩

/-- **What is written is recovered.** A table is decoded from its written form and made again from
    the policy written for it, and a policy that was made into a table is the policy written for
    that table. Every policy, principal and token configuration, whatever its texts are, is decoded
    from its own written form. -/
theorem written_values_recovered :
    (∀ t : RuleTable, ∃ events, (Policy.ofTable t).table = (.ok t, events) ∧
      DecodesTo RuleTable.ofJson t.toJson (t, events)) ∧
    (∀ (p : Policy) (t : RuleTable), p.table.1 = .ok t → Policy.ofTable t = p) ∧
    (∀ p : Policy, DecodesTo Policy.read p.toJson p) ∧
    (∀ p : Principal, DecodesTo Principal.read p.toJson p) ∧
    ∀ c : TokenConfig, DecodesTo TokenConfig.read c.toJson c := by
  refine ⟨fun t => ?_, fun p t => Policy.ofTable_of_table,
    fun p => decodesTo_of_recovers p.textual_toJson p.recovers_read,
    fun p => decodesTo_of_recovers p.textual_toJson p.recovers_read,
    fun c => decodesTo_of_recovers c.textual_toJson c.recovers_read⟩
  obtain ⟨events, htable⟩ := t.exists_events_ofTable
  exact ⟨events, htable, t.decodesTo_ofJson htable⟩

/-- Names of requirements, a wildcard and empty texts stay what they are, also where the rule names
    its requirement first. -/
theorem wildcards_and_names_recovered :
    let p : Policy := ⟨[⟨"permit_all", .hasAnyAuthority ["*", ""]⟩]⟩
    let requirement : Json := .object [("has_any_authority", .array [.string "*", .string ""])]
    let rule : Json := .object [("require", requirement), ("method", .string "permit_all")]
    (∃ t, p.table.1 = .ok t ∧ Policy.ofTable t = p) ∧
      Policy.read (m := JsonDecode) (Json.object [("rules", .array [rule])]) = .ok p := by
  intro p requirement rule
  obtain ⟨t, ht⟩ : ∃ t, p.table.1 = .ok t := ⟨_, rfl⟩
  have hrequirement : requirement.Reorders requirement :=
    Json.reorders_refl (Requirement.textual_toJson (.hasAnyAuthority ["*", ""]))
  have hrule : Json.Reorders
      (.object [("method", .string "permit_all"), ("require", requirement)]) rule :=
    .object (.swap _ _ _) rfl (.cons hrequirement (.cons (.string _) .nil))
  have hrules : Json.Reorders
      (.array [.object [("method", .string "permit_all"), ("require", requirement)]])
      (.array [rule]) :=
    .array (.cons hrule .nil)
  have hpolicy : p.toJson.Reorders (.object [("rules", .array [rule])]) :=
    .object (.refl _) rfl (.cons hrules .nil)
  exact ⟨⟨t, ht, written_values_recovered.2.1 p t ht⟩,
    (written_values_recovered.2.2.1 p).2 _ hpolicy⟩

end CallPolicy
