import CallPolicy.Proofs.MembersByName
import CallPolicy.Schema.Config
import CallPolicy.Schema.Validity

set_option autoImplicit false

/-! # Published schemas and decoders

Under the schemas published for policies and for token configurations those values are valid that
say one by name, and no others (`validates_policy_iff`, `validates_tokens_iff`). Decoders accept
these, and written forms are among them, so that the schemas agree with both
(`published_schemas_agree`). -/

namespace CallPolicy

open Json Schema

theorem Json.eq_singleton_of_names {members : List (String × Json)} {name : String} {x : Json}
    (hnames : (members.map Prod.fst).Nodup) (honly : ∀ member ∈ members, member.1 = name)
    (h : (name, x) ∈ members) : members = [(name, x)] := by
  cases members with
  | nil => simp at h
  | cons member rest =>
    rw [List.map_cons, List.nodup_cons] at hnames
    rw [List.forall_mem_cons] at honly
    obtain rfl : rest = [] := by
      refine List.eq_nil_iff_forall_not_mem.2 fun other hother => hnames.1 ?_
      exact List.mem_map.2 ⟨other, hother, (honly.2 other hother).trans honly.1.symm⟩
    rw [List.mem_singleton.1 h]

/-! ## What the schemas admit -/

section

variable {refs : String → Json → Prop} {v : Json}

theorem admits_text_iff : Admits refs .string v ↔ ∃ text, SaysText v text :=
  admits_string_iff

theorem admits_texts_iff : Admits refs (.list .string) v ↔ ∃ l, SaysList SaysText v l := by
  simp only [admits_list_iff, exists_saysList_iff, admits_text_iff]

theorem admits_requirementRecord_iff {kind : Requirement.Kind} {text : String} {argument : Schema} :
    Admits refs (requirementRecord kind text argument) v ↔
      ∃ x, v = .object [(kind.name, x)] ∧ Admits refs argument x := by
  rw [requirementRecord, admits_described_iff, admits_record_iff]
  simp only [List.mem_singleton, forall_eq, List.map_cons, List.map_nil, true_implies]
  constructor
  · intro h
    obtain ⟨given, rfl, hnames, hargument, hgiven, honly⟩ := h
    obtain ⟨x, hx⟩ := mem_names_iff.1 hgiven
    obtain rfl := eq_singleton_of_names hnames honly hx
    exact ⟨x, rfl, hargument x hx⟩
  · intro h
    obtain ⟨x, rfl, hx⟩ := h
    simp [hx]

theorem admits_requirementSchema_iff :
    Admits refs requirementSchema v ↔ ∃ r, Requirement.Says v r := by
  rw [requirementSchema, admits_described_iff, admits_oneOf_iff_of_exclusive]
  · simp only [List.mem_cons, List.not_mem_nil, or_false, exists_eq_or_imp, exists_eq_left,
      admits_described_iff, admits_word_iff, admits_requirementRecord_iff, admits_text_iff,
      admits_texts_iff]
    constructor
    · intro h
      rcases h with rfl | rfl | rfl | ⟨_, rfl, a, rfl⟩ | ⟨_, rfl, l, hl⟩
      · exact ⟨_, .permitAll⟩
      · exact ⟨_, .denyAll⟩
      · exact ⟨_, .authenticated⟩
      · exact ⟨_, .hasAuthority a⟩
      · rw [saysList_text_iff.1 hl]
        exact ⟨_, .hasAnyAuthority l⟩
    · intro h
      obtain ⟨r, hsays⟩ := h
      cases hsays <;> simp [Requirement.Kind.name, SaysText, saysList_text_iff, strings]
  · -- the words differ from one another, and so do the names in the two records
    simp +contextual [admits_described_iff, admits_word_iff, admits_requirementRecord_iff,
      Requirement.Kind.name]

theorem admits_ruleSchema_iff
    (href : ∀ w, refs (referenceTo "Requirement") w ↔ ∃ r, Requirement.Says w r) :
    Admits refs ruleSchema v ↔ ∃ r, Rule.SaysByName v r := by
  rw [ruleSchema, admits_described_iff, admits_record_iff]
  simp only [List.forall_mem_cons, List.not_mem_nil, false_implies, implies_true, and_true,
    admits_described_iff, admits_text_iff, admits_reference_iff, href]
  constructor
  · intro h
    obtain ⟨given, rfl, hnames, ⟨hmethod, hrequire⟩, ⟨hgiven, hgiven'⟩, -⟩ := h
    obtain ⟨method, hmethod⟩ := (exists_gives_iff hnames).2 ⟨hmethod, hgiven⟩
    obtain ⟨require, hrequire⟩ := (exists_gives_iff hnames).2 ⟨hrequire, hgiven'⟩
    exact ⟨⟨method, require⟩, .object hnames hmethod hrequire⟩
  · intro h
    obtain ⟨r, ⟨hnames, hmethod, hrequire⟩⟩ := h
    have hmethod := (exists_gives_iff hnames).1 ⟨_, hmethod⟩
    have hrequire := (exists_gives_iff hnames).1 ⟨_, hrequire⟩
    exact ⟨_, rfl, hnames, ⟨hmethod.1, hrequire.1⟩, ⟨hmethod.2, hrequire.2⟩, nofun⟩

theorem admits_policySchema_iff
    (href : ∀ w, refs (referenceTo "RuleConfig") w ↔ ∃ r, Rule.SaysByName w r) :
    Admits refs policySchema v ↔ ∃ p, Policy.SaysByName v p := by
  rw [policySchema, admits_described_iff, admits_record_iff]
  simp only [List.forall_mem_cons, List.not_mem_nil, false_implies, implies_true, and_true,
    admits_described_iff, admits_withDefault_iff, admits_list_iff, admits_reference_iff, href,
    ← exists_saysList_iff]
  constructor
  · intro h
    obtain ⟨given, rfl, hnames, hrules, -⟩ := h
    obtain ⟨rules, hrules⟩ := (exists_givesOr_iff hnames []).2 hrules
    exact ⟨⟨rules⟩, .object hnames hrules⟩
  · intro h
    obtain ⟨p, ⟨hnames, hrules⟩⟩ := h
    exact ⟨_, rfl, hnames, (exists_givesOr_iff hnames []).1 ⟨_, hrules⟩, trivial, nofun⟩

theorem admits_secretSchema_iff : Admits refs secretSchema v ↔ ∃ text, SaysText v text := by
  rw [secretSchema, admits_described_iff, admits_text_iff]

theorem admits_tokenEntrySchema_iff
    (href : ∀ w, refs (referenceTo "OpaqueString") w ↔ ∃ text, SaysText w text) :
    Admits refs tokenEntrySchema v ↔ ∃ e, TokenEntry.SaysByName v e := by
  rw [tokenEntrySchema, admits_described_iff, admits_record_iff]
  simp only [List.forall_mem_cons, List.not_mem_nil, false_implies, implies_true, and_true,
    admits_described_iff, admits_withDefault_iff, admits_text_iff, admits_texts_iff,
    admits_reference_iff, href]
  constructor
  · intro h
    obtain ⟨given, rfl, hnames, ⟨htoken, hid, hauthorities⟩, ⟨hgiven, hgiven'⟩, -⟩ := h
    obtain ⟨token, htoken⟩ := (exists_gives_iff hnames).2 ⟨htoken, hgiven⟩
    obtain ⟨id, hid⟩ := (exists_gives_iff hnames).2 ⟨hid, hgiven'⟩
    obtain ⟨authorities, hauthorities⟩ := (exists_givesOr_iff hnames []).2 hauthorities
    exact ⟨⟨token, id, authorities⟩, .object hnames htoken hid hauthorities⟩
  · intro h
    obtain ⟨e, ⟨hnames, htoken, hid, hauthorities⟩⟩ := h
    have htoken := (exists_gives_iff hnames).1 ⟨_, htoken⟩
    have hid := (exists_gives_iff hnames).1 ⟨_, hid⟩
    have hauthorities := (exists_givesOr_iff hnames []).1 ⟨_, hauthorities⟩
    exact ⟨_, rfl, hnames, ⟨htoken.1, hid.1, hauthorities⟩, ⟨htoken.2, hid.2⟩, nofun⟩

theorem admits_tokenConfigSchema_iff
    (href : ∀ w, refs (referenceTo "TokenConfig") w ↔ ∃ e, TokenEntry.SaysByName w e) :
    Admits refs tokenConfigSchema v ↔ ∃ c, TokenConfig.SaysByName v c := by
  rw [tokenConfigSchema, admits_described_iff, admits_record_iff]
  simp only [List.forall_mem_cons, List.not_mem_nil, false_implies, implies_true, and_true,
    admits_described_iff, admits_withDefault_iff, admits_text_iff, admits_list_iff,
    admits_reference_iff, href, ← exists_saysList_iff]
  constructor
  · intro h
    obtain ⟨given, rfl, hnames, ⟨hheader, hscheme, htokens⟩, -⟩ := h
    obtain ⟨header, hheader⟩ := (exists_givesOr_iff hnames "authorization").2 hheader
    obtain ⟨scheme, hscheme⟩ := (exists_givesOr_iff hnames "Bearer ").2 hscheme
    obtain ⟨tokens, htokens⟩ := (exists_givesOr_iff hnames []).2 htokens
    exact ⟨⟨header, scheme, tokens⟩, .object hnames hheader hscheme htokens⟩
  · intro h
    obtain ⟨c, ⟨hnames, hheader, hscheme, htokens⟩⟩ := h
    have hheader := (exists_givesOr_iff hnames "authorization").1 ⟨_, hheader⟩
    have hscheme := (exists_givesOr_iff hnames "Bearer ").1 ⟨_, hscheme⟩
    have htokens := (exists_givesOr_iff hnames []).1 ⟨_, htokens⟩
    exact ⟨_, rfl, hnames, ⟨hheader, hscheme, htokens⟩, trivial, nofun⟩

end

/-! ## What the documents are valid for -/

theorem lookup_pair_eq_some_iff {α : Type} {a b name : String} {s t x : α} (hne : a ≠ b) :
    [(a, s), (b, t)].lookup name = some x ↔ (name = a ∧ s = x) ∨ (name = b ∧ t = x) := by
  by_cases ha : name = a
  · subst ha
    simp [hne]
  · rw [List.lookup_cons, beq_eq_false_iff_ne.2 ha]
    by_cases hb : name = b
    · subst hb
      simp [ha]
    · simp [List.lookup_cons, beq_eq_false_iff_ne.2 hb, ha, hb]

/-- Of the two definitions of a document the first refers to nothing, the second to the first at
    most, and the root to the second. `I`, `O` and `R` are what the three take. -/
structure Nested (d : SchemaDocument) (inner outer : String) (I O R : Json → Prop) : Prop where
  distinct : inner ≠ outer
  definitions : ∃ s t, d.definitions = [(inner, s), (outer, t)] ∧
    (∀ refs v, Admits refs s v ↔ I v) ∧
    ∀ refs, (∀ w, refs (referenceTo inner) w ↔ I w) → ∀ v, Admits refs t v ↔ O v
  root : ∀ refs, (∀ w, refs (referenceTo outer) w ↔ O w) → ∀ v, Admits refs d.root v ↔ R v

namespace Nested

variable {d : SchemaDocument} {inner outer : String} {I O R : Json → Prop}
  {refs : String → Json → Prop} {v : Json}

/-- What is taken under the inner reference does not wait for the outer one. -/
theorem inner_settled {P : Json → Prop} (hne : inner ≠ outer)
    (hrefs : ∀ reference v, refs reference v ↔
      (reference = referenceTo inner ∧ I v) ∨ (reference = referenceTo outer ∧ P v)) (w : Json) :
    refs (referenceTo inner) w ↔ I w := by
  simp [hrefs, referenceTo_inj, hne]

/-- The definitions leave no choice what is taken under a reference. -/
theorem explains_iff (h : Nested d inner outer I O R) :
    Explains d.toJson refs ↔ ∀ reference v, refs reference v ↔
      (reference = referenceTo inner ∧ I v) ∨ (reference = referenceTo outer ∧ O v) := by
  obtain ⟨s, t, hdefinitions, hinner, houter⟩ := h.definitions
  have hlookup : ∀ reference v, (∃ name schema, reference = referenceTo name ∧
      d.definitions.lookup name = some schema ∧ Admits refs schema v) ↔
        (reference = referenceTo inner ∧ I v) ∨
          (reference = referenceTo outer ∧ Admits refs t v) := by
    intro reference v
    simp only [hdefinitions, lookup_pair_eq_some_iff h.distinct]
    constructor
    · intro h
      obtain ⟨name, schema, rfl, ⟨rfl, rfl⟩ | ⟨rfl, rfl⟩, hadmits⟩ := h
      · exact .inl ⟨rfl, (hinner refs v).1 hadmits⟩
      · exact .inr ⟨rfl, hadmits⟩
    · intro h
      rcases h with ⟨rfl, hadmits⟩ | ⟨rfl, hadmits⟩
      · exact ⟨inner, s, rfl, .inl ⟨rfl, rfl⟩, (hinner refs v).2 hadmits⟩
      · exact ⟨outer, t, rfl, .inr ⟨rfl, rfl⟩, hadmits⟩
  rw [explains_toJson_iff]
  simp only [hlookup]
  constructor
  · intro hrefs
    simpa only [houter refs (inner_settled h.distinct hrefs)] using hrefs
  · intro hrefs
    simpa only [houter refs (inner_settled h.distinct hrefs)] using hrefs

theorem existsUnique_explains (h : Nested d inner outer I O R) :
    ∃! refs, Explains d.toJson refs := by
  refine ⟨fun reference v => (reference = referenceTo inner ∧ I v) ∨
    (reference = referenceTo outer ∧ O v), h.explains_iff.2 fun _ _ => Iff.rfl, ?_⟩
  intro refs hrefs
  funext reference v
  exact propext (h.explains_iff.1 hrefs reference v)

theorem validates_iff (h : Nested d inner outer I O R) : Validates d.toJson v ↔ R v := by
  have hroot : ∀ refs, Explains d.toJson refs → (Takes refs d.toJson v ↔ R v) := by
    intro refs hrefs
    have hO : ∀ w, refs (referenceTo outer) w ↔ O w := fun w => by
      simp [h.explains_iff.1 hrefs, referenceTo_inj, h.distinct.symm]
    rw [takes_toJson_iff, h.root refs hO]
  obtain ⟨refs, hrefs, -⟩ := h.existsUnique_explains
  constructor
  · intro h
    obtain ⟨refs, hrefs, htakes⟩ := h
    exact (hroot refs hrefs).1 htakes
  · intro hv
    exact ⟨refs, hrefs, (hroot refs hrefs).2 hv⟩

end Nested

section

variable {d : SchemaDocument} {v : Json}

theorem nested_of_policy (h : publishedSchema? "AuthorizationConfig" = some d) :
    Nested d "Requirement" "RuleConfig" (fun v => ∃ r, Requirement.Says v r)
      (fun v => ∃ r, Rule.SaysByName v r) (fun v => ∃ p, Policy.SaysByName v p) := by
  obtain rfl := Option.some.inj h
  exact {
    distinct := by decide
    definitions := ⟨requirementSchema, ruleSchema, rfl, fun _ _ => admits_requirementSchema_iff,
      fun _ href _ => admits_ruleSchema_iff href⟩
    root := fun _ href _ => admits_policySchema_iff href }

theorem nested_of_tokens (h : publishedSchema? "StaticTokenConfig" = some d) :
    Nested d "OpaqueString" "TokenConfig" (fun v => ∃ text, SaysText v text)
      (fun v => ∃ e, TokenEntry.SaysByName v e) (fun v => ∃ c, TokenConfig.SaysByName v c) := by
  obtain rfl := Option.some.inj h
  exact {
    distinct := by decide
    definitions := ⟨secretSchema, tokenEntrySchema, rfl, fun _ _ => admits_secretSchema_iff,
      fun _ href _ => admits_tokenEntrySchema_iff href⟩
    root := fun _ href _ => admits_tokenConfigSchema_iff href }

/-- The schema of policies is valid for the values that say one by name. -/
theorem validates_policy_iff (h : publishedSchema? "AuthorizationConfig" = some d) :
    Validates d.toJson v ↔ ∃ p, Policy.SaysByName v p :=
  (nested_of_policy h).validates_iff

/-- The schema of token configurations is valid for the values that say one by name. -/
theorem validates_tokens_iff (h : publishedSchema? "StaticTokenConfig" = some d) :
    Validates d.toJson v ↔ ∃ c, TokenConfig.SaysByName v c :=
  (nested_of_tokens h).validates_iff

end

/-- **Published schemas agree with decoders.** The schemas of policies and of token configurations
    are published, and their definitions settle what every reference takes. Each value that is valid
    under one is accepted by the decoder, and each written form is valid. -/
theorem published_schemas_agree :
    (∃ d, publishedSchema? "AuthorizationConfig" = some d ∧ (∃! refs, Explains d.toJson refs) ∧
      (∀ v, Validates d.toJson v → ∃ p, (Policy.read v : JsonDecode Policy) = .ok p) ∧
      ∀ p : Policy, Validates d.toJson p.toJson) ∧
    ∃ d, publishedSchema? "StaticTokenConfig" = some d ∧ (∃! refs, Explains d.toJson refs) ∧
      (∀ v, Validates d.toJson v → ∃ c, (TokenConfig.read v : JsonDecode TokenConfig) = .ok c) ∧
      ∀ c : TokenConfig, Validates d.toJson c.toJson := by
  constructor
  · refine ⟨_, rfl, (nested_of_policy rfl).existsUnique_explains, fun v hv => ?_, fun p => ?_⟩
    · obtain ⟨p, hsays⟩ := (validates_policy_iff rfl).1 hv
      exact ⟨p, Policy.understands_read v p hsays⟩
    · exact (validates_policy_iff rfl).2 ⟨p, p.saysByName_toJson⟩
  · refine ⟨_, rfl, (nested_of_tokens rfl).existsUnique_explains, fun v hv => ?_, fun c => ?_⟩
    · obtain ⟨c, hsays⟩ := (validates_tokens_iff rfl).1 hv
      exact ⟨c, TokenConfig.understands_read v c hsays⟩
    · exact (validates_tokens_iff rfl).2 ⟨c, c.saysByName_toJson⟩

/-- A rule whose members are in another order and have one among them without meaning is valid and
    accepted, and so is a token configuration that tells its tokens only. -/
theorem loosely_written_values_accepted :
    let rule := Json.object
      [("require", .object [("has_any_authority", .array [.string "a", .string "b"])]),
        ("note", .bool true), ("method", .string "*")]
    let policy := Json.object [("rules", .array [rule])]
    let entry := Json.object [("id", .string "alice"), ("token", .string "secret")]
    let tokens := Json.object [("tokens", .array [entry])]
    (∃ d, publishedSchema? "AuthorizationConfig" = some d ∧ Validates d.toJson policy ∧
      ∃ p, (Policy.read policy : JsonDecode Policy) = .ok p) ∧
    ∃ d, publishedSchema? "StaticTokenConfig" = some d ∧ Validates d.toJson tokens ∧
      ∃ c, (TokenConfig.read tokens : JsonDecode TokenConfig) = .ok c := by
  intro rule policy entry tokens
  have hrule : Rule.SaysByName rule ⟨"*", .hasAnyAuthority ["a", "b"]⟩ :=
    .object (by decide) ⟨_, rfl, rfl⟩ ⟨_, rfl, .hasAnyAuthority ["a", "b"]⟩
  have hpolicy : Policy.SaysByName policy ⟨[⟨"*", .hasAnyAuthority ["a", "b"]⟩]⟩ :=
    .object (by decide) (.inr ⟨_, rfl, _, rfl, .cons hrule .nil⟩)
  have hentry : TokenEntry.SaysByName entry ⟨"secret", "alice", []⟩ :=
    .object (by decide) ⟨_, rfl, rfl⟩ ⟨_, rfl, rfl⟩ (.inl ⟨rfl, rfl⟩)
  have htokens : TokenConfig.SaysByName tokens { tokens := [⟨"secret", "alice", []⟩] } :=
    .object (by decide) (.inl ⟨rfl, rfl⟩) (.inl ⟨rfl, rfl⟩)
      (.inr ⟨_, rfl, _, rfl, .cons hentry .nil⟩)
  obtain ⟨⟨d, hd, -, hread, -⟩, d', hd', -, hread', -⟩ := published_schemas_agree
  have hvalid := (validates_policy_iff hd).2 ⟨_, hpolicy⟩
  have hvalid' := (validates_tokens_iff hd').2 ⟨_, htokens⟩
  exact ⟨⟨d, hd, hvalid, hread _ hvalid⟩, d', hd', hvalid', hread' _ hvalid'⟩

end CallPolicy
