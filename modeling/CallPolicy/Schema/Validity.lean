import CallPolicy.Schema.Basic

set_option autoImplicit false

/-! # What schemas take

A schema as it is published is a JSON value: an object whose keywords each ask something of a value.
`Schema.Takes` reads the keywords that schemas are written with here; all others only explain. What
a reference takes is left open there, and settled by the definitions of a document
(`Schema.Explains`). For each way of building a schema one lemma says what it takes
(`Schema.admits_record_iff` and its like), so that nobody looks at keywords again.

Values are compared as they stand, with a constant or with the other items of a set: only texts are
compared in the published schemas. -/

namespace CallPolicy

namespace Json

/-- The items of an array; no other value has any. -/
def itemsOf : Json → List Json
  | .array items => items
  | _ => []

/-- The members of an object; no other value has any. -/
def membersOf : Json → List (String × Json)
  | .object members => members
  | _ => []

end Json

namespace Schema

/-! ## Keywords -/

/-- The value is of the type with that name. An object assigns values to names, so members that
    give a name twice make none. -/
def HasType (v : Json) : String → Prop
  | "string" => ∃ text, v = .string text
  | "array" => ∃ items, v = .array items
  | "object" => ∃ members, v = .object members ∧ (members.map Prod.fst).Nodup
  | _ => False

/-- What a keyword asks of a value, if there are no schemas in its argument. -/
def Asks (refs : String → Json → Prop) (v : Json) : String → Json → Prop
  | "type", .string type => HasType v type
  | "const", value => v = value
  | "uniqueItems", .bool true => v.itemsOf.Nodup
  | "required", .array required => ∀ members, v = .object members →
      ∀ name, .string name ∈ required → name ∈ members.map Prod.fst
  | "$ref", .string target => refs target v
  | _, _ => True

/-- The names that schemas are declared for among the keywords. -/
def declaredNames (keywords : List (String × Json)) : List String :=
  ((keywords.lookup "properties").getD .null).membersOf.map Prod.fst

mutual

/-- The schema takes the value; `refs` says what is taken under a reference. -/
def Takes (refs : String → Json → Prop) : Json → Json → Prop
  | .bool answer, _ => answer = true
  | .object keywords, v => TakesAll refs (declaredNames keywords) keywords v
  | _, _ => False
termination_by structural schema => schema

/-- Each of the keywords takes the value. -/
def TakesAll (refs : String → Json → Prop) (declared : List String) :
    List (String × Json) → Json → Prop
  | [], _ => True
  | keyword :: rest, v => TakesEach refs declared keyword v ∧ TakesAll refs declared rest v
termination_by structural keywords => keywords

/-- The keyword takes the value. Beside it stand schemas for the declared names. -/
def TakesEach (refs : String → Json → Prop) (declared : List String) : String × Json → Json → Prop
  | ("items", schema), v => ∀ x ∈ v.itemsOf, Takes refs schema x
  | ("properties", .object schemas), v => TakesMembers refs schemas v
  | ("additionalProperties", schema), v =>
    ∀ member ∈ v.membersOf, member.1 ∉ declared → Takes refs schema member.2
  | ("oneOf", .array schemas), v => OneTakes refs schemas v
  | (keyword, argument), v => Asks refs v keyword argument
termination_by structural keyword => keyword

/-- What the value gives to a name is taken by the schema for that name. -/
def TakesMembers (refs : String → Json → Prop) : List (String × Json) → Json → Prop
  | [], _ => True
  | (name, schema) :: rest, v =>
    (∀ x, (name, x) ∈ v.membersOf → Takes refs schema x) ∧ TakesMembers refs rest v
termination_by structural schemas => schemas

/-- Exactly one of the schemas takes the value. -/
def OneTakes (refs : String → Json → Prop) : List Json → Json → Prop
  | [], _ => False
  | schema :: rest, v =>
    (Takes refs schema v ∧ NoneTakes refs rest v) ∨ (¬ Takes refs schema v ∧ OneTakes refs rest v)
termination_by structural schemas => schemas

/-- None of the schemas takes the value. -/
def NoneTakes (refs : String → Json → Prop) : List Json → Json → Prop
  | [], _ => True
  | schema :: rest, v => ¬ Takes refs schema v ∧ NoneTakes refs rest v
termination_by structural schemas => schemas

end

/-! ## Documents -/

/-- The definitions of a document under their names. -/
def definitionsOf (document : Json) : List (String × Json) :=
  ((document.membersOf.lookup "$defs").getD .null).membersOf

/-- The reference to a definition. -/
def referenceTo (name : String) : String := "#/$defs/" ++ name

theorem referenceTo_inj {a b : String} : referenceTo a = referenceTo b ↔ a = b :=
  String.append_right_inj _

/-- Under a reference is taken what the definition takes that it leads to. -/
def Explains (document : Json) (refs : String → Json → Prop) : Prop :=
  ∀ reference v, refs reference v ↔ ∃ name schema, reference = referenceTo name ∧
    (definitionsOf document).lookup name = some schema ∧ Takes refs schema v

/-- The value is valid under the document. -/
def Validates (document v : Json) : Prop :=
  ∃ refs, Explains document refs ∧ Takes refs document v

/-! ## What the ways of building a schema take -/

/-- The schema takes the value when it is written as its keywords. -/
def Admits (refs : String → Json → Prop) (s : Schema) (v : Json) : Prop :=
  Takes refs (.object s.keywords) v

section

variable {refs : String → Json → Prop} {v : Json}

theorem admits_string_iff : Admits refs .string v ↔ ∃ text, v = .string text :=
  and_iff_left trivial

theorem admits_word_iff {value : String} : Admits refs (.word value) v ↔ v = .string value := by
  show (∃ text, v = .string text) ∧ v = .string value ∧ True ↔ v = .string value
  rw [and_true, and_iff_right_iff_imp]
  exact fun h => ⟨value, h⟩

theorem admits_list_iff {s : Schema} :
    Admits refs (.list s) v ↔ ∃ items, v = .array items ∧ ∀ x ∈ items, Admits refs s x := by
  show (∃ items, v = .array items) ∧ (∀ x ∈ v.itemsOf, Admits refs s x) ∧ True ↔ _
  rw [and_true]
  constructor
  · intro h
    obtain ⟨⟨items, rfl⟩, heach⟩ := h
    exact ⟨items, rfl, heach⟩
  · intro h
    obtain ⟨items, rfl, heach⟩ := h
    exact ⟨⟨items, rfl⟩, heach⟩

theorem admits_reference_iff {name : String} :
    Admits refs (.reference name) v ↔ refs (referenceTo name) v :=
  and_iff_left trivial

theorem admits_described_iff {text : String} {s : Schema} :
    Admits refs (.described text s) v ↔ Admits refs s v :=
  and_iff_right trivial

theorem admits_withDefault_iff {value : Json} {s : Schema} :
    Admits refs (.withDefault value s) v ↔ Admits refs s v :=
  and_iff_right trivial

/-! ### Records -/

theorem takesAll_append {declared : List String} {before behind : List (String × Json)} :
    TakesAll refs declared (before ++ behind) v ↔
      TakesAll refs declared before v ∧ TakesAll refs declared behind v := by
  induction before with
  | nil => simp [TakesAll]
  | cons keyword rest ih => rw [List.cons_append, TakesAll, TakesAll, ih, and_assoc]

theorem map_fst_memberSchemas (members : List (String × Schema)) :
    (memberSchemas members).map Prod.fst = members.map Prod.fst := by
  induction members with
  | nil => rfl
  | cons member rest ih => rw [memberSchemas, List.map_cons, List.map_cons, ih]

theorem takesMembers_iff {members : List (String × Schema)} :
    TakesMembers refs (memberSchemas members) v ↔
      ∀ member ∈ members, ∀ x, (member.1, x) ∈ v.membersOf → Admits refs member.2 x := by
  induction members with
  | nil => simp [memberSchemas, TakesMembers]
  | cons member rest ih =>
    rw [memberSchemas, TakesMembers, ih, List.forall_mem_cons]
    rfl

/-- Required names that are left out of the keywords ask for nothing. -/
theorem takesAll_required {declared required : List String} {given : List (String × Json)} :
    TakesAll refs declared
        (if required.isEmpty then [] else [("required", .strings required)]) (.object given) ↔
      ∀ name ∈ required, name ∈ given.map Prod.fst := by
  split
  · rename_i hnone
    rw [List.isEmpty_iff.1 hnone]
    simp [TakesAll]
  · show (∀ members, Json.object given = .object members → ∀ name,
      Json.string name ∈ required.map Json.string → name ∈ members.map Prod.fst) ∧ True ↔ _
    simp

theorem takesAll_closed {declared : List String} {closed : Bool} {given : List (String × Json)} :
    TakesAll refs declared
        (if closed then [("additionalProperties", .bool false)] else []) (.object given) ↔
      (closed = true → ∀ member ∈ given, member.1 ∈ declared) := by
  cases closed with
  | false => simp [TakesAll]
  | true =>
    show (∀ member ∈ given, member.1 ∉ declared → false = true) ∧ True ↔ _
    simp

theorem admits_record_iff {members : List (String × Schema)} {required : List String}
    {closed : Bool} :
    Admits refs (.record members required closed) v ↔
      ∃ given, v = .object given ∧ (given.map Prod.fst).Nodup ∧
        (∀ member ∈ members, ∀ x, (member.1, x) ∈ given → Admits refs member.2 x) ∧
        (∀ name ∈ required, name ∈ given.map Prod.fst) ∧
        (closed = true → ∀ member ∈ given, member.1 ∈ members.map Prod.fst) := by
  have hdeclared : declaredNames (record members required closed).keywords =
      members.map Prod.fst := map_fst_memberSchemas members
  have hfields : ∀ declared, TakesAll refs declared
      [("type", .string "object"), ("properties", .object (memberSchemas members))] v ↔
        HasType v "object" ∧
          ∀ member ∈ members, ∀ x, (member.1, x) ∈ v.membersOf → Admits refs member.2 x := by
    intro declared
    rw [← takesMembers_iff]
    exact and_congr_right' (and_iff_left trivial)
  rw [Admits, Takes, hdeclared, keywords, takesAll_append, takesAll_append, hfields]
  constructor
  · intro h
    obtain ⟨⟨⟨⟨given, rfl, hnames⟩, heach⟩, hrequired⟩, hclosed⟩ := h
    exact ⟨given, rfl, hnames, heach, takesAll_required.1 hrequired, takesAll_closed.1 hclosed⟩
  · intro h
    obtain ⟨given, rfl, hnames, heach, hrequired, hclosed⟩ := h
    exact ⟨⟨⟨⟨given, rfl, hnames⟩, heach⟩, takesAll_required.2 hrequired⟩,
      takesAll_closed.2 hclosed⟩

/-! ### Choices -/

theorem noneTakes_iff {schemas : List Json} :
    NoneTakes refs schemas v ↔ ∀ schema ∈ schemas, ¬ Takes refs schema v := by
  induction schemas with
  | nil => simp [NoneTakes]
  | cons schema rest ih => rw [NoneTakes, ih, List.forall_mem_cons]

/-- Of schemas that exclude one another exactly one takes what any of them takes. -/
theorem oneTakes_iff_of_exclusive {schemas : List Json}
    (h : schemas.Pairwise fun s t => ¬ (Takes refs s v ∧ Takes refs t v)) :
    OneTakes refs schemas v ↔ ∃ schema ∈ schemas, Takes refs schema v := by
  induction schemas with
  | nil => simp [OneTakes]
  | cons schema rest ih =>
    rw [List.pairwise_cons] at h
    rw [OneTakes, noneTakes_iff, ih h.2]
    by_cases htakes : Takes refs schema v
    · have hnone : ∀ other ∈ rest, ¬ Takes refs other v := fun other hother hboth =>
        h.1 other hother ⟨htakes, hboth⟩
      exact ⟨fun _ => ⟨schema, List.mem_cons_self, htakes⟩, fun _ => .inl ⟨htakes, hnone⟩⟩
    · simp [htakes]

theorem choiceSchemas_eq_map (choices : List Schema) :
    choiceSchemas choices = choices.map fun s => .object s.keywords := by
  induction choices with
  | nil => rfl
  | cons s rest ih => rw [choiceSchemas, List.map_cons, ih]

theorem admits_oneOf_iff_of_exclusive {choices : List Schema}
    (h : choices.Pairwise fun s t => ¬ (Admits refs s v ∧ Admits refs t v)) :
    Admits refs (.oneOf choices) v ↔ ∃ s ∈ choices, Admits refs s v := by
  have hschemas : (choiceSchemas choices).Pairwise
      fun s t => ¬ (Takes refs s v ∧ Takes refs t v) := by
    rw [choiceSchemas_eq_map, List.pairwise_map]
    exact h
  show OneTakes refs (choiceSchemas choices) v ∧ True ↔ _
  rw [and_true, oneTakes_iff_of_exclusive hschemas, choiceSchemas_eq_map]
  constructor
  · intro h
    obtain ⟨_, hmem, htakes⟩ := h
    obtain ⟨s, hs, rfl⟩ := List.mem_map.1 hmem
    exact ⟨s, hs, htakes⟩
  · intro h
    obtain ⟨s, hs, hadmits⟩ := h
    exact ⟨_, List.mem_map_of_mem hs, hadmits⟩

end

/-! ## What published documents take -/

section

variable {d : SchemaDocument} {refs : String → Json → Prop} {v : Json}

theorem lookup_memberSchemas (members : List (String × Schema)) (name : String) :
    (memberSchemas members).lookup name =
      (members.lookup name).map fun s => .object s.keywords := by
  induction members with
  | nil => rfl
  | cons member rest ih =>
    rw [memberSchemas, List.lookup_cons, List.lookup_cons, ih]
    split <;> rfl

/-- A schema holds no definitions of its own. -/
theorem lookup_defs_keywords : ∀ s : Schema, s.keywords.lookup "$defs" = none
  | .string => rfl
  | .word _ => rfl
  | .list _ => rfl
  | .set _ => rfl
  | .record _ required closed => by
    cases closed <;> by_cases h : required.isEmpty <;> simp [keywords, List.lookup_cons, h]
  | .oneOf _ => rfl
  | .reference _ => rfl
  | .described _ s => lookup_defs_keywords s
  | .withDefault _ s => lookup_defs_keywords s

/-- A document is its root between a header and the definitions, if there are any. -/
theorem exists_toJson_eq (d : SchemaDocument) : ∃ behind, d.toJson = .object
    ([("$schema", .string SchemaDocument.dialect), ("title", .string d.title)] ++
      d.root.keywords ++ behind) ∧
    ((d.definitions = [] ∧ behind = []) ∨
      behind = [("$defs", .object (memberSchemas d.definitions))]) := by
  refine ⟨_, rfl, ?_⟩
  split
  · rename_i hnone
    exact .inl ⟨List.isEmpty_iff.1 hnone, rfl⟩
  · exact .inr rfl

/-- What surrounds the root of a document only explains. -/
theorem takes_toJson_iff : Takes refs d.toJson v ↔ Admits refs d.root v := by
  obtain ⟨behind, htoJson, hbehind⟩ := exists_toJson_eq d
  have hnone : behind.lookup "properties" = none := by
    rcases hbehind with ⟨-, rfl⟩ | rfl <;> rfl
  have htrivial : ∀ declared, TakesAll refs declared behind v := by
    intro declared
    rcases hbehind with ⟨-, rfl⟩ | rfl
    · exact trivial
    · exact ⟨trivial, trivial⟩
  have hdeclared : declaredNames
      ([("$schema", .string SchemaDocument.dialect), ("title", .string d.title)] ++
        d.root.keywords ++ behind) = declaredNames d.root.keywords := by
    simp [declaredNames, List.lookup_append, List.lookup_cons, hnone]
  rw [htoJson, Takes, hdeclared, takesAll_append, takesAll_append]
  exact ⟨fun h => h.1.2, fun h => ⟨⟨⟨trivial, trivial, trivial⟩, h⟩, htrivial _⟩⟩

theorem definitionsOf_toJson : definitionsOf d.toJson = memberSchemas d.definitions := by
  obtain ⟨behind, htoJson, hbehind⟩ := exists_toJson_eq d
  have hlookup : definitionsOf d.toJson = ((behind.lookup "$defs").getD .null).membersOf := by
    rw [htoJson, definitionsOf, Json.membersOf, List.lookup_append, List.lookup_append,
      lookup_defs_keywords]
    rfl
  rw [hlookup]
  rcases hbehind with ⟨hdefinitions, rfl⟩ | rfl
  · rw [hdefinitions]
    rfl
  · rfl

theorem explains_toJson_iff :
    Explains d.toJson refs ↔ ∀ reference v, refs reference v ↔ ∃ name s,
      reference = referenceTo name ∧ d.definitions.lookup name = some s ∧ Admits refs s v := by
  refine forall₂_congr fun reference v => iff_congr Iff.rfl (exists_congr fun name => ?_)
  rw [definitionsOf_toJson, lookup_memberSchemas]
  constructor
  · intro h
    obtain ⟨schema, hreference, hlookup, htakes⟩ := h
    obtain ⟨s, hs, rfl⟩ := Option.map_eq_some_iff.1 hlookup
    exact ⟨s, hreference, hs, htakes⟩
  · intro h
    obtain ⟨s, hreference, hlookup, hadmits⟩ := h
    exact ⟨_, hreference, Option.map_eq_some_iff.2 ⟨s, hlookup, rfl⟩, hadmits⟩

end

end Schema

end CallPolicy
