import CallPolicy.Config.Tokens
import CallPolicy.Proofs.Grammar

set_option autoImplicit false

/-! # Records written by name

Which JSON values say a policy or a token configuration with every record written as an object that
gives its names once (`Policy.SaysByName`, `TokenConfig.SaysByName`). Written forms do, and decoders
accept all values that do. The decoders accept more, such as records written by position, but this
is what a schema can say of a value. -/

namespace CallPolicy

open Json

variable {α β φ : Type}

/-! ## Members under a name -/

namespace Json

variable {members : List (String × Json)} {name : String} {x : Json}

theorem mem_names_iff : name ∈ members.map Prod.fst ↔ ∃ x, (name, x) ∈ members := by
  simp

theorem valuesOf_eq_nil_iff : valuesOf members name = [] ↔ ∀ x, (name, x) ∉ members := by
  simp only [List.eq_nil_iff_forall_not_mem, mem_valuesOf]

/-- Where no name is given twice, a member is the only one of its name. -/
theorem valuesOf_eq_singleton (hnames : (members.map Prod.fst).Nodup) (h : (name, x) ∈ members) :
    valuesOf members name = [x] := by
  induction members with
  | nil => simp at h
  | cons member rest ih =>
    rw [List.map_cons, List.nodup_cons] at hnames
    rw [valuesOf_cons]
    by_cases heq : member.1 = name
    · have hrest : ∀ y, (name, y) ∉ rest := fun y hy =>
        hnames.1 (List.mem_map.2 ⟨(name, y), hy, heq.symm⟩)
      rw [if_pos heq, valuesOf_eq_nil_iff.2 hrest]
      rcases List.mem_cons.1 h with rfl | h
      · rfl
      · exact absurd h (hrest x)
    · rw [if_neg heq]
      rcases List.mem_cons.1 h with rfl | h
      · exact absurd rfl heq
      · exact ih hnames.2 h

end Json

/-- The members give the name one value, and that says `a`. -/
def Gives (members : List (String × Json)) (name : String) (tells : Json → α → Prop) (a : α) :
    Prop :=
  ∃ v, valuesOf members name = [v] ∧ tells v a

/-- The members give the name one value that says `a`, or none where `a` is the default. -/
def GivesOr (members : List (String × Json)) (name : String) (tells : Json → α → Prop)
    (default a : α) : Prop :=
  (valuesOf members name = [] ∧ a = default) ∨ Gives members name tells a

section

variable {members : List (String × Json)} {name : String} {tells : Json → α → Prop}

theorem exists_gives_iff (hnames : (members.map Prod.fst).Nodup) :
    (∃ a, Gives members name tells a) ↔
      (∀ x, (name, x) ∈ members → ∃ a, tells x a) ∧ name ∈ members.map Prod.fst := by
  constructor
  · intro h
    obtain ⟨a, v, hone, ha⟩ := h
    have hmem : ∀ x, (name, x) ∈ members ↔ x = v := fun x => by
      rw [← mem_valuesOf, hone, List.mem_singleton]
    exact ⟨fun x hx => ⟨a, (hmem x).1 hx ▸ ha⟩, mem_names_iff.2 ⟨v, (hmem v).2 rfl⟩⟩
  · intro h
    obtain ⟨heach, hgiven⟩ := h
    obtain ⟨x, hx⟩ := mem_names_iff.1 hgiven
    obtain ⟨a, ha⟩ := heach x hx
    exact ⟨a, x, valuesOf_eq_singleton hnames hx, ha⟩

theorem exists_givesOr_iff (hnames : (members.map Prod.fst).Nodup) (default : α) :
    (∃ a, GivesOr members name tells default a) ↔
      ∀ x, (name, x) ∈ members → ∃ a, tells x a := by
  constructor
  · intro h
    obtain ⟨a, ⟨hnone, -⟩ | hgives⟩ := h
    · exact fun x hx => absurd hx (valuesOf_eq_nil_iff.1 hnone x)
    · exact ((exists_gives_iff hnames).1 ⟨a, hgives⟩).1
  · intro heach
    by_cases hgiven : name ∈ members.map Prod.fst
    · obtain ⟨a, ha⟩ := (exists_gives_iff hnames).2 ⟨heach, hgiven⟩
      exact ⟨a, .inr ha⟩
    · rw [mem_names_iff, not_exists] at hgiven
      exact ⟨default, .inl ⟨valuesOf_eq_nil_iff.2 hgiven, rfl⟩⟩

end

/-! ## Texts and lists -/

/-- The value says the text. -/
def SaysText (v : Json) (text : String) : Prop := v = .string text

/-- The value is an array whose items say those of the list, one by one. -/
def SaysList (tells : Json → α → Prop) (v : Json) (l : List α) : Prop :=
  ∃ items, v = .array items ∧ List.Forall₂ tells items l

theorem exists_saysList_iff {tells : Json → α → Prop} {v : Json} :
    (∃ l, SaysList tells v l) ↔ ∃ items, v = .array items ∧ ∀ x ∈ items, ∃ a, tells x a := by
  have hitems : ∀ items : List Json,
      (∃ l, List.Forall₂ tells items l) ↔ ∀ x ∈ items, ∃ a, tells x a := by
    intro items
    induction items with
    | nil => simp
    | cons x rest ih =>
      rw [List.forall_mem_cons, ← ih]
      simp only [List.forall₂_cons_left_iff]
      constructor
      · intro h
        obtain ⟨_, a, l, ha, hl, rfl⟩ := h
        exact ⟨⟨a, ha⟩, l, hl⟩
      · intro h
        obtain ⟨⟨a, ha⟩, l, hl⟩ := h
        exact ⟨_, a, l, ha, hl, rfl⟩
  constructor
  · intro h
    obtain ⟨l, items, hv, heach⟩ := h
    exact ⟨items, hv, (hitems items).1 ⟨l, heach⟩⟩
  · intro h
    obtain ⟨items, hv, heach⟩ := h
    obtain ⟨l, hl⟩ := (hitems items).2 heach
    exact ⟨l, items, hv, hl⟩

/-- The list of the written forms of its members says a list. -/
theorem saysList_map {tells : Json → α → Prop} {written : α → Json} (h : ∀ a, tells (written a) a)
    (l : List α) : SaysList tells (.array (l.map written)) l :=
  ⟨_, rfl, List.forall₂_map_left_iff.2 (List.forall₂_same.2 fun a _ => h a)⟩

theorem saysList_text_iff {v : Json} {l : List String} :
    SaysList SaysText v l ↔ v = .strings l := by
  have hitems : ∀ items : List Json, List.Forall₂ SaysText items l ↔ items = l.map .string := by
    intro items
    rw [← List.forall₂_eq_eq_eq, List.forall₂_map_right_iff]
    rfl
  simp only [SaysList, hitems, exists_eq_right]
  rfl

/-- The decoder accepts what says something, and as that. -/
def Understands (read : Json → JsonDecode α) (tells : Json → α → Prop) : Prop :=
  ∀ v a, tells v a → read v = .ok a

theorem understands_readText : Understands readText SaysText :=
  fun _ _ h => readText_eq_ok_iff.2 h

theorem understands_readList {read : Json → JsonDecode α} {tells : Json → α → Prop}
    (h : Understands read tells) : Understands (readList read) (SaysList tells) := by
  intro v l hv
  obtain ⟨items, rfl, heach⟩ := hv
  exact readList_eq_ok_iff.2 ⟨items, rfl, heach.imp h⟩

theorem understands_readTexts : Understands readTexts (SaysList SaysText) :=
  understands_readList understands_readText

/-! ## The fields of a record -/

/-- A reader marks what it has read as a field. -/
theorem marked_eq_ok_iff {read : Json → JsonDecode α} {mark : α → φ} {v : Json} {x : φ} :
    (do return mark (← read v) : JsonDecode φ) = .ok x ↔ ∃ a, read v = .ok a ∧ mark a = x :=
  bind_eq_ok_iff.trans (by simp [pure, Except.pure])

/-- Fields with another mark are not picked. -/
theorem pick_marked {read : Json → JsonDecode β} {mark : β → φ} {pick : φ → Option α}
    (h : ∀ b, pick (mark b) = none) (v : Json) (x : φ)
    (hx : (do return mark (← read v) : JsonDecode φ) = .ok x) : pick x = none := by
  obtain ⟨b, -, rfl⟩ := marked_eq_ok_iff.1 hx
  exact h b

theorem forall_mem_three {P : α → Prop} {a b c : α} :
    (∀ x ∈ [a, b, c], P x) ↔ P a ∧ P b ∧ P c := by
  rw [List.forall_mem_cons, List.forall_mem_cons, List.forall_mem_singleton]

namespace IsField

variable {entries : List (String × (Json → JsonDecode φ))} {name : String}
  {read : Json → JsonDecode α} {pick : φ → Option α} {tells : Json → α → Prop}
  {members : List (String × Json)} {values : List φ} {default a : α}

/-- A field whose reader marks what `read` gives, told by that mark. -/
theorem of_marked (mark : α → φ)
    (hlookup : entries.lookup name = some fun v => return mark (← read v))
    (hpick : ∀ a, pick (mark a) = some a)
    (hothers : ∀ e ∈ entries, e.1 ≠ name → ∀ v x, e.2 v = .ok x → pick x = none) :
    IsField entries name read pick :=
  .of_lookup mark hlookup (fun _ _ => marked_eq_ok_iff) hpick hothers

theorem declared_of_gives (h : IsField entries name read pick) (hread : Understands read tells)
    (hgives : Gives members name tells a) :
    Json.valuesOf members name = [] ∨
      ∃ v x, Json.valuesOf members name = [v] ∧ ReadsField entries name v x := by
  obtain ⟨v, hone, ha⟩ := hgives
  exact .inr (h.accepted hone (hread v a ha))

theorem declared_of_givesOr (h : IsField entries name read pick) (hread : Understands read tells)
    (hgives : GivesOr members name tells default a) :
    Json.valuesOf members name = [] ∨
      ∃ v x, Json.valuesOf members name = [v] ∧ ReadsField entries name v x := by
  rcases hgives with ⟨hnone, -⟩ | hgives
  · exact .inl hnone
  · exact h.declared_of_gives hread hgives

theorem findSome?_of_gives (h : IsField entries name read pick) (hread : Understands read tells)
    (hvalues : readMembers entries [] (Json.keyed members) = .ok values)
    (hgives : Gives members name tells a) : values.findSome? pick = some a := by
  obtain ⟨v, hone, ha⟩ := hgives
  exact (h.findSome?_eq_some_iff hvalues).2 ⟨v, hone, hread v a ha⟩

theorem getD_of_givesOr (h : IsField entries name read pick) (hread : Understands read tells)
    (hvalues : readMembers entries [] (Json.keyed members) = .ok values)
    (hgives : GivesOr members name tells default a) :
    (values.findSome? pick).getD default = a := by
  rcases hgives with ⟨hnone, rfl⟩ | hgives
  · rw [(h.findSome?_eq_none_iff hvalues).2 hnone, Option.getD_none]
  · rw [h.findSome?_of_gives hread hvalues hgives, Option.getD_some]

end IsField

/-- The record of members that are decoded. -/
theorem readRecord_members {fields : Fields JsonDecode Json φ} {members : List (String × Json)}
    {values : List φ} (hvalues : readMembers fields.entries [] (keyed members) = .ok values) :
    readRecord fields (Json.object members) = .ok ⟨values, .missingField⟩ :=
  bind_eq_ok_iff.2 ⟨_, rfl, bind_eq_ok_iff.2 ⟨values, hvalues, rfl⟩⟩

/-! ## Rules and policies -/

/-- The value says a rule by the names of its method and its requirement. -/
inductive Rule.SaysByName : Json → Rule → Prop where
  | object {members : List (String × Json)} {r : Rule} (hnames : (members.map Prod.fst).Nodup)
      (hmethod : Gives members "method" SaysText r.method)
      (hrequire : Gives members "require" Requirement.Says r.require) :
      SaysByName (.object members) r

/-- The value says a policy by the name of its rules, which may be left out. -/
inductive Policy.SaysByName : Json → Policy → Prop where
  | object {members : List (String × Json)} {p : Policy} (hnames : (members.map Prod.fst).Nodup)
      (hrules : GivesOr members "rules" (SaysList Rule.SaysByName) [] p.rules) :
      SaysByName (.object members) p

theorem Requirement.says_toJson (r : Requirement) : Says r.toJson r := by
  cases r with
  | permitAll => exact .permitAll
  | denyAll => exact .denyAll
  | authenticated => exact .authenticated
  | hasAuthority a => exact .hasAuthority a
  | hasAnyAuthority l => exact .hasAnyAuthority l

theorem Rule.SaysByName.toSays {v : Json} {r : Rule} (h : SaysByName v r) : Says v r := by
  obtain ⟨-, hmethod, hrequire⟩ := h
  obtain ⟨_, hmethod, rfl⟩ := hmethod
  obtain ⟨v, hrequire, hsays⟩ := hrequire
  exact .members hmethod hrequire hsays

theorem Policy.SaysByName.toSays {v : Json} {p : Policy} (h : SaysByName v p) : Says v p := by
  obtain ⟨rules⟩ := p
  obtain ⟨-, hrules⟩ := h
  rcases hrules with ⟨hnone, hdefault⟩ | ⟨_, hone, items, rfl, heach⟩
  · obtain rfl : rules = [] := hdefault
    exact .noMember hnone
  · exact .members hone (heach.imp fun _ _ h => h.toSays)

theorem Rule.saysByName_toJson (r : Rule) : SaysByName r.toJson r :=
  .object (by simp) ⟨_, rfl, rfl⟩ ⟨_, rfl, r.require.says_toJson⟩

theorem Policy.saysByName_toJson (p : Policy) : SaysByName p.toJson p :=
  .object (by simp) (.inr ⟨_, rfl, saysList_map Rule.saysByName_toJson p.rules⟩)

theorem Policy.understands_read : Understands Policy.read SaysByName :=
  fun _ _ h => read_eq_ok_iff.2 h.toSays

/-! ## Tokens -/

/-- The value says a token with its principal by the names of their parts; the authorities may be
    left out. -/
inductive TokenEntry.SaysByName : Json → TokenEntry → Prop where
  | object {members : List (String × Json)} {e : TokenEntry}
      (hnames : (members.map Prod.fst).Nodup) (htoken : Gives members "token" SaysText e.token)
      (hid : Gives members "id" SaysText e.id)
      (hauthorities : GivesOr members "authorities" (SaysList SaysText) [] e.authorities) :
      SaysByName (.object members) e

/-- The value says a token configuration by the names of its parts, each of which may be left
    out. -/
inductive TokenConfig.SaysByName : Json → TokenConfig → Prop where
  | object {members : List (String × Json)} {c : TokenConfig}
      (hnames : (members.map Prod.fst).Nodup)
      (hheader : GivesOr members "header" SaysText "authorization" c.header)
      (hscheme : GivesOr members "prefix" SaysText "Bearer " c.scheme)
      (htokens : GivesOr members "tokens" (SaysList TokenEntry.SaysByName) [] c.tokens) :
      SaysByName (.object members) c

theorem TokenEntry.saysByName_toJson (e : TokenEntry) : SaysByName e.toJson e :=
  .object (by simp) ⟨_, rfl, rfl⟩ ⟨_, rfl, rfl⟩ (.inr ⟨_, rfl, saysList_text_iff.2 rfl⟩)

theorem TokenConfig.saysByName_toJson (c : TokenConfig) : SaysByName c.toJson c :=
  .object (by simp) (.inr ⟨_, rfl, rfl⟩) (.inr ⟨_, rfl, rfl⟩)
    (.inr ⟨_, rfl, saysList_map TokenEntry.saysByName_toJson c.tokens⟩)

namespace TokenEntry

/-- The fields of an entry in JSON. -/
abbrev jsonFields : Fields JsonDecode Json Field := fields

theorem isField_token : IsField jsonFields.entries "token" readText
    (fun | .token text => some text | _ => none) := by
  refine .of_marked Field.token rfl (fun _ => rfl) (forall_mem_three.2 ?_)
  exact ⟨fun hne => absurd rfl hne, fun _ => pick_marked fun _ => rfl,
    fun _ => pick_marked fun _ => rfl⟩

theorem isField_id : IsField jsonFields.entries "id" readText
    (fun | .id text => some text | _ => none) := by
  refine .of_marked Field.id rfl (fun _ => rfl) (forall_mem_three.2 ?_)
  exact ⟨fun _ => pick_marked fun _ => rfl, fun hne => absurd rfl hne,
    fun _ => pick_marked fun _ => rfl⟩

theorem isField_authorities : IsField jsonFields.entries "authorities" readTexts
    (fun | .authorities l => some l | _ => none) := by
  refine .of_marked Field.authorities rfl (fun _ => rfl) (forall_mem_three.2 ?_)
  exact ⟨fun _ => pick_marked fun _ => rfl, fun _ => pick_marked fun _ => rfl,
    fun hne => absurd rfl hne⟩

theorem understands_read : Understands TokenEntry.read SaysByName := by
  intro v e h
  cases h with
  | @object members _ _ htoken hid hauthorities =>
    obtain ⟨values, hvalues⟩ : ∃ values, readMembers jsonFields.entries [] (keyed members) =
        .ok values := by
      refine exists_readMembers (forall_mem_three.2 ?_)
      exact ⟨isField_token.declared_of_gives understands_readText htoken,
        isField_id.declared_of_gives understands_readText hid,
        isField_authorities.declared_of_givesOr understands_readTexts hauthorities⟩
    have htoken := isField_token.findSome?_of_gives understands_readText hvalues htoken
    have hid := isField_id.findSome?_of_gives understands_readText hvalues hid
    have hauthorities :=
      isField_authorities.getD_of_givesOr understands_readTexts hvalues hauthorities
    refine bind_eq_ok_iff.2 ⟨_, readRecord_members hvalues, ?_⟩
    refine bind_eq_ok_iff.2 ⟨e.token, required_eq_ok_iff.2 htoken, ?_⟩
    refine bind_eq_ok_iff.2 ⟨e.id, required_eq_ok_iff.2 hid, ?_⟩
    exact congrArg (fun l => Except.ok (TokenEntry.mk e.token e.id l)) hauthorities

end TokenEntry

namespace TokenConfig

/-- The fields of a token configuration in JSON. -/
abbrev jsonFields : Fields JsonDecode Json Field := fields

theorem isField_header : IsField jsonFields.entries "header" readText
    (fun | .header text => some text | _ => none) := by
  refine .of_marked Field.header rfl (fun _ => rfl) (forall_mem_three.2 ?_)
  exact ⟨fun hne => absurd rfl hne, fun _ => pick_marked fun _ => rfl,
    fun _ => pick_marked fun _ => rfl⟩

theorem isField_scheme : IsField jsonFields.entries "prefix" readText
    (fun | .scheme text => some text | _ => none) := by
  refine .of_marked Field.scheme rfl (fun _ => rfl) (forall_mem_three.2 ?_)
  exact ⟨fun _ => pick_marked fun _ => rfl, fun hne => absurd rfl hne,
    fun _ => pick_marked fun _ => rfl⟩

theorem isField_tokens : IsField jsonFields.entries "tokens" (readList TokenEntry.read)
    (fun | .tokens l => some l | _ => none) := by
  refine .of_marked Field.tokens rfl (fun _ => rfl) (forall_mem_three.2 ?_)
  exact ⟨fun _ => pick_marked fun _ => rfl, fun _ => pick_marked fun _ => rfl,
    fun hne => absurd rfl hne⟩

theorem understands_read : Understands TokenConfig.read SaysByName := by
  intro v c h
  cases h with
  | @object members _ _ hheader hscheme htokens =>
    have hentries := understands_readList TokenEntry.understands_read
    obtain ⟨values, hvalues⟩ : ∃ values, readMembers jsonFields.entries [] (keyed members) =
        .ok values := by
      refine exists_readMembers (forall_mem_three.2 ?_)
      exact ⟨isField_header.declared_of_givesOr understands_readText hheader,
        isField_scheme.declared_of_givesOr understands_readText hscheme,
        isField_tokens.declared_of_givesOr hentries htokens⟩
    have hheader := isField_header.getD_of_givesOr understands_readText hvalues hheader
    have hscheme := isField_scheme.getD_of_givesOr understands_readText hvalues hscheme
    have htokens := isField_tokens.getD_of_givesOr hentries hvalues htokens
    refine bind_eq_ok_iff.2 ⟨_, readRecord_members hvalues, congrArg Except.ok ?_⟩
    exact congr (congrArg₂ TokenConfig.mk hheader hscheme) htokens

end TokenConfig

end CallPolicy
