import CallPolicy.Config.Policy
import CallPolicy.Config.Tokens
import CallPolicy.Proofs.Rule
import Mathlib.Data.List.Perm.Basic

set_option autoImplicit false

/-! # Written forms that are decoded

The decoders are written once, over whatever values answer their questions; so is the proof that
they find what was written. `StandsFor` says that a value answers as a written form would, with the
members of a record in any order, and each decoder gives back what such a form was written for
(`Policy.recovers_read` and its like). -/

namespace CallPolicy

/-! ## Written forms -/

/-- Names of members as records have them: a word of letters and underscores that is not very
    long. -/
def isMemberName (name : String) : Bool :=
  let cs := name.toList
  !cs.isEmpty && cs.length ≤ 256 && cs.all fun c => c.isAlpha || c == '_'

/-- Values made of nothing but texts, lists and records, as written forms are. -/
inductive Json.Textual : Json → Prop where
  | string (text : String) : Textual (.string text)
  | array {items : List Json} (heach : ∀ j ∈ items, Textual j) : Textual (.array items)
  | object {members : List (String × Json)} (hnames : ∀ member ∈ members, isMemberName member.1)
      (heach : ∀ member ∈ members, Textual member.2) : Textual (.object members)

namespace Json

theorem textual_strings (l : List String) : (strings l).Textual := by
  refine .array fun j hj => ?_
  obtain ⟨text, -, rfl⟩ := List.mem_map.1 hj
  exact .string text

theorem textual_array_map {α : Type} {written : α → Json} {l : List α}
    (h : ∀ a, (written a).Textual) : (array (l.map written)).Textual := by
  refine .array fun j hj => ?_
  obtain ⟨a, -, rfl⟩ := List.mem_map.1 hj
  exact h a

theorem textual_object_nil : (object []).Textual :=
  .object (fun _ h => by cases h) fun _ h => by cases h

/-- A record is textual if each of its members is. -/
theorem textual_object_cons {name : String} {j : Json} {rest : List (String × Json)}
    (hname : isMemberName name = true) (hj : j.Textual) (hrest : (object rest).Textual) :
    (object ((name, j) :: rest)).Textual := by
  cases hrest with
  | object hnames heach =>
    exact .object (List.forall_mem_cons.2 ⟨hname, hnames⟩) (List.forall_mem_cons.2 ⟨hj, heach⟩)

end Json

open Json

theorem Requirement.textual_toJson (r : Requirement) : r.toJson.Textual := by
  cases r with
  | permitAll => exact .string _
  | denyAll => exact .string _
  | authenticated => exact .string _
  | hasAuthority a => exact textual_object_cons (by decide) (.string a) textual_object_nil
  | hasAnyAuthority l =>
    exact textual_object_cons (by decide) (textual_strings l) textual_object_nil

theorem Rule.textual_toJson (r : Rule) : r.toJson.Textual :=
  textual_object_cons (by decide) (.string _) <|
    textual_object_cons (by decide) r.require.textual_toJson textual_object_nil

theorem Policy.textual_toJson (p : Policy) : p.toJson.Textual :=
  textual_object_cons (by decide) (textual_array_map Rule.textual_toJson) textual_object_nil

theorem Principal.textual_toJson (p : Principal) : p.toJson.Textual :=
  textual_object_cons (by decide) (.string _) <|
    textual_object_cons (by decide) (textual_strings _) textual_object_nil

theorem TokenEntry.textual_toJson (e : TokenEntry) : e.toJson.Textual :=
  textual_object_cons (by decide) (.string _) <|
    textual_object_cons (by decide) (.string _) <|
      textual_object_cons (by decide) (textual_strings _) textual_object_nil

theorem TokenConfig.textual_toJson (c : TokenConfig) : c.toJson.Textual :=
  textual_object_cons (by decide) (.string _) <|
    textual_object_cons (by decide) (.string _) <|
      textual_object_cons (by decide) (textual_array_map TokenEntry.textual_toJson)
        textual_object_nil

/-! ## Values that stand for written forms -/

/-- Decoding that goes on as if nothing had happened where nothing has failed. -/
class LawfulDecoding (m : Type → Type) [Monad m] [MonadExceptOf DecodeError m] : Prop
    extends LawfulMonad m where
  tryCatch_pure : ∀ {α : Type} (x : α) (handle : DecodeError → m α),
    tryCatch (pure x) handle = pure x

section

variable (m : Type → Type) [Monad m] {ν : Type} [Source m ν]

/-- The value is text, whatever is expected of it. -/
def IsText (v : ν) (text : String) : Prop :=
  ∀ expected, Source.text expected v = (pure text : m String)

/-- The value answers a decoder as the written form does: a text, a list of values, or a record
    whose members may stand in another order. -/
inductive StandsFor : Json → ν → Prop where
  | string {text : String} {v : ν} (htext : IsText m v text)
      (hview : Source.view v = (pure (.string text) : m (View ν))) : StandsFor (.string text) v
  | array {items : List Json} {v : ν} {vs : List ν}
      (hitems : Source.items v = (pure vs : m (List ν)))
      (heach : List.Forall₂ (fun j w => StandsFor j w) items vs) : StandsFor (.array items) v
  | object {members arranged : List (String × Json)} {v : ν} {vs : List (ν × ν)}
      (hrecord : ∀ name, Source.record name v = (pure (.keyed vs) : m (Record ν)))
      (hview : Source.view v = (pure (.map vs) : m (View ν))) (horder : arranged.Perm members)
      (hkeys : List.Forall₂ (fun j w => IsText m (Prod.fst w) (Prod.fst j)) arranged vs)
      (heach : List.Forall₂ (fun j w => StandsFor (Prod.snd j) (Prod.snd w)) arranged vs) :
      StandsFor (.object members) v

end

section

variable {m : Type → Type} [Monad m] {ν : Type} [Source m ν] {α : Type}

/-- The decoder gives back `a` for every value that stands for the written form. -/
def Recovers (read : ν → m α) (written : Json) (a : α) : Prop :=
  ∀ v, StandsFor m written v → read v = pure a

theorem recovers_readText (text : String) :
    Recovers (readText : ν → m String) (.string text) text := by
  intro v hv
  cases hv with
  | string htext _ => exact htext _

end

/-! ## The fields of a record -/

section

variable {φ α : Type} {values : List φ} {pick : φ → Option α} {a : α}

/-- Of fields in any order the one that is picked is found. -/
theorem findSome?_of_perm {found : List φ} (hperm : found.Perm values)
    (hpick : values.filterMap pick = [a]) : found.findSome? pick = some a := by
  have hone : found.filterMap pick = [a] := by
    rw [← List.perm_singleton, ← hpick]
    exact hperm.filterMap pick
  rw [← List.head?_filterMap, hone, List.head?_cons]

theorem required_eq_pure {m : Type → Type} [Monad m] [MonadExceptOf DecodeError m] {d : Decoded φ}
    (hperm : d.values.Perm values) (hpick : values.filterMap pick = [a]) (name : String) :
    (required d name pick : m α) = pure a := by
  rw [required, findSome?_of_perm hperm hpick]

theorem optional_eq {d : Decoded φ} (hperm : d.values.Perm values)
    (hpick : values.filterMap pick = [a]) (default : α) : optional d pick default = a := by
  rw [optional, findSome?_of_perm hperm hpick, Option.getD_some]

end

section

variable {m : Type → Type} [Monad m] [MonadExceptOf DecodeError m] [LawfulDecoding m] {ν : Type}
  [Source m ν] {α φ : Type}

theorem within_pure (step : Step) (x : α) : within step (pure x : m α) = pure x :=
  LawfulDecoding.tryCatch_pure x _

/-! ## Lists -/

theorem itemsFrom_eq_pure {read : ν → m α} {written : α → Json} {l : List α}
    (hread : ∀ a ∈ l, Recovers read (written a) a) {vs : List ν}
    (heach : List.Forall₂ (StandsFor m) (l.map written) vs) (n : Nat) :
    itemsFrom read n vs = pure l := by
  induction l generalizing vs n with
  | nil =>
    cases heach
    rfl
  | cons a rest ih =>
    cases heach with
    | cons ha hrest =>
      have htail := ih (fun b hb => hread b (List.mem_cons_of_mem a hb)) hrest (n + 1)
      simp only [itemsFrom, hread a List.mem_cons_self _ ha, within_pure, htail, pure_bind]

theorem recovers_readList {read : ν → m α} {written : α → Json} {l : List α}
    (hread : ∀ a ∈ l, Recovers read (written a) a) :
    Recovers (readList read) (.array (l.map written)) l := by
  intro v hv
  cases hv with
  | array hitems heach => rw [readList, hitems, pure_bind, itemsFrom_eq_pure hread heach]

theorem recovers_readTexts (l : List String) :
    Recovers (readTexts : ν → m (List String)) (Json.strings l) l :=
  recovers_readList fun text _ => recovers_readText text

/-! ## Records -/

/-- The member of a record is one of the fields, and its decoder gives back `x`. -/
def FieldRecovers (entries : List (String × (ν → m φ))) (member : String × Json) (x : φ) : Prop :=
  ∃ read, entries.lookup member.1 = some read ∧ Recovers read member.2 x

/-- Members with names of their own are decoded one after the other. -/
theorem readMembers_eq_pure {entries : List (String × (ν → m φ))}
    {members : List (String × Json)} {vs : List (ν × ν)} {values : List φ} {seen : List String}
    (hkeys : List.Forall₂ (fun j w => IsText m (Prod.fst w) (Prod.fst j)) members vs)
    (heach : List.Forall₂ (fun j w => StandsFor m (Prod.snd j) (Prod.snd w)) members vs)
    (hfields : List.Forall₂ (FieldRecovers entries) members values)
    (hnew : ∀ j ∈ members, j.1 ∉ seen) (hdistinct : (members.map Prod.fst).Nodup) :
    readMembers entries seen vs = pure values := by
  induction members generalizing vs values seen with
  | nil =>
    cases hkeys
    cases hfields
    rfl
  | cons member rest ih =>
    obtain ⟨name, j⟩ := member
    cases hkeys with
    | @cons _ w _ ws hkey hkeys =>
    cases heach with
    | cons hvalue heach =>
    cases hfields with
    | @cons _ x _ xs hfield hfields =>
      obtain ⟨k, v⟩ := w
      obtain ⟨read, hlookup, hread⟩ := hfield
      rw [List.map_cons, List.nodup_cons] at hdistinct
      have hfresh : seen.contains name = false := by
        simpa using hnew (name, j) List.mem_cons_self
      have hlater : ∀ i ∈ rest, i.1 ∉ name :: seen := fun i hi hin => by
        rcases List.mem_cons.1 hin with heq | hin
        · exact hdistinct.1 (List.mem_map.2 ⟨i, hi, heq⟩)
        · exact hnew i (List.mem_cons_of_mem _ hi) hin
      have htail := ih hkeys heach hfields hlater hdistinct.2
      have hname : Source.text "field identifier" k = (pure name : m String) := hkey _
      simp only [readMembers, hname, hlookup, hfresh, hread v hvalue, within_pure, htail, pure_bind,
        Bool.false_eq_true, if_false]

/-- The fields of a record are found, in whatever order its members stand. -/
theorem readRecord_eq_pure {fields : Fields m ν φ} {members : List (String × Json)}
    {values : List φ} (hfields : List.Forall₂ (FieldRecovers fields.entries) members values)
    (hdistinct : (members.map Prod.fst).Nodup) {v : ν} (hv : StandsFor m (.object members) v) :
    ∃ found : List φ, found.Perm values ∧ readRecord fields v = pure ⟨found, .missingField⟩ := by
  cases hv with
  | object hrecord _ horder hkeys heach =>
    obtain ⟨found, hfound, hperm⟩ := List.perm_comp_forall₂ horder hfields
    have hnames := (horder.map Prod.fst).nodup_iff.2 hdistinct
    have hmembers := readMembers_eq_pure hkeys heach hfound (fun _ _ => List.not_mem_nil) hnames
    exact ⟨found, hperm, by simp only [readRecord, hrecord, hmembers, pure_bind]⟩

/-! ## Requirements -/

namespace Requirement

theorem Kind.ofName?_name (kind : Kind) : Kind.ofName? kind.name = some kind := by
  cases kind <;> decide

omit [LawfulDecoding m] in
theorem readKind_name (kind : Kind) : (readKind kind.name : m Kind) = pure kind := by
  rw [readKind, Kind.ofName?_name]

omit [MonadExceptOf DecodeError m] [LawfulDecoding m] in
/-- A record of one member is seen as that member. -/
theorem view_of_single {name : String} {j : Json} {v : ν}
    (hv : StandsFor m (.object [(name, j)]) v) :
    ∃ k w, Source.view v = (pure (.map [(k, w)]) : m (View ν)) ∧ IsText m k name ∧
      StandsFor m j w := by
  cases hv with
  | object _ hview horder hkeys heach =>
    obtain rfl := List.perm_singleton.1 horder
    cases hkeys with
    | @cons _ w _ _ hkey hkeys =>
      cases hkeys
      cases heach with
      | cons hvalue _ => exact ⟨w.1, w.2, hview, hkey, hvalue⟩

theorem recovers_read (r : Requirement) :
    Recovers (Requirement.read : ν → m Requirement) r.toJson r := by
  have hbare : ∀ (kind : Kind) (v : ν), StandsFor m (.string kind.name) v →
      (Requirement.read v : m Requirement) = readBare kind.name := fun kind v hv => by
    cases hv with
    | string _ hview => rw [Requirement.read, hview, pure_bind]
  intro v hv
  cases r with
  | permitAll => simp only [hbare _ v hv, readBare, readKind_name, pure_bind]
  | denyAll => simp only [hbare _ v hv, readBare, readKind_name, pure_bind]
  | authenticated => simp only [hbare _ v hv, readBare, readKind_name, pure_bind]
  | hasAuthority a =>
    obtain ⟨k, w, hview, hkey, hvalue⟩ := view_of_single hv
    have hname : Source.text "variant identifier" k = (pure Kind.hasAuthority.name : m String) :=
      hkey _
    simp only [Requirement.read, hview, readMap, hname, readKind_name, recovers_readText a w hvalue,
      within_pure, endOfMap, pure_bind]
  | hasAnyAuthority l =>
    obtain ⟨k, w, hview, hkey, hvalue⟩ := view_of_single hv
    have hname : Source.text "variant identifier" k = (pure Kind.hasAnyAuthority.name : m String) :=
      hkey _
    simp only [Requirement.read, hview, readMap, hname, readKind_name,
      recovers_readTexts l w hvalue, within_pure, endOfMap, pure_bind]

end Requirement

/-! ## Policies -/

/-- A field that is decoded by a reader and then told from the other fields by its constructor. -/
theorem fieldRecovers_of_lookup {entries : List (String × (ν → m φ))} {name : String} {j : Json}
    {read : ν → m α} {mk : α → φ} {a : α}
    (hlookup : entries.lookup name = some fun v => return mk (← read v))
    (hread : Recovers read j a) : FieldRecovers entries (name, j) (mk a) :=
  ⟨_, hlookup, fun v hv => by rw [hread v hv, pure_bind]⟩

theorem Rule.recovers_read (r : Rule) : Recovers (Rule.read : ν → m Rule) r.toJson r := by
  intro v hv
  have hfields : List.Forall₂ (FieldRecovers (Rule.fields (m := m) (ν := ν)).entries)
      [("method", .string r.method), ("require", r.require.toJson)]
      [.method r.method, .require r.require] :=
    .cons (fieldRecovers_of_lookup rfl (recovers_readText _))
      (.cons (fieldRecovers_of_lookup rfl (Requirement.recovers_read _)) .nil)
  obtain ⟨found, hperm, hrecord⟩ := readRecord_eq_pure hfields (by simp) hv
  simp only [Rule.read, hrecord, pure_bind]
  rw [required_eq_pure hperm rfl, pure_bind, required_eq_pure hperm rfl, pure_bind]

theorem Policy.recovers_read (p : Policy) : Recovers (Policy.read : ν → m Policy) p.toJson p := by
  intro v hv
  have hrules : Recovers (readList Rule.read : ν → m (List Rule))
      (.array (p.rules.map Rule.toJson)) p.rules :=
    recovers_readList fun r _ => r.recovers_read
  have hfields : List.Forall₂
      (FieldRecovers (Fields.mk (m := m) (ν := ν) "AuthorizationConfig"
        [("rules", readList Rule.read)]).entries)
      [("rules", .array (p.rules.map Rule.toJson))] [p.rules] :=
    .cons ⟨_, rfl, hrules⟩ .nil
  obtain ⟨found, hperm, hrecord⟩ := readRecord_eq_pure hfields (by simp) hv
  simp only [Policy.read, hrecord, pure_bind]
  rw [optional_eq hperm rfl]

/-! ## Principals and tokens -/

/-- The set of the members of a set. -/
theorem AuthoritySet.ofList_toList (s : AuthoritySet) : ofList s.toList = s :=
  ext_mem fun _ => mem_toList_ofList

theorem Principal.recovers_read (p : Principal) :
    Recovers (Principal.read : ν → m Principal) p.toJson p := by
  intro v hv
  have hfields : List.Forall₂ (FieldRecovers (Principal.fields (m := m) (ν := ν)).entries)
      [("id", .string p.id), ("authorities", .strings p.authorities.toList)]
      [.id p.id, .authorities p.authorities.toList] :=
    .cons (fieldRecovers_of_lookup rfl (recovers_readText _))
      (.cons (fieldRecovers_of_lookup rfl (recovers_readTexts _)) .nil)
  obtain ⟨found, hperm, hrecord⟩ := readRecord_eq_pure hfields (by simp) hv
  simp only [Principal.read, hrecord, pure_bind]
  rw [required_eq_pure hperm rfl, pure_bind, optional_eq hperm rfl, withAuthorities,
    AuthoritySet.ofList_toList]
  rfl

theorem TokenEntry.recovers_read (e : TokenEntry) :
    Recovers (TokenEntry.read : ν → m TokenEntry) e.toJson e := by
  intro v hv
  have hfields : List.Forall₂ (FieldRecovers (TokenEntry.fields (m := m) (ν := ν)).entries)
      [("token", .string e.token), ("id", .string e.id), ("authorities", .strings e.authorities)]
      [.token e.token, .id e.id, .authorities e.authorities] :=
    .cons (fieldRecovers_of_lookup rfl (recovers_readText _))
      (.cons (fieldRecovers_of_lookup rfl (recovers_readText _))
        (.cons (fieldRecovers_of_lookup rfl (recovers_readTexts _)) .nil))
  obtain ⟨found, hperm, hrecord⟩ := readRecord_eq_pure hfields (by simp) hv
  simp only [TokenEntry.read, hrecord, pure_bind]
  rw [required_eq_pure hperm rfl, pure_bind, required_eq_pure hperm rfl, pure_bind,
    optional_eq hperm rfl]

theorem TokenConfig.recovers_read (c : TokenConfig) :
    Recovers (TokenConfig.read : ν → m TokenConfig) c.toJson c := by
  intro v hv
  have hentries : Recovers (readList TokenEntry.read : ν → m (List TokenEntry))
      (.array (c.tokens.map TokenEntry.toJson)) c.tokens :=
    recovers_readList fun e _ => e.recovers_read
  have hfields : List.Forall₂ (FieldRecovers (TokenConfig.fields (m := m) (ν := ν)).entries)
      [("header", .string c.header), ("prefix", .string c.scheme),
        ("tokens", .array (c.tokens.map TokenEntry.toJson))]
      [.header c.header, .scheme c.scheme, .tokens c.tokens] :=
    .cons (fieldRecovers_of_lookup rfl (recovers_readText _))
      (.cons (fieldRecovers_of_lookup rfl (recovers_readText _))
        (.cons (fieldRecovers_of_lookup rfl hentries) .nil))
  obtain ⟨found, hperm, hrecord⟩ := readRecord_eq_pure hfields (by simp) hv
  simp only [TokenConfig.read, hrecord, pure_bind]
  rw [optional_eq hperm rfl, optional_eq hperm rfl, optional_eq hperm rfl]

end

end CallPolicy
