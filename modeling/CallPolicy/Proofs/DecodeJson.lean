import CallPolicy.Decode.Source
import Mathlib.Data.List.Nodup

set_option autoImplicit false

/-! # What decoders of JSON accept

When a decoder of JSON values succeeds, and with what: one lemma for each combinator. A record is
told by the values that its members give to each name (`Json.valuesOf`): the members are decoded iff
every field has at most one value, which its decoder accepts (`exists_readMembers_iff`), and a field
is found iff it has one (`IsField.findSome?_eq_some_iff`). -/

namespace CallPolicy

variable {α φ : Type}

/-! ## Single values -/

theorem failHere_ne_ok {fault : Fault} {a : α} : (failHere fault : JsonDecode α) ≠ .ok a := by
  intro h
  cases h

/-- A value is decoded on its own as it is within another. -/
theorem within_eq_ok_iff {step : Step} {x : JsonDecode α} {a : α} :
    within step x = .ok a ↔ x = .ok a := by
  cases x with
  | error e => exact ⟨fun h => (by cases h), fun h => (by cases h)⟩
  | ok b => exact Iff.rfl

/-- A text is itself, whatever is said to be expected. -/
theorem text_string (expected text : String) :
    Source.text expected (Json.string text) = (pure text : JsonDecode String) := rfl

theorem readText_eq_ok_iff {v : Json} {text : String} :
    (readText v : JsonDecode String) = .ok text ↔ v = .string text := by
  constructor
  · intro h
    cases v with
    | string s =>
      cases h
      rfl
    | _ => cases h
  · rintro rfl
    rfl

/-! ## Lists -/

theorem itemsFrom_eq_ok_iff {read : Json → JsonDecode α} {n : Nat} {items : List Json}
    {l : List α} :
    itemsFrom read n items = .ok l ↔ List.Forall₂ (fun v a => read v = .ok a) items l := by
  induction items generalizing n l with
  | nil =>
    rw [List.forall₂_nil_left_iff]
    exact ⟨fun h => (by cases h; rfl), fun h => h ▸ rfl⟩
  | cons v rest ih =>
    simp only [itemsFrom, bind_eq_ok_iff, within_eq_ok_iff, ih, List.forall₂_cons_left_iff]
    constructor
    · rintro ⟨a, ha, l', hl, h⟩
      cases h
      exact ⟨a, l', ha, hl, rfl⟩
    · rintro ⟨a, l', ha, hl, rfl⟩
      exact ⟨a, ha, l', hl, rfl⟩

theorem readList_eq_ok_iff {read : Json → JsonDecode α} {v : Json} {l : List α} :
    readList read v = .ok l ↔
      ∃ items, v = .array items ∧ List.Forall₂ (fun v a => read v = .ok a) items l := by
  rw [readList, bind_eq_ok_iff]
  simp only [itemsFrom_eq_ok_iff]
  constructor
  · rintro ⟨items, hitems, heach⟩
    cases v with
    | array l =>
      cases hitems
      exact ⟨_, rfl, heach⟩
    | _ => cases hitems
  · rintro ⟨items, rfl, heach⟩
    exact ⟨items, rfl, heach⟩

theorem readTexts_eq_ok_iff {v : Json} {l : List String} :
    (readTexts v : JsonDecode (List String)) = .ok l ↔ v = .array (l.map .string) := by
  have htexts : ∀ items : List Json,
      List.Forall₂ (fun v a => (readText v : JsonDecode String) = .ok a) items l ↔
        items = l.map Json.string := fun items => by
    simp only [readText_eq_ok_iff]
    rw [← List.forall₂_map_right_iff (R := Eq), List.forall₂_eq_eq_eq]
  rw [readTexts, readList_eq_ok_iff]
  simp only [htexts]
  constructor
  · rintro ⟨_, rfl, rfl⟩
    rfl
  · intro h
    exact ⟨_, h, rfl⟩

/-! ## Members of a record -/

/-- The values that members give to a name. -/
def Json.valuesOf (members : List (String × Json)) (name : String) : List Json :=
  (members.filter (·.1 == name)).map Prod.snd

@[simp] theorem Json.valuesOf_nil (name : String) : Json.valuesOf [] name = [] := rfl

theorem Json.valuesOf_cons (member : String × Json) (rest : List (String × Json)) (name : String) :
    Json.valuesOf (member :: rest) name =
      if member.1 = name then member.2 :: Json.valuesOf rest name else Json.valuesOf rest name := by
  by_cases h : member.1 = name
  · simp [Json.valuesOf, h]
  · simp [Json.valuesOf, h]

theorem Json.mem_valuesOf {members : List (String × Json)} {name : String} {v : Json} :
    v ∈ Json.valuesOf members name ↔ (name, v) ∈ members := by
  simp [Json.valuesOf]

/-- The entry that is found under a name stands in the list. -/
theorem mem_of_lookup {entries : List (String × α)} {name : String} {a : α}
    (h : entries.lookup name = some a) : (name, a) ∈ entries := by
  obtain ⟨before, behind, rfl, -⟩ := List.lookup_eq_some_iff.1 h
  simp

/-- A field of a record that is being decoded, under its name. -/
def ReadsField (entries : List (String × (Json → JsonDecode φ))) (name : String) (v : Json)
    (x : φ) : Prop :=
  ∃ read, entries.lookup name = some read ∧ read v = .ok x

/-- A member that names a field is decoded, unless the field has been seen; others are passed
    over. -/
theorem readMembers_cons_eq_ok_iff {entries : List (String × (Json → JsonDecode φ))}
    {seen : List String} {member : String × Json} {rest : List (String × Json)} {values : List φ} :
    readMembers entries seen (Json.keyed (member :: rest)) = .ok values ↔
      (entries.lookup member.1 = none ∧ readMembers entries seen (Json.keyed rest) = .ok values) ∨
      ∃ x xs, ReadsField entries member.1 member.2 x ∧ member.1 ∉ seen ∧
        readMembers entries (member.1 :: seen) (Json.keyed rest) = .ok xs ∧ values = x :: xs := by
  obtain ⟨name, v⟩ := member
  have hskip : (Source.skip v : JsonDecode Unit) = pure () := rfl
  rw [Json.keyed, List.map_cons, readMembers, text_string, pure_bind, ← Json.keyed]
  cases hlookup : entries.lookup name with
  | none => simp [ReadsField, hlookup, hskip]
  | some read =>
    by_cases hseen : name ∈ seen
    · simp [ReadsField, hlookup, hseen, failHere_ne_ok]
    · simp only [ReadsField, hlookup, hseen, List.contains_eq_mem, decide_false, Bool.false_eq_true,
        if_false, bind_eq_ok_iff, within_eq_ok_iff, reduceCtorEq, false_and, false_or,
        Option.some.injEq, exists_eq_left', not_false_eq_true, true_and]
      constructor
      · rintro ⟨x, hx, xs, hxs, h⟩
        cases h
        exact ⟨x, xs, hx, hxs, rfl⟩
      · rintro ⟨x, xs, hx, hxs, rfl⟩
        exact ⟨x, hx, xs, hxs, rfl⟩

/-- Every field has at most one value, which its decoder accepts. -/
def FieldsAccepted (entries : List (String × (Json → JsonDecode φ))) (seen : List String)
    (members : List (String × Json)) : Prop :=
  ∀ name, entries.lookup name ≠ none → Json.valuesOf members name = [] ∨
    ∃ v x, Json.valuesOf members name = [v] ∧ ReadsField entries name v x ∧ name ∉ seen

section

variable {entries : List (String × (Json → JsonDecode φ))} {seen : List String}
  {member : String × Json} {rest : List (String × Json)}

theorem fieldsAccepted_cons_of_unknown (h : entries.lookup member.1 = none) :
    FieldsAccepted entries seen (member :: rest) ↔ FieldsAccepted entries seen rest := by
  refine forall₂_congr fun name hname => ?_
  have hne : member.1 ≠ name := fun heq => hname (heq ▸ h)
  rw [Json.valuesOf_cons, if_neg hne]

theorem fieldsAccepted_cons_of_known (h : entries.lookup member.1 ≠ none) :
    FieldsAccepted entries seen (member :: rest) ↔
      (∃ x, ReadsField entries member.1 member.2 x) ∧ member.1 ∉ seen ∧
        FieldsAccepted entries (member.1 :: seen) rest := by
  constructor
  · intro haccepted
    have hmember := haccepted member.1 h
    simp only [Json.valuesOf_cons, if_pos, List.cons.injEq, reduceCtorEq, false_or] at hmember
    obtain ⟨v, x, ⟨rfl, hnone⟩, hx, hseen⟩ := hmember
    refine ⟨⟨x, hx⟩, hseen, fun name hname => ?_⟩
    by_cases heq : member.1 = name
    · exact .inl (heq ▸ hnone)
    · have hother := haccepted name hname
      rw [Json.valuesOf_cons, if_neg heq] at hother
      refine hother.imp_right ?_
      rintro ⟨w, y, hw, hy, hnew⟩
      exact ⟨w, y, hw, hy, fun hmem => (List.mem_cons.1 hmem).elim (Ne.symm heq) hnew⟩
  · rintro ⟨⟨x, hx⟩, hseen, haccepted⟩ name hname
    rw [Json.valuesOf_cons]
    by_cases heq : member.1 = name
    · subst heq
      -- behind the member its name is seen, so nothing more may be given to it
      rcases haccepted member.1 h with hnone | ⟨_, _, _, _, hnew⟩
      · rw [if_pos rfl, hnone]
        exact .inr ⟨_, x, rfl, hx, hseen⟩
      · exact absurd List.mem_cons_self hnew
    · rw [if_neg heq]
      refine (haccepted name hname).imp_right ?_
      rintro ⟨v, y, hv, hy, hnew⟩
      exact ⟨v, y, hv, hy, fun hmem => hnew (List.mem_cons_of_mem _ hmem)⟩

end

theorem exists_readMembers_iff {entries : List (String × (Json → JsonDecode φ))}
    {seen : List String} {members : List (String × Json)} :
    (∃ values, readMembers entries seen (Json.keyed members) = .ok values) ↔
      FieldsAccepted entries seen members := by
  induction members generalizing seen with
  | nil => exact ⟨fun _ _ _ => .inl rfl, fun _ => ⟨[], rfl⟩⟩
  | cons member rest ih =>
    by_cases hlookup : entries.lookup member.1 = none
    · rw [fieldsAccepted_cons_of_unknown hlookup, ← ih]
      simp [readMembers_cons_eq_ok_iff, hlookup, ReadsField]
    · rw [fieldsAccepted_cons_of_known hlookup, ← ih]
      simp only [readMembers_cons_eq_ok_iff, hlookup, false_and, false_or]
      constructor
      · rintro ⟨_, x, xs, hx, hseen, hxs, -⟩
        exact ⟨⟨x, hx⟩, hseen, xs, hxs⟩
      · rintro ⟨⟨x, hx⟩, hseen, xs, hxs⟩
        exact ⟨x :: xs, x, xs, hx, hseen, hxs, rfl⟩

/-- Members are decoded if each field that is declared is left out or given one acceptable value. -/
theorem exists_readMembers {entries : List (String × (Json → JsonDecode φ))}
    {members : List (String × Json)}
    (h : ∀ e ∈ entries, Json.valuesOf members e.1 = [] ∨
      ∃ v x, Json.valuesOf members e.1 = [v] ∧ ReadsField entries e.1 v x) :
    ∃ values, readMembers entries [] (Json.keyed members) = .ok values := by
  rw [exists_readMembers_iff]
  intro name hname
  obtain ⟨read, hlookup⟩ := Option.ne_none_iff_exists'.1 hname
  refine (h _ (mem_of_lookup hlookup)).imp_right ?_
  rintro ⟨v, x, hv, hx⟩
  exact ⟨v, x, hv, hx, List.not_mem_nil⟩

/-! ## The fields of a record -/

/-- Of the fields of a record, the one of this name is read by `read`, and is told from the others
    by `pick`. -/
structure IsField (entries : List (String × (Json → JsonDecode φ))) (name : String)
    (read : Json → JsonDecode α) (pick : φ → Option α) : Prop where
  declared : entries.lookup name ≠ none
  reads : ∀ v x, ReadsField entries name v x → ∃ a, read v = .ok a ∧ pick x = some a
  accepts : ∀ v a, read v = .ok a → ∃ x, ReadsField entries name v x
  others : ∀ other v x, other ≠ name → ReadsField entries other v x → pick x = none

namespace IsField

variable {entries : List (String × (Json → JsonDecode φ))} {name : String}
  {read : Json → JsonDecode α} {pick : φ → Option α} {members : List (String × Json)}
  {values : List φ}

/-- A field whose reader marks what `read` gives, with a mark that no other field sets. -/
theorem of_lookup (mark : α → φ) {reader : Json → JsonDecode φ}
    (hlookup : entries.lookup name = some reader)
    (hreader : ∀ v x, reader v = .ok x ↔ ∃ a, read v = .ok a ∧ mark a = x)
    (hpick : ∀ a, pick (mark a) = some a)
    (hothers : ∀ e ∈ entries, e.1 ≠ name → ∀ v x, e.2 v = .ok x → pick x = none) :
    IsField entries name read pick where
  declared := by
    rw [hlookup]
    exact Option.some_ne_none reader
  reads := by
    rintro v x ⟨_, hread, hx⟩
    obtain rfl := Option.some.inj (hlookup.symm.trans hread)
    obtain ⟨a, ha, rfl⟩ := (hreader v x).1 hx
    exact ⟨a, ha, hpick a⟩
  accepts v a ha := ⟨mark a, reader, hlookup, (hreader v _).2 ⟨a, ha, rfl⟩⟩
  others := by
    rintro other v x hne ⟨reader', hlookup', hx⟩
    exact hothers _ (mem_of_lookup hlookup') hne v x hx

/-- What is picked from the decoded members are the values of the name. -/
theorem forall₂_valuesOf (h : IsField entries name read pick) {seen : List String}
    (hvalues : readMembers entries seen (Json.keyed members) = .ok values) :
    List.Forall₂ (fun v a => read v = .ok a) (Json.valuesOf members name)
      (values.filterMap pick) := by
  induction members generalizing seen values with
  | nil =>
    cases hvalues
    exact .nil
  | cons member rest ih =>
    rw [Json.valuesOf_cons]
    rcases readMembers_cons_eq_ok_iff.1 hvalues with ⟨hlookup, hrest⟩ | ⟨x, xs, hx, -, hrest, rfl⟩
    · have hne : member.1 ≠ name := fun heq => h.declared (heq ▸ hlookup)
      rw [if_neg hne]
      exact ih hrest
    · split
      · rename_i heq
        obtain ⟨a, ha, hpick⟩ := h.reads member.2 x (heq ▸ hx)
        rw [List.filterMap_cons_some hpick]
        exact .cons ha (ih hrest)
      · rename_i hne
        rw [List.filterMap_cons_none (h.others _ _ _ hne hx)]
        exact ih hrest

/-- The field is found iff its name has a value, which is then the only one. -/
theorem findSome?_eq_some_iff (h : IsField entries name read pick)
    (hvalues : readMembers entries [] (Json.keyed members) = .ok values) {a : α} :
    values.findSome? pick = some a ↔
      ∃ v, Json.valuesOf members name = [v] ∧ read v = .ok a := by
  have hpicked := h.forall₂_valuesOf hvalues
  rw [← List.head?_filterMap]
  rcases exists_readMembers_iff.1 ⟨values, hvalues⟩ name h.declared with hnone | ⟨v, x, hone, -⟩
  · rw [hnone, List.forall₂_nil_left_iff] at hpicked
    simp [hnone, hpicked]
  · rw [hone, List.forall₂_cons_left_iff] at hpicked
    obtain ⟨b, picked, hb, -, hpicked⟩ := hpicked
    simp [hone, hpicked, hb]

theorem findSome?_eq_none_iff (h : IsField entries name read pick)
    (hvalues : readMembers entries [] (Json.keyed members) = .ok values) :
    values.findSome? pick = none ↔ Json.valuesOf members name = [] := by
  have hpicked := h.forall₂_valuesOf hvalues
  rw [← List.head?_filterMap, List.head?_eq_none_iff]
  constructor
  · intro hnone
    rwa [hnone, List.forall₂_nil_right_iff] at hpicked
  · intro hnone
    rwa [hnone, List.forall₂_nil_left_iff] at hpicked

/-- The decoder of the field accepts what `read` does. -/
theorem accepted (h : IsField entries name read pick) {v : Json} {a : α}
    (hone : Json.valuesOf members name = [v]) (ha : read v = .ok a) :
    ∃ v x, Json.valuesOf members name = [v] ∧ ReadsField entries name v x := by
  obtain ⟨x, hx⟩ := h.accepts v a ha
  exact ⟨v, x, hone, hx⟩

end IsField

/-! ## Records -/

theorem readPositions_eq_ok_iff {entries : List (String × (Json → JsonDecode φ))}
    {items : List Json} {values : List φ} :
    readPositions entries items = .ok values ↔
      List.Forall₂ (fun e x => e.1.2 e.2 = .ok x) (entries.zip items) values := by
  induction entries generalizing items values with
  | nil =>
    rw [List.zip_nil_left, List.forall₂_nil_left_iff]
    exact ⟨fun h => (by cases h; rfl), fun h => h ▸ rfl⟩
  | cons entry entries ih =>
    cases items with
    | nil =>
      rw [List.zip_nil_right, List.forall₂_nil_left_iff]
      exact ⟨fun h => (by cases h; rfl), fun h => h ▸ rfl⟩
    | cons v rest =>
      simp only [readPositions, bind_eq_ok_iff, ih, List.zip_cons_cons,
        List.forall₂_cons_left_iff]
      constructor
      · rintro ⟨x, hx, xs, hxs, h⟩
        cases h
        exact ⟨x, xs, hx, hxs, rfl⟩
      · rintro ⟨x, xs, hx, hxs, rfl⟩
        exact ⟨x, hx, xs, hxs, rfl⟩

/-- The value gives these fields: as members, or as items of which there are not too many. -/
inductive GivesFields (entries : List (String × (Json → JsonDecode φ))) :
    Json → List φ → Prop where
  | members {members : List (String × Json)} {values : List φ}
      (h : readMembers entries [] (Json.keyed members) = .ok values) :
      GivesFields entries (.object members) values
  | items {items : List Json} {values : List φ} (hlength : items.length ≤ entries.length)
      (h : List.Forall₂ (fun e x => e.1.2 e.2 = .ok x) (entries.zip items) values) :
      GivesFields entries (.array items) values

theorem exists_readRecord_iff {fields : Fields JsonDecode Json φ} {v : Json} {values : List φ} :
    (∃ missing, readRecord fields v = .ok ⟨values, missing⟩) ↔
      GivesFields fields.entries v values := by
  constructor
  · rintro ⟨missing, h⟩
    obtain ⟨record, hrecord, h⟩ := bind_eq_ok_iff.1 h
    cases v with
    | object members =>
      cases hrecord
      obtain ⟨found, hfound, h⟩ := bind_eq_ok_iff.1 h
      cases h
      exact .members hfound
    | array items =>
      cases hrecord
      obtain ⟨found, hfound, h⟩ := bind_eq_ok_iff.1 h
      split at h
      · exact absurd h failHere_ne_ok
      · rename_i hlength
        cases h
        exact .items (Nat.le_of_not_lt hlength) (readPositions_eq_ok_iff.1 hfound)
    | _ => cases hrecord
  · intro h
    cases h with
    | members hvalues =>
      exact ⟨_, bind_eq_ok_iff.2 ⟨_, rfl, bind_eq_ok_iff.2 ⟨values, hvalues, rfl⟩⟩⟩
    | @items items _ hlength hvalues =>
      refine ⟨fun _ => .invalidLength items.length (expectedFields fields), ?_⟩
      refine bind_eq_ok_iff.2 ⟨_, rfl, bind_eq_ok_iff.2
        ⟨values, readPositions_eq_ok_iff.2 hvalues, ?_⟩⟩
      rw [if_neg (Nat.not_lt_of_le hlength)]
      rfl

theorem required_eq_ok_iff {d : Decoded φ} {name : String} {pick : φ → Option α} {a : α} :
    (required d name pick : JsonDecode α) = .ok a ↔ d.values.findSome? pick = some a := by
  unfold required
  split
  · rename_i b hb
    rw [hb]
    exact ⟨fun h => (by cases h; rfl), fun h => (by cases h; rfl)⟩
  · rename_i hnone
    simp [hnone, failHere_ne_ok]

end CallPolicy
