set_option autoImplicit false

/-! # Principals

Who makes a call: an identifier and the set of authorities granted to it. The set is kept as a
strictly increasing list (code point order), so that two equal sets are one value and their
listing needs no sorting. -/

namespace CallPolicy

/-! ## Authority sets -/

/-- A finite set of authorities, listed in increasing order without repetition. -/
structure AuthoritySet where
  toList : List String
  increasing : toList.Pairwise (· < ·)

namespace AuthoritySet

/-- Puts an authority at its place in an increasing list. -/
def place (a : String) : List String → List String
  | [] => [a]
  | b :: rest =>
    if b < a then b :: place a rest
    else if a < b then a :: b :: rest
    else b :: rest

theorem mem_of_mem_place {a x : String} {l : List String} (h : x ∈ place a l) : x = a ∨ x ∈ l := by
  induction l with
  | nil => simpa [place] using h
  | cons b rest ih =>
    unfold place at h
    split at h
    · rcases List.mem_cons.1 h with h | h
      · exact .inr (h ▸ List.mem_cons_self)
      · exact (ih h).imp_right (List.mem_cons_of_mem b)
    · split at h
      · exact List.mem_cons.1 h
      · exact .inr h

theorem place_increasing (a : String) {l : List String} (h : l.Pairwise (· < ·)) :
    (place a l).Pairwise (· < ·) := by
  induction l with
  | nil => simp [place]
  | cons b rest ih =>
    rw [List.pairwise_cons] at h
    unfold place
    split
    · rename_i hba
      refine List.pairwise_cons.2 ⟨fun x hx => ?_, ih h.2⟩
      rcases mem_of_mem_place hx with hx | hx
      · exact hx ▸ hba
      · exact h.1 x hx
    · split
      · rename_i hab
        refine List.pairwise_cons.2 ⟨fun x hx => ?_, List.pairwise_cons.2 h⟩
        rcases List.mem_cons.1 hx with hx | hx
        · exact hx ▸ hab
        · exact String.lt_trans hab (h.1 x hx)
      · exact List.pairwise_cons.2 h

theorem mem_place {a x : String} {l : List String} : x ∈ place a l ↔ x = a ∨ x ∈ l := by
  refine ⟨mem_of_mem_place, fun h => ?_⟩
  induction l with
  | nil => simpa [place] using h
  | cons b rest ih =>
    unfold place
    split
    · rcases h with h | h
      · exact List.mem_cons_of_mem b (ih (.inl h))
      · rcases List.mem_cons.1 h with h | h
        · exact h ▸ List.mem_cons_self
        · exact List.mem_cons_of_mem b (ih (.inr h))
    · split
      · exact List.mem_cons.2 h
      · rename_i hba hab
        have hb : a = b := String.le_antisymm (String.not_lt.1 hba) (String.not_lt.1 hab)
        rcases h with h | h
        · exact h ▸ hb ▸ List.mem_cons_self
        · exact h

/-- The set without members. -/
def empty : AuthoritySet := ⟨[], .nil⟩

/-- Adds one authority. -/
def insert (s : AuthoritySet) (a : String) : AuthoritySet :=
  ⟨place a s.toList, place_increasing a s.increasing⟩

/-- The set of the members of a list. -/
def ofList (l : List String) : AuthoritySet :=
  l.foldl insert empty

/-- Is the authority a member? -/
def contains (s : AuthoritySet) (a : String) : Bool :=
  s.toList.contains a

theorem mem_toList_insert {s : AuthoritySet} {a x : String} :
    x ∈ (s.insert a).toList ↔ x = a ∨ x ∈ s.toList :=
  mem_place

theorem mem_toList_ofList {l : List String} {x : String} : x ∈ (ofList l).toList ↔ x ∈ l := by
  have mem_foldl : ∀ s : AuthoritySet, x ∈ (l.foldl insert s).toList ↔ x ∈ s.toList ∨ x ∈ l := by
    induction l with
    | nil => intro s; simp
    | cons a rest ih =>
      intro s
      rw [List.foldl_cons, ih, mem_toList_insert, List.mem_cons]
      constructor <;> intro h <;> rcases h with h | h
      · exact h.elim (fun h => .inr (.inl h)) .inl
      · exact .inr (.inr h)
      · exact .inl (.inr h)
      · exact h.elim (fun h => .inl (.inl h)) .inr
  simpa [ofList, empty] using mem_foldl empty

theorem contains_iff {s : AuthoritySet} {a : String} : s.contains a = true ↔ a ∈ s.toList := by
  simp [contains]

/-- Increasing lists with the same members are equal. -/
theorem eq_of_mem_iff {l m : List String} (hl : l.Pairwise (· < ·)) (hm : m.Pairwise (· < ·))
    (h : ∀ x, x ∈ l ↔ x ∈ m) : l = m := by
  induction l generalizing m with
  | nil => exact (List.eq_nil_iff_forall_not_mem.2 fun x hx => by simpa using (h x).2 hx).symm
  | cons a l ih =>
    obtain _ | ⟨b, m⟩ := m
    · simpa using (h a).1 List.mem_cons_self
    · rw [List.pairwise_cons] at hl hm
      have hab : a = b := by
        rcases List.mem_cons.1 ((h a).1 List.mem_cons_self) with hb | ha
        · exact hb
        · rcases List.mem_cons.1 ((h b).2 List.mem_cons_self) with hb | hb
          · exact hb.symm
          · exact absurd (hm.1 a ha) (String.lt_asymm (hl.1 b hb))
      subst hab
      refine congrArg (a :: ·) (ih hl.2 hm.2 fun x => ⟨fun hx => ?_, fun hx => ?_⟩)
      · rcases List.mem_cons.1 ((h x).1 (List.mem_cons_of_mem a hx)) with rfl | hx'
        · exact absurd (hl.1 x hx) (String.lt_irrefl x)
        · exact hx'
      · rcases List.mem_cons.1 ((h x).2 (List.mem_cons_of_mem a hx)) with rfl | hx'
        · exact absurd (hm.1 x hx) (String.lt_irrefl x)
        · exact hx'

/-- A set is determined by its members. -/
theorem ext_mem {s t : AuthoritySet} (h : ∀ x, x ∈ s.toList ↔ x ∈ t.toList) : s = t := by
  obtain ⟨l, hl⟩ := s
  obtain ⟨m, hm⟩ := t
  obtain rfl := eq_of_mem_iff hl hm h
  rfl

instance : DecidableEq AuthoritySet := fun s t =>
  decidable_of_iff (s.toList = t.toList) (by cases s; cases t; simp)

end AuthoritySet

/-! ## Principals -/

/-- An authenticated caller. -/
structure Principal where
  id : String
  authorities : AuthoritySet := .empty
deriving DecidableEq

namespace Principal

/-- A caller without authorities. -/
def ofId (id : String) : Principal := { id }

/-- Grants one more authority. -/
def withAuthority (p : Principal) (a : String) : Principal :=
  { p with authorities := p.authorities.insert a }

/-- Replaces the authorities by those listed. -/
def withAuthorities (p : Principal) (l : List String) : Principal :=
  { p with authorities := .ofList l }

/-- Does the caller hold the authority? -/
def hasAuthority (p : Principal) (a : String) : Bool :=
  p.authorities.contains a

/-- Does the caller hold at least one of the authorities? -/
def hasAnyAuthority (p : Principal) (l : List String) : Bool :=
  l.any p.hasAuthority

end Principal

end CallPolicy
