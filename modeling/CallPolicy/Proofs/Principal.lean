import CallPolicy.Proofs.Privilege

set_option autoImplicit false

/-! # Principals as an identifier with a set

However a caller was built, it is its identifier and a set of authorities, and nothing else. The
grants leave the authorities of the last list that was granted and of the single grants behind it
(`Grant.Leaves`, `Grant.mem_left_iff`); the stored list is the only increasing one with these members, so
callers are equal as soon as they answer alike (`Principal.eq_iff_hasAuthority`). -/

namespace CallPolicy

/-! ## The order of authorities -/

/-- The code points of a text. -/
def codePoints (text : String) : List Nat := text.toList.map Char.toNat

/-- Texts are ordered by their code points. -/
theorem lt_iff_codePoints_lt {a b : String} : a < b ↔ codePoints a < codePoints b := by
  have hlist : ∀ cs ds : List Char, cs < ds ↔ cs.map Char.toNat < ds.map Char.toNat := by
    intro cs
    induction cs with
    | nil => intro ds; cases ds <;> simp
    | cons c cs ih =>
      intro ds
      rcases ds with _ | ⟨d, ds⟩
      · simp
      · have hchar : c < d ↔ c.toNat < d.toNat := Iff.rfl
        rw [List.map_cons, List.map_cons, List.cons_lt_cons_iff, List.cons_lt_cons_iff, hchar,
          Char.toNat_inj, ih]
  exact hlist a.toList b.toList

/-! ## What grants leave -/

/-- The authority is left by the grants: it is in the list granted last or granted behind that list,
    or, where no list was granted, it was held at the start or granted at all. -/
def Grant.Leaves (start : List String) (grants : List Grant) (a : String) : Prop :=
  (∃ before l behind, grants = before ++ Grant.exactly l :: behind ∧
    (∀ m, Grant.exactly m ∉ behind) ∧ (a ∈ l ∨ Grant.one a ∈ behind)) ∨
  ((∀ m, Grant.exactly m ∉ grants) ∧ (a ∈ start ∨ Grant.one a ∈ grants))

namespace Grant

variable {start l : List String} {a b : String} {rest : List Grant}

theorem leaves_nil : Leaves start [] a ↔ a ∈ start := by
  simp [Leaves]

/-- A single grant counts as if its authority had been held at the start. -/
theorem leaves_one_cons : Leaves start (.one b :: rest) a ↔ Leaves (b :: start) rest a := by
  constructor
  · intro h
    rcases h with ⟨before, l, behind, hgrants, hlast, ha⟩ | ⟨hnone, ha⟩
    · rcases List.cons_eq_append_iff.1 hgrants with ⟨-, hrest⟩ | ⟨before', -, hrest⟩
      · cases hrest
      · exact .inl ⟨before', l, behind, hrest, hlast, ha⟩
    · simp only [List.mem_cons, reduceCtorEq, false_or, one.injEq] at hnone ha
      exact .inr ⟨hnone, by rwa [List.mem_cons, or_assoc, or_left_comm]⟩
  · intro h
    rcases h with ⟨before, l, behind, rfl, hlast, ha⟩ | ⟨hnone, ha⟩
    · exact .inl ⟨.one b :: before, l, behind, rfl, hlast, ha⟩
    · rw [List.mem_cons, or_assoc, or_left_comm] at ha
      exact .inr ⟨by simpa using hnone, by simpa using ha⟩

/-- A list in front of the others takes the place of what was held at the start. -/
theorem leaves_exactly_cons : Leaves start (.exactly l :: rest) a ↔ Leaves l rest a := by
  constructor
  · intro h
    rcases h with ⟨before, m, behind, hgrants, hlast, ha⟩ | ⟨hnone, -⟩
    · rcases List.cons_eq_append_iff.1 hgrants with ⟨-, hrest⟩ | ⟨before', -, hrest⟩
      · cases hrest
        exact .inr ⟨hlast, ha⟩
      · exact .inl ⟨before', m, behind, hrest, hlast, ha⟩
    · exact absurd List.mem_cons_self (hnone l)
  · intro h
    rcases h with ⟨before, m, behind, rfl, hlast, ha⟩ | ⟨hnone, ha⟩
    · exact .inl ⟨.exactly l :: before, m, behind, rfl, hlast, ha⟩
    · exact .inl ⟨[], l, rest, rfl, hnone, ha⟩

theorem mem_left_iff {grants : List Grant} : a ∈ left start grants ↔ Leaves start grants a := by
  induction grants generalizing start with
  | nil => rw [left, leaves_nil]
  | cons g rest ih =>
    cases g with
    | one b => rw [left, ih, leaves_one_cons]
    | exactly l => rw [left, ih, leaves_exactly_cons]

end Grant

/-! ## What is asked of a caller -/

namespace Principal

theorem id_grantAll (p : Principal) (grants : List Grant) : (p.grantAll grants).id = p.id := by
  induction grants generalizing p with
  | nil => rfl
  | cons g rest ih =>
    have hstep : (p.grant g).id = p.id := by cases g <;> rfl
    exact (ih (p.grant g)).trans hstep

theorem hasAuthority_iff {p : Principal} {a : String} :
    p.hasAuthority a = true ↔ a ∈ p.authorities.toList :=
  AuthoritySet.contains_iff

theorem hasAnyAuthority_iff {p : Principal} {l : List String} :
    p.hasAnyAuthority l = true ↔ ∃ a ∈ l, a ∈ p.authorities.toList := by
  simp only [hasAnyAuthority, List.any_eq_true, hasAuthority_iff]

/-- Callers with one identifier that answer alike are one caller. -/
theorem eq_iff_hasAuthority {p q : Principal} :
    p = q ↔ p.id = q.id ∧ ∀ a, p.hasAuthority a = q.hasAuthority a := by
  constructor
  · rintro rfl
    exact ⟨rfl, fun _ => rfl⟩
  · intro ⟨hid, hanswers⟩
    obtain ⟨id, held⟩ := p
    obtain ⟨id', held'⟩ := q
    have hmem : ∀ a, a ∈ held.toList ↔ a ∈ held'.toList := fun a => by
      rw [← AuthoritySet.contains_iff, ← AuthoritySet.contains_iff]
      exact Bool.eq_iff_iff.1 (hanswers a)
    obtain rfl : held = held' := AuthoritySet.ext_mem hmem
    obtain rfl : id = id' := hid
    rfl

/-- **A principal is an identifier with a set.** Grants leave the identifier as it is. The stored
    authorities stand in the order of their code points, none of them twice, and are those of the
    last list that was granted, or of the start if there is none, and of the single grants behind
    it. A caller has the authorities that are stored, and any of a list if one of it is stored. Two
    callers are equal, however they were built, iff they have one identifier and answer alike for
    every authority. -/
theorem identifier_with_set :
    (∀ (p : Principal) (grants : List Grant),
      (p.grantAll grants).id = p.id ∧
      (p.grantAll grants).authorities.toList.Pairwise
        (fun a b => codePoints a < codePoints b) ∧
      (p.grantAll grants).authorities.toList.Nodup ∧
      (∀ a, a ∈ (p.grantAll grants).authorities.toList ↔
        Grant.Leaves p.authorities.toList grants a) ∧
      (∀ a, (p.grantAll grants).hasAuthority a = true ↔
        a ∈ (p.grantAll grants).authorities.toList) ∧
      ∀ l, (p.grantAll grants).hasAnyAuthority l = true ↔
        ∃ a ∈ l, a ∈ (p.grantAll grants).authorities.toList) ∧
    ∀ (p q : Principal) (grants others : List Grant),
      p.grantAll grants = q.grantAll others ↔
        (p.grantAll grants).id = (q.grantAll others).id ∧
          ∀ a, (p.grantAll grants).hasAuthority a = (q.grantAll others).hasAuthority a := by
  refine ⟨fun p grants => ?_, fun p q grants others => eq_iff_hasAuthority⟩
  have hincreasing := (p.grantAll grants).authorities.increasing
  have hmem : ∀ a, a ∈ (p.grantAll grants).authorities.toList ↔
      Grant.Leaves p.authorities.toList grants a := fun a => by
    rw [mem_grantAll_iff (fun _ => Iff.rfl), Grant.mem_left_iff]
  exact ⟨p.id_grantAll grants, hincreasing.imp fun h => lt_iff_codePoints_lt.1 h,
    hincreasing.imp fun h => String.ne_of_lt h, hmem, fun _ => hasAuthority_iff,
    fun _ => hasAnyAuthority_iff⟩

/-- The list granted last counts, with the single grant behind it, in their order and once. -/
example : ((ofId "user").grantAll [.one "ops", .exactly ["b", "a", "b"], .one "a", .one "B"]
    ).authorities.toList = ["B", "a", "b"] := by decide

end Principal

end CallPolicy
