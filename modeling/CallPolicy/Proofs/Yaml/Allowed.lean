import CallPolicy.Proofs.Yaml.Layout

set_option autoImplicit false

/-! # The characters of what is rendered

Whatever a value is made of, YAML allows the characters that it is rendered in
(`isAllowedText_of_textual`): others are escaped. -/

namespace CallPolicy.Yaml

open Scan

/-- A text of characters that YAML allows. -/
def IsAllowedText (cs : List Char) : Prop := ∀ c ∈ cs, isAllowed c = true

section

variable {cs ds : List Char} {n : Nat}

theorem isAllowedText_append :
    IsAllowedText (cs ++ ds) ↔ IsAllowedText cs ∧ IsAllowedText ds :=
  List.forall_mem_append

theorem isAllowedText_cons {c : Char} :
    IsAllowedText (c :: cs) ↔ isAllowed c = true ∧ IsAllowedText cs :=
  List.forall_mem_cons

theorem isAllowedText_nil : IsAllowedText [] := fun _ h => by cases h

theorem isAllowedText_spaces (n : Nat) : IsAllowedText (spaces n) := fun c hc => by
  rw [eq_space_of_mem_spaces hc]
  rfl

theorem isAllowedText_flatMap {f : Char → List Char} (h : ∀ c ∈ cs, IsAllowedText (f c)) :
    IsAllowedText (cs.flatMap f) := by
  intro d hd
  obtain ⟨c, hc, hdc⟩ := List.mem_flatMap.1 hd
  exact h c hc d hdc

theorem isAllowedText_endLine (h : IsAllowedText cs) : IsAllowedText (endLine cs) := by
  unfold endLine
  split
  · exact h
  · exact isAllowedText_append.2 ⟨h, isAllowedText_cons.2 ⟨rfl, isAllowedText_nil⟩⟩

theorem isAllowedText_indentLines (h : IsAllowedText cs) (fresh : Bool) :
    IsAllowedText (indentLines n fresh cs) := by
  induction cs generalizing fresh with
  | nil => exact isAllowedText_nil
  | cons c cs ih =>
    obtain ⟨hc, hcs⟩ := isAllowedText_cons.1 h
    cases hbreak : isBreak c with
    | true =>
      rw [indentLines_break hbreak]
      exact isAllowedText_cons.2 ⟨hc, ih hcs _⟩
    | false =>
      rw [indentLines_cons hbreak]
      refine isAllowedText_append.2 ⟨?_, isAllowedText_cons.2 ⟨hc, ih hcs _⟩⟩
      split
      · exact isAllowedText_spaces n
      · exact isAllowedText_nil

theorem isAllowed_of_hexDigitValue? {c : Char} {d : Nat} (h : hexDigitValue? c = some d) :
    isAllowed c = true := by
  have hrange : 0x20 ≤ c.toNat ∧ c.toNat ≤ 0x7e := by
    simp only [hexDigitValue?, Char.isDigit, Char.le_def, UInt32.le_iff_toNat_le, Bool.and_eq_true,
      decide_eq_true_eq, ge_iff_le] at h
    have hcodes : '0'.val.toNat = 48 ∧ '9'.val.toNat = 57 ∧ 'a'.val.toNat = 97 ∧
        'f'.val.toNat = 102 ∧ 'A'.val.toNat = 65 ∧ 'F'.val.toNat = 70 := by decide
    have htoNat : c.toNat = c.val.toNat := rfl
    split at h
    · omega
    · split at h
      · omega
      · split at h
        · omega
        · cases h
  simp [isAllowed, hrange]

theorem isAllowedText_of_hexFrom? {value number : Nat} (h : hexFrom? value ds = some number) :
    IsAllowedText ds := by
  induction ds generalizing value with
  | nil => exact isAllowedText_nil
  | cons d ds ih =>
    rw [hexFrom?, List.foldlM_cons] at h
    cases hd : hexDigitValue? d with
    | none => simp [hd] at h
    | some v =>
      have htail : hexFrom? (16 * value + v) ds = some number := by simpa [hexFrom?, hd] using h
      exact isAllowedText_cons.2 ⟨isAllowed_of_hexDigitValue? hd, ih htail⟩

theorem isAllowedText_escaped (c : Char) : IsAllowedText (escaped c) := by
  have hletters : ∀ p ∈ shortEscapes, isAllowed p.2 = true := by decide
  cases hshort : shortEscapes.lookup c with
  | some letter =>
    obtain ⟨_, _, hsplit, -⟩ := List.lookup_eq_some_iff.1 hshort
    have hletter := hletters (c, letter) (by simp [hsplit])
    simp only [escaped, hshort]
    exact isAllowedText_cons.2 ⟨rfl, isAllowedText_cons.2 ⟨hletter, isAllowedText_nil⟩⟩
  | none =>
    cases hshown : isShown c with
    | true =>
      simp only [escaped, hshort, hshown]
      exact isAllowedText_cons.2 ⟨isAllowed_of_isShown hshown, isAllowedText_nil⟩
    | false =>
      obtain ⟨letter, width, -, -, hallowed, -, -, hescaped⟩ := escaped_eq_code hshort hshown
      rw [hescaped]
      exact isAllowedText_cons.2 ⟨rfl, isAllowedText_cons.2
        ⟨hallowed, isAllowedText_of_hexFrom? (hexFrom?_hexDigits _ _)⟩⟩

theorem isAllowedText_literalHeader (cs : List Char) : IsAllowedText (literalHeader cs) := by
  rw [literalHeader_eq]
  cases hidesIndent cs <;> cases chompingOf cs.reverse <;> exact List.all_eq_true.1 (by decide)

/-- A text is written in characters that are allowed, whatever its own characters are. -/
theorem isAllowedText_scalarText (n : Nat) (cs : List Char) :
    IsAllowedText (endLine (scalarText n cs)) := by
  refine isAllowedText_endLine ?_
  have hshown : Style.ofText cs ≠ .doubleQuoted → IsAllowedText cs := fun h c hc =>
    isAllowed_of_isShown ((Style.shown_of_ne_doubleQuoted h).1 c hc)
  rw [scalarText]
  cases hstyle : Style.ofText cs with
  | plain => exact hshown (by rw [hstyle]; decide)
  | singleQuoted =>
    have hcs := hshown (by rw [hstyle]; decide)
    have hdoubled : IsAllowedText (cs.flatMap doubled) := isAllowedText_flatMap fun c hc => by
      unfold doubled
      split
      · exact isAllowedText_cons.2 ⟨hcs c hc, isAllowedText_cons.2 ⟨hcs c hc, isAllowedText_nil⟩⟩
      · exact isAllowedText_cons.2 ⟨hcs c hc, isAllowedText_nil⟩
    have hclosed : IsAllowedText (cs.flatMap doubled ++ ['\'']) :=
      isAllowedText_append.2 ⟨hdoubled, isAllowedText_cons.2 ⟨rfl, isAllowedText_nil⟩⟩
    exact isAllowedText_cons.2 ⟨rfl, isAllowedText_indentLines hclosed false⟩
  | doubleQuoted =>
    exact isAllowedText_cons.2 ⟨rfl, isAllowedText_append.2
      ⟨isAllowedText_flatMap fun c _ => isAllowedText_escaped c,
        isAllowedText_cons.2 ⟨rfl, isAllowedText_nil⟩⟩⟩
  | literal =>
    have hcs := hshown (by rw [hstyle]; decide)
    exact isAllowedText_append.2
      ⟨isAllowedText_literalHeader cs, isAllowedText_indentLines hcs true⟩

/-! ## Collections -/

theorem isAllowedText_name {name : String} (h : isMemberName name = true) :
    IsAllowedText name.toList := by
  intro c hc
  have hname := (isName_of_isMemberName h).1 c hc
  unfold isNameChar Char.isAlpha Char.isUpper Char.isLower at hname
  simp only [UInt32.le_iff_toNat_le, Bool.or_eq_true, Bool.and_eq_true, decide_eq_true_eq,
    beq_iff_eq, ge_iff_le] at hname
  have hcodes : 'A'.val.toNat = 65 ∧ 'Z'.val.toNat = 90 ∧ 'a'.val.toNat = 97 ∧
      'z'.val.toNat = 122 := by decide
  have htoNat : c.toNat = c.val.toNat := rfl
  have hrange : 0x20 ≤ c.toNat ∧ c.toNat ≤ 0x7e := by
    rcases hname with (hupper | hlower) | rfl
    · omega
    · omega
    · decide
  simp [isAllowed, hrange]

theorem isAllowedText_items {l : List Json} (hl : ∀ v ∈ l, ∀ n, IsAllowedText (afterDash n v))
    (n : Nat) : IsAllowedText (itemsText n l) := by
  induction l with
  | nil => exact isAllowedText_nil
  | cons v l ih =>
    obtain ⟨hv, htail⟩ := List.forall_mem_cons.1 hl
    have hitem : IsAllowedText ('-' :: afterDash n v) := isAllowedText_cons.2 ⟨rfl, hv n⟩
    by_cases hne : l = []
    · subst hne
      exact hitem
    · rw [itemsText_cons n v hne]
      exact isAllowedText_append.2
        ⟨hitem, isAllowedText_append.2 ⟨isAllowedText_spaces n, ih htail⟩⟩

theorem isAllowedText_members {l : List (String × Json)}
    (hnames : ∀ m ∈ l, isMemberName m.1 = true) (hl : ∀ m ∈ l, ∀ n, IsAllowedText (afterKey n m.2))
    (n : Nat) : IsAllowedText (membersText n l) := by
  induction l with
  | nil => exact isAllowedText_nil
  | cons m l ih =>
    obtain ⟨hname, hnamesTail⟩ := List.forall_mem_cons.1 hnames
    obtain ⟨hv, htail⟩ := List.forall_mem_cons.1 hl
    have hmember : IsAllowedText (m.1.toList ++ ':' :: afterKey n m.2) :=
      isAllowedText_append.2 ⟨isAllowedText_name hname, isAllowedText_cons.2 ⟨rfl, hv n⟩⟩
    by_cases hne : l = []
    · subst hne
      exact hmember
    · rw [membersText_cons n m hne]
      exact isAllowedText_append.2
        ⟨hmember, isAllowedText_append.2 ⟨isAllowedText_spaces n, ih hnamesTail htail⟩⟩

theorem isAllowedText_leaf {v : Json} (hv : IsLeaf v) (n : Nat) :
    IsAllowedText (' ' :: endLine (leafText n v)) := by
  refine isAllowedText_cons.2 ⟨rfl, ?_⟩
  cases hv with
  | string text => exact isAllowedText_scalarText n text.toList
  | array => exact isAllowedText_endLine (List.all_eq_true.1 rfl)
  | object => exact isAllowedText_endLine (List.all_eq_true.1 rfl)

/-- Whatever stands behind a key or a dash is written in characters that are allowed. -/
theorem isAllowedText_of_textual {v : Json} (hv : v.Textual) (n : Nat) :
    IsAllowedText (afterKey n v) ∧ IsAllowedText (afterDash n v) := by
  induction hv generalizing n with
  | string text => exact ⟨isAllowedText_leaf (.string text) _, isAllowedText_leaf (.string text) _⟩
  | @array items _ ih =>
    have hitems : ∀ n, IsAllowedText (itemsText n items) :=
      isAllowedText_items fun v hv n => (ih v hv n).2
    cases items with
    | nil => exact ⟨isAllowedText_leaf .array _, isAllowedText_leaf .array _⟩
    | cons v l =>
      exact ⟨isAllowedText_cons.2 ⟨rfl, isAllowedText_append.2 ⟨isAllowedText_spaces n, hitems n⟩⟩,
        isAllowedText_cons.2 ⟨rfl, hitems (n + 2)⟩⟩
  | @object members hnames _ ih =>
    have hmembers : ∀ n, IsAllowedText (membersText n members) :=
      isAllowedText_members hnames fun m hm n => (ih m hm n).1
    cases members with
    | nil => exact ⟨isAllowedText_leaf .object _, isAllowedText_leaf .object _⟩
    | cons m l =>
      exact ⟨isAllowedText_cons.2 ⟨rfl, isAllowedText_append.2
        ⟨isAllowedText_spaces (n + 2), hmembers (n + 2)⟩⟩,
          isAllowedText_cons.2 ⟨rfl, hmembers (n + 2)⟩⟩

end

end CallPolicy.Yaml
