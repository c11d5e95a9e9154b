import CallPolicy.Proofs.Written
import CallPolicy.Proofs.Yaml.Leaf

set_option autoImplicit false

/-! # Tokens of what is rendered

The scanner finds in a rendered value the tokens of that value (`Scan.found_of_textual`): the
indentation opens and closes the collections, and a sequence under a key needs none. -/

namespace CallPolicy.Yaml

open Scan

/-! ## The tokens of a value -/

mutual

/-- The tokens of a value. A sequence that is not indented has no token of its own. -/
def valueTokens (indentless : Bool) : Json → List Token
  | .string s => [.scalar (scalarStyle s.toList) s.toList]
  | .array [] => [.flowSequenceStart, .flowSequenceEnd]
  | .array (v :: rest) =>
    if indentless then itemTokens (v :: rest)
    else .blockSequenceStart :: itemTokens (v :: rest) ++ [.blockEnd]
  | .object [] => [.flowMappingStart, .flowMappingEnd]
  | .object (m :: rest) => .blockMappingStart :: memberTokens (m :: rest) ++ [.blockEnd]
  | _ => []

/-- The tokens of the items of a sequence. -/
def itemTokens : List Json → List Token
  | [] => []
  | v :: rest => .blockEntry :: valueTokens false v ++ itemTokens rest

/-- The tokens of the members of a mapping. -/
def memberTokens : List (String × Json) → List Token
  | [] => []
  | (k, v) :: rest =>
    .key :: .scalar .plain k.toList :: .value :: valueTokens true v ++ memberTokens rest

end

/-! ## How lists are laid out -/

theorem afterDash_eq (n : Nat) (v : Json) : ∃ text, afterDash n v = ' ' :: text := by
  unfold afterDash
  split <;> exact ⟨_, rfl⟩

theorem endsWord_afterKey (n : Nat) (v : Json) (rest : List Char) :
    endsWord (afterKey n v ++ rest) = true := by
  unfold afterKey
  split <;> rfl

theorem itemsText_cons (n : Nat) (v : Json) {l : List Json} (hne : l ≠ []) :
    itemsText n (v :: l) = '-' :: afterDash n v ++ (spaces n ++ itemsText n l) := by
  obtain ⟨w, l, rfl⟩ := List.exists_cons_of_ne_nil hne
  rw [itemsText, List.append_assoc]
  · rfl
  · exact List.cons_ne_nil w l

theorem membersText_cons (n : Nat) (m : String × Json) {l : List (String × Json)} (hne : l ≠ []) :
    membersText n (m :: l) =
      m.1.toList ++ ':' :: afterKey n m.2 ++ (spaces n ++ membersText n l) := by
  obtain ⟨m', l, rfl⟩ := List.exists_cons_of_ne_nil hne
  rw [membersText, List.append_assoc (_ ++ _)]
  · rfl
  · exact List.cons_ne_nil m' l

theorem atEntry_items {l : List Json} (n : Nat) (hne : l ≠ []) (rest : List Char) :
    AtEntry (itemsText n l ++ rest) := by
  obtain ⟨v, l, rfl⟩ := List.exists_cons_of_ne_nil hne
  have hdash : ∃ text, itemsText n (v :: l) = '-' :: text := by
    by_cases hl : l = []
    · subst hl
      exact ⟨_, rfl⟩
    · exact ⟨_, itemsText_cons n v hl⟩
  obtain ⟨text, htext⟩ := hdash
  intro c hc
  rw [htext] at hc
  cases hc
  rfl

theorem isName_of_isMemberName {name : String} (h : isMemberName name = true) :
    (∀ c ∈ name.toList, isNameChar c = true) ∧ name.toList ≠ [] ∧ name.toList.length ≤ 256 := by
  simp only [isMemberName, Bool.and_eq_true, Bool.not_eq_true', List.isEmpty_eq_false_iff,
    decide_eq_true_eq, List.all_eq_true] at h
  exact ⟨h.2, h.1.1, h.1.2⟩

theorem atEntry_members {l : List (String × Json)} (n : Nat)
    (hnames : ∀ m ∈ l, isMemberName m.1 = true) (hne : l ≠ []) (rest : List Char) :
    AtEntry (membersText n l ++ rest) := by
  obtain ⟨⟨name, v⟩, l, rfl⟩ := List.exists_cons_of_ne_nil hne
  have hname : ∃ text, membersText n ((name, v) :: l) = name.toList ++ text := by
    by_cases hl : l = []
    · subst hl
      exact ⟨_, rfl⟩
    · exact ⟨_, by rw [membersText_cons n _ hl, List.append_assoc, List.cons_append]⟩
  obtain ⟨text, htext⟩ := hname
  obtain ⟨hchars, hne, -⟩ := isName_of_isMemberName (hnames (name, v) List.mem_cons_self)
  obtain ⟨d, ds, hds⟩ := List.exists_cons_of_ne_nil hne
  intro c hc
  rw [htext, hds] at hc
  cases hc
  exact beginsEntry_of_isNameChar (hchars d (by rw [hds]; exact List.mem_cons_self))

/-! ## Values behind a key and behind a dash -/

namespace Scan

theorem Ready.of_close {s : Scan} {keyAllowed : Bool} {column : Nat} {rest : List Char}
    {b b' : Blocks} (h : s.Ready keyAllowed column rest b)
    (hclose : b.close column = b'.close column) : s.Ready keyAllowed column rest b' := by
  obtain ⟨hlength, mark, hcolumn, hsettle⟩ := h
  exact ⟨hlength, mark, hcolumn, hclose ▸ hsettle⟩

/-- The value is found behind the colon of a key in a mapping at column `n`. -/
def FoundAtKey (v : Json) : Prop :=
  ∀ {n j : Nat} {b : Blocks} {mark : Mark} {rest : List Char}, b.indent = n → n < mark.column →
    j ≤ n → AtEntry rest → ∃ s',
      Steps (b.scan ⟨afterKey n v ++ (spaces j ++ rest), mark⟩ false none) s' ∧
        s'.Ready true j rest (b.add (valueTokens true v))

/-- The value is found behind the dash of an item in a sequence at column `n`. -/
def FoundAtDash (v : Json) : Prop :=
  ∀ {n j : Nat} {b : Blocks} {mark : Mark} {rest : List Char}, b.indent = n →
    mark.column = n + 1 → j ≤ n → AtEntry rest → ∃ s',
      Steps (b.scan ⟨afterDash n v ++ (spaces j ++ rest), mark⟩ true none) s' ∧
        s'.Ready true j rest (b.add (valueTokens false v))

/-! ## Items and members -/

section

variable {s : Scan} {n j : Nat} {b : Blocks} {rest : List Char}

/-- One item of a sequence, with what stands behind it. -/
theorem Ready.item {v : Json} (hv : FoundAtDash v)
    (h : s.Ready true n ('-' :: afterDash n v ++ (spaces j ++ rest)) b) (hb : b.indent ≤ n)
    (hj : j ≤ n) (hrest : AtEntry rest) :
    ∃ s', Steps s s' ∧ s'.Ready true j rest
      ((b.rolled n .blockSequenceStart).add (.blockEntry :: valueTokens false v)) := by
  obtain ⟨text, htext⟩ := afterDash_eq n v
  rw [htext] at h
  obtain ⟨mark, hcolumn, hdash⟩ := h.dash hb
  have hindent := Blocks.rolled_indent hb .blockSequenceStart
  obtain ⟨s', hvalue, hready⟩ := hv (b := (b.rolled n .blockSequenceStart).add [.blockEntry])
    hindent hcolumn hj hrest
  rw [htext] at hvalue
  exact ⟨s', hdash.trans hvalue, by rwa [Blocks.add_add] at hready⟩

theorem Ready.items {l : List Json} (hl : ∀ v ∈ l, FoundAtDash v) (hne : l ≠ [])
    (h : s.Ready true n (itemsText n l ++ (spaces j ++ rest)) b) (hb : b.indent ≤ n) (hj : j ≤ n)
    (hrest : AtEntry rest) :
    ∃ s', Steps s s' ∧
      s'.Ready true j rest ((b.rolled n .blockSequenceStart).add (itemTokens l)) := by
  induction l generalizing s b with
  | nil => exact absurd rfl hne
  | cons v l ih =>
    obtain ⟨hv, htail⟩ := List.forall_mem_cons.1 hl
    by_cases hl : l = []
    · subst hl
      obtain ⟨s', hsteps, hready⟩ := Ready.item hv h hb hj hrest
      exact ⟨s', hsteps, by simpa [itemTokens] using hready⟩
    · rw [itemsText_cons n v hl, List.append_assoc, List.append_assoc] at h
      obtain ⟨s₁, hsteps₁, hready₁⟩ := Ready.item hv h hb (Nat.le_refl n) (atEntry_items n hl _)
      have hindent : (((b.rolled n .blockSequenceStart).add
          (.blockEntry :: valueTokens false v)).indent : Int) = n :=
        Blocks.rolled_indent hb .blockSequenceStart
      obtain ⟨s', hsteps, hready⟩ := ih htail hl hready₁ (Int.le_of_eq hindent)
      rw [Blocks.rolled_of_le (Int.le_of_eq hindent.symm), Blocks.add_add] at hready
      exact ⟨s', hsteps₁.trans hsteps, hready⟩

/-- One member of a mapping, with what stands behind it. -/
theorem Ready.member {m : String × Json} (hname : isMemberName m.1 = true) (hv : FoundAtKey m.2)
    (h : s.Ready true n (m.1.toList ++ ':' :: afterKey n m.2 ++ (spaces j ++ rest)) b)
    (hb : b.indent ≤ n) (hj : j ≤ n) (hrest : AtEntry rest) :
    ∃ s', Steps s s' ∧ s'.Ready true j rest ((b.rolled n .blockMappingStart).add
      (.key :: .scalar .plain m.1.toList :: .value :: valueTokens true m.2)) := by
  obtain ⟨hchars, hne, hlength⟩ := isName_of_isMemberName hname
  rw [List.append_assoc, List.cons_append] at h
  obtain ⟨mark, hcolumn, hkey⟩ := h.key hb hchars hne hlength (endsWord_afterKey n m.2 _)
  have hindent := Blocks.rolled_indent hb .blockMappingStart
  obtain ⟨s', hvalue, hready⟩ := hv (b := (b.rolled n .blockMappingStart).add
    [.key, .scalar .plain m.1.toList, .value]) hindent hcolumn hj hrest
  exact ⟨s', hkey.trans hvalue, by rwa [Blocks.add_add] at hready⟩

theorem Ready.members {l : List (String × Json)} (hnames : ∀ m ∈ l, isMemberName m.1 = true)
    (hl : ∀ m ∈ l, FoundAtKey m.2) (hne : l ≠ [])
    (h : s.Ready true n (membersText n l ++ (spaces j ++ rest)) b) (hb : b.indent ≤ n) (hj : j ≤ n)
    (hrest : AtEntry rest) :
    ∃ s', Steps s s' ∧
      s'.Ready true j rest ((b.rolled n .blockMappingStart).add (memberTokens l)) := by
  induction l generalizing s b with
  | nil => exact absurd rfl hne
  | cons m l ih =>
    obtain ⟨hname, hnamesTail⟩ := List.forall_mem_cons.1 hnames
    obtain ⟨hv, htail⟩ := List.forall_mem_cons.1 hl
    by_cases hl : l = []
    · subst hl
      obtain ⟨s', hsteps, hready⟩ := Ready.member hname hv h hb hj hrest
      exact ⟨s', hsteps, by simpa [memberTokens] using hready⟩
    · rw [membersText_cons n m hl, List.append_assoc (m.1.toList ++ _),
        List.append_assoc (spaces n)] at h
      obtain ⟨s₁, hsteps₁, hready₁⟩ :=
        Ready.member hname hv h hb (Nat.le_refl n) (atEntry_members n hnamesTail hl _)
      have hindent : (((b.rolled n .blockMappingStart).add (.key :: .scalar .plain m.1.toList ::
          .value :: valueTokens true m.2)).indent : Int) = n :=
        Blocks.rolled_indent hb .blockMappingStart
      obtain ⟨s', hsteps, hready⟩ := ih hnamesTail htail hl hready₁ (Int.le_of_eq hindent)
      rw [Blocks.rolled_of_le (Int.le_of_eq hindent.symm), Blocks.add_add] at hready
      exact ⟨s', hsteps₁.trans hsteps, hready⟩

/-! ## Values -/

/-- Values without parts. -/
inductive IsLeaf : Json → Prop where
  | string (text : String) : IsLeaf (.string text)
  | array : IsLeaf (.array [])
  | object : IsLeaf (.object [])

theorem head_leafText (n : Nat) {v : Json} (hv : IsLeaf v) (rest : List Char) :
    ∃ c text, endLine (leafText n v) ++ rest = c :: text ∧ isBreak c = false ∧ isBlank c = false ∧
      c ≠ '#' := by
  cases hv with
  | array => exact ⟨'[', _, rfl, rfl, rfl, by decide⟩
  | object => exact ⟨'\x7b', _, rfl, rfl, rfl, by decide⟩
  | string text =>
    rw [leafText]
    cases hstyle : Style.ofText text.toList with
    | plain =>
      obtain ⟨hword, hne⟩ := isPlainWord_of_ofText hstyle
      rw [endLine_plain hstyle]
      obtain ⟨c, l, hcs⟩ := List.exists_cons_of_ne_nil hne
      rw [hcs] at hword ⊢
      have hc := hword.inline c List.mem_cons_self
      refine ⟨c, _, rfl, hc.1, isBlank_eq_false (fun h => hword.first (by rw [h]; rfl)) hc.2, ?_⟩
      rintro rfl
      exact (beginsWithMark_cons hword.begins).1 (by decide)
    | singleQuoted => exact ⟨'\'', _, endLine_singleQuoted hstyle _, rfl, rfl, by decide⟩
    | doubleQuoted => exact ⟨'\x22', _, endLine_doubleQuoted hstyle _, rfl, rfl, by decide⟩
    | literal =>
      rw [endLine_literal hstyle, literalHeader_eq]
      exact ⟨'|', _, rfl, rfl, rfl, by decide⟩

/-- A value without parts is found behind the space in front of it. -/
theorem found_leaf {v : Json} (hv : IsLeaf v) {mark : Mark} {keyAllowed : Bool}
    (hb : b.indent = n) (hcolumn : n < mark.column) (hj : j ≤ n) (hrest : AtEntry rest)
    (indentless : Bool) :
    ∃ s', Steps (b.scan ⟨' ' :: (endLine (leafText (n + 2) v) ++ (spaces j ++ rest)), mark⟩
        keyAllowed none) s' ∧ s'.Ready true j rest (b.add (valueTokens indentless v)) := by
  obtain ⟨c, text, htext, hbreak, hblank, hcomment⟩ := head_leafText (n + 2) hv (spaces j ++ rest)
  have hgap : gapEnd false keyAllowed false mark
      (' ' :: (endLine (leafText (n + 2) v) ++ (spaces j ++ rest))) =
        (keyAllowed, ⟨endLine (leafText (n + 2) v) ++ (spaces j ++ rest), mark.pass ' '⟩) := by
    rw [htext, ← gapEnd_token hbreak hblank hcomment fun h => absurd h (Nat.succ_ne_zero _)]
    exact gapEnd_spaces 1
  have hready : (b.scan ⟨' ' :: (endLine (leafText (n + 2) v) ++ (spaces j ++ rest)), mark⟩
      keyAllowed none).Ready keyAllowed (mark.column + 1)
        (endLine (leafText (n + 2) v) ++ (spaces j ++ rest)) b :=
    ready_of_gapEnd hgap (isPast_none (mark.pass ' ')) (Nat.le_succ _)
  cases hv with
  | string text => exact hready.text hb (Nat.lt_succ_of_lt hcolumn) hj hrest
  | array => exact hready.emptyFlow .sequence (by omega) hrest
  | object => exact hready.emptyFlow .mapping (by omega) hrest

/-- A collection on the next lines is reached behind the colon of its key. -/
theorem ready_nextLine (b : Blocks) (mark : Mark) (n : Nat) {text : List Char}
    (htext : AtEntry text) :
    (b.scan ⟨'\n' :: spaces n ++ text, mark⟩ false none).Ready true n text b := by
  have hready : (b.scan ⟨'\n' :: spaces n ++ text, mark⟩ false none).Ready true
      (mark.advance ('\n' :: spaces n)).column text b := by
    refine ready_of_gapEnd (gapEnd_lineEnd n htext) (isPast_none _) ?_
    simp only [List.length_append]
    omega
  rwa [(mark.advance_newline_spaces n).2] at hready

/-- A collection on the same line is reached behind the dash of its item. -/
theorem ready_sameLine (b : Blocks) (mark : Mark) {text : List Char} (htext : AtEntry text) :
    (b.scan ⟨' ' :: text, mark⟩ true none).Ready true (mark.column + 1) text b :=
  ready_of_gapEnd ((gapEnd_spaces 1).trans (gapEnd_entry htext)) (isPast_none (mark.pass ' '))
    (Nat.le_succ _)

/-- Behind an indented collection its end is marked as well. -/
theorem Ready.of_rolled {column : Nat} {t : Token} {ts : List Token}
    (h : s.Ready true j rest ((b.rolled column t).add ts)) (hb : b.indent < column)
    (hj : j < column) : s.Ready true j rest (b.add (t :: ts ++ [.blockEnd])) :=
  h.of_close (Blocks.close_rolled hb (by omega) t ts)

/-- Every value that is made of texts is found, behind a key and behind a dash. -/
theorem found_of_textual {v : Json} (hv : v.Textual) : FoundAtKey v ∧ FoundAtDash v := by
  induction hv with
  | string text =>
    exact ⟨fun hb hcolumn hj hrest => found_leaf (.string text) hb hcolumn hj hrest true,
      fun hb hcolumn hj hrest => found_leaf (.string text) hb (by omega) hj hrest false⟩
  | @array items _ ih =>
    by_cases hne : items = []
    · subst hne
      exact ⟨fun hb hcolumn hj hrest => found_leaf .array hb hcolumn hj hrest true,
        fun hb hcolumn hj hrest => found_leaf .array hb (by omega) hj hrest false⟩
    · have hitems : ∀ v ∈ items, FoundAtDash v := fun v hv => (ih v hv).2
      obtain ⟨v, l, rfl⟩ := List.exists_cons_of_ne_nil hne
      constructor
      · intro n j b mark rest hb hcolumn hj hrest
        have hstart := ready_nextLine b mark n (atEntry_items n hne (spaces j ++ rest))
        obtain ⟨s', hsteps, hready⟩ := hstart.items hitems hne (by omega) hj hrest
        rw [Blocks.rolled_of_le (by omega)] at hready
        have htext : afterKey n (.array (v :: l)) ++ (spaces j ++ rest) =
            '\n' :: spaces n ++ (itemsText n (v :: l) ++ (spaces j ++ rest)) :=
          List.append_assoc _ _ _
        exact ⟨s', htext ▸ hsteps, hready⟩
      · intro n j b mark rest hb hcolumn hj hrest
        have hstart := ready_sameLine b mark (atEntry_items (n + 2) hne (spaces j ++ rest))
        rw [hcolumn] at hstart
        obtain ⟨s', hsteps, hready⟩ := hstart.items hitems hne (by omega) (by omega) hrest
        exact ⟨s', hsteps, hready.of_rolled (by omega) (by omega)⟩
  | @object members hnames _ ih =>
    by_cases hne : members = []
    · subst hne
      exact ⟨fun hb hcolumn hj hrest => found_leaf .object hb hcolumn hj hrest true,
        fun hb hcolumn hj hrest => found_leaf .object hb (by omega) hj hrest false⟩
    · have hmembers : ∀ m ∈ members, FoundAtKey m.2 := fun m hm => (ih m hm).1
      obtain ⟨m, l, rfl⟩ := List.exists_cons_of_ne_nil hne
      constructor
      · intro n j b mark rest hb hcolumn hj hrest
        have hstart := ready_nextLine b mark (n + 2)
          (atEntry_members (n + 2) hnames hne (spaces j ++ rest))
        obtain ⟨s', hsteps, hready⟩ :=
          hstart.members hnames hmembers hne (by omega) (by omega) hrest
        have htext : afterKey n (.object (m :: l)) ++ (spaces j ++ rest) =
            '\n' :: spaces (n + 2) ++ (membersText (n + 2) (m :: l) ++ (spaces j ++ rest)) :=
          List.append_assoc _ _ _
        exact ⟨s', htext ▸ hsteps, hready.of_rolled (by omega) (by omega)⟩
      · intro n j b mark rest hb hcolumn hj hrest
        have hstart := ready_sameLine b mark
          (atEntry_members (n + 2) hnames hne (spaces j ++ rest))
        rw [hcolumn] at hstart
        obtain ⟨s', hsteps, hready⟩ :=
          hstart.members hnames hmembers hne (by omega) (by omega) hrest
        exact ⟨s', hsteps, hready.of_rolled (by omega) (by omega)⟩

end

/-! ## The end of the text -/

/-- At the end of the text all blocks are closed. -/
theorem Ready.run_end {s : Scan} {b : Blocks} (h : s.Ready true 0 [] b) (fuel : Nat) :
    run true (fuel + 1) s = ((((b.close 0).close (-1)).add [.streamEnd]).done.reverse, true) := by
  obtain ⟨-, mark, -, hsettle⟩ := h
  have hfetch : s.fetch? =
      some ((((b.close 0).close (-1)).add [.streamEnd]).scan ⟨[], mark⟩ false none) := by
    rw [fetch?_eq, hsettle]
    rfl
  rw [run, hfetch]
  rfl

end Scan

end CallPolicy.Yaml
