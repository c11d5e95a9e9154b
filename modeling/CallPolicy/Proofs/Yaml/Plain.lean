import CallPolicy.Yaml.Printer
import Mathlib.Data.List.Basic

set_option autoImplicit false

/-! # Reading back plain scalars

A text that is written as it is (`Style.plain`) is read from where it begins up to the end of its
line. Where readers end is said by `Mark.advance`, which passes characters and line breaks alike. -/

namespace CallPolicy.Yaml

/-! ## Positions -/

/-- The position behind a text. -/
def Mark.advance (p : Mark) (cs : List Char) : Mark :=
  cs.foldl (fun p c => if isBreak c then p.nextLine c else p.pass c) p

namespace Mark

@[simp] theorem pass_column (p : Mark) (c : Char) : (p.pass c).column = p.column + 1 := rfl

@[simp] theorem nextLine_column (p : Mark) (c : Char) : (p.nextLine c).column = 0 := rfl

@[simp] theorem advance_nil (p : Mark) : p.advance [] = p := rfl

theorem advance_cons_of_break (p : Mark) {c : Char} (cs : List Char) (h : isBreak c = true) :
    p.advance (c :: cs) = (p.nextLine c).advance cs := by
  rw [advance, List.foldl_cons, if_pos h]
  rfl

theorem advance_cons (p : Mark) {c : Char} (cs : List Char) (h : isBreak c = false) :
    p.advance (c :: cs) = (p.pass c).advance cs := by
  rw [advance, List.foldl_cons, if_neg (by simp [h])]
  rfl

theorem line_le_advance (p : Mark) (cs : List Char) : p.line ≤ (p.advance cs).line := by
  induction cs generalizing p with
  | nil => exact Nat.le_refl _
  | cons c cs ih =>
    cases h : isBreak c with
    | true =>
      rw [advance_cons_of_break p cs h]
      exact Nat.le_trans (Nat.le_succ _) (ih (p.nextLine c))
    | false =>
      rw [advance_cons p cs h]
      exact ih (p.pass c)

/-- No character takes more than four bytes. -/
theorem index_advance_le (p : Mark) (cs : List Char) :
    (p.advance cs).index ≤ p.index + 4 * cs.length := by
  induction cs generalizing p with
  | nil => exact Nat.le_refl _
  | cons c cs ih =>
    have hsize := c.utf8Size_le_four
    rw [List.length_cons]
    cases h : isBreak c with
    | true =>
      have htail := ih (p.nextLine c)
      rw [advance_cons_of_break p cs h]
      dsimp only [nextLine] at htail ⊢
      omega
    | false =>
      have htail := ih (p.pass c)
      rw [advance_cons p cs h]
      dsimp only [pass] at htail ⊢
      omega

/-- Within a line the column counts characters. -/
theorem advance_of_noBreak (p : Mark) {cs : List Char} (h : ∀ c ∈ cs, isBreak c = false) :
    (p.advance cs).line = p.line ∧ (p.advance cs).column = p.column + cs.length := by
  induction cs generalizing p with
  | nil => exact ⟨rfl, rfl⟩
  | cons c cs ih =>
    obtain ⟨hc, hcs⟩ := List.forall_mem_cons.1 h
    obtain ⟨hline, hcolumn⟩ := ih (p.pass c) hcs
    rw [advance_cons p cs hc, hline, hcolumn, List.length_cons]
    exact ⟨rfl, by simp only [pass_column]; omega⟩

end Mark

/-- Indentation. -/
def spaces (n : Nat) : List Char := List.replicate n ' '

theorem eq_space_of_mem_spaces {n : Nat} {c : Char} (h : c ∈ spaces n) : c = ' ' :=
  List.eq_of_mem_replicate h

theorem spaces_succ (n : Nat) : spaces (n + 1) = ' ' :: spaces n := rfl

theorem Mark.advance_spaces (p : Mark) (j : Nat) :
    (p.advance (spaces j)).line = p.line ∧ (p.advance (spaces j)).column = p.column + j := by
  have hspaces : ∀ c ∈ spaces j, isBreak c = false := fun c hc => by
    rw [eq_space_of_mem_spaces hc]
    rfl
  obtain ⟨hline, hcolumn⟩ := p.advance_of_noBreak hspaces
  exact ⟨hline, by rw [hcolumn, spaces, List.length_replicate]⟩

/-- Behind the end of a line and indentation. -/
theorem Mark.advance_newline_spaces (p : Mark) (j : Nat) :
    (p.advance ('\n' :: spaces j)).line = p.line + 1 ∧
      (p.advance ('\n' :: spaces j)).column = j := by
  rw [advance_cons_of_break p _ rfl]
  obtain ⟨hline, hcolumn⟩ := (p.nextLine '\n').advance_spaces j
  exact ⟨hline, hcolumn.trans (Nat.zero_add j)⟩

/-! ## Blanks and line breaks -/

theorem isBlank_eq_false {c : Char} (hspace : c ≠ ' ') (htab : c ≠ '\t') : isBlank c = false := by
  simp [isBlank, hspace, htab]

theorem ne_of_isBlank_eq_false {c : Char} (h : isBlank c = false) : c ≠ ' ' ∧ c ≠ '\t' := by
  simpa [isBlank] using h

theorem ne_return_of_isBreak_eq_false {c : Char} (h : isBreak c = false) : c ≠ '\r' := by
  rintro rfl
  cases h

/-! ## What stands behind a value -/

/-- Characters that a key or an entry begins with. -/
def beginsEntry (c : Char) : Bool := c.isAlpha || c == '_' || c == '-'

/-- The text is at its end, or a key or an entry begins. -/
def AtEntry (rest : List Char) : Prop := ∀ c ∈ rest.head?, beginsEntry c = true

theorem plain_of_beginsEntry {c : Char} (h : beginsEntry c = true) :
    isBreak c = false ∧ isBlank c = false ∧ c ≠ '#' ∧ c ≠ '\ufeff' := by
  refine ⟨?_, ?_, ?_, ?_⟩
  · by_contra hbreak
    simp only [Bool.not_eq_false, isBreak, Bool.or_eq_true, beq_iff_eq] at hbreak
    rcases hbreak with (((rfl | rfl) | rfl) | rfl) | rfl <;> exact absurd h (by decide)
  · by_contra hblank
    simp only [Bool.not_eq_false, isBlank, Bool.or_eq_true, beq_iff_eq] at hblank
    rcases hblank with rfl | rfl <;> exact absurd h (by decide)
  · rintro rfl
    exact absurd h (by decide)
  · rintro rfl
    exact absurd h (by decide)

/-! ## Reading plain scalars -/

/-- Characters that stay as they are inside a line: no tabs and no line breaks. -/
def IsInline (cs : List Char) : Prop := ∀ c ∈ cs, isBreak c = false ∧ c ≠ '\t'

section

variable {indent : Int} {text blanks : List Char} {inGap : Bool} {mark : Mark}

theorem plainFrom_space (rest : List Char) :
    plainFrom ⟨false, indent⟩ text { blanks } inGap mark (' ' :: rest) =
      plainFrom ⟨false, indent⟩ text { blanks := ' ' :: blanks } true (mark.pass ' ') rest := by
  rw [plainFrom.eq_def]
  rfl

/-- A character of a word that the scalar does not end at becomes part of the text. -/
theorem plainFrom_word {c : Char} {rest : List Char} (hbreak : isBreak c = false)
    (hblank : isBlank c = false)
    (hcolumn : inGap = true → indent ≤ mark.column ∧ mark.column ≠ 0)
    (hcomment : c = '#' → inGap = false) (hcolon : c = ':' → endsWord rest = false) :
    plainFrom ⟨false, indent⟩ text { blanks } inGap mark (c :: rest) =
      plainFrom ⟨false, indent⟩ (c :: blanks ++ text) {} false (mark.pass c) rest := by
  have hgap : (inGap && ((!false && decide (mark.column < indent)) || c == '#' ||
      (mark.column == 0 && atDocumentMarker (c :: rest)))) = false := by
    cases inGap with
    | false => rfl
    | true =>
      obtain ⟨hindent, hmargin⟩ := hcolumn rfl
      have hmark : c ≠ '#' := fun h => absurd (hcomment h) (by decide)
      simp [hmark, hmargin, Int.not_lt.2 hindent]
  have hkey : (c == ':' && endsWord rest) = false := by
    by_cases h : c = ':'
    · rw [hcolon h, Bool.and_false]
    · simp [h]
  rw [plainFrom.eq_def]
  split
  · rename_i h
    cases h
  · rename_i h
    cases h
    exact absurd hbreak (by decide)
  · rename_i h
    cases h
    simp only [hbreak, hblank, hgap, hkey]
    rfl

theorem endsWord_append {cs rest : List Char} (h : endsWord cs = false) :
    endsWord (cs ++ rest) = false := by
  cases cs with
  | nil => cases h
  | cons c cs => exact h

/-- Words and the blanks between them are taken as they are. `afterBlank` says whether a number
    sign would begin a comment. -/
theorem plainFrom_append {cs rest : List Char} {afterBlank : Bool} (hcs : IsInline cs)
    (hmark : holdsMark afterBlank cs = false) (hlast : cs.getLast? ≠ some ' ')
    (hempty : cs = [] → blanks = [] ∧ inGap = false) (hcolumn : indent ≤ mark.column + 1)
    (hgap : inGap = true → afterBlank = true ∧ indent ≤ mark.column ∧ mark.column ≠ 0) :
    plainFrom ⟨false, indent⟩ text { blanks } inGap mark (cs ++ rest) =
      plainFrom ⟨false, indent⟩ (cs.reverse ++ blanks ++ text) {} false (mark.advance cs) rest := by
  induction cs generalizing text blanks inGap mark afterBlank with
  | nil =>
    obtain ⟨rfl, rfl⟩ := hempty rfl
    rfl
  | cons c cs ih =>
    obtain ⟨⟨hbreak, htab⟩, htail⟩ := List.forall_mem_cons.1 hcs
    have hpast : indent ≤ (mark.pass c).column + 1 := by
      rw [Mark.pass_column]
      omega
    rw [holdsMark, Bool.or_eq_false_iff, Bool.or_eq_false_iff] at hmark
    obtain ⟨⟨hcolon, hcomment⟩, hrest⟩ := hmark
    rw [List.cons_append, Mark.advance_cons mark cs hbreak]
    by_cases hspace : c = ' '
    · subst hspace
      have hne : cs ≠ [] := fun h => hlast (by rw [h]; rfl)
      rw [List.getLast?_cons_of_ne_nil hne] at hlast
      rw [plainFrom_space, ih htail hrest hlast (fun h => absurd h hne) hpast
        fun _ => ⟨rfl, by simpa using hcolumn, Nat.succ_ne_zero _⟩]
      simp
    · have hblank : isBlank c = false := isBlank_eq_false hspace htab
      have hlast' : cs.getLast? ≠ some ' ' := by
        cases cs with
        | nil => simp
        | cons d ds => rwa [List.getLast?_cons_of_ne_nil (List.cons_ne_nil d ds)] at hlast
      have hkey : c = ':' → endsWord (cs ++ rest) = false := fun h =>
        endsWord_append (by simpa [h] using hcolon)
      have hnoComment : c = '#' → inGap = false := fun h => by
        have hword : afterBlank = false := by simpa [h] using hcomment
        cases hin : inGap with
        | false => rfl
        | true => exact absurd (hgap hin).1 (by simp [hword])
      rw [plainFrom_word hbreak hblank (fun h => (hgap h).2) hnoComment hkey,
        ih htail hrest hlast' (fun _ => ⟨rfl, rfl⟩) hpast fun h => by cases h]
      simp

/-- Blanks at the beginning of a line are passed. -/
theorem plainFrom_spaces (j : Nat) {gap : Gap} (hgap : gap.broken = true) (rest : List Char) :
    plainFrom ⟨false, indent⟩ text gap true mark (spaces j ++ rest) =
      plainFrom ⟨false, indent⟩ text gap true (mark.advance (spaces j)) rest := by
  induction j generalizing mark with
  | zero => rfl
  | succ j ih =>
    have hblank : gap.blank ' ' = gap := by rw [Gap.blank, if_pos hgap]
    rw [spaces_succ, List.cons_append, Mark.advance_cons mark _ rfl, ← ih, plainFrom.eq_def]
    simp [isBreak, isBlank, hblank]

/-- A plain scalar ends with its line if the next word is not indented. -/
theorem plainFrom_lineEnd {j : Nat} {rest : List Char} (hj : (j : Int) < indent)
    (hrest : AtEntry rest) :
    plainFrom ⟨false, indent⟩ text {} false mark ('\n' :: spaces j ++ rest) =
      some ⟨text.reverse, true, ⟨rest, mark.advance ('\n' :: spaces j)⟩⟩ := by
  have hcolumn := (mark.advance_newline_spaces j).2
  have hbroken : (({} : Gap).lineBreak '\n').broken = true := rfl
  rw [Mark.advance_cons_of_break mark _ rfl] at hcolumn ⊢
  rw [List.cons_append, plainFrom.eq_def]
  show plainFrom _ text (({} : Gap).lineBreak '\n') true (mark.nextLine '\n') (spaces j ++ rest) = _
  rw [plainFrom_spaces j hbroken]
  cases rest with
  | nil => rw [plainFrom, hbroken]
  | cons c rest =>
    obtain ⟨hbreak, hblank, -⟩ := plain_of_beginsEntry (hrest c rfl)
    rw [plainFrom.eq_def]
    split
    · rename_i h
      cases h
    · rename_i h
      cases h
      exact absurd hbreak (by decide)
    · rename_i h
      cases h
      simp [hbreak, hblank, hcolumn, hj, hbroken]

/-- A plain scalar ends at the colon of a key. -/
theorem plainFrom_colon {rest : List Char} (hrest : endsWord rest = true) :
    plainFrom ⟨false, indent⟩ text {} false mark (':' :: rest) =
      some ⟨text.reverse, false, ⟨':' :: rest, mark⟩⟩ := by
  rw [plainFrom.eq_def]
  simp [isBreak, isBlank, hrest]

/-- Text that begins like a plain scalar and does not end inside. -/
structure IsPlainWord (cs : List Char) : Prop where
  inline : IsInline cs
  begins : beginsWithMark cs = false
  holds : holdsMark true cs = false
  first : cs.head? ≠ some ' '
  last : cs.getLast? ≠ some ' '

theorem plainScalar?_append {cs : List Char} (hcs : IsPlainWord cs)
    (hmark : indent ≤ mark.column + 1) (rest : List Char) :
    plainScalar? ⟨false, indent⟩ ⟨cs ++ rest, mark⟩ =
      plainFrom ⟨false, indent⟩ cs.reverse {} false (mark.advance cs) rest := by
  rw [plainScalar?, plainFrom_append hcs.inline hcs.holds hcs.last (fun _ => ⟨rfl, rfl⟩) hmark
    fun h => by cases h]
  simp

/-- A value ends with its line. -/
theorem plainScalar?_value {cs rest : List Char} {j : Nat} (hcs : IsPlainWord cs)
    (hmark : indent ≤ mark.column + 1) (hj : (j : Int) < indent) (hrest : AtEntry rest) :
    plainScalar? ⟨false, indent⟩ ⟨cs ++ ('\n' :: spaces j ++ rest), mark⟩ =
      some ⟨cs, true, ⟨rest, (mark.advance cs).advance ('\n' :: spaces j)⟩⟩ := by
  rw [plainScalar?_append hcs hmark, plainFrom_lineEnd hj hrest, List.reverse_reverse]

/-- A key ends at its colon. -/
theorem plainScalar?_key {cs rest : List Char} (hcs : IsPlainWord cs)
    (hmark : indent ≤ mark.column + 1) (hrest : endsWord rest = true) :
    plainScalar? ⟨false, indent⟩ ⟨cs ++ ':' :: rest, mark⟩ =
      some ⟨cs, false, ⟨':' :: rest, mark.advance cs⟩⟩ := by
  rw [plainScalar?_append hcs hmark, plainFrom_colon hrest, List.reverse_reverse]

end

end CallPolicy.Yaml
