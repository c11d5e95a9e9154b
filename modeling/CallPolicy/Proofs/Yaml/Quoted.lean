import CallPolicy.Proofs.Yaml.Plain

set_option autoImplicit false

/-! # Reading back quoted scalars

Between double quotes each character is written by itself, as it is or escaped, and adds itself to
what has been read (`quotedFrom_escaped`). Between single quotes lines are folded, and only line
separators go on to a further line: the folding keeps them, and the indentation that is put in
behind them is passed again (`quotedFrom_spaces`). -/

namespace CallPolicy.Yaml

/-- The reader gives back the text and stands in front of `rest`, on the same line or a later
    one. -/
def ReadsTo (r : Option ReadScalar) (text : List Char) (line : Nat) (rest : List Char) : Prop :=
  ∃ mark : Mark, line ≤ mark.line ∧ r = some ⟨text, false, ⟨rest, mark⟩⟩

theorem ReadsTo.of_eq {r r' : Option ReadScalar} {text text' rest : List Char} {line line' : Nat}
    (h : ReadsTo r' text' line' rest) (hr : r = r') (htext : text = text') (hline : line ≤ line') :
    ReadsTo r text line rest := by
  obtain ⟨mark, hmark, hread⟩ := h
  exact ⟨mark, Nat.le_trans hline hmark, by rw [hr, hread, htext]⟩

/-! ## Single steps -/

/-- Where a reader stands behind a word, and what it has seen since: nothing, or a gap. -/
inductive Pending : QuotedState → Gap → Prop where
  | word : Pending .word {}
  | gap (g : Gap) : Pending (.gap g) g

section

variable {single : Bool} {text : List Char} {mark : Mark} {st : QuotedState} {g : Gap}

theorem quotedFrom_space (hst : Pending st g) (rest : List Char) :
    quotedFrom single text mark st (' ' :: rest) =
      quotedFrom single text (mark.pass ' ') (.gap (g.blank ' ')) rest := by
  cases hst <;> (rw [quotedFrom.eq_def]; rfl)

theorem quotedFrom_break (hst : Pending st g) {c : Char} (hbreak : isBreak c = true)
    (hreturn : c ≠ '\r') (rest : List Char) :
    quotedFrom single text mark st (c :: rest) =
      quotedFrom single text (mark.nextLine c) (.gap (g.lineBreak c)) rest := by
  cases hst <;> (rw [quotedFrom.eq_def]; simp [hbreak, hreturn])

/-- When a word begins, the gap before it becomes part of the text. -/
theorem quotedFrom_word (hst : Pending st g) {c : Char} (hbreak : isBreak c = false)
    (hblank : isBlank c = false) (hcolumn : mark.column ≠ 0) (rest : List Char) :
    quotedFrom single text mark st (c :: rest) =
      quotedFrom single (g.folded ++ text) mark .word (c :: rest) := by
  cases hst with
  | word => rfl
  | gap =>
    have hreturn := ne_return_of_isBreak_eq_false hbreak
    rw [quotedFrom.eq_def, quotedFrom.eq_def single (g.folded ++ text)]
    simp [hblank, hbreak, hcolumn, hreturn]

theorem quotedFrom_char {c : Char} (hbreak : isBreak c = false) (hblank : isBlank c = false)
    (hquote : c ≠ if single then '\'' else '\x22') (hescape : single = false → c ≠ '\\')
    (rest : List Char) :
    quotedFrom single text mark .word (c :: rest) =
      quotedFrom single (c :: text) (mark.pass c) .word rest := by
  have hreturn := ne_return_of_isBreak_eq_false hbreak
  rw [quotedFrom.eq_def]
  cases single <;> simp_all

/-- What stands in front of a word is in the text already, and a quote closes the scalar. -/
theorem quotedFrom_doubleQuote (rest : List Char) :
    quotedFrom false text mark .word ('\x22' :: rest) =
      some ⟨text.reverse, false, ⟨rest, mark.pass '\x22'⟩⟩ := by
  rw [quotedFrom.eq_def]
  rfl

theorem quotedFrom_singleQuote {rest : List Char} (hrest : rest.head? ≠ some '\'') :
    quotedFrom true text mark .word ('\'' :: rest) =
      some ⟨text.reverse, false, ⟨rest, mark.pass '\''⟩⟩ := by
  rw [quotedFrom.eq_def]
  cases rest with
  | nil => rfl
  | cons c rest =>
    have hc : c ≠ '\'' := fun h => hrest (by rw [h]; rfl)
    simp [isBlank, isBreak, hc]

theorem quotedFrom_twoQuotes (rest : List Char) :
    quotedFrom true text mark .word ('\'' :: '\'' :: rest) =
      quotedFrom true ('\'' :: text) ((mark.pass '\'').pass '\'') .word rest := by
  rw [quotedFrom.eq_def]
  rfl

theorem quotedFrom_escape {e : Char} (hbreak : isBreak e = false) (rest : List Char) :
    quotedFrom false text mark .word ('\\' :: e :: rest) =
      match escape? e with
      | none => none
      | some (.char c) => quotedFrom false (c :: text) ((mark.pass '\\').pass e) .word rest
      | some (.code n) => quotedFrom false text ((mark.pass '\\').pass e) (.code n 0) rest := by
  have hreturn := ne_return_of_isBreak_eq_false hbreak
  have hmark : isBlank '\\' = false ∧ isBreak '\\' = false := ⟨rfl, rfl⟩
  rw [quotedFrom.eq_def]
  cases hletter : escape? e with
  | none => simp [hmark, hbreak, hreturn, hletter]
  | some action => cases action <;> simp [hmark, hbreak, hreturn, hletter]

end

/-! ## Hexadecimal digits -/

/-- The number that digits behind those of `value` denote. -/
def hexFrom? (value : Nat) (ds : List Char) : Option Nat :=
  ds.foldlM (fun n d => (16 * n + ·) <$> hexDigitValue? d) value

theorem hexDigitValue?_upper : ∀ d < 16, hexDigitValue? (Nat.digitChar d).toUpper = some d := by
  decide

theorem hexFrom?_toDigits (n : Nat) :
    hexFrom? 0 ((Nat.toDigits 16 n).map Char.toUpper) = some n := by
  induction n using Nat.strongRecOn with
  | ind n ih =>
    by_cases hn : n < 16
    · rw [Nat.toDigits_of_lt_base hn]
      simp [hexFrom?, hexDigitValue?_upper n hn]
    · have hfront := ih (n / 16) (by omega)
      rw [hexFrom?] at hfront
      rw [Nat.toDigits_of_base_le (by decide) (by omega), List.map_append, hexFrom?,
        List.foldlM_append, hfront]
      simp only [List.map_cons, List.map_nil, List.foldlM_cons, List.foldlM_nil,
        Option.bind_eq_bind, Option.bind_some, hexDigitValue?_upper _ (Nat.mod_lt n (by decide)),
        Option.map_eq_map, Option.map_some, Nat.div_add_mod]
      rfl

theorem hexFrom?_hexDigits (width n : Nat) : hexFrom? 0 (hexDigits width n true) = some n := by
  have hzeros : ∀ k ds, hexFrom? 0 (List.replicate k '0' ++ ds) = hexFrom? 0 ds := fun k ds => by
    induction k with
    | zero => rfl
    | succ k ih => exact ih
  rw [hexDigits, hzeros]
  exact hexFrom?_toDigits n

theorem length_hexDigits {width n : Nat} (hwidth : 0 < width) (hn : n < Nat.pow 16 width) :
    (hexDigits width n true).length = width := by
  have hle := (Nat.length_toDigits_le_iff (b := 16) (by decide) hwidth).2 hn
  simp only [hexDigits, if_true, List.length_append, List.length_replicate, List.length_map]
  omega

theorem charOfCode?_toNat (c : Char) : charOfCode? c.toNat = some c := by
  have hvalid : c.toNat < 0xd800 ∨ (0xdfff < c.toNat ∧ c.toNat ≤ 0x10ffff) := by
    rcases c.valid with h | ⟨hlow, hhigh⟩
    · exact .inl h
    · exact .inr ⟨hlow, Nat.lt_succ_iff.1 hhigh⟩
  rw [charOfCode?, if_pos hvalid, Char.ofNat_toNat]

/-- The digits of a code are read to its end. -/
theorem quotedFrom_code (single : Bool) (text rest : List Char) (mark : Mark) {value n : Nat}
    {ds : List Char} {c : Char} (hds : hexFrom? value ds = some n) (hne : ds ≠ [])
    (hc : charOfCode? n = some c) :
    ∃ mark' : Mark, mark.line ≤ mark'.line ∧ mark'.column ≠ 0 ∧
      quotedFrom single text mark (.code ds.length value) (ds ++ rest) =
        quotedFrom single (c :: text) mark' .word rest := by
  induction ds generalizing mark value with
  | nil => exact absurd rfl hne
  | cons d ds ih =>
    rw [hexFrom?, List.foldlM_cons] at hds
    cases hd : hexDigitValue? d with
    | none => simp [hd] at hds
    | some v =>
      replace hds : hexFrom? (16 * value + v) ds = some n := by
        simpa [hexFrom?, hd] using hds
      cases ds with
      | nil =>
        obtain rfl : 16 * value + v = n := by simpa [hexFrom?] using hds
        refine ⟨mark.pass d, Nat.le_refl _, Nat.succ_ne_zero _, ?_⟩
        rw [List.cons_append, quotedFrom]
        simp [hd, hc]
      | cons e es =>
        obtain ⟨mark', hline, hcolumn, hread⟩ := ih (mark.pass d) hds (List.cons_ne_nil e es)
        refine ⟨mark', hline, hcolumn, ?_⟩
        rw [← hread, List.cons_append, quotedFrom]
        simp [hd]

/-! ## Between double quotes -/

theorem escape?_of_mem_shortEscapes :
    ∀ p ∈ shortEscapes, escape? p.2 = some (.char p.1) ∧ isBreak p.2 = false := by
  simp [shortEscapes, escape?, isBreak]

/-- A character without an escape of its own is no line break, tab, quote or backslash. -/
theorem ne_of_lookup_shortEscapes {c : Char} (h : shortEscapes.lookup c = none) :
    isBreak c = false ∧ c ≠ '\t' ∧ c ≠ '\x22' ∧ c ≠ '\\' := by
  simp only [List.lookup_eq_none_iff, shortEscapes, bne_iff_ne, List.forall_mem_cons] at h
  simp [isBreak, h]

/-- A character is escaped by its code, behind a letter that says how many digits it has. -/
theorem escaped_eq_code {c : Char} (hshort : shortEscapes.lookup c = none)
    (hshown : isShown c = false) :
    ∃ letter width, escape? letter = some (.code width) ∧ isBreak letter = false ∧
      isAllowed letter = true ∧ 0 < width ∧ c.toNat < Nat.pow 16 width ∧
      escaped c = '\\' :: letter :: hexDigits width c.toNat true := by
  have hrange : c.toNat < 0x110000 := by
    rcases c.valid with h | ⟨-, h⟩
    · exact Nat.lt_trans h (by decide)
    · exact h
  simp only [escaped, hshort, hshown, Bool.false_eq_true, if_false]
  split
  · have hlt : c.toNat < 0x100 := by omega
    exact ⟨'x', 2, rfl, rfl, rfl, by decide, hlt, rfl⟩
  · split
    · have hlt : c.toNat < 0x10000 := by omega
      exact ⟨'u', 4, rfl, rfl, rfl, by decide, hlt, rfl⟩
    · have hlt : c.toNat < 0x100000000 := by omega
      exact ⟨'U', 8, rfl, rfl, rfl, by decide, hlt, rfl⟩

section

variable {text blanks cs rest : List Char} {mark : Mark} {st : QuotedState}

/-- One escaped character adds itself to what has been read. -/
theorem quotedFrom_escaped (text rest : List Char) (hst : Pending st { blanks })
    (hcolumn : mark.column ≠ 0) (c : Char) :
    ∃ st' blanks' text', ∃ mark' : Mark, Pending st' { blanks := blanks' } ∧
      blanks' ++ text' = c :: (blanks ++ text) ∧ mark.line ≤ mark'.line ∧ mark'.column ≠ 0 ∧
      quotedFrom false text mark st (escaped c ++ rest) =
        quotedFrom false text' mark' st' rest := by
  have hslash : ∀ l, quotedFrom false text mark st ('\\' :: l) =
      quotedFrom false (blanks ++ text) mark .word ('\\' :: l) :=
    quotedFrom_word hst rfl rfl hcolumn
  cases hshort : shortEscapes.lookup c with
  | some letter =>
    obtain ⟨_, _, hsplit, -⟩ := List.lookup_eq_some_iff.1 hshort
    obtain ⟨hletter, hbreak⟩ := escape?_of_mem_shortEscapes (c, letter) (by simp [hsplit])
    refine ⟨.word, [], _, (mark.pass '\\').pass letter, .word, rfl, Nat.le_refl _,
      Nat.succ_ne_zero _, ?_⟩
    simp only [escaped, hshort, List.cons_append, List.nil_append]
    rw [hslash, quotedFrom_escape hbreak, hletter]
  | none =>
    obtain ⟨hbreak, htab, hquote, hne⟩ := ne_of_lookup_shortEscapes hshort
    cases hshown : isShown c with
    | true =>
      have hescaped : escaped c ++ rest = c :: rest := by simp [escaped, hshort, hshown]
      by_cases hspace : c = ' '
      · subst hspace
        exact ⟨_, ' ' :: blanks, text, mark.pass ' ', .gap _, rfl, Nat.le_refl _,
          Nat.succ_ne_zero _, by rw [hescaped, quotedFrom_space hst]; rfl⟩
      · have hblank := isBlank_eq_false hspace htab
        refine ⟨.word, [], _, mark.pass c, .word, rfl, Nat.le_refl _, Nat.succ_ne_zero _, ?_⟩
        rw [hescaped, quotedFrom_word hst hbreak hblank hcolumn,
          quotedFrom_char hbreak hblank (by simpa using hquote) fun _ => hne]
        rfl
    | false =>
      obtain ⟨letter, width, hletter, hbreak, -, hwidth, hlt, hescaped⟩ :=
        escaped_eq_code hshort hshown
      have hlength := length_hexDigits hwidth hlt
      obtain ⟨mark', hline, hcolumn', hread⟩ := quotedFrom_code false (blanks ++ text) rest
        ((mark.pass '\\').pass letter) (hexFrom?_hexDigits width c.toNat)
        (fun h => by simp [h] at hlength; omega) (charOfCode?_toNat c)
      refine ⟨.word, [], _, mark', .word, rfl, hline, hcolumn', ?_⟩
      rw [hescaped, List.cons_append, List.cons_append, hslash, quotedFrom_escape hbreak, hletter]
      rw [hlength] at hread
      exact hread

/-- A text between double quotes is read back. -/
theorem readsTo_doubleQuoted (hst : Pending st { blanks }) (hcolumn : mark.column ≠ 0) :
    ReadsTo (quotedFrom false text mark st (cs.flatMap escaped ++ '\x22' :: rest))
      ((blanks ++ text).reverse ++ cs) mark.line rest := by
  induction cs generalizing st blanks text mark with
  | nil =>
    refine ⟨mark.pass '\x22', Nat.le_refl _, ?_⟩
    rw [List.flatMap_nil, List.nil_append, quotedFrom_word hst rfl rfl hcolumn,
      quotedFrom_doubleQuote, List.append_nil]
    rfl
  | cons c cs ih =>
    obtain ⟨st', blanks', text', mark', hst', htext, hline, hcolumn', hread⟩ :=
      quotedFrom_escaped text (cs.flatMap escaped ++ '\x22' :: rest) hst hcolumn c
    have htail : ReadsTo (quotedFrom false text' mark' st' (cs.flatMap escaped ++ '\x22' :: rest))
        ((blanks' ++ text').reverse ++ cs) mark'.line rest := ih hst' hcolumn'
    obtain ⟨mark'', hline', hrest⟩ := htail
    refine ⟨mark'', Nat.le_trans hline hline', ?_⟩
    rw [List.flatMap_cons, List.append_assoc, hread, hrest, htext]
    simp

end

/-! ## Between single quotes -/

theorem indentLines_cons {n : Nat} {fresh : Bool} {c : Char} (hbreak : isBreak c = false)
    (rest : List Char) :
    indentLines n fresh (c :: rest) =
      (if fresh then spaces n else []) ++ c :: indentLines n false rest := by
  rw [indentLines, if_neg (by simp [hbreak])]
  rfl

theorem indentLines_break {n : Nat} {fresh : Bool} {c : Char} (hbreak : isBreak c = true)
    (rest : List Char) : indentLines n fresh (c :: rest) = c :: indentLines n true rest := by
  rw [indentLines, if_pos hbreak]

/-- The line and paragraph separators, which are no line feeds however they are read. -/
def isSeparator (c : Char) : Bool := c == '\u2028' || c == '\u2029'

theorem eq_of_isSeparator {c : Char} (h : isSeparator c = true) :
    isBreak c = true ∧ normalBreak c = c ∧ c ≠ '\n' ∧ c ≠ '\r' := by
  simp only [isSeparator, Bool.or_eq_true, beq_iff_eq] at h
  rcases h with rfl | rfl <;> decide

namespace Gap

/-- Line separators stand in the gap, and nothing but line breaks. -/
def AtSeparator (g : Gap) : Prop := g.broken = true ∧ ∃ b, g.firstBreak = some b ∧ b ≠ '\n'

theorem folded_of_atSeparator {g : Gap} {b : Char} (hbroken : g.broken = true)
    (hfirst : g.firstBreak = some b) (hb : b ≠ '\n') : g.folded = g.moreBreaks ++ [b] := by
  simp [folded, hbroken, hfirst]

/-- A separator is kept where lines are folded. -/
theorem lineBreak_of_isSeparator {g : Gap} {c : Char} (hc : isSeparator c = true)
    (hg : g = {} ∨ g.AtSeparator) :
    (g.lineBreak c).AtSeparator ∧ (g.lineBreak c).folded = c :: g.folded := by
  obtain ⟨-, hnormal, hne, -⟩ := eq_of_isSeparator hc
  rcases hg with rfl | ⟨hbroken, b, hfirst, hb⟩
  · have hfirst : (({} : Gap).lineBreak c).firstBreak = some c := congrArg some hnormal
    exact ⟨⟨rfl, c, hfirst, hne⟩, folded_of_atSeparator rfl hfirst hne⟩
  · have hmore : g.lineBreak c = { g with moreBreaks := c :: g.moreBreaks } := by
      rw [lineBreak, if_pos hbroken, hnormal]
    rw [hmore, folded_of_atSeparator hbroken hfirst hb]
    exact ⟨⟨hbroken, b, hfirst, hb⟩, folded_of_atSeparator hbroken hfirst hb⟩

end Gap

section

variable {text cs rest : List Char} {mark : Mark} {st : QuotedState} {g : Gap} {n : Nat}

/-- Indentation of a further line is passed. -/
theorem quotedFrom_spaces (single : Bool) (mark : Mark) (hst : Pending st g)
    (hg : g.broken = true) (hn : n ≠ 0) :
    ∃ mark' : Mark, mark.line ≤ mark'.line ∧ mark'.column ≠ 0 ∧
      quotedFrom single text mark st (spaces n ++ rest) =
        quotedFrom single text mark' (.gap g) rest := by
  have hblank : g.blank ' ' = g := by rw [Gap.blank, if_pos hg]
  induction n generalizing st mark with
  | zero => exact absurd rfl hn
  | succ n ih =>
    by_cases hzero : n = 0
    · subst hzero
      exact ⟨mark.pass ' ', Nat.le_refl _, Nat.succ_ne_zero _,
        by rw [spaces_succ, List.cons_append, quotedFrom_space hst, hblank]; rfl⟩
    · obtain ⟨mark', hline, hcolumn, hread⟩ := ih (mark.pass ' ') (.gap g) hzero
      exact ⟨mark', hline, hcolumn,
        by rw [← hread, spaces_succ, List.cons_append, quotedFrom_space hst, hblank]⟩

/-- Where a reader stands in front of `cs`: behind blanks on a line, or behind separators. A space
    and a line break do not meet. -/
inductive Stands : Bool → Gap → Nat → List Char → Prop where
  | inLine {blanks cs : List Char} {column : Nat} (hcolumn : column ≠ 0)
      (hnext : blanks ≠ [] → ∀ c ∈ cs.head?, isBreak c = false) : Stands false { blanks } column cs
  | atBreak {g : Gap} {cs : List Char} {column : Nat} (hg : g.AtSeparator)
      (hnext : cs.head? ≠ some ' ') : Stands true g column cs

/-- A word is reached behind a gap, on the same line or a further one. -/
theorem quotedFrom_indented (single : Bool) (text rest : List Char) {fresh : Bool} {c : Char}
    (hst : Pending st g) (hn : n ≠ 0) (hg : Stands fresh g mark.column cs)
    (hbreak : isBreak c = false) (hblank : isBlank c = false) :
    ∃ mark' : Mark, mark.line ≤ mark'.line ∧
      quotedFrom single text mark st ((if fresh then spaces n else []) ++ c :: rest) =
        quotedFrom single (g.folded ++ text) mark' .word (c :: rest) := by
  cases hg with
  | inLine hcolumn _ =>
    exact ⟨mark, Nat.le_refl _, quotedFrom_word hst hbreak hblank hcolumn rest⟩
  | atBreak hg _ =>
    obtain ⟨mark', hline, hcolumn, hread⟩ := quotedFrom_spaces single mark hst hg.1 hn
    exact ⟨mark', hline, hread.trans (quotedFrom_word (.gap g) hbreak hblank hcolumn rest)⟩

/-- Nothing but separators stands in front of a line break. -/
theorem Stands.empty_or_atSeparator {fresh : Bool} {column : Nat} {c : Char}
    (hg : Stands fresh g column (c :: cs)) (hbreak : isBreak c = true) :
    g = {} ∨ g.AtSeparator := by
  cases hg with
  | atBreak hg _ => exact .inr hg
  | @inLine blanks _ _ _ hnext =>
    have hnone : blanks = [] := by
      by_contra hne
      have hword := hnext hne c rfl
      rw [hbreak] at hword
      cases hword
    exact .inl (by rw [hnone])

/-- A character of a word adds itself to the text, behind the gap in front of it. -/
theorem quotedFrom_doubled (text rest : List Char) {fresh : Bool} {c : Char} (hst : Pending st g)
    (hn : n ≠ 0) (hg : Stands fresh g mark.column cs) (hbreak : isBreak c = false)
    (hblank : isBlank c = false) (more : List Char) :
    ∃ mark' : Mark, mark.line ≤ mark'.line ∧ mark'.column ≠ 0 ∧
      quotedFrom true text mark st (indentLines n fresh (doubled c ++ more) ++ rest) =
        quotedFrom true (c :: (g.folded ++ text)) mark' .word
          (indentLines n false more ++ rest) := by
  by_cases hquote : c = '\''
  · subst hquote
    obtain ⟨mark', hline, hread⟩ := quotedFrom_indented true text
      ('\'' :: (indentLines n false more ++ rest)) hst hn hg hbreak hblank
    refine ⟨(mark'.pass '\'').pass '\'', hline, Nat.succ_ne_zero _, ?_⟩
    rw [quotedFrom_twoQuotes] at hread
    rw [doubled, if_pos rfl, List.cons_append, List.singleton_append, indentLines_cons hbreak,
      indentLines_cons hbreak, ← hread]
    simp
  · obtain ⟨mark', hline, hread⟩ := quotedFrom_indented true text
      (indentLines n false more ++ rest) hst hn hg hbreak hblank
    refine ⟨mark'.pass c, hline, Nat.succ_ne_zero _, ?_⟩
    rw [quotedFrom_char hbreak hblank (by simpa using hquote) (by simp)] at hread
    rw [doubled, if_neg hquote, List.singleton_append, indentLines_cons hbreak, ← hread]
    simp

theorem meets_tail {p q : Char → Bool} {c : Char} (h : meets p q (c :: cs) = false) :
    meets p q cs = false ∧ (p c = true → ∀ d ∈ cs.head?, q d = false) := by
  cases cs with
  | nil => exact ⟨rfl, fun _ d hd => by cases hd⟩
  | cons d ds =>
    rw [meets, Bool.or_eq_false_iff] at h
    refine ⟨h.2, fun hc e he => ?_⟩
    cases he
    simpa [hc] using h.1

/-- A text between single quotes is read back. -/
theorem readsTo_singleQuoted {fresh : Bool} (hst : Pending st g) (hn : n ≠ 0)
    (hcs : ∀ c ∈ cs, c ≠ '\t' ∧ (isBreak c = true → isSeparator c = true))
    (hspaceBreak : meets (· == ' ') isBreak cs = false)
    (hbreakSpace : meets isBreak (· == ' ') cs = false) (hg : Stands fresh g mark.column cs)
    (hrest : rest.head? ≠ some '\'') :
    ReadsTo (quotedFrom true text mark st
      (indentLines n fresh (cs.flatMap doubled ++ ['\'']) ++ rest))
      ((g.folded ++ text).reverse ++ cs) mark.line rest := by
  induction cs generalizing st g text mark fresh with
  | nil =>
    obtain ⟨mark', hline, hread⟩ := quotedFrom_indented true text rest hst hn hg
      (c := '\'') rfl rfl
    refine ⟨mark'.pass '\'', hline, ?_⟩
    rw [List.flatMap_nil, List.nil_append, indentLines_cons rfl, List.append_assoc,
      List.append_nil, ← quotedFrom_singleQuote hrest, ← hread]
    rfl
  | cons c cs ih =>
    obtain ⟨⟨htab, hseparator⟩, htail⟩ := List.forall_mem_cons.1 hcs
    obtain ⟨hspaceTail, hnoBreak⟩ := meets_tail hspaceBreak
    obtain ⟨hbreakTail, hnoSpace⟩ := meets_tail hbreakSpace
    let tail (fresh : Bool) := indentLines n fresh (cs.flatMap doubled ++ ['\'']) ++ rest
    rw [List.flatMap_cons, List.append_assoc]
    cases hbreak : isBreak c with
    | true =>
      have hdoubled : doubled c = [c] := if_neg fun h => by
        rw [h] at hbreak
        cases hbreak
      obtain ⟨hat, hfolded⟩ :=
        Gap.lineBreak_of_isSeparator (hseparator hbreak) (hg.empty_or_atSeparator hbreak)
      have hnext : cs.head? ≠ some ' ' := fun h => absurd (hnoSpace hbreak ' ' h) (by decide)
      have hread : quotedFrom true text mark st (c :: tail true) =
          quotedFrom true text (mark.nextLine c) (.gap (g.lineBreak c)) (tail true) :=
        quotedFrom_break hst hbreak (eq_of_isSeparator (hseparator hbreak)).2.2.2 _
      rw [hdoubled, List.singleton_append, indentLines_break hbreak, List.cons_append]
      exact (ih (.gap _) htail hspaceTail hbreakTail (.atBreak hat hnext)).of_eq hread
        (by simp [hfolded]) (Nat.le_succ _)
    | false =>
      by_cases hspace : c = ' '
      · subst hspace
        cases hg with
        | atBreak _ hnext => exact absurd rfl hnext
        | @inLine blanks _ _ hcolumn _ =>
          have hread : quotedFrom true text mark st (' ' :: tail false) =
              quotedFrom true text (mark.pass ' ') (.gap { blanks := ' ' :: blanks })
                (tail false) :=
            quotedFrom_space hst _
          have hstand : Stands false { blanks := ' ' :: blanks } (mark.pass ' ').column cs :=
            .inLine (Nat.succ_ne_zero _) fun _ => hnoBreak rfl
          exact (ih (.gap _) htail hspaceTail hbreakTail hstand).of_eq hread
            (by simp [Gap.folded]) (Nat.le_refl _)
      · have hblank := isBlank_eq_false hspace htab
        obtain ⟨mark', hline, hcolumn, hread⟩ := quotedFrom_doubled text rest hst hn hg hbreak
          hblank (cs.flatMap doubled ++ ['\''])
        have hstand : Stands false {} mark'.column cs := .inLine hcolumn fun h => absurd rfl h
        exact (ih .word htail hspaceTail hbreakTail hstand).of_eq hread (by simp [Gap.folded]) hline

end

end CallPolicy.Yaml
