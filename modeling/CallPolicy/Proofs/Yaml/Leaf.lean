import CallPolicy.Proofs.Yaml.Scan

set_option autoImplicit false

/-! # Values in one token

Text in the style that was chosen for it is found by the scanner as one scalar, whose text it is
(`Scan.Ready.text`). So is an empty collection, as its two brackets. -/

namespace CallPolicy.Yaml

/-! ## Text -/

/-- How a rendered text is taken by a reader. -/
def scalarStyle (cs : List Char) : ScalarStyle :=
  if Style.ofText cs = .plain then .plain else .explicit

/-- The line that a text stands on is ended. -/
theorem endLine_append {cs : List Char} (rest : List Char) :
    endLine cs ++ rest = cs ++ ((if cs.getLast?.any isBreak then [] else ['\n']) ++ rest) := by
  unfold endLine
  split <;> simp

theorem getLast?_indentLines (n : Nat) (fresh : Bool) (cs : List Char) :
    (indentLines n fresh cs).getLast? = cs.getLast? := by
  induction cs generalizing fresh with
  | nil => rfl
  | cons c cs ih =>
    cases hbreak : isBreak c with
    | true => rw [indentLines_break hbreak, List.getLast?_cons, List.getLast?_cons, ih]
    | false => simp [indentLines_cons hbreak, List.getLast?_cons, ih]

section

variable {n : Nat} {cs : List Char}

theorem endLine_plain (h : Style.ofText cs = .plain) (rest : List Char) :
    endLine (scalarText n cs) ++ rest = cs ++ '\n' :: rest := by
  have hlast : cs.getLast?.any isBreak = false := by
    cases hc : cs.getLast? with
    | none => rfl
    | some c => exact ((isPlainWord_of_ofText h).1.inline c (List.mem_of_getLast? hc)).1
  rw [endLine_append]
  simp only [scalarText, h, hlast]
  rfl

theorem endLine_singleQuoted (h : Style.ofText cs = .singleQuoted) (rest : List Char) :
    endLine (scalarText n cs) ++ rest =
      '\'' :: (indentLines n false (cs.flatMap doubled ++ ['\'']) ++ '\n' :: rest) := by
  have hlast : (scalarText n cs).getLast?.any isBreak = false := by
    simp [scalarText, h, List.getLast?_cons, getLast?_indentLines, isBreak]
  rw [endLine_append, hlast]
  simp [scalarText, h]

theorem endLine_doubleQuoted (h : Style.ofText cs = .doubleQuoted) (rest : List Char) :
    endLine (scalarText n cs) ++ rest =
      '\x22' :: (cs.flatMap escaped ++ ['\x22'] ++ '\n' :: rest) := by
  have hlast : (scalarText n cs).getLast?.any isBreak = false := by
    simp [scalarText, h, List.getLast?_cons, isBreak]
  rw [endLine_append, hlast]
  simp [scalarText, h]

theorem endLine_literal (h : Style.ofText cs = .literal) (rest : List Char) :
    endLine (scalarText n cs) ++ rest = literalHeader cs ++ (indentLines n true cs ++
      ((if cs.getLast?.any isBreak then [] else ['\n']) ++ rest)) := by
  have hlast : (scalarText n cs).getLast? = cs.getLast? := by
    have hne : cs ≠ [] := List.ne_nil_of_mem (Style.literal_of_ofText h)
    rw [scalarText, h]
    simp [List.getLast?_append, getLast?_indentLines, List.getLast?_eq_some_getLast hne]
  rw [endLine_append, hlast]
  simp [scalarText, h]

end

namespace Scan

section

variable {s : Scan} {keyAllowed : Bool} {column n j : Nat} {b : Blocks} {cs rest : List Char}

theorem fetchHere?_quote {single : Bool} {quote : Char}
    (hquote : quote = if single then '\'' else '\x22') (mark : Mark) (text : List Char) :
    (b.scan ⟨quote :: text, mark⟩ keyAllowed none).fetchHere? =
      (b.scan ⟨quote :: text, mark⟩ keyAllowed none).fetchQuoted? single := by
  subst hquote
  cases single <;> simp [fetchHere?, Blocks.scan, atDocumentMarker]

/-- A quoted text is found in what its reader is given. -/
theorem Ready.quoted (single : Bool) {quote : Char} {body : List Char}
    (hquote : quote = if single then '\'' else '\x22')
    (h : s.Ready keyAllowed column (quote :: (body ++ ('\n' :: spaces j ++ rest))) b)
    (hb : b.indent < column) (hrest : AtEntry rest)
    (hread : ∀ mark : Mark, mark.column ≠ 0 → ReadsTo
      (quotedFrom single [] mark .word (body ++ ('\n' :: spaces j ++ rest))) cs mark.line
        ('\n' :: spaces j ++ rest)) :
    ∃ s', Steps s s' ∧ s'.Ready true j rest (b.add [.scalar .explicit cs]) := by
  refine h.leaf hb (by simp) fun mark hcolumn => ?_
  obtain ⟨mark', hline, hscalar⟩ := hread (mark.pass quote) (Nat.succ_ne_zero _)
  have hquoted : quotedScalar? single ⟨quote :: (body ++ ('\n' :: spaces j ++ rest)), mark⟩ =
      some ⟨cs, false, ⟨'\n' :: spaces j ++ rest, mark'⟩⟩ := hscalar
  have hend := mark'.advance_newline_spaces j
  have hindent : b.indent < mark.column := by omega
  refine ⟨_, _, _, _, (fetchHere?_quote hquote _ _).trans (fetchQuoted?_scan hquoted), ?_,
    gapEnd_lineEnd j hrest, ?_, hend.2, isPast_keyPlace hindent ?_⟩
  · simp only [List.length_cons, List.length_append]
    omega
  · simp only [List.length_cons, List.length_append]
    omega
  · rw [hend.1]
    exact Nat.lt_succ_of_le hline

theorem Ready.plain (h : s.Ready keyAllowed column (cs ++ ('\n' :: spaces j ++ rest)) b)
    (hb : b.indent < column) (hcs : IsPlainWord cs) (hne : cs ≠ []) (hj : (j : Int) ≤ b.indent)
    (hrest : AtEntry rest) :
    ∃ s', Steps s s' ∧ s'.Ready true j rest (b.add [.scalar .plain cs]) := by
  refine h.leaf hb (by simp) fun mark hcolumn => ?_
  obtain ⟨c, l, rfl⟩ := List.exists_cons_of_ne_nil hne
  have hend := (mark.advance (c :: l)).advance_newline_spaces j
  have hindent : b.indent < mark.column := by omega
  have hread : plainScalar? ⟨false, b.indent + 1⟩ ⟨c :: l ++ ('\n' :: spaces j ++ rest), mark⟩ =
      some ⟨c :: l, true, ⟨rest, (mark.advance (c :: l)).advance ('\n' :: spaces j)⟩⟩ :=
    plainScalar?_value hcs (by omega) (by omega) hrest
  refine ⟨_, _, _, _, (fetchHere?_plain hcs fun h => by omega).trans (fetchPlain?_scan hread), ?_,
    gapEnd_entry hrest, Nat.le_refl _, hend.2, isPast_keyPlace hindent ?_⟩
  · simp only [List.length_cons, List.length_append]
    omega
  · rw [hend.1]
    exact Nat.lt_succ_of_le (mark.line_le_advance _)

theorem fetchHere?_bar (mark : Mark) (text : List Char) :
    (b.scan ⟨'|' :: text, mark⟩ keyAllowed none).fetchHere? =
      (b.scan ⟨'|' :: text, mark⟩ keyAllowed none).fetchBlock? true := by
  simp [fetchHere?, Blocks.scan, atDocumentMarker, inFlow]

theorem Ready.literal (h : s.Ready keyAllowed column (literalHeader cs ++
      (indentLines (n + 2) true cs ++
        ((if cs.getLast?.any isBreak then [] else ['\n']) ++ (spaces j ++ rest)))) b)
    (hb : b.indent < column) (hn : b.indent = n) (hj : j ≤ n) (hne : cs ≠ [])
    (hcs : ∀ c ∈ cs, KeepsBreak c ∧ c ≠ '\t') (hrest : AtEntry rest) :
    ∃ s', Steps s s' ∧ s'.Ready true j rest (b.add [.scalar .explicit cs]) := by
  refine h.leaf hb (by simp) fun mark hcolumn => ?_
  obtain ⟨mark', hend, hread⟩ := blockScalar?_literal mark hj hcs hne hrest
  obtain ⟨sign, hheader⟩ : ∃ sign, literalHeader cs = '|' :: sign := ⟨_, literalHeader_eq cs⟩
  rw [← hn, hheader] at hread
  rw [hheader]
  refine ⟨⟨rest, mark'⟩, true, none, mark', (fetchHere?_bar _ _).trans (fetchBlock?_scan hread), ?_,
    gapEnd_entry hrest, Nat.le_refl _, hend, isPast_none _⟩
  simp only [List.cons_append, List.length_cons, List.length_append]
  omega

/-- A text in the style that was chosen for it. -/
theorem Ready.text
    (h : s.Ready keyAllowed column (endLine (scalarText (n + 2) cs) ++ (spaces j ++ rest)) b)
    (hn : b.indent = n) (hcolumn : n < column) (hj : j ≤ n) (hrest : AtEntry rest) :
    ∃ s', Steps s s' ∧ s'.Ready true j rest (b.add [.scalar (scalarStyle cs) cs]) := by
  have hb : b.indent < column := by omega
  cases hstyle : Style.ofText cs with
  | plain =>
    obtain ⟨hword, hne⟩ := isPlainWord_of_ofText hstyle
    rw [endLine_plain hstyle] at h
    rw [scalarStyle, if_pos hstyle]
    exact h.plain hb hword hne (by omega) hrest
  | singleQuoted =>
    obtain ⟨hshown, hspaceBreak⟩ := Style.shown_of_ne_doubleQuoted (by rw [hstyle]; decide)
    obtain ⟨hnewline, hbreakSpace⟩ := Style.inline_of_ofText (.inr hstyle)
    have hcs : ∀ c ∈ cs, c ≠ '\t' ∧ (isBreak c = true → isSeparator c = true) := fun c hc =>
      ⟨ne_tab_of_isShown (hshown c hc), fun hbreak =>
        (isBreak_of_isShown (hshown c hc) hbreak).resolve_left fun h => hnewline (h ▸ hc)⟩
    rw [endLine_singleQuoted hstyle] at h
    rw [scalarStyle, if_neg (by rw [hstyle]; decide)]
    refine Ready.quoted true rfl h hb hrest fun mark hmark => ?_
    exact readsTo_singleQuoted .word (by omega) hcs hspaceBreak hbreakSpace
      (.inLine hmark fun h => absurd rfl h) (by simp)
  | doubleQuoted =>
    rw [endLine_doubleQuoted hstyle] at h
    rw [scalarStyle, if_neg (by rw [hstyle]; decide)]
    refine Ready.quoted false rfl h hb hrest fun mark hmark => ?_
    rw [List.append_assoc]
    exact readsTo_doubleQuoted .word hmark
  | literal =>
    obtain ⟨hshown, -⟩ := Style.shown_of_ne_doubleQuoted (by rw [hstyle]; decide)
    have hne : cs ≠ [] := List.ne_nil_of_mem (Style.literal_of_ofText hstyle)
    rw [endLine_literal hstyle] at h
    rw [scalarStyle, if_neg (by rw [hstyle]; decide)]
    exact h.literal hb hn hj hne
      (fun c hc => ⟨keepsBreak_of_isShown (hshown c hc), ne_tab_of_isShown (hshown c hc)⟩) hrest

end

/-! ## Empty collections -/

/-- The characters of an empty collection, and its tokens. -/
inductive IsEmptyFlow : Char → Char → Token → Token → Prop where
  | sequence : IsEmptyFlow '[' ']' .flowSequenceStart .flowSequenceEnd
  | mapping : IsEmptyFlow '\x7b' '\x7d' .flowMappingStart .flowMappingEnd

section

variable {s : Scan} {keyAllowed : Bool} {column j : Nat} {b : Blocks} {rest : List Char}
  {first last : Char} {start stop : Token} {mark : Mark} {place : Option KeyPlace}

/-- The scanner inside a flow collection whose brackets stood where a key could begin. -/
def inside (b : Blocks) (next : Cursor) (place : Option KeyPlace) : Scan :=
  { b.scan next true none with outer := [place] }

theorem refresh?_inside (next : Cursor) :
    (inside b next place).refresh? = (refreshPlace next.mark place).map (inside b next) := by
  have hnone : refreshPlace next.mark none = some none := rfl
  cases h : refreshPlace next.mark place <;> simp [refresh?, inside, Blocks.scan, hnone, h]

theorem fetchHere?_flowStart (h : IsEmptyFlow first last start stop) :
    (b.scan ⟨first :: rest, mark⟩ keyAllowed none).fetchHere? =
      some (inside (b.add [start]) ⟨rest, mark.pass first⟩ (keyPlace b mark keyAllowed)) := by
  cases h <;> cases keyAllowed <;>
    simp [fetchHere?, Blocks.scan, atDocumentMarker, openFlow?, markPlace?, forgetPlace?, inside,
      keyPlace, Scan.take, push, Blocks.add, Cursor.skip, inFlow]

theorem settle?_inside (h : IsEmptyFlow first last start stop) {place' : Option KeyPlace}
    (hplace : refreshPlace mark place = some place') :
    (inside b ⟨last :: rest, mark⟩ place).settle? =
      some (inside b ⟨last :: rest, mark⟩ place') := by
  have hgap : gapEnd true true false mark (last :: rest) = (true, ⟨last :: rest, mark⟩) := by
    cases h <;> exact gapEnd_token rfl rfl (by decide) fun _ => by decide
  have hgap' : gapEnd (inside b ⟨last :: rest, mark⟩ place).inFlow
      (inside b ⟨last :: rest, mark⟩ place).keyAllowed false
      (inside b ⟨last :: rest, mark⟩ place).next.mark
      (inside b ⟨last :: rest, mark⟩ place).next.rest = (true, ⟨last :: rest, mark⟩) := hgap
  have hinside : { inside b ⟨last :: rest, mark⟩ place with
      keyAllowed := true, next := ⟨last :: rest, mark⟩ } =
        inside b ⟨last :: rest, mark⟩ place := rfl
  rw [settle?, hgap']
  simp only [hinside, refresh?_inside, hplace]
  rfl

theorem fetchHere?_flowEnd (h : IsEmptyFlow first last start stop) :
    (inside b ⟨last :: rest, mark⟩ place).fetchHere? =
      some ((b.add [stop]).scan ⟨rest, mark.pass last⟩ false place) := by
  cases h <;>
    simp [fetchHere?, Blocks.scan, atDocumentMarker, closeFlow?, forgetPlace?, inside, Scan.take,
      push, Blocks.add, Cursor.skip]

/-- An empty collection is two tokens. -/
theorem Ready.emptyFlow (h : s.Ready keyAllowed column
      (first :: last :: ('\n' :: spaces j ++ rest)) b)
    (hflow : IsEmptyFlow first last start stop) (hb : b.indent < column) (hrest : AtEntry rest) :
    ∃ s', Steps s s' ∧ s'.Ready true j rest (b.add [start, stop]) := by
  obtain ⟨hle, mark, hcolumn, hsettle⟩ := h
  rw [Blocks.close_of_le (by omega)] at hsettle
  let behind := (mark.pass first).pass last
  have hend := behind.advance_newline_spaces j
  have hstart : IsPast (keyPlace b mark keyAllowed) (behind.advance ('\n' :: spaces j)) :=
    isPast_keyPlace (by omega) (by rw [hend.1]; exact Nat.lt_succ_self _)
  -- the place of the bracket is looked at again with every token, and may be given up at any time
  obtain ⟨place₁, hplace₁, hpast₁⟩ := exists_refreshPlace (mark.pass first) hstart
  obtain ⟨place₂, hplace₂, hpast₂⟩ := exists_refreshPlace (mark.pass first) hpast₁
  obtain ⟨place₃, hplace₃, hpast₃⟩ := exists_refreshPlace behind hpast₂
  let text := '\n' :: spaces j ++ rest
  have hfirst : Steps s (inside (b.add [start]) ⟨last :: text, mark.pass first⟩ place₁) := by
    refine steps_of_settle? hsettle (fetchHere?_flowStart hflow) ?_ ?_ ?_
    · cases hflow <;> simp [inside, Blocks.scan, Blocks.add]
    · rw [refresh?_inside, hplace₁]
      rfl
    · exact hle
  have hlast : Steps (inside (b.add [start]) ⟨last :: text, mark.pass first⟩ place₁)
      ((b.add [start, stop]).scan ⟨text, behind⟩ false place₃) := by
    refine steps_of_settle? (settle?_inside hflow hplace₂) (fetchHere?_flowEnd hflow) ?_ ?_ ?_
    · cases hflow <;> simp [Blocks.scan, Blocks.add]
    · rw [refresh?_scan, hplace₃, Blocks.add_add]
      rfl
    · exact Nat.lt_succ_self _
  refine ⟨_, hfirst.trans hlast, ?_⟩
  have hready : ((b.add [start, stop]).scan ⟨text, behind⟩ false place₃).Ready true
      (behind.advance ('\n' :: spaces j)).column rest (b.add [start, stop]) := by
    refine ready_of_gapEnd (gapEnd_lineEnd j hrest) hpast₃ ?_
    simp only [text, List.length_append]
    omega
  rwa [hend.2] at hready

end

end Scan

end CallPolicy.Yaml
