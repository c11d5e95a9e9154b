import CallPolicy.Proofs.Yaml.Quoted

set_option autoImplicit false

/-! # Reading back literal blocks

A block is read line by line. The reader keeps the line breaks that it has seen last apart from the
text, since the header says what becomes of them if nothing else follows; together they are what has
been written so far (`Block.Holds`). -/

namespace CallPolicy.Yaml

/-! ## Single steps -/

section

variable {ctx : BlockContext} {b : Block} {mark : Mark} {n w : Nat} {c : Char}

theorem blockFrom_line_char (hbreak : isBreak c = false) (rest : List Char) :
    blockFrom ctx b mark (.line n) (c :: rest) =
      blockFrom ctx { b with text := c :: b.text } (mark.pass c) (.line n) rest := by
  have hreturn := ne_return_of_isBreak_eq_false hbreak
  rw [blockFrom.eq_def]
  simp [hbreak, hreturn]

/-- Line breaks that are read as they are. -/
def KeepsBreak (c : Char) : Prop := isBreak c = true → normalBreak c = c

theorem ne_of_keepsBreak (hc : KeepsBreak c) : c ≠ '\r' := by
  rintro rfl
  exact absurd (hc rfl) (by decide)

theorem blockFrom_line_break (hbreak : isBreak c = true) (hc : KeepsBreak c) (rest : List Char) :
    blockFrom ctx b mark (.line n) (c :: rest) =
      blockFrom ctx { b with lastBreak := some c, emptyLines := [] } (mark.nextLine c)
        (.indentation (some n) 0) rest := by
  rw [blockFrom.eq_def]
  simp [hbreak, ne_of_keepsBreak hc, hc hbreak]

theorem blockFrom_emptyLine (hbreak : isBreak c = true) (hc : KeepsBreak c) (rest : List Char) :
    blockFrom ctx b mark (.indentation (some n) w) (c :: rest) =
      blockFrom ctx { b with emptyLines := c :: b.emptyLines } (mark.nextLine c)
        (.indentation (some n) (max w mark.column)) rest := by
  have hspace : c ≠ ' ' := by
    rintro rfl
    cases hbreak
  have htab : c ≠ '\t' := by
    rintro rfl
    cases hbreak
  rw [blockFrom.eq_def]
  simp [hbreak, ne_of_keepsBreak hc, hc hbreak, hspace, htab]

/-- Indentation is passed. -/
theorem blockFrom_spaces {k : Nat} (hk : mark.column + k ≤ n) (rest : List Char) :
    blockFrom ctx b mark (.indentation (some n) w) (spaces k ++ rest) =
      blockFrom ctx b (mark.advance (spaces k)) (.indentation (some n) w) rest := by
  induction k generalizing mark with
  | zero => rfl
  | succ k ih =>
    have hlt : mark.column < n := by omega
    have hk' : (mark.pass ' ').column + k ≤ n := by
      rw [Mark.pass_column]
      omega
    rw [spaces_succ, List.cons_append, Mark.advance_cons mark _ rfl, ← ih hk', blockFrom.eq_def]
    simp [hlt]

/-- A line begins where the indentation ends. -/
theorem blockFrom_content (hcolumn : mark.column = n) (hbreak : isBreak c = false)
    (rest : List Char) :
    blockFrom ctx b mark (.indentation (some n) w) (c :: rest) =
      blockFrom ctx { text := c :: b.join ctx.literal (isBlank c), blankLine := isBlank c }
        (mark.pass c) (.line n) rest := by
  have hreturn := ne_return_of_isBreak_eq_false hbreak
  rw [blockFrom.eq_def]
  simp [hbreak, hreturn, hcolumn]

/-- A block ends at a line that is not indented. -/
theorem blockFrom_end {rest : List Char} (hcolumn : mark.column < n) (hrest : AtEntry rest) :
    blockFrom ctx b mark (.indentation (some n) w) rest =
      some ⟨b.finish ctx.chomping, false, ⟨rest, mark⟩⟩ := by
  cases rest with
  | nil => rw [blockFrom]
  | cons c rest =>
    obtain ⟨hbreak, hblank, -⟩ := plain_of_beginsEntry (hrest c rfl)
    have hreturn := ne_return_of_isBreak_eq_false hbreak
    have hspace := ne_of_isBlank_eq_false hblank
    rw [blockFrom.eq_def]
    simp [hbreak, hreturn, hspace, Nat.ne_of_lt hcolumn]

/-- The first line shows the indentation, if it begins with neither a blank nor a break. -/
theorem blockFrom_undecided {k : Nat} (hk : mark.column + k = n) (hn : blockIndent ctx n = n)
    (hbreak : isBreak c = false) (hblank : isBlank c = false) (rest : List Char) :
    blockFrom ctx b mark (.indentation none 0) (spaces k ++ c :: rest) =
      blockFrom ctx b mark (.indentation (some n) 0) (spaces k ++ c :: rest) := by
  induction k generalizing mark with
  | zero =>
    have hspace := ne_of_isBlank_eq_false hblank
    have hreturn := ne_return_of_isBreak_eq_false hbreak
    obtain rfl : mark.column = n := hk
    show blockFrom ctx b mark (.indentation none 0) (c :: rest) =
      blockFrom ctx b mark (.indentation (some mark.column) 0) (c :: rest)
    rw [blockFrom_content rfl hbreak, blockFrom.eq_def]
    simp [hbreak, hreturn, hspace, hn]
  | succ k ih =>
    have hk' : (mark.pass ' ').column + k = n := by
      rw [Mark.pass_column]
      omega
    have hspaces : spaces (k + 1) ++ c :: rest = spaces 1 ++ (spaces k ++ c :: rest) := rfl
    rw [hspaces, blockFrom_spaces (by omega), spaces_succ, List.cons_append, blockFrom.eq_def]
    simpa [Mark.advance_cons mark _ (c := ' ') rfl, spaces] using ih hk'

end

/-! ## Whole blocks -/

namespace Block

/-- The block holds what has been written so far, in reverse: inside a line all of it is text, and
    in front of a line the breaks at its end are kept apart. Empty lines are noted only behind
    another line break, or where nothing has been written before. -/
inductive Holds (n : Nat) : Bool → Block → List Char → Nat → BlockState → Prop where
  | line {written : List Char} {column : Nat} {blankLine : Bool} (hne : written ≠ [])
      (hword : ∀ c ∈ written.head?, isBreak c = false) :
      Holds n false { text := written, blankLine } written column (.line n)
  | indentation {b : Block} {written : List Char} {column w : Nat} (hcolumn : column = 0)
      (hwritten : b.emptyLines ++ b.lastBreak.toList ++ b.text = written)
      (hbreak : ∀ c ∈ written.head?, isBreak c = true)
      (hempty : b.emptyLines ≠ [] → ∀ c ∈ written[1]?, isBreak c = true) :
      Holds n true b written column (.indentation (some n) w)

end Block

/-- What a header says about the end of the text that is given in reverse. -/
def chompingOf : List Char → Chomping
  | [] => .strip
  | c :: rest =>
    if !isBreak c then .strip
    else match rest with
      | [] => .keep
      | d :: _ => if isBreak d then .keep else .clip

section

variable {ctx : BlockContext} {b : Block} {mark : Mark} {n w j column : Nat}
  {written rest : List Char}

/-- The breaks at the end of the text stay as the header says. -/
theorem finish_chompingOf (hwritten : b.emptyLines ++ b.lastBreak.toList ++ b.text = written)
    (hne : written ≠ []) (hbreak : ∀ c ∈ written.head?, isBreak c = true)
    (hempty : b.emptyLines ≠ [] → ∀ c ∈ written[1]?, isBreak c = true) :
    b.finish (chompingOf written) = written.reverse := by
  cases written with
  | nil => exact absurd rfl hne
  | cons c l =>
    have hc : isBreak c = true := hbreak c rfl
    cases l with
    | nil => simp [chompingOf, hc, Block.finish, hwritten]
    | cons d l =>
      cases hd : isBreak d with
      | true => simp [chompingOf, hc, hd, Block.finish, hwritten]
      | false =>
        have hnone : b.emptyLines = [] := by
          by_contra hsome
          have hbreak' := hempty hsome d rfl
          rw [hd] at hbreak'
          cases hbreak'
        rw [hnone, List.nil_append] at hwritten
        simp [chompingOf, hc, hd, Block.finish, hwritten]

/-- Behind the last line, which is ended if it has not ended yet. -/
theorem blockFrom_behind (hj : j < n) {fresh : Bool} {st : BlockState}
    (hb : b.Holds n fresh written mark.column st) (hne : written ≠ [])
    (hchomping : ctx.chomping = chompingOf written) (hrest : AtEntry rest) :
    ∃ mark' : Mark, mark'.column = j ∧
      blockFrom ctx b mark st
        ((if written.head?.any isBreak then [] else ['\n']) ++ (spaces j ++ rest)) =
        some ⟨written.reverse, false, ⟨rest, mark'⟩⟩ := by
  obtain ⟨c, l, rfl⟩ := List.exists_cons_of_ne_nil hne
  cases hb with
  | line _ hword =>
    have hc : isBreak c = false := hword c rfl
    have hcolumn := (mark.advance_newline_spaces j).2
    rw [Mark.advance_cons_of_break mark _ rfl] at hcolumn
    refine ⟨_, hcolumn, ?_⟩
    have hstrip : ctx.chomping = .strip := by simp [hchomping, chompingOf, hc]
    rw [List.head?_cons, Option.any_some, hc, if_neg (by decide), List.singleton_append,
      blockFrom_line_break rfl (fun _ => rfl), blockFrom_spaces (by simp; omega),
      blockFrom_end (by omega) hrest, hstrip]
    rfl
  | indentation hcolumn hwritten hbreak hempty =>
    have hc : isBreak c = true := hbreak c rfl
    have hend : (mark.advance (spaces j)).column = j := by
      rw [(mark.advance_spaces j).2, hcolumn, Nat.zero_add]
    refine ⟨_, hend, ?_⟩
    rw [List.head?_cons, Option.any_some, hc, if_pos rfl, List.nil_append,
      blockFrom_spaces (by omega), blockFrom_end (by omega) hrest, hchomping,
      finish_chompingOf hwritten hne hbreak hempty]

/-- The lines of a block are read back, up to a line that is not indented. -/
theorem blockFrom_indentLines {cs : List Char} {fresh : Bool} {st : BlockState}
    (hliteral : ctx.literal = true) (hj : j < n) (hb : b.Holds n fresh written mark.column st)
    (hcs : ∀ c ∈ cs, KeepsBreak c) (hne : cs.reverse ++ written ≠ [])
    (hchomping : ctx.chomping = chompingOf (cs.reverse ++ written)) (hrest : AtEntry rest) :
    ∃ mark' : Mark, mark'.column = j ∧
      blockFrom ctx b mark st (indentLines n fresh cs ++
        ((if (cs.reverse ++ written).head?.any isBreak then [] else ['\n']) ++
          (spaces j ++ rest))) =
        some ⟨(cs.reverse ++ written).reverse, false, ⟨rest, mark'⟩⟩ := by
  induction cs generalizing b written mark st fresh with
  | nil => exact blockFrom_behind hj hb hne hchomping hrest
  | cons c cs ih =>
    obtain ⟨hc, htail⟩ := List.forall_mem_cons.1 hcs
    rw [List.reverse_cons, List.append_assoc, List.singleton_append] at hne hchomping ⊢
    cases hbreak : isBreak c with
    | true =>
      rw [indentLines_break hbreak, List.cons_append]
      cases hb with
      | line _ _ =>
        rw [blockFrom_line_break hbreak hc]
        exact ih (.indentation rfl rfl (by simpa using hbreak) fun h => absurd rfl h) htail hne
          hchomping
      | indentation hcolumn hwritten hhead hempty =>
        rw [blockFrom_emptyLine hbreak hc]
        have hwritten' : c :: b.emptyLines ++ b.lastBreak.toList ++ b.text = c :: written :=
          congrArg (c :: ·) hwritten
        exact ih (.indentation rfl hwritten' (by simpa using hbreak) fun _ => by
          simpa [List.head?_eq_getElem?] using hhead)
          htail hne hchomping
    | false =>
      rw [indentLines_cons hbreak]
      cases hb with
      | line _ _ =>
        rw [if_neg (by decide), List.nil_append, List.cons_append, blockFrom_line_char hbreak]
        exact ih (.line (List.cons_ne_nil _ _) (by simpa using hbreak)) htail hne hchomping
      | indentation hcolumn hwritten _ _ =>
        rw [if_pos rfl, List.append_assoc, List.cons_append, blockFrom_spaces (by omega),
          blockFrom_content (by rw [(mark.advance_spaces n).2]; omega) hbreak]
        have hjoin : b.join ctx.literal (isBlank c) = written := by
          rw [← hwritten, Block.join, hliteral]
          rfl
        rw [hjoin]
        exact ih (.line (List.cons_ne_nil _ _) (by simpa using hbreak)) htail hne hchomping

/-- A block is read back from its first line on. -/
theorem blockFrom_text {cs : List Char} (hliteral : ctx.literal = true) (hj : j < n)
    (hmark : mark.column = 0) (hcs : ∀ c ∈ cs, KeepsBreak c) (hne : cs ≠ [])
    (hchomping : ctx.chomping = chompingOf cs.reverse) (hrest : AtEntry rest) :
    ∃ mark' : Mark, mark'.column = j ∧
      blockFrom ctx {} mark (.indentation (some n) 0) (indentLines n true cs ++
        ((if cs.getLast?.any isBreak then [] else ['\n']) ++ (spaces j ++ rest))) =
        some ⟨cs, false, ⟨rest, mark'⟩⟩ := by
  have hholds : Block.Holds n true {} [] mark.column (.indentation (some n) 0) :=
    .indentation hmark rfl (fun c h => by cases h) fun h => absurd rfl h
  have hlines := blockFrom_indentLines hliteral hj hholds hcs (by simpa using hne)
    (by simpa using hchomping) hrest
  simpa using hlines

end

/-! ## Headers -/

/-- Does the text need its indentation in the header? -/
def hidesIndent : List Char → Bool
  | c :: _ => c == ' ' || isBreak c
  | [] => false

/-- The sign that stands for what happens to the breaks at the end. -/
def Chomping.sign : Chomping → List Char
  | .strip => ['-']
  | .clip => []
  | .keep => ['+']

theorem literalHeader_eq (cs : List Char) :
    literalHeader cs =
      '|' :: ((if hidesIndent cs then ['2'] else []) ++ (chompingOf cs.reverse).sign) ++
        ['\n'] := by
  have hhint : (match cs with
      | c :: _ => if c == ' ' || isBreak c then ['2'] else []
      | [] => []) = if hidesIndent cs then ['2'] else [] := by
    cases cs <;> rfl
  have hsign : (match cs.reverse with
      | [] => ['-']
      | c :: rest =>
        if !isBreak c then ['-']
        else match rest with
          | [] => ['+']
          | d :: _ => if isBreak d then ['+'] else []) = (chompingOf cs.reverse).sign := by
    rcases cs.reverse with - | ⟨c, - | ⟨d, rest⟩⟩
    · rfl
    · cases h : isBreak c <;> simp [chompingOf, Chomping.sign, h]
    · cases h : isBreak c <;> cases h' : isBreak d <;> simp [chompingOf, Chomping.sign, h, h']
  rw [← hhint, ← hsign]
  rfl

/-- A header is read back. -/
theorem blockHeader?_sign (hidden : Bool) (chomping : Chomping) (rest : List Char) :
    let sign := (if hidden then ['2'] else []) ++ chomping.sign
    blockHeader? (sign ++ '\n' :: rest) =
      some (chomping, if hidden then some 2 else none, sign.length) := by
  cases hidden <;> cases chomping <;> rfl

theorem skipToLineEnd?_newline (rest : List Char) (mark : Mark) :
    Cursor.skipToLineEnd? ⟨'\n' :: rest, mark⟩ = some ⟨rest, mark.nextLine '\n'⟩ := rfl

section

variable {cs rest : List Char} {n : Nat}

/-- Behind its header a block is read the same whether the header says the indentation or not. -/
theorem blockFrom_hidesIndent {ctx : BlockContext} {mark : Mark} (hparent : ctx.parent = n)
    (hmark : mark.column = 0) (htab : ∀ c ∈ cs, c ≠ '\t') (hne : cs ≠ []) :
    blockFrom ctx {} mark (.indentation (if hidesIndent cs then some (n + 2) else none) 0)
        (indentLines (n + 2) true cs ++ rest) =
      blockFrom ctx {} mark (.indentation (some (n + 2)) 0)
        (indentLines (n + 2) true cs ++ rest) := by
  cases hhides : hidesIndent cs with
  | true => rfl
  | false =>
    obtain ⟨c, l, rfl⟩ := List.exists_cons_of_ne_nil hne
    obtain ⟨hspace, hbreak⟩ := Bool.or_eq_false_iff.1 hhides
    have hblank : isBlank c = false :=
      isBlank_eq_false (by simpa using hspace) (htab c List.mem_cons_self)
    have hindent : blockIndent ctx (n + 2) = n + 2 := by
      rw [blockIndent, hparent]
      omega
    rw [indentLines_cons hbreak, if_pos rfl, List.append_assoc, List.cons_append]
    exact blockFrom_undecided (by omega) hindent hbreak hblank _

/-- A text in a block is read back. -/
theorem blockScalar?_literal {j : Nat} (mark : Mark) (hj : j ≤ n)
    (hcs : ∀ c ∈ cs, KeepsBreak c ∧ c ≠ '\t') (hne : cs ≠ []) (hrest : AtEntry rest) :
    ∃ mark' : Mark, mark'.column = j ∧
      blockScalar? true n ⟨literalHeader cs ++ (indentLines (n + 2) true cs ++
        ((if cs.getLast?.any isBreak then [] else ['\n']) ++ (spaces j ++ rest))), mark⟩ =
        some ⟨cs, false, ⟨rest, mark'⟩⟩ := by
  let sign := (if hidesIndent cs then ['2'] else []) ++ (chompingOf cs.reverse).sign
  let body := indentLines (n + 2) true cs ++
    ((if cs.getLast?.any isBreak then [] else ['\n']) ++ (spaces j ++ rest))
  let ctx : BlockContext := ⟨true, chompingOf cs.reverse, n⟩
  have htext : literalHeader cs ++ body = '|' :: (sign ++ '\n' :: body) := by
    rw [literalHeader_eq]
    simp [sign]
  have hskip : ∃ mark' : Mark, (Cursor.skip ⟨'|' :: (sign ++ '\n' :: body), mark⟩ 1).skip
      sign.length = ⟨'\n' :: body, mark'⟩ := ⟨_, by simp [Cursor.skip]; rfl⟩
  obtain ⟨m, hm⟩ := hskip
  have hblock : ∃ mark' : Mark, mark'.column = j ∧
      blockFrom ctx {} (m.nextLine '\n') (.indentation (some (n + 2)) 0) body =
        some ⟨cs, false, ⟨rest, mark'⟩⟩ :=
    blockFrom_text rfl (by omega) rfl (fun c hc => (hcs c hc).1) hne rfl hrest
  obtain ⟨mark', hcolumn, hread⟩ := hblock
  refine ⟨mark', hcolumn, ?_⟩
  have hheader : blockHeader? (Cursor.skip ⟨'|' :: (sign ++ '\n' :: body), mark⟩ 1).rest =
      some (chompingOf cs.reverse, if hidesIndent cs then some 2 else none, sign.length) :=
    blockHeader?_sign (hidesIndent cs) (chompingOf cs.reverse) body
  have hindent : (if hidesIndent cs then some 2 else none : Option Nat).map
      (fun k => if 0 ≤ (n : Int) then (n : Int).toNat + k else k) =
        if hidesIndent cs then some (n + 2) else none := by
    cases hidesIndent cs <;> simp
  rw [htext, blockScalar?, Option.bind_eq_bind, hheader, Option.bind_some]
  simp only [hm, skipToLineEnd?_newline, Option.bind_eq_bind, Option.bind_some, hindent]
  exact (blockFrom_hidesIndent rfl rfl (fun c hc => (hcs c hc).2) hne).trans hread

end

end CallPolicy.Yaml
