import CallPolicy.Proofs.Yaml.Style
import CallPolicy.Yaml.Scan

set_option autoImplicit false

/-! # Steps of the scanner

What the scanner does from one token to the next, in block context. `Blocks` is the part of its
state that stays from token to token; before a token the scanner passes a gap and closes the blocks
that end there (`Ready`), and a step adds the token (`Steps`). -/

namespace CallPolicy.Yaml

/-! ## Open blocks -/

/-- The tokens so far, and the open block collections with their columns. -/
structure Blocks where
  done : List Token
  count : Nat
  indent : Int
  indents : List Int

namespace Blocks

/-- The scanner at a place outside flow collections. -/
def scan (b : Blocks) (next : Cursor) (keyAllowed : Bool) (place : Option KeyPlace) : Scan where
  next := next
  done := b.done
  count := b.count
  place := place
  indent := b.indent
  indents := b.indents
  keyAllowed := keyAllowed

/-- Tokens added in order. -/
def add (b : Blocks) (ts : List Token) : Blocks :=
  { b with done := ts.reverse ++ b.done, count := b.count + ts.length }

/-- The blocks deeper than a column closed. -/
def close (b : Blocks) (column : Int) : Blocks :=
  let (indents, indent, done, count) :=
    Scan.closeBlocks column b.indents b.indent b.done b.count
  ⟨done, count, indent, indents⟩

/-- A block opened at a column, unless it is open already. -/
def rolled (b : Blocks) (column : Int) (t : Token) : Blocks :=
  if column ≤ b.indent then b else ⟨t :: b.done, b.count + 1, column, b.indent :: b.indents⟩

@[simp] theorem add_indent (b : Blocks) (ts : List Token) : (b.add ts).indent = b.indent := rfl

theorem add_add (b : Blocks) (ts us : List Token) : (b.add ts).add us = b.add (ts ++ us) := by
  simp [add, Nat.add_assoc]

theorem close_of_le {b : Blocks} {column : Int} (h : b.indent ≤ column) : b.close column = b := by
  obtain ⟨done, count, indent, indents⟩ := b
  have hlt : ¬ column < indent := by
    dsimp only at h
    omega
  cases indents <;> simp [close, Scan.closeBlocks, hlt]

theorem rolled_of_le {b : Blocks} {column : Int} (h : column ≤ b.indent) (t : Token) :
    b.rolled column t = b := if_pos h

theorem rolled_indent {b : Blocks} {column : Int} (h : b.indent ≤ column) (t : Token) :
    (b.rolled column t).indent = column := by
  unfold rolled
  split
  · omega
  · rfl

/-- A block that was opened for some tokens is closed behind them. -/
theorem close_rolled {b : Blocks} {column j : Int} (h : b.indent < column) (hj : j < column)
    (t : Token) (ts : List Token) :
    ((b.rolled column t).add ts).close j = (b.add (t :: ts ++ [.blockEnd])).close j := by
  have hopen : ¬ column ≤ b.indent := by omega
  simp [rolled, hopen, close, add, Scan.closeBlocks, hj, Nat.add_assoc, Nat.add_comm 1]

end Blocks

/-! ## Gaps -/

namespace Scan

section

variable {keyAllowed : Bool} {mark : Mark} {rest : List Char}

theorem gapEnd_spaces (k : Nat) :
    gapEnd false keyAllowed false mark (spaces k ++ rest) =
      gapEnd false keyAllowed false (mark.advance (spaces k)) rest := by
  induction k generalizing mark with
  | zero => rfl
  | succ k ih =>
    rw [spaces_succ, List.cons_append, Mark.advance_cons mark _ rfl, ← ih, gapEnd.eq_def]
    rfl

theorem gapEnd_newline :
    gapEnd false keyAllowed false mark ('\n' :: rest) =
      gapEnd false true false (mark.nextLine '\n') rest := by
  rw [gapEnd.eq_def]
  simp [isBreak]

/-- A gap ends where a token begins. -/
theorem gapEnd_token {inFlow : Bool} {c : Char} (hbreak : isBreak c = false)
    (hblank : isBlank c = false) (hcomment : c ≠ '#') (hmark : mark.column = 0 → c ≠ '\ufeff') :
    gapEnd inFlow keyAllowed false mark (c :: rest) = (keyAllowed, ⟨c :: rest, mark⟩) := by
  have hreturn := ne_return_of_isBreak_eq_false hbreak
  have hspace := ne_of_isBlank_eq_false hblank
  have hbom : ¬ (c = '\ufeff' ∧ mark.column = 0) := fun h => hmark h.2 h.1
  rw [gapEnd.eq_def]
  simp [hbreak, hreturn, hspace, hcomment, hbom]

theorem gapEnd_entry (hrest : AtEntry rest) :
    gapEnd false keyAllowed false mark rest = (keyAllowed, ⟨rest, mark⟩) := by
  cases rest with
  | nil => rw [gapEnd]
  | cons c rest =>
    obtain ⟨hbreak, hblank, hcomment, hbom⟩ := plain_of_beginsEntry (hrest c rfl)
    exact gapEnd_token hbreak hblank hcomment fun _ => hbom

/-- A gap behind a value goes on to the next entry. -/
theorem gapEnd_lineEnd (j : Nat) (hrest : AtEntry rest) :
    gapEnd false keyAllowed false mark ('\n' :: spaces j ++ rest) =
      (true, ⟨rest, mark.advance ('\n' :: spaces j)⟩) := by
  rw [List.cons_append, gapEnd_newline, gapEnd_spaces, gapEnd_entry hrest,
    Mark.advance_cons_of_break mark _ rfl]

end

/-! ## Before a token -/

/-- Passes the gap in front of the next token and closes the blocks that end there. -/
def settle? (s : Scan) : Option Scan := do
  let (keyAllowed, next) := gapEnd s.inFlow s.keyAllowed false s.next.mark s.next.rest
  let s ← { s with keyAllowed, next }.refresh?
  return s.unroll s.next.mark.column

theorem fetch?_eq (s : Scan) : s.fetch? = s.settle?.bind fetchHere? := by
  rw [fetch?, settle?]
  obtain ⟨keyAllowed, next⟩ := gapEnd s.inFlow s.keyAllowed false s.next.mark s.next.rest
  cases h : { s with keyAllowed, next }.refresh? <;> simp [h]

/-- In front of `rest` at a column, with the blocks closed that end there. -/
def Ready (s : Scan) (keyAllowed : Bool) (column : Nat) (rest : List Char) (b : Blocks) : Prop :=
  rest.length ≤ s.next.rest.length ∧ ∃ mark : Mark, mark.column = column ∧
    s.settle? = some ((b.close column).scan ⟨rest, mark⟩ keyAllowed none)

/-- The place of a key that was possible on an earlier line is given up, unless a key had to begin
    there. -/
def IsPast (place : Option KeyPlace) (mark : Mark) : Prop :=
  ∀ k ∈ place, k.required = false ∧ k.mark.line < mark.line

theorem isPast_none (mark : Mark) : IsPast none mark := fun _ h => by cases h

theorem refreshPlace_of_isPast {place : Option KeyPlace} {mark : Mark} (h : IsPast place mark) :
    refreshPlace mark place = some none := by
  cases place with
  | none => rfl
  | some k =>
    obtain ⟨hrequired, hline⟩ := h k rfl
    have hfresh : KeyPlace.isFresh k mark = false := by
      simp [KeyPlace.isFresh, Nat.not_le.2 hline]
    simp [refreshPlace, hfresh, hrequired]

theorem refresh?_scan (b : Blocks) (next : Cursor) (keyAllowed : Bool) (place : Option KeyPlace) :
    (b.scan next keyAllowed place).refresh? =
      (refreshPlace next.mark place).map (b.scan next keyAllowed) := by
  cases h : refreshPlace next.mark place <;> simp [refresh?, Blocks.scan, h]

theorem settle?_scan {b : Blocks} {next next' : Cursor} {keyAllowed keyAllowed' : Bool}
    {place place' : Option KeyPlace}
    (hgap : gapEnd false keyAllowed false next.mark next.rest = (keyAllowed', next'))
    (hplace : refreshPlace next'.mark place = some place') :
    (b.scan next keyAllowed place).settle? =
      some ((b.close next'.mark.column).scan next' keyAllowed' place') := by
  have hscan : { b.scan next keyAllowed place with keyAllowed := keyAllowed', next := next' } =
      b.scan next' keyAllowed' place := rfl
  have hgap' : gapEnd (b.scan next keyAllowed place).inFlow
      (b.scan next keyAllowed place).keyAllowed false (b.scan next keyAllowed place).next.mark
      (b.scan next keyAllowed place).next.rest =
        (keyAllowed', next') := hgap
  rw [settle?, hgap']
  simp only [hscan, refresh?_scan, hplace]
  rfl

theorem ready_of_gapEnd {b : Blocks} {next : Cursor} {keyAllowed keyAllowed' : Bool}
    {place : Option KeyPlace} {rest : List Char} {mark : Mark}
    (hgap : gapEnd false keyAllowed false next.mark next.rest = (keyAllowed', ⟨rest, mark⟩))
    (hplace : IsPast place mark) (hlength : rest.length ≤ next.rest.length) :
    Ready (b.scan next keyAllowed place) keyAllowed' mark.column rest b :=
  ⟨hlength, mark, rfl, settle?_scan hgap (refreshPlace_of_isPast hplace)⟩

/-! ## Steps -/

/-- The scanner comes from one state to the other, with no more steps than it takes characters. -/
def Steps (s s' : Scan) : Prop :=
  ∃ k, k + s'.next.rest.length ≤ s.next.rest.length ∧
    ∀ fuel, run true (fuel + k) s = run true fuel s'

theorem Steps.trans {s₁ s₂ s₃ : Scan} (h : Steps s₁ s₂) (h' : Steps s₂ s₃) : Steps s₁ s₃ := by
  obtain ⟨k, hlength, hrun⟩ := h
  obtain ⟨k', hlength', hrun'⟩ := h'
  refine ⟨k' + k, by omega, fun fuel => ?_⟩
  rw [← Nat.add_assoc, hrun, hrun']

/-- One token. -/
theorem steps_of_fetch? {s next s' : Scan} (hfetch : s.fetch? = some next)
    (hend : next.done.head? ≠ some .streamEnd) (hrefresh : next.refresh? = some s')
    (hlength : s'.next.rest.length < s.next.rest.length) : Steps s s' := by
  refine ⟨1, by omega, fun fuel => ?_⟩
  rw [run, hfetch]
  simp only [Bool.not_true, Bool.false_and, Bool.false_eq_true, if_false]
  split
  · rename_i h
    exact absurd (by rw [h]; rfl) hend
  · rw [hrefresh]

/-- The token in front of which the scanner stands is added. -/
theorem steps_of_settle? {s x next s' : Scan} (hsettle : s.settle? = some x)
    (hfetch : x.fetchHere? = some next) (hend : next.done.head? ≠ some .streamEnd)
    (hrefresh : next.refresh? = some s') (hlength : s'.next.rest.length < s.next.rest.length) :
    Steps s s' := by
  refine steps_of_fetch? ?_ hend hrefresh hlength
  rw [fetch?_eq, hsettle]
  exact hfetch

/-! ## Entries of sequences -/

section

variable {b : Blocks} {mark : Mark} {rest : List Char}

theorem roll_scan (next : Cursor) (keyAllowed : Bool) (place : Option KeyPlace) (t : Token) :
    (b.scan next keyAllowed place).roll t =
      (b.rolled next.mark.column t).scan next keyAllowed place := by
  unfold roll rollAt Blocks.rolled
  by_cases h : (next.mark.column : Int) ≤ b.indent
  · simp [h, inFlow, Blocks.scan]
  · simp [h, inFlow, Blocks.scan, insertAt]

theorem fetchHere?_dash :
    (b.scan ⟨'-' :: ' ' :: rest, mark⟩ true none).fetchHere? =
      some (((b.rolled mark.column .blockSequenceStart).add [.blockEntry]).scan
        ⟨' ' :: rest, mark.pass '-'⟩ true none) := by
  have hentry : (b.scan ⟨'-' :: ' ' :: rest, mark⟩ true none).fetchHere? =
      Scan.blockEntry? (b.scan ⟨'-' :: ' ' :: rest, mark⟩ true none) := by
    simp [fetchHere?, Blocks.scan, atDocumentMarker, endsWord, isBlank]
  rw [hentry, blockEntry?, roll_scan]
  rfl

/-- The dash of an item, which opens a sequence unless one is open at its column. -/
theorem Ready.dash {s : Scan} {column : Nat} (h : s.Ready true column ('-' :: ' ' :: rest) b)
    (hb : b.indent ≤ column) :
    ∃ mark : Mark, mark.column = column + 1 ∧
      Steps s (((b.rolled column .blockSequenceStart).add [.blockEntry]).scan
        ⟨' ' :: rest, mark⟩ true none) := by
  obtain ⟨hlength, mark, rfl, hsettle⟩ := h
  rw [Blocks.close_of_le hb] at hsettle
  exact ⟨mark.pass '-', rfl, steps_of_settle? hsettle fetchHere?_dash
    (by simp [Blocks.scan, Blocks.add]) (refresh?_scan _ _ _ _) hlength⟩

end

/-! ## Plain scalars -/

theorem beginsWithMark_cons {c : Char} {cs : List Char} (h : beginsWithMark (c :: cs) = false) :
    c ∉ "#,[]\x7b\x7d&*!|>'\x22%@\x60".toList ∧
      (c ∈ "?:-".toList → endsWord cs = false) := by
  rw [beginsWithMark.eq_def] at h
  split at h
  · rename_i heq
    cases heq
  · cases h
  · cases h
  · rename_i heq
    cases heq
    simpa using h

section

variable {b : Blocks} {mark : Mark} {cs rest : List Char} {keyAllowed : Bool} {c : Char}

theorem beginsPlain_of_isPlainWord (hcs : IsPlainWord (c :: cs)) :
    beginsPlain false c (cs ++ rest) = true := by
  obtain ⟨hmark, hend⟩ := beginsWithMark_cons hcs.begins
  have hword : c ∈ "?:-".toList → endsWord (cs ++ rest) = false := fun h => endsWord_append (hend h)
  have hblank : isBlank c = false :=
    isBlank_eq_false (fun h => hcs.first (by rw [h]; rfl)) (hcs.inline c List.mem_cons_self).2
  by_cases hdash : c = '-'
  · subst hdash
    have hnext : endsWord (cs ++ rest) = false := hword (by decide)
    cases hrest : cs ++ rest with
    | nil =>
      rw [hrest] at hnext
      cases hnext
    | cons d ds =>
      rw [hrest, endsWord, Bool.or_eq_false_iff] at hnext
      simp [beginsPlain, hnext.1]
  · by_cases hindicator : c = '?' ∨ c = ':'
    · have hnext : endsWord (cs ++ rest) = false := hword (by
        rcases hindicator with rfl | rfl <;> decide)
      have hc : (c == '?' || c == ':') = true := by simpa using hindicator
      simp [beginsPlain, hc, hnext]
    · have hnone : isIndicator c = false := by
        simp only [not_or] at hindicator
        simp at hmark
        simp [isIndicator, hmark, hdash, hindicator]
      simp [beginsPlain, hnone, hblank]

theorem fetchHere?_plain (hcs : IsPlainWord (c :: cs))
    (hmargin : mark.column = 0 → c ≠ '-' ∧ c ≠ '.') :
    (b.scan ⟨c :: cs ++ rest, mark⟩ keyAllowed none).fetchHere? =
      (b.scan ⟨c :: cs ++ rest, mark⟩ keyAllowed none).fetchPlain? := by
  obtain ⟨hmark, hend⟩ := beginsWithMark_cons hcs.begins
  have hword : c = '?' ∨ c = ':' ∨ c = '-' → endsWord (cs ++ rest) = false := fun h =>
    endsWord_append (hend (by simpa using h))
  have hmarker : mark.column = 0 → atDocumentMarker (c :: (cs ++ rest)) = false := fun h => by
    unfold atDocumentMarker
    split
    · rename_i heq
      exact absurd (List.cons.inj heq).1 (hmargin h).1
    · rename_i heq
      exact absurd (List.cons.inj heq).1 (hmargin h).2
    · rfl
  have hnotMarker : (mark.column == 0 && atDocumentMarker (c :: (cs ++ rest))) = false := by
    by_cases h : mark.column = 0
    · rw [hmarker h, Bool.and_false]
    · simp [h]
  have hentry : ∀ d, d = '?' ∨ d = ':' ∨ d = '-' → (c == d && endsWord (cs ++ rest)) = false := by
    intro d hd
    by_cases h : c = d
    · rw [hword (h ▸ hd), Bool.and_false]
    · simp [h]
  have hflow : (b.scan ⟨c :: (cs ++ rest), mark⟩ keyAllowed none).inFlow = false := rfl
  have hnext : (b.scan ⟨c :: (cs ++ rest), mark⟩ keyAllowed none).next =
      ⟨c :: (cs ++ rest), mark⟩ := rfl
  simp at hmark
  rw [List.cons_append, fetchHere?.eq_def, hnext]
  simp only [hflow, hnotMarker, hentry '?' (by simp), hentry ':' (by simp), hentry '-' (by simp),
    beginsPlain_of_isPlainWord hcs, Bool.false_or, if_true, Bool.false_eq_true, if_false]
  simp [hmark]

/-- The place of a key that may begin here. -/
def keyPlace (b : Blocks) (mark : Mark) (keyAllowed : Bool) : Option KeyPlace :=
  if keyAllowed then some ⟨b.count, mark, b.indent == mark.column⟩ else none

theorem markPlace?_scan (next : Cursor) :
    (b.scan next keyAllowed none).markPlace? =
      some (b.scan next keyAllowed (keyPlace b next.mark keyAllowed)) := by
  cases keyAllowed <;> rfl

theorem fetchPlain?_scan {next : Cursor} {r : ReadScalar}
    (hread : plainScalar? ⟨false, b.indent + 1⟩ next = some r) :
    (b.scan next keyAllowed none).fetchPlain? =
      some ((b.add [.scalar .plain r.text]).scan r.next r.broken
        (keyPlace b next.mark keyAllowed)) := by
  have hread' : plainScalar? ⟨(b.scan next keyAllowed (keyPlace b next.mark keyAllowed)).inFlow,
      b.indent + 1⟩ next = some r := hread
  rw [fetchPlain?, markPlace?_scan]
  simp only [Option.bind_eq_bind, Option.bind_some]
  show (plainScalar? ⟨_, b.indent + 1⟩ next).bind _ = _
  rw [hread']
  rfl

end

/-! ## Keys -/

section

variable {b : Blocks} {mark : Mark} {name : List Char} {rest : List Char} {c : Char}

/-- Characters of names. -/
def isNameChar (c : Char) : Bool := c.isAlpha || c == '_'

theorem beginsEntry_of_isNameChar (h : isNameChar c = true) : beginsEntry c = true := by
  rw [beginsEntry, Bool.or_eq_true]
  exact .inl h

theorem ne_of_isNameChar (h : isNameChar c = true) :
    c ∉ "#,[]\x7b\x7d&*!|>'\x22%@\x60?:-. ".toList := by
  intro hc
  have hnone : "#,[]\x7b\x7d&*!|>'\x22%@\x60?:-. ".toList.any isNameChar = false := by decide
  exact List.any_eq_false.1 hnone c hc h

/-- Names are plain words. -/
theorem isPlainWord_of_isNameChar (hname : ∀ c ∈ name, isNameChar c = true) : IsPlainWord name := by
  have hplain : ∀ c ∈ name, isBreak c = false ∧ isBlank c = false ∧ c ≠ '#' ∧ c ≠ '\ufeff' :=
    fun c hc => plain_of_beginsEntry (beginsEntry_of_isNameChar (hname c hc))
  have hspace : ' ' ∉ name := fun h => absurd (hname ' ' h) (by decide)
  refine ⟨fun c hc => ⟨(hplain c hc).1, ?_⟩, ?_, ?_, fun h => hspace (List.mem_of_head? h),
    fun h => hspace (List.mem_of_getLast? h)⟩
  · rintro rfl
    exact absurd (hname '\t' hc) (by decide)
  · cases name with
    | nil => rfl
    | cons c cs =>
      have hc := ne_of_isNameChar (hname c List.mem_cons_self)
      simp at hc
      rw [beginsWithMark.eq_def]
      split
      · rfl
      · rename_i heq
        cases heq
        simp at hc
      · rename_i heq
        cases heq
        simp at hc
      · rename_i heq
        cases heq
        simp [hc]
  · have hholds : ∀ afterBlank, holdsMark afterBlank name = false := by
      clear hplain hspace
      induction name with
      | nil => exact fun _ => rfl
      | cons c cs ih =>
        obtain ⟨hc, htail⟩ := List.forall_mem_cons.1 hname
        have hmark := ne_of_isNameChar hc
        simp at hmark
        simp [holdsMark, hmark, ih htail]
    exact hholds true

/-- The place of a key is still good behind its name. -/
theorem refreshPlace_key {k : KeyPlace} (hname : ∀ c ∈ name, isBreak c = false)
    (hlength : name.length ≤ 256) :
    refreshPlace (k.mark.advance name) (some k) = some (some k) := by
  have hline := (k.mark.advance_of_noBreak hname).1
  have hindex := k.mark.index_advance_le name
  have hfresh : KeyPlace.isFresh k (k.mark.advance name) = true := by
    simp only [KeyPlace.isFresh, hline, Bool.and_eq_true, decide_eq_true_eq]
    omega
  simp [refreshPlace, hfresh]

theorem fetchHere?_colon {keyAllowed : Bool} {place : Option KeyPlace}
    (hrest : endsWord rest = true) :
    (b.scan ⟨':' :: rest, mark⟩ keyAllowed place).fetchHere? =
      (b.scan ⟨':' :: rest, mark⟩ keyAllowed place).valueIndicator? := by
  simp [fetchHere?, Blocks.scan, atDocumentMarker, hrest]

/-- At the colon the tokens that make the token in front of it a key are put in. -/
theorem valueIndicator?_scan (t : Token) (start : Mark) (required : Bool) :
    ((b.add [t]).scan ⟨':' :: rest, mark⟩ false (some ⟨b.count, start, required⟩)).valueIndicator? =
      some (((b.rolled start.column .blockMappingStart).add [.key, t, .value]).scan
        ⟨rest, mark.pass ':'⟩ false none) := by
  have hone : b.count + 1 - b.count = 1 := by omega
  have htwo : b.count + 1 + 1 - b.count = 2 := by omega
  by_cases h : (start.column : Int) ≤ b.indent
  · simp [valueIndicator?, Blocks.scan, Blocks.add, insertAt, rollAt, inFlow, Blocks.rolled, h,
      hone, Scan.take, push, Cursor.skip]
  · simp [valueIndicator?, Blocks.scan, Blocks.add, insertAt, rollAt, inFlow, Blocks.rolled, h,
      hone, htwo, Scan.take, push, Cursor.skip]

/-- A key and its colon, which open a mapping unless one is open at the column of the key. -/
theorem Ready.key {s : Scan} {column : Nat} (h : s.Ready true column (name ++ ':' :: rest) b)
    (hb : b.indent ≤ column) (hname : ∀ c ∈ name, isNameChar c = true) (hne : name ≠ [])
    (hlength : name.length ≤ 256) (hrest : endsWord rest = true) :
    ∃ mark : Mark, column < mark.column ∧
      Steps s (((b.rolled column .blockMappingStart).add
        [.key, .scalar .plain name, .value]).scan ⟨rest, mark⟩ false none) := by
  obtain ⟨hle, start, rfl, hsettle⟩ := h
  rw [Blocks.close_of_le hb] at hsettle
  have hword := isPlainWord_of_isNameChar hname
  have hnoBreak : ∀ c ∈ name, isBreak c = false := fun c hc => (hword.inline c hc).1
  have hcolumn := (start.advance_of_noBreak hnoBreak).2
  let place : KeyPlace := ⟨b.count, start, b.indent == start.column⟩
  let mid := (b.add [.scalar .plain name]).scan ⟨':' :: rest, start.advance name⟩ false (some place)
  have hfetch : (b.scan ⟨name ++ ':' :: rest, start⟩ true none).fetchHere? = some mid := by
    obtain ⟨c, cs, rfl⟩ := List.exists_cons_of_ne_nil hne
    have hc := ne_of_isNameChar (hname c List.mem_cons_self)
    simp at hc
    rw [fetchHere?_plain hword fun _ => by simp [hc],
      fetchPlain?_scan (plainScalar?_key hword (by omega) hrest)]
    rfl
  have hfirst : Steps s mid := by
    refine steps_of_settle? hsettle hfetch (by simp [mid, Blocks.scan, Blocks.add]) ?_ ?_
    · rw [refresh?_scan, refreshPlace_key (k := place) hnoBreak hlength]
      rfl
    · have hpos := List.length_pos_iff.2 hne
      simp only [mid, Blocks.scan, List.length_append, List.length_cons] at hle ⊢
      omega
  have hmid : mid.settle? = some mid := by
    have hgap : gapEnd false false false (start.advance name) (':' :: rest) =
        (false, ⟨':' :: rest, start.advance name⟩) :=
      gapEnd_token rfl rfl (by decide) fun _ => by decide
    rw [settle?_scan hgap (refreshPlace_key (k := place) hnoBreak hlength),
      Blocks.close_of_le (by simp only [Blocks.add_indent]; omega)]
  refine ⟨(start.advance name).pass ':', by rw [Mark.pass_column]; omega, hfirst.trans ?_⟩
  exact steps_of_settle? hmid ((fetchHere?_colon hrest).trans (valueIndicator?_scan _ start _))
    (by simp [Blocks.scan, Blocks.add]) (refresh?_scan _ _ _ _) (Nat.lt_succ_self _)

end

/-! ## Values in one token -/

section

variable {b : Blocks} {mark : Mark} {rest : List Char} {keyAllowed : Bool}

/-- A place where no key had to begin is kept or given up. -/
theorem exists_refreshPlace {place : Option KeyPlace} {mark' : Mark} (mark : Mark)
    (h : IsPast place mark') :
    ∃ place', refreshPlace mark place = some place' ∧ IsPast place' mark' := by
  cases place with
  | none => exact ⟨none, rfl, h⟩
  | some k =>
    obtain ⟨hrequired, -⟩ := h k rfl
    cases hfresh : KeyPlace.isFresh k mark with
    | true => exact ⟨some k, by simp [refreshPlace, hfresh], h⟩
    | false => exact ⟨none, by simp [refreshPlace, hfresh, hrequired], fun _ hk => by cases hk⟩

theorem isPast_keyPlace {mark' : Mark} (hindent : b.indent < mark.column)
    (hline : mark.line < mark'.line) : IsPast (keyPlace b mark keyAllowed) mark' := by
  intro k hk
  cases keyAllowed with
  | false => cases hk
  | true =>
    cases hk
    have hne : b.indent ≠ mark.column := by omega
    exact ⟨by simpa using hne, hline⟩

theorem fetchQuoted?_scan {single : Bool} {next : Cursor} {r : ReadScalar}
    (hread : quotedScalar? single next = some r) :
    (b.scan next keyAllowed none).fetchQuoted? single =
      some ((b.add [.scalar .explicit r.text]).scan r.next false
        (keyPlace b next.mark keyAllowed)) := by
  rw [fetchQuoted?, fetchNode?, markPlace?_scan]
  simp only [Option.bind_eq_bind, Option.bind_some]
  show ((quotedScalar? single next).bind _).bind _ = _
  rw [hread]
  rfl

theorem fetchBlock?_scan {next : Cursor} {r : ReadScalar}
    (hread : blockScalar? true b.indent next = some r) :
    (b.scan next keyAllowed none).fetchBlock? true =
      some ((b.add [.scalar .explicit r.text]).scan r.next true none) := by
  show (blockScalar? true b.indent next).bind _ = _
  rw [hread]
  rfl

/-- A value in one token, and the gap behind it up to the next entry. -/
theorem Ready.leaf {s : Scan} {column j : Nat} {text : List Char} {t : Token}
    (h : s.Ready keyAllowed column text b) (hb : b.indent < column) (ht : t ≠ .streamEnd)
    (hfetch : ∀ mark : Mark, mark.column = column → ∃ next keyAllowed' place, ∃ mark' : Mark,
      (b.scan ⟨text, mark⟩ keyAllowed none).fetchHere? =
        some ((b.add [t]).scan next keyAllowed' place) ∧ next.rest.length < text.length ∧
      gapEnd false keyAllowed' false next.mark next.rest = (true, ⟨rest, mark'⟩) ∧
      rest.length ≤ next.rest.length ∧ mark'.column = j ∧ IsPast place mark') :
    ∃ s', Steps s s' ∧ s'.Ready true j rest (b.add [t]) := by
  obtain ⟨hle, mark, hcolumn, hsettle⟩ := h
  rw [Blocks.close_of_le (by omega)] at hsettle
  obtain ⟨next, keyAllowed', place, mark', hnext, hlt, hgap, hlength, rfl, hpast⟩ :=
    hfetch mark hcolumn
  obtain ⟨place', hplace, hpast'⟩ := exists_refreshPlace next.mark hpast
  refine ⟨(b.add [t]).scan next keyAllowed' place', ?_, ready_of_gapEnd hgap hpast' hlength⟩
  refine steps_of_settle? hsettle hnext (by simpa [Blocks.scan, Blocks.add] using ht) ?_ ?_
  · rw [refresh?_scan, hplace]
    rfl
  · exact Nat.lt_of_lt_of_le hlt hle

end

end Scan

end CallPolicy.Yaml
