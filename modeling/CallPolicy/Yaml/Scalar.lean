import CallPolicy.Yaml.Token

set_option autoImplicit false

/-! # Reading scalars

The four ways to write a scalar: plain, between single or double quotes, and as a block after `|`
or `>`. Each reader takes the characters one by one. A line break inside a scalar is folded: one
break becomes a space, and of several the first is dropped; only a literal block keeps all of
them. -/

namespace CallPolicy.Yaml

/-! ## Folding -/

/-- Blanks and line breaks read behind a word, not yet added to the text: either blanks within one
    line, or a first line break and those that follow it. The lists are in reverse. -/
structure Gap where
  blanks : List Char := []
  /-- Has the line ended? -/
  broken : Bool := false
  firstBreak : Option Char := none
  moreBreaks : List Char := []

namespace Gap

/-- Adds a blank; blanks at the beginning of a line do not count. -/
def blank (g : Gap) (c : Char) : Gap :=
  if g.broken then g else { g with blanks := c :: g.blanks }

/-- Adds a line break. -/
def lineBreak (g : Gap) (c : Char) : Gap :=
  if g.broken then { g with moreBreaks := normalBreak c :: g.moreBreaks }
  else { broken := true, firstBreak := some (normalBreak c) }

/-- What the gap stands for in the text, in reverse. -/
def folded (g : Gap) : List Char :=
  if !g.broken then g.blanks
  else match g.firstBreak with
    | some '\n' => if g.moreBreaks.isEmpty then [' '] else g.moreBreaks
    | some c => g.moreBreaks ++ [c]
    | none => g.moreBreaks

end Gap

/-! ## Plain scalars -/

/-- Where a plain scalar is read: inside a flow collection or not, and the least column of its
    further lines. -/
structure PlainContext where
  inFlow : Bool
  indent : Int

/-- Characters with a meaning of their own inside flow collections. -/
def isFlowIndicator (c : Char) : Bool :=
  c == ',' || c == '[' || c == ']' || c == '\x7b' || c == '\x7d'

/-- A scalar that has been read: its text, and whether a line break was passed behind it. -/
structure ReadScalar where
  text : List Char
  broken : Bool
  next : Cursor

/-- Reads a plain scalar from behind `text` and `gap`. `none` if it is not well formed: a tab that
    indents a further line, or a `:` before a flow indicator. -/
def plainFrom (ctx : PlainContext) (text : List Char) (gap : Gap) (inGap : Bool) (mark : Mark) :
    List Char → Option ReadScalar
  | [] => some ⟨text.reverse, gap.broken, ⟨[], mark⟩⟩
  | '\r' :: '\n' :: rest =>
    plainFrom ctx text (gap.lineBreak '\n') true ((mark.pass '\r').nextLine '\n') rest
  | c :: rest =>
    if isBreak c then
      plainFrom ctx text (gap.lineBreak c) true (mark.nextLine c) rest
    else if isBlank c then
      if gap.broken && mark.column < ctx.indent && c == '\t' then none
      else plainFrom ctx text (gap.blank c) true (mark.pass c) rest
    else
      let ends : Bool :=
        -- a new word may end the scalar by its indentation, as a marker or as a comment
        (inGap && ((!ctx.inFlow && mark.column < ctx.indent) || c == '#' ||
          (mark.column == 0 && atDocumentMarker (c :: rest)))) ||
        (c == ':' && endsWord rest) || (ctx.inFlow && isFlowIndicator c)
      if ends then some ⟨text.reverse, gap.broken, ⟨c :: rest, mark⟩⟩
      else
        let badColon : Bool := ctx.inFlow && c == ':' && match rest with
          | d :: _ => isFlowIndicator d || d == '?'
          | [] => false
        if badColon then none
        else plainFrom ctx (c :: gap.folded ++ text) {} false (mark.pass c) rest

/-- Reads a plain scalar. -/
def plainScalar? (ctx : PlainContext) (c : Cursor) : Option ReadScalar :=
  plainFrom ctx [] {} false c.mark c.rest

/-! ## Quoted scalars -/

/-- What the character behind a backslash stands for. -/
inductive Escape where
  | char (c : Char)
  /-- The character with the code of that many hexadecimal digits. -/
  | code (digits : Nat)

/-- The escapes of double-quoted scalars. -/
def escape? (c : Char) : Option Escape :=
  if c = '0' then some (.char '\x00')
  else if c = 'a' then some (.char '\x07')
  else if c = 'b' then some (.char '\x08')
  else if c = 't' ∨ c = '\t' then some (.char '\t')
  else if c = 'n' then some (.char '\n')
  else if c = 'v' then some (.char '\x0b')
  else if c = 'f' then some (.char '\x0c')
  else if c = 'r' then some (.char '\r')
  else if c = 'e' then some (.char '\x1b')
  else if c = ' ' ∨ c = '\x22' ∨ c = '/' ∨ c = '\\' then some (.char c)
  else if c = 'N' then some (.char '\u0085')
  else if c = '_' then some (.char '\u00a0')
  else if c = 'L' then some (.char '\u2028')
  else if c = 'P' then some (.char '\u2029')
  else if c = 'x' then some (.code 2)
  else if c = 'u' then some (.code 4)
  else if c = 'U' then some (.code 8)
  else none

/-- The character with a code point, if it is one. -/
def charOfCode? (n : Nat) : Option Char :=
  if n < 0xd800 ∨ (0xdfff < n ∧ n ≤ 0x10ffff) then some (Char.ofNat n) else none

/-- Where a reader of quoted scalars stands. -/
inductive QuotedState where
  /-- Inside a word. -/
  | word
  /-- Behind a word, in a gap. -/
  | gap (gap : Gap)
  /-- Inside the code of an escape: digits to come, value so far. -/
  | code (digits value : Nat)

/-- Reads a quoted scalar behind its opening quote. `none` if it is not well formed: not closed, a
    marker between documents inside it, or a bad escape. -/
def quotedFrom (single : Bool) (text : List Char) (mark : Mark) :
    QuotedState → List Char → Option ReadScalar
  | _, [] => none
  | .code digits value, c :: rest => do
    let d ← hexDigitValue? c
    let value := 16 * value + d
    if digits ≤ 1 then
      let decoded ← charOfCode? value
      quotedFrom single (decoded :: text) (mark.pass c) .word rest
    else quotedFrom single text (mark.pass c) (.code (digits - 1) value) rest
  | state, '\r' :: '\n' :: rest =>
    let g := match state with
      | .gap g => g
      | _ => {}
    quotedFrom single text ((mark.pass '\r').nextLine '\n') (.gap (g.lineBreak '\n')) rest
  | state, c :: rest =>
    if isBlank c || isBreak c then
      let g := match state with
        | .gap g => g
        | _ => {}
      if isBreak c then quotedFrom single text (mark.nextLine c) (.gap (g.lineBreak c)) rest
      else quotedFrom single text (mark.pass c) (.gap (g.blank c)) rest
    else
      -- a new word begins: the gap before it becomes part of the text
      let (text, newWord) := match state with
        | .gap g => (g.folded ++ text, true)
        | _ => (text, false)
      if newWord && mark.column == 0 && atDocumentMarker (c :: rest) then none
      else if single then
        if c == '\x27' then
          match rest with
          | '\x27' :: rest => quotedFrom single ('\x27' :: text) ((mark.pass c).pass c) .word rest
          | _ => some ⟨text.reverse, false, ⟨rest, mark.pass c⟩⟩
        else quotedFrom single (c :: text) (mark.pass c) .word rest
      else if c == '\x22' then some ⟨text.reverse, false, ⟨rest, mark.pass c⟩⟩
      else if c == '\\' then
        match rest with
        | '\r' :: '\n' :: rest =>
          let mark := ((mark.pass c).pass '\r').nextLine '\n'
          quotedFrom single text mark (.gap { broken := true }) rest
        | e :: rest =>
          if isBreak e then
            quotedFrom single text ((mark.pass c).nextLine e) (.gap { broken := true }) rest
          else match escape? e with
            | none => none
            | some (.char d) => quotedFrom single (d :: text) ((mark.pass c).pass e) .word rest
            | some (.code digits) =>
              quotedFrom single text ((mark.pass c).pass e) (.code digits 0) rest
        | [] => none
      else quotedFrom single (c :: text) (mark.pass c) .word rest

/-- Reads a quoted scalar at its opening quote. -/
def quotedScalar? (single : Bool) (c : Cursor) : Option ReadScalar :=
  let c := c.skip 1
  quotedFrom single [] c.mark .word c.rest

/-! ## Block scalars -/

/-- What happens to the line breaks at the end of a block. -/
inductive Chomping where
  /-- All are dropped. -/
  | strip
  /-- The first is kept. -/
  | clip
  /-- All are kept. -/
  | keep
deriving DecidableEq

/-- How a block scalar is read. -/
structure BlockContext where
  literal : Bool
  chomping : Chomping
  /-- The indentation of the collection around it, `-1` outside all. -/
  parent : Int

/-- A block scalar in progress: the text so far, the break behind its last line, the breaks of
    the empty lines behind that, and whether the last line began with a blank. -/
structure Block where
  text : List Char := []
  lastBreak : Option Char := none
  emptyLines : List Char := []
  blankLine : Bool := false

namespace Block

/-- The text with the pending breaks added before a new line that begins with a blank or not. -/
def join (b : Block) (literal startsBlank : Bool) : List Char :=
  let foldsBreak := !literal && b.lastBreak == some '\n' && !b.blankLine && !startsBlank
  if foldsBreak then
    if b.emptyLines.isEmpty then ' ' :: b.text else b.emptyLines ++ b.text
  else b.emptyLines ++ b.lastBreak.toList ++ b.text

/-- The text of the finished block. -/
def finish (b : Block) (chomping : Chomping) : List Char :=
  match chomping with
  | .strip => b.text.reverse
  | .clip => (b.lastBreak.toList ++ b.text).reverse
  | .keep => (b.emptyLines ++ b.lastBreak.toList ++ b.text).reverse

end Block

/-- Where a reader of block scalars stands. -/
inductive BlockState where
  /-- Before the content of a line; the indentation is `none` until the first content shows it,
      and then the widest line so far counts. -/
  | indentation (indent : Option Nat) (widest : Nat)
  /-- Inside a line. -/
  | line (indent : Nat)

/-- The indentation of a block whose first line does not give it. -/
def blockIndent (ctx : BlockContext) (widest : Nat) : Nat :=
  max (max widest (ctx.parent + 1).toNat) 1

/-- Reads the lines of a block scalar. `none` if a tab stands where the indentation should be. -/
def blockFrom (ctx : BlockContext) (b : Block) (mark : Mark) :
    BlockState → List Char → Option ReadScalar
  | _, [] => some ⟨b.finish ctx.chomping, false, ⟨[], mark⟩⟩
  | .line indent, '\r' :: '\n' :: rest =>
    blockFrom ctx { b with lastBreak := some '\n', emptyLines := [] }
      ((mark.pass '\r').nextLine '\n') (.indentation (some indent) 0) rest
  | .line indent, c :: rest =>
    if isBreak c then
      blockFrom ctx { b with lastBreak := some (normalBreak c), emptyLines := [] }
        (mark.nextLine c) (.indentation (some indent) 0) rest
    else blockFrom ctx { b with text := c :: b.text } (mark.pass c) (.line indent) rest
  | .indentation indent widest, '\r' :: '\n' :: rest =>
    blockFrom ctx { b with emptyLines := '\n' :: b.emptyLines } ((mark.pass '\r').nextLine '\n')
      (.indentation indent (max widest mark.column)) rest
  | .indentation indent widest, c :: rest =>
    let undecided : Bool := match indent with
      | none => true
      | some n => mark.column < n
    if undecided && c == ' ' then
      blockFrom ctx b (mark.pass c) (.indentation indent widest) rest
    else if undecided && c == '\t' then none
    else if isBreak c then
      blockFrom ctx { b with emptyLines := normalBreak c :: b.emptyLines } (mark.nextLine c)
        (.indentation indent (max widest mark.column)) rest
    else
      let n := indent.getD (blockIndent ctx (max widest mark.column))
      if mark.column == n then
        let startsBlank := isBlank c
        let begun : Block :=
          { text := c :: b.join ctx.literal startsBlank, blankLine := startsBlank }
        blockFrom ctx begun (mark.pass c) (.line n) rest
      else some ⟨b.finish ctx.chomping, false, ⟨c :: rest, mark⟩⟩

/-- The header of a block scalar: chomping, and an indentation from 1 to 9. Either may be left
    out, and they come in either order. -/
def blockHeader? (cs : List Char) : Option (Chomping × Option Nat × Nat) :=
  let chomp? (c : Char) : Option Chomping :=
    if c == '+' then some .keep else if c == '-' then some .strip else none
  let digit? (c : Char) : Option Nat :=
    if c.isDigit then some (c.toNat - '0'.toNat) else none
  let nonzero (chomping : Chomping) (d length : Nat) : Option (Chomping × Option Nat × Nat) :=
    if d = 0 then none else some (chomping, some d, length)
  match cs with
  | [] => some (.clip, none, 0)
  | c :: rest => match chomp? c with
    | some chomping => match rest.head?.bind digit? with
      | some d => nonzero chomping d 2
      | none => some (chomping, none, 1)
    | none => match digit? c with
      | some d => match rest.head?.bind chomp? with
        | some chomping => nonzero chomping d 2
        | none => nonzero .clip d 1
      | none => some (.clip, none, 0)

/-- Reads a block scalar at its `|` or `>`, inside a collection indented by `parent`. -/
def blockScalar? (literal : Bool) (parent : Int) (c : Cursor) : Option ReadScalar := do
  let c := c.skip 1
  let (chomping, indent, length) ← blockHeader? c.rest
  let c ← (c.skip length).skipToLineEnd?
  let indent := indent.map fun n => if 0 ≤ parent then parent.toNat + n else n
  blockFrom ⟨literal, chomping, parent⟩ {} c.mark (.indentation indent 0) c.rest

end CallPolicy.Yaml
