import CallPolicy.Text.Digits

set_option autoImplicit false

/-! # Tokens of YAML

The words of a YAML text: indicators, scalars and the marks that make block structure explicit.
`Cursor` is a place in a text, and the character classes say where words begin and end. -/

namespace CallPolicy.Yaml

/-! ## Characters -/

/-- Characters that end a line. -/
def isBreak (c : Char) : Bool :=
  c == '\n' || c == '\r' || c == '\u0085' || c == '\u2028' || c == '\u2029'

/-- The space and the tab. -/
def isBlank (c : Char) : Bool :=
  c == ' ' || c == '\t'

/-- Characters of anchor names and tag handles. -/
def isWordChar (c : Char) : Bool :=
  c.isAlphanum || c == '_' || c == '-'

/-- Characters that a YAML text may hold. -/
def isAllowed (c : Char) : Bool :=
  let n := c.toNat
  n == 0x09 || n == 0x0a || n == 0x0d || (0x20 ≤ n && n ≤ 0x7e) || n == 0x85 ||
    (0xa0 ≤ n && n ≤ 0xd7ff) || (0xe000 ≤ n && n ≤ 0xfffd) || 0x10000 ≤ n

/-- Does a line end here? -/
def endsLine : List Char → Bool
  | [] => true
  | c :: _ => isBreak c

/-- Does a word end here? -/
def endsWord : List Char → Bool
  | [] => true
  | c :: _ => isBlank c || isBreak c

/-- Does a marker between documents stand here? It counts only at the beginning of a line. -/
def atDocumentMarker : List Char → Bool
  | '-' :: '-' :: '-' :: rest => endsWord rest
  | '.' :: '.' :: '.' :: rest => endsWord rest
  | _ => false

/-! ## Places -/

/-- A position: bytes from the start of the text, line, and column. The column counts characters. -/
structure Mark where
  index : Nat := 0
  line : Nat := 0
  column : Nat := 0

/-- The position behind a character of the line. -/
def Mark.pass (p : Mark) (c : Char) : Mark :=
  { p with index := p.index + c.utf8Size, column := p.column + 1 }

/-- The beginning of the next line, behind a character that ends this one. -/
def Mark.nextLine (p : Mark) (c : Char) : Mark :=
  ⟨p.index + c.utf8Size, p.line + 1, 0⟩

/-- What is left of a text, and where it begins. -/
structure Cursor where
  rest : List Char
  mark : Mark := {}

namespace Cursor

/-- Passes `n` characters that are no line breaks. -/
def skip (c : Cursor) (n : Nat) : Cursor :=
  ⟨c.rest.drop n, (c.rest.take n).foldl Mark.pass c.mark⟩

/-- Passes the longest run of characters with a property, none of them a line break, and gives
    the run. -/
def takeWhile (c : Cursor) (p : Char → Bool) : List Char × Cursor :=
  let run := c.rest.takeWhile p
  (run, c.skip run.length)

/-- Passes a line break, if there is one. -/
def skipBreak (c : Cursor) : Cursor :=
  match c.rest with
  | '\r' :: '\n' :: rest => ⟨rest, (c.mark.pass '\r').nextLine '\n'⟩
  | b :: rest => if isBreak b then ⟨rest, c.mark.nextLine b⟩ else c
  | [] => c

/-- Passes blanks and a comment up to the end of the line; `none` if anything else stands
    there. -/
def skipToLineEnd? (c : Cursor) : Option Cursor :=
  let c := (c.takeWhile isBlank).2
  let c := match c.rest with
    | '#' :: _ => (c.takeWhile (!isBreak ·)).2
    | _ => c
  if endsLine c.rest then some c.skipBreak else none

end Cursor

/-- The line break that a break character is read as: all but the line and paragraph separators
    become line feeds. -/
def normalBreak (c : Char) : Char :=
  if c == '\u2028' || c == '\u2029' then c else '\n'

/-! ## Tokens -/

/-- How a scalar is written: plain, or in a way that makes it text whatever it holds. -/
inductive ScalarStyle where
  | plain
  | explicit
deriving DecidableEq

/-- A word of a YAML text. -/
inductive Token where
  | streamStart
  | streamEnd
  | version (major minor : Nat)
  | tagDirective (handle uri : List Char)
  | documentStart
  | documentEnd
  | blockSequenceStart
  | blockMappingStart
  | blockEnd
  | flowSequenceStart
  | flowSequenceEnd
  | flowMappingStart
  | flowMappingEnd
  | blockEntry
  | flowEntry
  | key
  | value
  | alias (name : List Char)
  | anchor (name : List Char)
  | tag (handle suffix : List Char)
  | scalar (style : ScalarStyle) (text : List Char)
deriving DecidableEq

end CallPolicy.Yaml
