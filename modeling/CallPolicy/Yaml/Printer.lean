import CallPolicy.Json.Number
import CallPolicy.Yaml.Resolve

set_option autoImplicit false

/-! # Writing YAML

`Yaml.render` writes a value as a YAML document in block style: two spaces of indentation, and
sequences in the column of the key that holds them. Text is written in the plainest style that
reads back as the same text; `Style.ofText` chooses the style. -/

namespace CallPolicy.Yaml

/-! ## Choosing a style -/

/-- The ways to write text. -/
inductive Style where
  | plain
  | singleQuoted
  | doubleQuoted
  /-- A block of lines after `|`. -/
  | literal
deriving DecidableEq

/-- Characters that are written as they are outside double quotes. The tab, the carriage return
    and the byte order mark are not among them. -/
def isShown (c : Char) : Bool :=
  let n := c.toNat
  n == 0x0a || (0x20 ≤ n && n ≤ 0x7e) ||
    (0xa0 ≤ n && n ≤ 0xfffd && n != 0xfeff) || 0x10000 ≤ n

/-- Does a character of one kind stand right in front of one of another kind? -/
def meets (p q : Char → Bool) : List Char → Bool
  | c :: d :: rest => (p c && q d) || meets p q (d :: rest)
  | _ => false

/-- Does the text begin like something other than a plain scalar? -/
def beginsWithMark : List Char → Bool
  | [] => false
  | '-' :: '-' :: '-' :: _ | '.' :: '.' :: '.' :: _ => true
  | c :: rest =>
    "#,[]\x7b\x7d&*!|>'\x22%@\x60".toList.contains c ||
      ("?:-".toList.contains c && endsWord rest)

/-- Does a plain scalar end inside the text: at a colon behind a word, or at a number sign in
    front of one? -/
def holdsMark (afterBlank : Bool) : List Char → Bool
  | [] => false
  | c :: rest =>
    (c == ':' && endsWord rest) || (c == '#' && afterBlank) ||
      holdsMark (isBlank c || isBreak c) rest

/-- Is the text written as a plain scalar read back as that text? -/
def isPlainText (cs : List Char) : Bool :=
  let isText := match resolve cs with
    | .string _ => !isZeroPadded cs
    | _ => false
  isText && !cs.any isBreak && cs.head? != some ' ' && cs.getLast? != some ' ' &&
    !beginsWithMark cs && !holdsMark true cs

/-- The style for a text. Spaces at the end of a line and characters that are not shown need
    escapes; line feeds make a block. -/
def Style.ofText (cs : List Char) : Style :=
  if cs.any (!isShown ·) || meets (· == ' ') isBreak cs then .doubleQuoted
  else if cs.contains '\n' then
    if cs.getLast? == some ' ' then .doubleQuoted else .literal
  else if meets isBreak (· == ' ') cs then .doubleQuoted
  else if isPlainText cs then .plain
  else .singleQuoted

/-! ## Writing scalars -/

/-- Puts indentation in front of every line that holds something. The first line counts as begun
    already unless `fresh` is set. -/
def indentLines (indent : Nat) (fresh : Bool) : List Char → List Char
  | [] => []
  | c :: rest =>
    if isBreak c then c :: indentLines indent true rest
    else (if fresh then List.replicate indent ' ' else []) ++ c :: indentLines indent false rest

/-- The letters that stand for characters behind a backslash. -/
def shortEscapes : List (Char × Char) :=
  [('\x00', '0'), ('\x07', 'a'), ('\x08', 'b'), ('\t', 't'), ('\n', 'n'), ('\x0b', 'v'),
    ('\x0c', 'f'), ('\r', 'r'), ('\x1b', 'e'), ('\x22', '\x22'), ('\\', '\\'), ('\u0085', 'N'),
    ('\u2028', 'L'), ('\u2029', 'P')]

/-- A character between double quotes. -/
def escaped (c : Char) : List Char :=
  match shortEscapes.lookup c with
  | some letter => ['\\', letter]
  | none =>
    if isShown c then [c]
    else
      let n := c.toNat
      if n ≤ 0xff then '\\' :: 'x' :: hexDigits 2 n true
      else if n ≤ 0xffff then '\\' :: 'u' :: hexDigits 4 n true
      else '\\' :: 'U' :: hexDigits 8 n true

/-- A character between single quotes. -/
def doubled (c : Char) : List Char :=
  if c = '\'' then [c, c] else [c]

/-- The line above a literal block. A digit gives the indentation where the text does not show it,
    and a sign says what becomes of the line breaks at the end. -/
def literalHeader (cs : List Char) : List Char :=
  let hint := match cs with
    | c :: _ => if c == ' ' || isBreak c then ['2'] else []
    | [] => []
  let ending := match cs.reverse with
    | [] => ['-']
    | c :: rest =>
      if !isBreak c then ['-']
      else match rest with
        | [] => ['+']
        | d :: _ => if isBreak d then ['+'] else []
  '|' :: hint ++ ending ++ ['\n']

/-- The text as a scalar whose further lines are indented. -/
def scalarText (indent : Nat) (cs : List Char) : List Char :=
  match Style.ofText cs with
  | .plain => cs
  | .singleQuoted => '\'' :: indentLines indent false (cs.flatMap doubled ++ ['\''])
  | .doubleQuoted => '\x22' :: cs.flatMap escaped ++ ['\x22']
  | .literal => literalHeader cs ++ indentLines indent true cs

/-- Ends the line, unless it is ended already. -/
def endLine (cs : List Char) : List Char :=
  if cs.getLast?.any isBreak then cs else cs ++ ['\n']

/-- A value without parts. -/
def leafText (indent : Nat) : Json → List Char
  | .null => "null".toList
  | .bool b => (toString b).toList
  | .int n => (toString n).toList
  | .real x => x.full.toList
  | .string s => scalarText indent s.toList
  | .array _ => "[]".toList
  | .object _ => "\x7b\x7d".toList

/-! ## Writing collections -/

mutual

/-- What stands behind the colon of a key. -/
def afterKey (indent : Nat) : Json → List Char
  | .array (v :: rest) =>
    '\n' :: List.replicate indent ' ' ++ itemsText indent (v :: rest)
  | .object (m :: rest) =>
    '\n' :: List.replicate (indent + 2) ' ' ++ membersText (indent + 2) (m :: rest)
  | v => ' ' :: endLine (leafText (indent + 2) v)

/-- What stands behind the dash of an item. -/
def afterDash (indent : Nat) : Json → List Char
  | .array (v :: rest) => ' ' :: itemsText (indent + 2) (v :: rest)
  | .object (m :: rest) => ' ' :: membersText (indent + 2) (m :: rest)
  | v => ' ' :: endLine (leafText (indent + 2) v)

/-- The items of a sequence. The first stands where the text goes on. -/
def itemsText (indent : Nat) : List Json → List Char
  | [] => []
  | [v] => '-' :: afterDash indent v
  | v :: rest =>
    '-' :: afterDash indent v ++ List.replicate indent ' ' ++ itemsText indent rest

/-- The members of a mapping, whose keys are plain words. -/
def membersText (indent : Nat) : List (String × Json) → List Char
  | [] => []
  | [(k, v)] => k.toList ++ ':' :: afterKey indent v
  | (k, v) :: rest =>
    k.toList ++ ':' :: afterKey indent v ++ List.replicate indent ' ' ++ membersText indent rest

end

/-- The value as a YAML document. -/
def render (v : Json) : String :=
  String.ofList (match v with
    | .array (v :: rest) => itemsText 0 (v :: rest)
    | .object (m :: rest) => membersText 0 (m :: rest)
    | v => endLine (leafText 2 v))

end CallPolicy.Yaml
