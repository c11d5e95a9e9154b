import CallPolicy.Yaml.Scalar

set_option autoImplicit false

/-! # From text to tokens

`scanTokens` cuts a YAML text into tokens. Block structure follows the indentation: a deeper
column opens a collection, a shallower one closes it. A key of a block mapping is recognised only
at the `:` behind it, so every place where one could begin is remembered, and the tokens that open
the mapping and mark the key are put in there afterwards. Such a key must lie on one line and take
at most 1024 bytes.

A text that is not well formed gives the tokens up to the first one whose meaning is open. -/

namespace CallPolicy.Yaml

/-- A place where a key without indicator may begin. -/
structure KeyPlace where
  /-- The number of the token that would begin the key. -/
  number : Nat
  mark : Mark
  /-- The text is malformed if no `:` follows. -/
  required : Bool

/-- The state of the scanner. -/
structure Scan where
  next : Cursor
  /-- The tokens so far, the last one first, and how many they are. -/
  done : List Token := []
  count : Nat := 0
  /-- The place of a possible key at this level. -/
  place : Option KeyPlace := none
  /-- The places at the levels around the open flow collections. -/
  outer : List (Option KeyPlace) := []
  /-- The column of the open block collection, `-1` outside all. -/
  indent : Int := -1
  /-- The columns of the collections around it. -/
  indents : List Int := []
  /-- May a key begin here? -/
  keyAllowed : Bool := true

namespace Scan

/-! ## Small steps -/

/-- Is the scanner inside a flow collection? -/
def inFlow (s : Scan) : Bool := !s.outer.isEmpty

/-- Adds a token. -/
def push (s : Scan) (t : Token) : Scan :=
  { s with done := t :: s.done, count := s.count + 1 }

/-- Puts tokens before the token of that number. -/
def insertAt (s : Scan) (number : Nat) (ts : List Token) : Scan :=
  let k := s.count - number
  { s with
    done := s.done.take k ++ ts.reverse ++ s.done.drop k
    count := s.count + ts.length }

/-- Passes blanks, comments and line breaks up to the next token. Tabs count as blanks only where
    no key may begin; a line break lets a key begin, except inside flow collections. One byte order
    mark at the beginning of a line is passed like a blank. -/
def gapEnd (inFlow keyAllowed inComment : Bool) (mark : Mark) : List Char → Bool × Cursor
  | [] => (keyAllowed, ⟨[], mark⟩)
  | '\r' :: '\n' :: rest =>
    gapEnd inFlow (keyAllowed || !inFlow) false ((mark.pass '\r').nextLine '\n') rest
  | c :: rest =>
    if isBreak c then gapEnd inFlow (keyAllowed || !inFlow) false (mark.nextLine c) rest
    else if inComment || c == '#' then gapEnd inFlow keyAllowed true (mark.pass c) rest
    else if c == ' ' || (c == '\t' && (inFlow || !keyAllowed)) ||
        (c == '\ufeff' && mark.column == 0) then
      gapEnd inFlow keyAllowed false (mark.pass c) rest
    else (keyAllowed, ⟨c :: rest, mark⟩)

/-- Can a key that began at the place still be completed here? -/
def KeyPlace.isFresh (k : KeyPlace) (mark : Mark) : Bool :=
  mark.line ≤ k.mark.line && mark.index ≤ k.mark.index + 1024

/-- Gives up a place that lies too far back. -/
def refreshPlace (mark : Mark) : Option KeyPlace → Option (Option KeyPlace)
  | none => some none
  | some k =>
    if KeyPlace.isFresh k mark then some (some k)
    else if k.required then none
    else some none

/-- Gives up all places that lie too far back. -/
def refresh? (s : Scan) : Option Scan := do
  let place ← refreshPlace s.next.mark s.place
  let outer ← s.outer.mapM (refreshPlace s.next.mark)
  return { s with place, outer }

/-- Gives up the place at this level. -/
def forgetPlace? (s : Scan) : Option Scan :=
  match s.place with
  | some k => if k.required then none else some { s with place := none }
  | none => some s

/-- Remembers this place, if a key may begin here. -/
def markPlace? (s : Scan) : Option Scan :=
  if s.keyAllowed then do
    let column : Int := s.next.mark.column
    let required := !s.inFlow && s.indent == column
    let s ← s.forgetPlace?
    return { s with place := some ⟨s.count, s.next.mark, required⟩ }
  else some s

/-- Closes the block collections deeper than a column. -/
def closeBlocks (column : Int) : List Int → Int → List Token → Nat →
    List Int × Int × List Token × Nat
  | [], indent, done, count =>
    if column < indent then ([], -1, .blockEnd :: done, count + 1) else ([], indent, done, count)
  | outer :: indents, indent, done, count =>
    if column < indent then closeBlocks column indents outer (.blockEnd :: done) (count + 1)
    else (outer :: indents, indent, done, count)

/-- Closes the block collections deeper than a column; inside flow collections there are none to
    close. -/
def unroll (s : Scan) (column : Int) : Scan :=
  if s.inFlow then s
  else
    let (indents, indent, done, count) := closeBlocks column s.indents s.indent s.done s.count
    { s with indents, indent, done, count }

/-- Opens a block collection at a column deeper than the open one, with its token put before the
    token of a number. -/
def rollAt (s : Scan) (column number : Nat) (t : Token) : Scan :=
  if s.inFlow || column ≤ s.indent then s
  else { s.insertAt number [t] with indents := s.indent :: s.indents, indent := column }

/-- Opens a block collection here. -/
def roll (s : Scan) (t : Token) : Scan :=
  s.rollAt s.next.mark.column s.count t

/-- Passes `n` characters and adds a token. -/
def take (s : Scan) (n : Nat) (t : Token) : Scan :=
  { s with next := s.next.skip n }.push t

/-! ## Directives -/

/-- A number of at most nine digits. -/
def versionNumber? (c : Cursor) : Option (Nat × Cursor) :=
  let (ds, c) := c.takeWhile Char.isDigit
  if ds.isEmpty || 9 < ds.length then none else some (decimalValue ds, c)

/-- The value of a version directive. -/
def version? (c : Cursor) : Option (Token × Cursor) := do
  let (major, c) ← versionNumber? (c.takeWhile isBlank).2
  match c.rest with
  | '.' :: _ => do
    let (minor, c) ← versionNumber? (c.skip 1)
    return (.version major minor, c)
  | _ => none

/-- Characters of tags; the last group only in tags between angle brackets. -/
def isTagChar (verbatim : Bool) (c : Char) : Bool :=
  isWordChar c || ";/?:@&=+$.%!~*'()".toList.contains c ||
    (verbatim && (c == ',' || c == '[' || c == ']'))

/-- The length of a UTF-8 sequence that begins with this byte. -/
def sequenceLength? (b : Nat) : Option Nat :=
  if b < 0x80 then some 1
  else if 0xc0 ≤ b && b < 0xe0 then some 2
  else if 0xe0 ≤ b && b < 0xf0 then some 3
  else if 0xf0 ≤ b && b < 0xf8 then some 4
  else none

/-- Decodes the `%` escapes of a tag, one character for each byte. The bytes of one character must
    follow one another; `owed` of them are still to come. -/
def decodeTag? (owed : Nat) : List Char → Option (List Char)
  | [] => if owed = 0 then some [] else none
  | '%' :: a :: b :: rest => do
    let byte := 16 * (← hexDigitValue? a) + (← hexDigitValue? b)
    let owed ← if owed = 0 then (sequenceLength? byte).map (· - 1)
      else if 0x80 ≤ byte && byte < 0xc0 then some (owed - 1) else none
    return Char.ofNat byte :: (← decodeTag? owed rest)
  | c :: rest => if owed = 0 && c != '%' then (c :: ·) <$> decodeTag? 0 rest else none

/-- The longest run of tag characters here, decoded, and whether it is one at all. What stands
    behind a zero byte does not count. -/
def tagText? (verbatim : Bool) (c : Cursor) : Option (List Char × Bool × Cursor) := do
  let (run, c) := c.takeWhile (isTagChar verbatim)
  return ((← decodeTag? 0 run).takeWhile (· != '\x00'), !run.isEmpty, c)

/-- Such a run that may not be left out. -/
def someTagText? (verbatim : Bool) (c : Cursor) : Option (List Char × Cursor) := do
  let (text, written, c) ← tagText? verbatim c
  if written then some (text, c) else none

/-- A tag handle: `!`, a name and another `!`, or less of it. -/
def tagHandle? (c : Cursor) : Option (List Char × Cursor) :=
  match c.rest with
  | '!' :: _ =>
    let (name, c) := (c.skip 1).takeWhile isWordChar
    match c.rest with
    | '!' :: _ => some ('!' :: name ++ ['!'], c.skip 1)
    | _ => some ('!' :: name, c)
  | _ => none

/-- The value of a tag directive. -/
def tagDirective? (c : Cursor) : Option (Token × Cursor) := do
  let (handle, c) ← tagHandle? (c.takeWhile isBlank).2
  let closed := handle == ['!'] || (2 ≤ handle.length && handle.getLast? == some '!')
  if !closed || (c.rest.head?.map isBlank != some true) then none
  let (uri, c) ← someTagText? true (c.takeWhile isBlank).2
  if !endsWord c.rest then none
  return (.tagDirective handle uri, c)

/-- A directive at its `%`. -/
def directive? (c : Cursor) : Option (Token × Cursor) := do
  let (name, c) := (c.skip 1).takeWhile isWordChar
  if !endsWord c.rest then none
  let (t, c) ← if name = "YAML".toList then version? c
    else if name = "TAG".toList then tagDirective? c
    else none
  return (t, ← c.skipToLineEnd?)

/-! ## Properties of nodes -/

/-- An anchor or alias at its indicator. -/
def anchorName? (c : Cursor) : Option (List Char × Cursor) :=
  let (name, c) := (c.skip 1).takeWhile isWordChar
  let ended := match c.rest with
    | [] => true
    | d :: _ => isBlank d || isBreak d || "?:,]\x7d%@\x60".toList.contains d
  if name.isEmpty || !ended then none else some (name, c)

/-- A tag between angle brackets, or a handle and a suffix, or the suffix of the handle `!`. The
    tag `!` alone has no handle. -/
def tag? (inFlow : Bool) (c : Cursor) : Option (Token × Cursor) := do
  let (t, c) ← match c.rest with
    | _ :: '<' :: _ => do
      let (uri, c) ← someTagText? true (c.skip 2)
      match c.rest with
      | '>' :: _ => some (Token.tag [] uri, c.skip 1)
      | _ => none
    | _ => do
      let (handle, c) ← tagHandle? c
      if 2 ≤ handle.length && handle.getLast? == some '!' then do
        let (suffix, c) ← someTagText? false c
        some (Token.tag handle suffix, c)
      else do
        let (more, _, c) ← tagText? false c
        let suffix := handle.drop 1 ++ more
        if suffix.isEmpty then some (Token.tag [] ['!'], c) else some (Token.tag ['!'] suffix, c)
  if endsWord c.rest || (inFlow && c.rest.head? == some ',') then some (t, c) else none

/-! ## One token -/

/-- Ends everything at the end of the text. -/
def fetchEnd? (s : Scan) : Option Scan := do
  let s ← (s.unroll (-1)).forgetPlace?
  return { s with keyAllowed := false }.push .streamEnd

/-- Ends the blocks before a directive or a marker between documents. -/
def leaveDocument? (s : Scan) : Option Scan := do
  let s ← (s.unroll (-1)).forgetPlace?
  return { s with keyAllowed := false }

/-- Opens a flow collection. -/
def openFlow? (s : Scan) (t : Token) : Option Scan := do
  let s ← s.markPlace?
  return { s with outer := s.place :: s.outer, place := none, keyAllowed := true }.take 1 t

/-- Closes a flow collection. -/
def closeFlow? (s : Scan) (t : Token) : Option Scan := do
  let s ← s.forgetPlace?
  let s := match s.outer with
    | place :: outer => { s with place, outer }
    | [] => s
  return { s with keyAllowed := false }.take 1 t

/-- The `,` of a flow collection. -/
def flowEntry? (s : Scan) : Option Scan := do
  let s ← s.forgetPlace?
  return { s with keyAllowed := true }.take 1 .flowEntry

/-- The `-` of a block sequence. -/
def blockEntry? (s : Scan) : Option Scan := do
  if !s.inFlow && !s.keyAllowed then none
  let s ← (s.roll .blockSequenceStart).forgetPlace?
  return { s with keyAllowed := true }.take 1 .blockEntry

/-- The `?` before a key. -/
def keyIndicator? (s : Scan) : Option Scan := do
  if !s.inFlow && !s.keyAllowed then none
  let s ← (s.roll .blockMappingStart).forgetPlace?
  return { s with keyAllowed := !s.inFlow }.take 1 .key

/-- The `:` behind a key: if one may have begun at the remembered place it did. -/
def valueIndicator? (s : Scan) : Option Scan :=
  match s.place with
  | some k =>
    let s := (s.insertAt k.number [.key]).rollAt k.mark.column k.number .blockMappingStart
    some ({ s with place := none, keyAllowed := false }.take 1 .value)
  | none => do
    if !s.inFlow && !s.keyAllowed then none
    let s := s.roll .blockMappingStart
    return { s with keyAllowed := !s.inFlow }.take 1 .value

/-- A node property or scalar that may begin a key. -/
def fetchNode? (s : Scan) (read : Cursor → Option (Token × Cursor)) : Option Scan := do
  let s ← s.markPlace?
  let (t, next) ← read s.next
  return { s with next, keyAllowed := false }.push t

/-- A quoted scalar. -/
def fetchQuoted? (s : Scan) (single : Bool) : Option Scan :=
  s.fetchNode? fun c => do
    let r ← quotedScalar? single c
    return (.scalar .explicit r.text, r.next)

/-- A plain scalar; a line break behind it lets a key begin. -/
def fetchPlain? (s : Scan) : Option Scan := do
  let s ← s.markPlace?
  let r ← plainScalar? ⟨s.inFlow, s.indent + 1⟩ s.next
  return { s with next := r.next, keyAllowed := r.broken }.push (.scalar .plain r.text)

/-- A block scalar. -/
def fetchBlock? (s : Scan) (literal : Bool) : Option Scan := do
  let s ← s.forgetPlace?
  let r ← blockScalar? literal s.indent s.next
  return { s with next := r.next, keyAllowed := true }.push (.scalar .explicit r.text)

/-- Characters that a plain scalar cannot begin with. -/
def isIndicator (c : Char) : Bool :=
  "-?:,[]\x7b\x7d#&*!|>\x27\x22%@\x60".toList.contains c

/-- May a plain scalar begin here? -/
def beginsPlain (inFlow : Bool) (c : Char) (rest : List Char) : Bool :=
  !(isIndicator c || isBlank c) ||
    (c == '-' && (rest.head?.map isBlank != some true)) ||
    (!inFlow && (c == '?' || c == ':') && !endsWord rest)

/-- Adds the token that begins here, behind the gap. -/
def fetchHere? (s : Scan) : Option Scan :=
  match s.next.rest with
  | [] => s.fetchEnd?
  | c :: rest =>
    let atMargin := s.next.mark.column == 0
    if atMargin && c == '%' then do
      let s ← s.leaveDocument?
      let (t, next) ← directive? s.next
      return { s with next }.push t
    else if atMargin && atDocumentMarker (c :: rest) then do
      let s ← s.leaveDocument?
      return s.take 3 (if c == '-' then .documentStart else .documentEnd)
    else if c == '[' then s.openFlow? .flowSequenceStart
    else if c == '\x7b' then s.openFlow? .flowMappingStart
    else if c == ']' then s.closeFlow? .flowSequenceEnd
    else if c == '\x7d' then s.closeFlow? .flowMappingEnd
    else if c == ',' then s.flowEntry?
    else if c == '-' && endsWord rest then s.blockEntry?
    else if c == '?' && (s.inFlow || endsWord rest) then s.keyIndicator?
    else if c == ':' && (s.inFlow || endsWord rest) then s.valueIndicator?
    else if c == '*' then s.fetchNode? fun c => do
      let (name, next) ← anchorName? c
      return (.alias name, next)
    else if c == '&' then s.fetchNode? fun c => do
      let (name, next) ← anchorName? c
      return (.anchor name, next)
    else if c == '!' then s.fetchNode? (tag? s.inFlow)
    else if c == '|' && !s.inFlow then s.fetchBlock? true
    else if c == '>' && !s.inFlow then s.fetchBlock? false
    else if c == '\x27' then s.fetchQuoted? true
    else if c == '\x22' then s.fetchQuoted? false
    else if beginsPlain s.inFlow c rest then s.fetchPlain?
    else none

/-- Passes the gap and adds the next token. -/
def fetch? (s : Scan) : Option Scan := do
  let (keyAllowed, next) := gapEnd s.inFlow s.keyAllowed false s.next.mark s.next.rest
  let s ← { s with keyAllowed, next }.refresh?
  (s.unroll s.next.mark.column).fetchHere?

/-! ## All tokens -/

/-- The number of the first token whose meaning may still change: the earliest place where a key
    may have begun. -/
def settled (s : Scan) : Nat :=
  (s.place :: s.outer).foldl (fun n place => min n ((place.map (·.number)).getD n)) s.count

/-- The tokens whose meaning is settled. -/
def settledTokens (s : Scan) : List Token :=
  s.done.reverse.take s.settled

/-- Reads on to the end of the text, or to where it is not well formed. A token counts only once
    the place where a key may have begun is known to be sound, so a fault found then takes back all
    that the last step added. Of a text that is not `whole` the end must not be reached. Every
    token takes a character or ends the text, so fuel as long as the text is enough. -/
def run (whole : Bool) : Nat → Scan → List Token × Bool
  | 0, s => (s.settledTokens, false)
  | fuel + 1, s =>
    match s.fetch? with
    | none => (s.settledTokens, false)
    | some next =>
      if !whole && next.next.rest.isEmpty then (s.settledTokens, false)
      else match next.done with
        | .streamEnd :: _ => (next.done.reverse, true)
        | _ => match next.refresh? with
          | none => (s.settledTokens, false)
          | some next => run whole fuel next

end Scan

/-- How many bytes of a text are looked at together. -/
def blockSize : Nat := 16384

/-- The blocks of a text before the one that holds the first character YAML does not allow, in
    reverse behind `done`. A block is as many whole characters as fit; `block` and `size` are what
    the present one holds so far. -/
def blocksBeforeFault (done block : List Char) (size : Nat) : List Char → List Char
  | [] => block ++ done
  | c :: rest =>
    let (done, block, size) :=
      if size + c.utf8Size ≤ blockSize then (done, block, size) else (block ++ done, [], 0)
    if isAllowed c then blocksBeforeFault done (c :: block) (size + c.utf8Size) rest else done

/-- The tokens of a text, and whether they are all of it. A character that YAML does not allow
    spoils the block that it stands in and all that follows. -/
def scanTokens (text : String) : List Token × Bool :=
  let cs := text.toList
  let whole := cs.all isAllowed
  let cs := if whole then cs else (blocksBeforeFault [] [] 0 cs).reverse
  Scan.run whole (cs.length + 2) (({ next := ⟨cs, {}⟩ } : Scan).push .streamStart)

end CallPolicy.Yaml
