import CallPolicy.Text.Digits

set_option autoImplicit false

/-! # Durations

A span of time in whole nanoseconds, and the way it is shown in log lines.

In a configuration a duration is written as terms, each a number and a unit: `1h 30m`, `500ms`,
`1m * 60`. Terms are added, with or without a `+`, or multiplied with `*`; a text uses one of the
two joiners throughout. A number without a unit counts seconds, and must be followed by a joiner or
the end. Values are whole nanoseconds below `2 ^ 64`; a text whose value or any part of it is larger
has no reading. A product is taken in seconds: the later terms are multiplied first, each product
cut to whole nanoseconds, and the first term last. -/

namespace CallPolicy

/-- A span of time. -/
structure Duration where
  nanos : Nat
deriving DecidableEq

namespace Duration

/-- A span of whole seconds. -/
def ofSeconds (n : Nat) : Duration := ⟨n * 1_000_000_000⟩

/-- Is the span zero? -/
def isZero (d : Duration) : Bool := d.nanos == 0

/-- `whole.fraction` and a unit, where the fraction has `places` digits less its trailing zeros,
    and no point if none is left. -/
def shownIn (whole fraction places : Nat) (unit : String) : String :=
  let ds := decimalDigits fraction
  let padded := List.replicate (places - ds.length) '0' ++ ds
  let shown := (padded.reverse.dropWhile (· == '0')).reverse
  let point := if shown.isEmpty then [] else ['.']
  String.ofList (decimalDigits whole ++ point ++ shown) ++ unit

/-- The span in the largest of the units s, ms, µs, ns that does not exceed it, as an exact
    decimal. -/
def display (d : Duration) : String :=
  if 1_000_000_000 ≤ d.nanos then shownIn (d.nanos / 1_000_000_000) (d.nanos % 1_000_000_000) 9 "s"
  else if 1_000_000 ≤ d.nanos then shownIn (d.nanos / 1_000_000) (d.nanos % 1_000_000) 6 "ms"
  else if 1_000 ≤ d.nanos then shownIn (d.nanos / 1_000) (d.nanos % 1_000) 3 "µs"
  else shownIn d.nanos 0 0 "ns"

/-! ## Durations written as text -/

/-- The bound that every number and every intermediate result stays under. -/
def wordLimit : Nat := Nat.pow 2 64

/-- Keeps a value only if it is below `wordLimit`. -/
def inWord? (n : Nat) : Option Nat :=
  if n < wordLimit then some n else none

/-! ### Units -/

/-- How many nanoseconds a unit has; the word is in lower case. -/
def unitNanos? (word : String) : Option Nat :=
  let second := 1_000_000_000
  let day := 86400 * second
  if ["y", "year", "years"].contains word then some (365 * day)
  else if ["mon", "month", "months"].contains word then some (30 * day)
  else if ["w", "week", "weeks"].contains word then some (7 * day)
  else if ["d", "day", "days"].contains word then some day
  else if ["h", "hr", "hour", "hours"].contains word then some (3600 * second)
  else if ["m", "min", "minute", "minutes"].contains word then some (60 * second)
  else if ["s", "sec", "second", "seconds"].contains word then some second
  else if ["ms", "msec", "millisecond", "milliseconds"].contains word then some 1_000_000
  else if ["µs", "µsec", "µsecond", "us", "usec", "usecond", "microsecond", "microseconds"].contains
      word then some 1_000
  else if ["ns", "nsec", "nanosecond", "nanoseconds"].contains word then some 1
  else none

/-- Letters of which unit words are made: ASCII letters and the micro sign. -/
def isUnitChar (c : Char) : Bool :=
  c.isAlpha || c == 'µ'

/-- The blanks between terms. -/
def isTermBlank (c : Char) : Bool :=
  c == ' ' || c == '\t' || c == '\r' || c == '\n'

/-! ### Terms -/

/-- How two terms are joined. -/
inductive Joiner where
  | plus
  | times
deriving DecidableEq

/-- Drops leading blanks. -/
def skipBlanks (cs : List Char) : List Char :=
  cs.dropWhile isTermBlank

/-- May a number stand without a unit before this text? -/
def endsBareNumber (rest : List Char) : Bool :=
  match skipBlanks rest with
  | [] => true
  | c :: _ => c == '+' || c == '*'

/-- Reads one term, giving its nanoseconds and what follows it. -/
def term? (cs : List Char) : Option (Nat × List Char) := do
  let digits := cs.takeWhile Char.isDigit
  let afterDigits := cs.dropWhile Char.isDigit
  if digits.isEmpty then none
  let count ← inWord? (decimalValue digits)
  let word := afterDigits.takeWhile isUnitChar
  let rest := afterDigits.dropWhile isUnitChar
  if word.isEmpty then
    if endsBareNumber rest then return (← inWord? (count * 1_000_000_000), rest) else none
  else
    let unit ← unitNanos? (String.ofList (word.map Char.toLower))
    return (← inWord? (count * unit), rest)

/-- Reads the joiner before a further term; none written means `+`. -/
def joiner (cs : List Char) : Joiner × List Char :=
  match cs with
  | '+' :: rest => (.plus, rest)
  | '*' :: rest => (.times, rest)
  | _ => (.plus, cs)

/-- Reads the further terms to the end of the text. Each takes at least one character, so fuel as
    long as the text is enough. -/
def furtherTerms? : Nat → List Char → Option (List (Joiner × Nat))
  | fuel, cs =>
    match skipBlanks cs with
    | [] => some []
    | rest => match fuel with
      | 0 => none
      | fuel + 1 => do
        let (j, rest) := joiner rest
        let (t, rest) ← term? (skipBlanks rest)
        let more ← furtherTerms? fuel rest
        return (j, t) :: more

/-! ### Values -/

/-- The sum of the terms, if it stays below the limit. -/
def sum? (first : Nat) (terms : List Nat) : Option Nat :=
  terms.foldlM (fun acc t => inWord? (acc + t)) first

/-- The product of the terms, read as seconds: the later terms first. -/
def product? (first : Nat) (terms : List Nat) : Option Nat := do
  let factor ← terms.foldlM (fun acc t => inWord? (acc * t / 1_000_000_000)) 1_000_000_000
  inWord? (first * factor / 1_000_000_000)

/-- The duration that a text denotes. -/
def ofText? (text : String) : Option Duration := do
  let cs := skipBlanks text.toList
  let (first, rest) ← term? cs
  let more ← furtherTerms? rest.length rest
  let terms := more.map (·.2)
  let nanos ← match more with
    | [] => some first
    | (j, _) :: _ =>
      if more.all (·.1 == j) then
        match j with
        | .plus => sum? first terms
        | .times => product? first terms
      else none
  return ⟨nanos⟩

end Duration

end CallPolicy
