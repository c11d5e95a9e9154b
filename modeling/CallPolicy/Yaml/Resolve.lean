import CallPolicy.Decode.Error
import CallPolicy.Yaml.Scalar

set_option autoImplicit false

/-! # What plain scalars stand for

A plain scalar is null, a boolean, an integer, a floating point number, or else text. Integers may
be written in base 2, 8, 10 and 16 and have up to 128 bits; floating point numbers are finite in
double precision or one of the special forms. Digits behind a leading zero are text. -/

namespace CallPolicy.Yaml

/-! ## Words -/

/-- Is the scalar a spelling of null other than the empty one? -/
def isNull (cs : List Char) : Bool :=
  ["null", "Null", "NULL", "~"].contains (String.ofList cs)

/-- The boolean that the scalar spells. -/
def boolean? (cs : List Char) : Option Bool :=
  let word := String.ofList cs
  if ["true", "True", "TRUE"].contains word then some true
  else if ["false", "False", "FALSE"].contains word then some false
  else none

/-! ## Numbers -/

/-- Drops a plus sign. -/
def dropPlus : List Char → List Char
  | '+' :: rest => rest
  | cs => cs

/-- Does the text begin with a sign? -/
def isSigned : List Char → Bool
  | c :: _ => c == '+' || c == '-'
  | [] => false

/-- More than one digit, the first of them zero, behind an optional sign. -/
def isZeroPadded (cs : List Char) : Bool :=
  match (if isSigned cs then cs.drop 1 else cs) with
  | '0' :: rest => isDecimal rest
  | _ => false

/-- The base that a two-character mark announces. -/
def baseMark? : List Char → Option (Nat × List Char)
  | '0' :: 'x' :: rest => some (16, rest)
  | '0' :: 'o' :: rest => some (8, rest)
  | '0' :: 'b' :: rest => some (2, rest)
  | _ => none

/-- The value of an integer without sign, in any base. -/
def magnitude? (cs : List Char) : Option Nat :=
  match baseMark? cs with
  | some (base, ds) => digitsValue? base ds
  | none => if isZeroPadded cs then none else digitsValue? 10 cs

/-- The integer that the scalar spells, with the width that it takes. -/
def integer? (cs : List Char) : Option (Int × IntegerWidth) :=
  match cs with
  | '-' :: rest => do
    let n ← magnitude? rest
    if n ≤ Nat.pow 2 63 then return (-n, .word)
    else if n ≤ Nat.pow 2 127 then return (-n, .wideSigned)
    else none
  | _ => do
    let n ← magnitude? (dropPlus cs)
    if n < Nat.pow 2 64 then return (n, .word)
    else if n < Nat.pow 2 128 then return (n, .wide)
    else none

/-- The exponent of a floating point number, behind its `e`. -/
def exponent? (cs : List Char) : Option Int :=
  match cs with
  | '-' :: ds => (digitsValue? 10 ds).map fun n => -(n : Int)
  | _ => (digitsValue? 10 (dropPlus cs)).map fun n => (n : Int)

/-- A decimal number without sign: digits with at most one point among them, and an optional
    exponent. -/
def unsignedDecimal? (negative : Bool) (cs : List Char) : Option Decimal := do
  let whole := cs.takeWhile Char.isDigit
  let rest := cs.dropWhile Char.isDigit
  let (fraction, rest) := match rest with
    | '.' :: rest => (rest.takeWhile Char.isDigit, rest.dropWhile Char.isDigit)
    | _ => ([], rest)
  let digits := whole ++ fraction
  if digits.isEmpty then none
  let exponent ← match rest with
    | [] => some 0
    | e :: rest => if e == 'e' || e == 'E' then exponent? rest else none
  return ⟨negative, decimalValue digits, exponent - fraction.length⟩

/-- The floating point number that the scalar spells. -/
def floating? (cs : List Char) : Option Found :=
  let word := String.ofList cs
  if [".inf", ".Inf", ".INF", "+.inf", "+.Inf", "+.INF"].contains word then some (.infinite false)
  else if ["-.inf", "-.Inf", "-.INF"].contains word then some (.infinite true)
  else if [".nan", ".NaN", ".NAN"].contains word then some .notANumber
  else do
    let x ← match cs with
      | '-' :: rest => unsignedDecimal? true rest
      | _ => unsignedDecimal? false (dropPlus cs)
    return .real (← x.round64?)

/-- What a plain scalar stands for. -/
def resolve (cs : List Char) : Found :=
  if cs.isEmpty || isNull cs then .null
  else match boolean? cs with
    | some b => .bool b
    | none => match integer? cs with
      | some (n, width) => .integer n width
      | none =>
        let text := Found.string (String.ofList cs)
        if isZeroPadded cs then text else (floating? cs).getD text

end CallPolicy.Yaml
