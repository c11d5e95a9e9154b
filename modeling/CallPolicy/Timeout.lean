import CallPolicy.Duration

set_option autoImplicit false

/-! # The timeout field of a call

A call carries its deadline as text: one to eight decimal digits and one unit letter, `H`, `M`,
`S`, `m`, `u` or `n` (hours to nanoseconds). `Timeout.encode` picks the finest unit in which the
span still fits eight digits, and rounds down; `Timeout.decode` reads such a text or says what is
wrong with it. -/

namespace CallPolicy

/-- Why a text is no timeout. -/
inductive TimeoutError where
  | empty
  /-- More digits than allowed. -/
  | tooLong (digits : Nat)
  /-- What stands before the last character is not a number; the whole text is kept. -/
  | invalidValue (text : String)
  /-- The last character names no unit. -/
  | invalidUnit (unit : Char)
deriving DecidableEq

/-- The wording of the error. -/
def TimeoutError.message : TimeoutError → String
  | .empty => "empty timeout value"
  | .tooLong digits => s!"timeout value has {digits} digits, at most 8 are allowed"
  | .invalidValue text => "invalid timeout value: " ++ text
  | .invalidUnit unit => "invalid timeout unit: " ++ String.singleton unit

namespace Timeout

/-- How many digits a timeout may have. -/
def maxDigits : Nat := 8

/-- The largest number that fits them. -/
def maxValue : Nat := 99999999

/-- The unit letters with their nanoseconds, finest first. -/
def units : List (Char × Nat) :=
  [('n', 1), ('u', 1_000), ('m', 1_000_000), ('S', 1_000_000_000), ('M', 60_000_000_000),
    ('H', 3_600_000_000_000)]

/-- The number and the unit letter that a duration is sent as: the finest unit that fits, and the
    longest timeout of all if none does. -/
def fitting (d : Duration) : Nat × Char :=
  match units.find? (fun u => d.nanos / u.2 ≤ maxValue) with
  | some (letter, nanos) => (d.nanos / nanos, letter)
  | none => (maxValue, 'H')

/-- The text that a duration is sent as. -/
def encode (d : Duration) : String :=
  let (count, letter) := fitting d
  String.ofList (decimalDigits count ++ [letter])

/-- The duration that a timeout text denotes. -/
def decode (text : String) : Except TimeoutError Duration :=
  match text.toList.reverse with
  | [] => .error .empty
  | letter :: revDigits =>
    let digits := revDigits.reverse
    if !isDecimal digits then .error (.invalidValue text)
    else if maxDigits < digits.length then .error (.tooLong digits.length)
    else match units.lookup letter with
      | none => .error (.invalidUnit letter)
      | some nanos => .ok ⟨decimalValue digits * nanos⟩

end Timeout

end CallPolicy
