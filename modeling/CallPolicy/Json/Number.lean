import CallPolicy.Decimal
import CallPolicy.Text.Digits

set_option autoImplicit false

/-! # JSON values and their numbers

An object is a list of members in order. A number is an integer or a double.

`Json.ofNumber?` gives the value of a written number. Without fraction and exponent it is an
integer if 64 bits hold it, and every other number is a double. The double is found in steps that
are rounded one by one, so it is not always the nearest one: the leading digits that fit 64 bits
are taken as a whole number, which a power of ten then multiplies or divides. -/

namespace CallPolicy

/-- A JSON value. -/
inductive Json where
  | null
  | bool (value : Bool)
  /-- An integer from `-2 ^ 63` to `2 ^ 64 - 1`. -/
  | int (value : Int)
  /-- Any other number, as the shortest decimal of its double. -/
  | real (value : Decimal)
  | string (value : String)
  | array (items : List Json)
  | object (members : List (String × Json))
deriving Inhabited

namespace Json

/-- A list of strings. -/
def strings (l : List String) : Json :=
  .array (l.map .string)

end Json

/-! ## Written numbers -/

/-- A number as it is written. -/
structure NumberText where
  negative : Bool
  /-- The digits before the point. -/
  whole : List Char
  /-- The digits behind the point, if there is one. -/
  fraction : Option (List Char) := none
  exponent : Option Int := none

/-! ### Arithmetic on doubles, rounded -/

namespace Double

/-- The double nearest to `m * 2 ^ q / d`; `none` beyond the largest double. -/
def round? (m : Nat) (q : Int) (d : Nat) : Option Double :=
  let (n, d) := if 0 ≤ q then (m * Nat.pow 2 q.toNat, d) else (m, d * Nat.pow 2 (-q).toNat)
  Decimal.nearestDouble? n d

/-- The product of two doubles. -/
def times? (x y : Double) : Option Double :=
  round? (x.mantissa * y.mantissa) (x.exponent + y.exponent) 1

/-- The quotient of two doubles, the second of them not zero. -/
def over? (x y : Double) : Option Double :=
  round? x.mantissa (x.exponent - y.exponent) y.mantissa

/-- The double nearest to `10 ^ e`. -/
def power? (e : Nat) : Option Double :=
  round? (Nat.pow 10 e) 0 1

/-- A double scaled by a power of ten. `10 ^ 308` is the last power that is a double, and a smaller
    result takes two quotients. -/
def scale? (x : Double) (e : Int) : Option Double := do
  if x.mantissa = 0 ∨ e < -616 then some ⟨0, 0⟩
  else if 308 < e then none
  else if 0 ≤ e then x.times? (← power? e.toNat)
  else if -308 ≤ e then x.over? (← power? (-e).toNat)
  else do
    let x ← x.over? (← power? 308)
    x.over? (← power? (-e - 308).toNat)

end Double

/-! ### Reading -/

/-- Appends digits to a number while it stays below `2 ^ 64`; the digits behind are left. -/
def appendDigits (n : Nat) : List Char → Nat × List Char
  | [] => (n, [])
  | d :: rest =>
    let next := 10 * n + decimalValue [d]
    if next < Nat.pow 2 64 then appendDigits next rest else (n, d :: rest)

namespace NumberText

/-- The integer that the number is, if it is one. Zero with a sign is none. -/
def integer? (t : NumberText) : Option Int :=
  let n := decimalValue t.whole
  if t.fraction.isSome ∨ t.exponent.isSome then none
  else if t.negative then (if 0 < n ∧ n ≤ Nat.pow 2 63 then some (-n) else none)
  else if n < Nat.pow 2 64 then some n
  else none

/-- The double that the number is taken for; `none` beyond the largest double. Digits that do not
    fit any more count as zeros before the point, and do not count behind it. -/
def double? (t : NumberText) : Option Double := do
  let (n, dropped) := appendDigits 0 t.whole
  let fraction := t.fraction.getD []
  let (n, ignored) := appendDigits n fraction
  let e : Int := dropped.length - (fraction.length - ignored.length : Nat) + t.exponent.getD 0
  (← Double.round? n 0 1).scale? e

end NumberText

/-- The value of a number; `none` beyond the largest double. -/
def Json.ofNumber? (t : NumberText) : Option Json :=
  match t.integer? with
  | some n => some (.int n)
  | none => t.double?.map fun x => .real (.ofDouble t.negative x)

end CallPolicy
