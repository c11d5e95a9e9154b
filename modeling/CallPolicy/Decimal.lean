import CallPolicy.Text.Digits

set_option autoImplicit false

/-! # Decimals and double precision

A `Decimal` is `± digits * 10 ^ exponent`. `Decimal.round64?` replaces a decimal by the shortest
one that double precision (53 bits) cannot tell from it, which is how a number read as a double is
shown again. Everything is exact arithmetic on natural numbers. -/

namespace CallPolicy

/-- The number `± digits * 10 ^ exponent`. -/
structure Decimal where
  negative : Bool
  digits : Nat
  exponent : Int
deriving DecidableEq

/-- The number `mantissa * 2 ^ exponent` in double precision, without its sign. -/
structure Double where
  mantissa : Nat
  exponent : Int
deriving DecidableEq

namespace Decimal

/-! ## The nearest double -/

/-- `n / d` to the nearest natural number, a half to the even neighbour. -/
def divNearest (n d : Nat) : Nat :=
  let q := n / d
  let r := n % d
  if 2 * r < d then q
  else if 2 * r > d then q + 1
  else if q % 2 = 0 then q else q + 1

/-- `n / d * 2 ^ (-q)` as a fraction. -/
def scaled (n d : Nat) (q : Int) : Nat × Nat :=
  if 0 ≤ q then (n, d * Nat.pow 2 q.toNat) else (n * Nat.pow 2 (-q).toNat, d)

/-- The double nearest to `n / d`, with a mantissa below `2 ^ 53`; `none` beyond the largest
    double. -/
def nearestDouble? (n d : Nat) : Option Double :=
  let guess : Int := (Nat.log2 n : Int) - (Nat.log2 d : Int) - 52
  let fits (q : Int) : Bool := let (a, b) := scaled n d q; a / b < Nat.pow 2 53
  let q := if fits (guess - 1) then guess - 1 else if fits guess then guess else guess + 1
  let q := max q (-1074)
  let (a, b) := scaled n d q
  let m := divNearest a b
  let (m, q) := if m = Nat.pow 2 53 then (Nat.pow 2 52, q + 1) else (m, q)
  if 971 < q then none else some ⟨m, q⟩

/-! ## The shortest decimal of a double -/

/-- The number of decimal digits of `n`. -/
def width (n : Nat) : Nat := (decimalDigits n).length

/-- `digits * 10 ^ e` as a fraction. -/
def asFraction (digits : Nat) (e : Int) : Nat × Nat :=
  if 0 ≤ e then (digits * Nat.pow 10 e.toNat, 1) else (digits, Nat.pow 10 (-e).toNat)

/-- Four times `m * 2 ^ q`, and four times the two ends of the interval of numbers that round to
    it, over a common denominator. Below a power of two the lower half of the gap is narrower. -/
def interval (m : Nat) (q : Int) : (Nat × Nat × Nat) × Nat :=
  let low := if m = Nat.pow 2 52 && -1074 < q then 4 * m - 1 else 4 * m - 2
  let up := 4 * m + 2
  if 0 ≤ q then
    let p := Nat.pow 2 q.toNat
    ((low * p, 4 * m * p, up * p), 4)
  else ((low, 4 * m, up), 4 * Nat.pow 2 (-q).toNat)

/-- The decimal with spacing `10 ^ e` nearest to the double `m * 2 ^ q` among its two neighbours
    there, if it rounds to that double. Of two equally near ones it is the even one. -/
def onGrid? (m : Nat) (q : Int) (e : Int) : Option Nat :=
  let ((low, mid, up), den) := interval m q
  -- compare `k * 10 ^ e` with `x / den` by cross multiplication
  let (gn, gd) := asFraction 1 e
  let point (k : Nat) : Nat := k * gn * den
  let inside (k : Nat) : Bool :=
    if m % 2 = 0 then low * gd ≤ point k && point k ≤ up * gd
    else low * gd < point k && point k < up * gd
  let below := mid * gd / (gn * den)
  let target := mid * gd
  match inside below && below != 0, inside (below + 1) with
  | true, true =>
    let back := target - point below
    let ahead := point (below + 1) - target
    if back < ahead ∨ (back = ahead ∧ below % 2 = 0) then some below else some (below + 1)
  | true, false => some below
  | false, true => some (below + 1)
  | false, false => none

/-- The first grid, from coarse to fine, that holds a decimal of the double. -/
def firstGrid (m : Nat) (q : Int) (e : Int) : Nat → Nat × Int
  | 0 => ((onGrid? m q e).getD 0, e)
  | fuel + 1 => match onGrid? m q e with
    | some k => (k, e)
    | none => firstGrid m q (e - 1) fuel

/-- The shortest decimal that reads back as the double `m * 2 ^ q`; seventeen digits are always
    enough. -/
def shortest (m : Nat) (q : Int) : Nat × Int :=
  let ((_, mid, _), den) := interval m q
  let top : Int := (width mid : Int) - (width den : Int) + 1
  firstGrid m q top 20

/-- Divides out trailing zeros. -/
def trim : Nat → Nat → Int → Nat × Int
  | 0, digits, e => (digits, e)
  | fuel + 1, digits, e =>
    if digits % 10 = 0 && digits != 0 then trim fuel (digits / 10) (e + 1) else (digits, e)

/-- The shortest decimal that reads back as a double with a sign, without trailing zeros. -/
def ofDouble (negative : Bool) (x : Double) : Decimal :=
  if x.mantissa = 0 then ⟨negative, 0, 0⟩
  else
    let (digits, e) := shortest x.mantissa x.exponent
    let (digits, e) := trim 20 digits e
    ⟨negative, digits, e⟩

/-- The shortest decimal that is read as the same double; `none` beyond the largest double. A
    number too small for any double is zero. -/
def round64? (x : Decimal) : Option Decimal :=
  let magnitude : Int := width x.digits + x.exponent
  if x.digits = 0 ∨ magnitude < -330 then some ⟨x.negative, 0, 0⟩
  else if 311 < magnitude then none
  else
    let (n, d) := asFraction x.digits x.exponent
    (nearestDouble? n d).map (ofDouble x.negative)

/-! ## Writing decimals -/

/-- The digits with the point put behind the first `point` of them; zeros fill the gaps, and a
    whole number ends in `.0`. -/
def positional (ds : List Char) (point : Int) : List Char :=
  if point ≤ 0 then ['0', '.'] ++ List.replicate (-point).toNat '0' ++ ds
  else if ds.length ≤ point.toNat then
    ds ++ List.replicate (point.toNat - ds.length) '0' ++ ['.', '0']
  else ds.take point.toNat ++ ['.'] ++ ds.drop point.toNat

/-- The sign, if there is one. -/
def signed (x : Decimal) (cs : List Char) : String :=
  String.ofList (if x.negative then '-' :: cs else cs)

/-- Where the decimal point stands among the digits. -/
def point (x : Decimal) : Int := width x.digits + x.exponent

/-- The number written out in full. -/
def full (x : Decimal) : String :=
  if x.digits = 0 then x.signed ['0', '.', '0']
  else x.signed (positional (decimalDigits x.digits) x.point)

/-- The number written out from `10 ^ -5` up to `10 ^ 16`, and beyond with an exponent that shows
    its sign. -/
def compact (x : Decimal) : String :=
  if x.digits = 0 ∨ (-5 < x.point ∧ x.point ≤ 16) then x.full
  else
    let e := x.point - 1
    let exponent := 'e' :: (if e < 0 then '-' else '+') :: decimalDigits e.natAbs
    match decimalDigits x.digits with
    | [] => x.full
    | [d] => x.signed (d :: exponent)
    | d :: ds => x.signed ([d, '.'] ++ ds ++ exponent)

end Decimal

end CallPolicy
