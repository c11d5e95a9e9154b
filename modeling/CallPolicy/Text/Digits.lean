set_option autoImplicit false

/-! # Decimal and hexadecimal digits

Reading digits as numbers and writing numbers as digits. Only ASCII digits count. -/

namespace CallPolicy

/-- The number that a list of decimal digits denotes. -/
def decimalValue (ds : List Char) : Nat :=
  ds.foldl (fun n d => 10 * n + (d.toNat - '0'.toNat)) 0

/-- Is the text non-empty and made of decimal digits alone? -/
def isDecimal (cs : List Char) : Bool :=
  !cs.isEmpty && cs.all Char.isDigit

/-- The value of a hexadecimal digit of either case. -/
def hexDigitValue? (c : Char) : Option Nat :=
  if c.isDigit then some (c.toNat - '0'.toNat)
  else if 'a' ≤ c ∧ c ≤ 'f' then some (c.toNat - 'a'.toNat + 10)
  else if 'A' ≤ c ∧ c ≤ 'F' then some (c.toNat - 'A'.toNat + 10)
  else none

/-- The number that a text denotes in base 2 to 16; `none` if it is empty or holds anything but
    digits of that base. -/
def digitsValue? (base : Nat) (cs : List Char) : Option Nat :=
  if cs.isEmpty then none
  else cs.foldl (fun acc c => do
    let n ← acc
    let d ← hexDigitValue? c
    if d < base then some (base * n + d) else none) (some 0)

/-- The decimal digits of a number, without superfluous zeros. -/
def decimalDigits (n : Nat) : List Char :=
  Nat.toDigits 10 n

@[simp] theorem decimalValue_decimalDigits (n : Nat) : decimalValue (decimalDigits n) = n :=
  Nat.ofDigitChars_toDigits (by decide) (by decide)

theorem decimalDigits_ne_nil (n : Nat) : decimalDigits n ≠ [] :=
  Nat.toDigits_ne_nil

theorem isDigit_of_mem_decimalDigits {n : Nat} {c : Char} (h : c ∈ decimalDigits n) :
    c.isDigit = true :=
  Nat.isDigit_of_mem_toDigits (by decide) (by decide) h

theorem isDecimal_decimalDigits (n : Nat) : isDecimal (decimalDigits n) = true := by
  have hall : (decimalDigits n).all Char.isDigit = true :=
    List.all_eq_true.2 fun _ => isDigit_of_mem_decimalDigits
  simp only [isDecimal, hall, List.isEmpty_eq_false_iff.2 (decimalDigits_ne_nil n), Bool.not_false,
    Bool.and_self]

theorem length_decimalDigits_le_iff {n k : Nat} (hk : 0 < k) :
    (decimalDigits n).length ≤ k ↔ n < Nat.pow 10 k :=
  Nat.length_toDigits_le_iff (by decide) hk

/-- The digits of a number begin with a zero only if the number is zero. -/
theorem eq_zero_of_head?_decimalDigits {n : Nat} (h : (decimalDigits n).head? = some '0') :
    n = 0 := by
  induction n using Nat.strongRecOn with
  | ind n ih =>
    by_cases hn : n < 10
    · have hdigit : ∀ d < 10, [Nat.digitChar d].head? = some '0' → d = 0 := by decide
      rw [decimalDigits, Nat.toDigits_of_lt_base hn] at h
      exact hdigit n hn h
    · -- the digits of `n / 10` come first, and the last digit is behind them
      have hsplit : decimalDigits (n / 10) ++ decimalDigits (n % 10) = decimalDigits n := by
        have happend := Nat.toDigits_append_toDigits (b := 10) (n := n / 10) (d := n % 10)
          (by decide) (by omega) (by omega)
        rwa [Nat.div_add_mod] at happend
      obtain ⟨d, ds, hds⟩ := List.exists_cons_of_ne_nil (decimalDigits_ne_nil (n / 10))
      rw [← hsplit, hds, List.cons_append, List.head?_cons] at h
      have hfront := ih (n / 10) (by omega) (by rw [hds, List.head?_cons, h])
      omega

/-- No superfluous zero stands in front. -/
theorem head?_decimalDigits_eq_zero_iff (n : Nat) :
    (decimalDigits n).head? = some '0' ↔ decimalDigits n = ['0'] := by
  constructor
  · intro h
    rw [eq_zero_of_head?_decimalDigits h]
    rfl
  · intro h
    rw [h, List.head?_cons]

/-- The hexadecimal digits of a number, padded with zeros to a width. -/
def hexDigits (width n : Nat) (upper : Bool) : List Char :=
  let ds := Nat.toDigits 16 n
  let ds := if upper then ds.map Char.toUpper else ds
  List.replicate (width - ds.length) '0' ++ ds

end CallPolicy
