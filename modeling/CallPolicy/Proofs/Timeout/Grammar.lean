import CallPolicy.Proofs.Headers
import CallPolicy.Proofs.Timeout
import Mathlib.Data.Nat.Digits.Defs

set_option autoImplicit false

/-! # The grammar of timeouts

Which texts are timeouts, what they denote, and what is wrong with the others
(`Timeout.decode_push_eq_iff`). The texts come from a peer, so nothing is taken for granted on the
way: `Timeout.decodeWords` reads the bytes of a text, with numbers in machine words, and fails
wherever a step could. It never does (`Timeout.decodeWords_eq`). -/

namespace CallPolicy

/-! ## Digits -/

theorem isDecimal_iff {cs : List Char} :
    isDecimal cs = true ↔ cs ≠ [] ∧ ∀ c ∈ cs, c.isDigit = true := by
  simp [isDecimal]

/-- Digits denote the number that they write in base ten. -/
theorem decimalValue_eq_ofDigits (ds : List Char) :
    decimalValue ds = Nat.ofDigits 10 (ds.reverse.map fun c => c.toNat - '0'.toNat) := by
  rw [Nat.ofDigits_eq_foldr, List.foldr_map, List.foldr_reverse]
  simp [decimalValue, Nat.add_comm]

/-- With `k` more digits to come, a digit behind `n` adds no more than an increment of `n` would. -/
theorem next_digit_le {c : Char} (h : c.isDigit = true) (n k : Nat) :
    (10 * n + (c.toNat - '0'.toNat) + 1) * 10 ^ k ≤ (n + 1) * 10 ^ (k + 1) := by
  have hc : c.toNat ≤ 57 := (Char.isDigit_iff_toNat.1 h).2
  have hzero : '0'.toNat = 48 := rfl
  calc (10 * n + (c.toNat - '0'.toNat) + 1) * 10 ^ k
      ≤ (10 * (n + 1)) * 10 ^ k := Nat.mul_le_mul_right _ (by omega)
    _ = (n + 1) * 10 ^ (k + 1) := by ring

/-- Digits behind `n` denote less than an increment of `n` with as many zeros. -/
theorem ofDigitChars_lt {ds : List Char} (h : ∀ c ∈ ds, c.isDigit = true) (n : Nat) :
    Nat.ofDigitChars 10 ds n < (n + 1) * 10 ^ ds.length := by
  induction ds generalizing n with
  | nil => simp
  | cons d ds ih =>
    rw [Nat.ofDigitChars_cons, List.length_cons]
    exact Nat.lt_of_lt_of_le (ih (fun c hc => h c (List.mem_cons_of_mem d hc)) _)
      (next_digit_le (h d List.mem_cons_self) n ds.length)

/-! ## Digits as bytes -/

/-- Is the byte an ASCII digit? -/
def isDigitByte (b : UInt8) : Bool :=
  0x30 ≤ b && b ≤ 0x39

theorem isDigitByte_iff {b : UInt8} : isDigitByte b = true ↔ 48 ≤ b.toNat ∧ b.toNat ≤ 57 := by
  simp [isDigitByte, UInt8.le_iff_toNat_le]

theorem toNat_byte_of_ascii {c : Char} (h : c.toNat ≤ 127) :
    (UInt8.ofNat c.toNat).toNat = c.toNat := by
  rw [UInt8.toNat_ofNat']
  omega

/-- The UTF-8 form of an ASCII character is one byte, which is its number. -/
theorem utf8EncodeChar_of_ascii {c : Char} (h : c.toNat ≤ 127) :
    String.utf8EncodeChar c = [UInt8.ofNat c.toNat] :=
  if_pos h

/-- The UTF-8 form of a character beyond ASCII begins with a byte beyond ASCII. -/
theorem head_utf8EncodeChar {c : Char} (h : 127 < c.toNat) :
    ∃ b rest, String.utf8EncodeChar c = b :: rest ∧ 127 < b.toNat := by
  have hlarge : ¬ c.val.toNat ≤ 127 := Nat.not_le.2 h
  rw [String.utf8EncodeChar, if_neg hlarge]
  split
  · exact ⟨_, _, rfl, by rw [UInt8.toNat_ofNat']; omega⟩
  · split
    · exact ⟨_, _, rfl, by rw [UInt8.toNat_ofNat']; omega⟩
    · exact ⟨_, _, rfl, by rw [UInt8.toNat_ofNat']; omega⟩

/-- Of the UTF-8 forms only those of digits consist of digits. -/
theorem all_isDigitByte_utf8EncodeChar (c : Char) :
    (String.utf8EncodeChar c).all isDigitByte = c.isDigit := by
  rw [Bool.eq_iff_iff, Char.isDigit_iff_toNat]
  by_cases hascii : c.toNat ≤ 127
  · rw [utf8EncodeChar_of_ascii hascii, List.all_cons, List.all_nil, Bool.and_true,
      isDigitByte_iff, toNat_byte_of_ascii hascii]
    rfl
  · obtain ⟨b, rest, hform, hb⟩ := head_utf8EncodeChar (Nat.not_le.1 hascii)
    have hnine : '9'.toNat = 57 := rfl
    rw [hform, List.all_cons, Bool.and_eq_true, isDigitByte_iff]
    omega

theorem isEmpty_ofText (text : String) :
    (HeaderValue.ofText text).isEmpty = text.toList.isEmpty := by
  rw [HeaderValue.ofText_eq_flatMap]
  cases text.toList with
  | nil => rfl
  | cons c rest => simp [String.utf8EncodeChar_ne_nil]

/-- The bytes of a text tell whether it is made of digits. -/
theorem not_isDecimal_eq (text : String) :
    ((HeaderValue.ofText text).isEmpty || !(HeaderValue.ofText text).all isDigitByte) =
      !isDecimal text.toList := by
  rw [isEmpty_ofText, HeaderValue.ofText_eq_flatMap, List.all_flatMap, isDecimal, Bool.not_and,
    Bool.not_not]
  simp only [all_isDigitByte_utf8EncodeChar]

/-- Digits are as many bytes. -/
theorem ofText_eq_map {text : String} (h : ∀ c ∈ text.toList, c.isDigit = true) :
    HeaderValue.ofText text = text.toList.map fun c => UInt8.ofNat c.toNat := by
  have hascii : ∀ c ∈ text.toList, c.toNat ≤ 127 := fun c hc =>
    Nat.le_trans (Char.isDigit_iff_toNat.1 (h c hc)).2 (by decide)
  rw [HeaderValue.ofText_eq_flatMap, List.map_eq_flatMap, List.flatMap_def, List.flatMap_def,
    List.map_congr_left fun c hc => utf8EncodeChar_of_ascii (hascii c hc)]

namespace Timeout

/-! ## Reading a text -/

/-- Eight digits denote no more than the longest timeout counts. -/
theorem decimalValue_le {ds : List Char} (h : isDecimal ds = true)
    (hlength : ds.length ≤ maxDigits) : decimalValue ds ≤ maxValue := by
  have hvalue : decimalValue ds < (0 + 1) * 10 ^ ds.length :=
    ofDigitChars_lt (isDecimal_iff.1 h).2 0
  have hpow : 10 ^ ds.length ≤ 10 ^ maxDigits := Nat.pow_le_pow_right (by decide) hlength
  have hmax : 10 ^ maxDigits = maxValue + 1 := by decide
  omega

theorem lookup_units_eq_some_iff {letter : Char} {nanos : Nat} :
    units.lookup letter = some nanos ↔ (letter, nanos) ∈ units := by
  refine ⟨fun h => ?_, fun h => lookup_units h⟩
  obtain ⟨before, behind, hsplit, -⟩ := List.lookup_eq_some_iff.1 h
  simp [hsplit]

theorem lookup_units_eq_none_iff {letter : Char} :
    units.lookup letter = none ↔ ∀ u ∈ units, letter ≠ u.1 := by
  simp [List.lookup_eq_none_iff]

/-- The span of that many units. -/
def spanIn (amount : Nat) (letter : Char) : Except TimeoutError Duration :=
  match units.lookup letter with
  | none => .error (.invalidUnit letter)
  | some nanos => .ok ⟨amount * nanos⟩

/-- What is made of the digits and of the letter behind them. -/
theorem decode_push (r : String) (u : Char) :
    decode (r.push u) =
      if isDecimal r.toList = false then .error (.invalidValue (r.push u))
      else if maxDigits < r.length then .error (.tooLong r.length)
      else spanIn (decimalValue r.toList) u := by
  simp only [decode, String.toList_push, List.reverse_append, List.reverse_singleton,
    List.singleton_append, List.reverse_reverse, String.length_toList, Bool.not_eq_true']
  rfl

/-- What may be made of them, case by case. -/
theorem decode_push_eq_iff {r : String} {u : Char} {x : Except TimeoutError Duration} :
    decode (r.push u) = x ↔
      (isDecimal r.toList = false ∧ x = .error (.invalidValue (r.push u))) ∨
      (isDecimal r.toList = true ∧ maxDigits < r.length ∧ x = .error (.tooLong r.length)) ∨
      (isDecimal r.toList = true ∧ r.length ≤ maxDigits ∧ (∀ v ∈ units, u ≠ v.1) ∧
        x = .error (.invalidUnit u)) ∨
      (isDecimal r.toList = true ∧ r.length ≤ maxDigits ∧
        ∃ nanos, (u, nanos) ∈ units ∧ x = .ok ⟨decimalValue r.toList * nanos⟩) := by
  simp only [decode_push, spanIn, ← lookup_units_eq_none_iff, ← lookup_units_eq_some_iff]
  by_cases hdecimal : isDecimal r.toList = true
  · by_cases hlong : maxDigits < r.length
    · simpa [hdecimal, hlong, Nat.not_le.2 hlong] using eq_comm
    · cases units.lookup u with
      | none => simpa [hdecimal, hlong, Nat.not_lt.1 hlong] using eq_comm
      | some nanos => simpa [hdecimal, hlong, Nat.not_lt.1 hlong] using eq_comm
  · simpa [hdecimal] using eq_comm

theorem decode_eq_empty_iff {text : String} : decode text = .error .empty ↔ text = "" := by
  induction text using String.push_induction with
  | empty => exact ⟨fun _ => rfl, fun _ => rfl⟩
  | push r u _ => simp [decode_push_eq_iff]

/-- A text is a timeout iff it is made of up to eight digits and a unit letter. -/
theorem decode_eq_ok_iff {text : String} {t : Duration} :
    decode text = .ok t ↔ ∃ digits, ∃ u ∈ units, text = String.ofList (digits ++ [u.1]) ∧
      isDecimal digits = true ∧ digits.length ≤ maxDigits ∧
      t.nanos = decimalValue digits * u.2 := by
  constructor
  · intro h
    induction text using String.push_induction with
    | empty => cases h
    | push r u _ =>
      simp only [decode_push_eq_iff, reduceCtorEq, and_false, false_or, Except.ok.injEq] at h
      obtain ⟨hdecimal, hlength, nanos, hu, rfl⟩ := h
      refine ⟨r.toList, (u, nanos), hu, ?_, hdecimal, by rwa [String.length_toList], rfl⟩
      rw [← String.toList_inj, String.toList_push, String.toList_ofList]
  · rintro ⟨digits, u, hu, rfl, hdecimal, hlength, hvalue⟩
    rw [decode_ofList hdecimal hlength hu, ← hvalue]

/-! ## Reading bytes and words -/

/-- What may go wrong when a timeout is read from bytes and with numbers in words. -/
inductive Fault where
  /-- A text is cut inside a character. -/
  | splitCharacter
  /-- The text of a number is none. -/
  | notNumber
  /-- A result does not fit the word that it is meant for. -/
  | overflow
deriving DecidableEq

/-- A number, if a word of that many bits holds it. -/
def word (bits n : Nat) : Except Fault Nat :=
  if n < 2 ^ bits then .ok n else .error .overflow

/-- The bytes of a text but for its last ones, if those are characters. -/
def bytesWithoutLast (text : String) (n : Nat) : Except Fault (List UInt8) :=
  if text.utf8ByteSize < n then .error .overflow
  else
    let position := text.utf8ByteSize - n
    if (⟨position⟩ : String.Pos.Raw).isValid text then .ok ((HeaderValue.ofText text).take position)
    else .error .splitCharacter

/-- The number that digits write behind those of `n`, in words of 64 bits. -/
def numberFrom (n : Nat) : List UInt8 → Except Fault Nat
  | [] => .ok n
  | b :: rest =>
    if isDigitByte b then do
      let shifted ← word 64 (10 * n)
      let next ← word 64 (shifted + (b.toNat - 0x30))
      numberFrom next rest
    else .error .notNumber

/-- The number that a text of digits writes. -/
def number (bytes : List UInt8) : Except Fault Nat :=
  if bytes.isEmpty then .error .notNumber else numberFrom 0 bytes

/-- The span of that many parts of a second, in whole seconds and the nanoseconds behind them. Of
    the parts there are `perSecond` in a second, of `nanosEach` nanoseconds. -/
def spanOfParts (amount perSecond nanosEach : Nat) : Except Fault Duration := do
  let part ← word 32 (amount % perSecond)
  let nanos ← word 32 (part * nanosEach)
  if nanos < 1_000_000_000 then return ⟨amount / perSecond * 1_000_000_000 + nanos⟩
  else throw .overflow

/-- `spanIn` in words. -/
def spanInWords (amount : Nat) (unit : Char) : Except Fault (Except TimeoutError Duration) :=
  match unit with
  | 'H' => return .ok (.ofSeconds (← word 64 (amount * 3600)))
  | 'M' => return .ok (.ofSeconds (← word 64 (amount * 60)))
  | 'S' => return .ok (.ofSeconds amount)
  | 'm' => return .ok (← spanOfParts amount 1_000 1_000_000)
  | 'u' => return .ok (← spanOfParts amount 1_000_000 1_000)
  | 'n' => return .ok (← spanOfParts amount 1_000_000_000 1)
  | other => return .error (.invalidUnit other)

/-- `decode` on bytes and words. -/
def decodeWords (text : String) : Except Fault (Except TimeoutError Duration) :=
  match text.toList.getLast? with
  | none => return .error .empty
  | some unit => do
    let digits ← bytesWithoutLast text unit.utf8Size
    if digits.isEmpty || !digits.all isDigitByte then return .error (.invalidValue text)
    if maxDigits < digits.length then return .error (.tooLong digits.length)
    spanInWords (← number digits) unit

/-! ## No step fails -/

theorem word_of_lt {bits n : Nat} (h : n < 2 ^ bits) : word bits n = .ok n :=
  if_pos h

/-- A text may be cut before its last character. -/
theorem isValid_beforeLast (r : String) (u : Char) :
    String.Pos.Raw.IsValid (r.push u) ⟨(r.push u).utf8ByteSize - u.utf8Size⟩ := by
  rw [String.utf8ByteSize_push, Nat.add_sub_cancel]
  exact String.Pos.Raw.isValid_push.2 (.inl String.Pos.Raw.isValid_rawEndPos)

/-- Cutting the last character off a text leaves the bytes of the characters before it. -/
theorem bytesWithoutLast_push (r : String) (u : Char) :
    bytesWithoutLast (r.push u) u.utf8Size = .ok (HeaderValue.ofText r) := by
  have hsize : (r.push u).utf8ByteSize = r.utf8ByteSize + u.utf8Size := String.utf8ByteSize_push
  have hvalid := String.Pos.Raw.isValid_eq_true_iff.2 (isValid_beforeLast r u)
  have hlength : (HeaderValue.ofText r).length = r.utf8ByteSize := by
    simp [HeaderValue.ofText]
  rw [bytesWithoutLast, if_neg (by omega)]
  simp only [hvalid, if_true]
  rw [hsize, Nat.add_sub_cancel, String.push_eq_append, HeaderValue.ofText_append,
    List.take_left' hlength]

/-- Digits are read without overflow as long as they denote less than what a word holds. -/
theorem numberFrom_eq {cs : List Char} (h : ∀ c ∈ cs, c.isDigit = true) {n : Nat}
    (hfits : (n + 1) * 10 ^ cs.length ≤ 2 ^ 64) :
    numberFrom n (cs.map fun c => UInt8.ofNat c.toNat) = .ok (Nat.ofDigitChars 10 cs n) := by
  induction cs generalizing n with
  | nil => rfl
  | cons c cs ih =>
    obtain ⟨hlow, hhigh⟩ : 48 ≤ c.toNat ∧ c.toNat ≤ 57 :=
      Char.isDigit_iff_toNat.1 (h c List.mem_cons_self)
    have hbyte := toNat_byte_of_ascii (Nat.le_trans hhigh (by decide))
    have hdigit : isDigitByte (UInt8.ofNat c.toNat) = true := isDigitByte_iff.2 (by omega)
    have hnext : (10 * n + (c.toNat - '0'.toNat) + 1) * 10 ^ cs.length ≤ 2 ^ 64 :=
      Nat.le_trans (next_digit_le (h c List.mem_cons_self) n cs.length) hfits
    have hword : 10 * n + (c.toNat - '0'.toNat) < 2 ^ 64 :=
      Nat.lt_of_lt_of_le (Nat.lt_succ_self _)
        (Nat.le_trans (Nat.le_mul_of_pos_right _ (Nat.pow_pos (by decide))) hnext)
    rw [List.map_cons, numberFrom, if_pos hdigit, word_of_lt (by omega)]
    show (word 64 (10 * n + ((UInt8.ofNat c.toNat).toNat - '0'.toNat)) >>= fun next => _) = _
    rw [hbyte, word_of_lt hword, Nat.ofDigitChars_cons]
    exact ih (fun d hd => h d (List.mem_cons_of_mem c hd)) hnext

theorem number_eq {r : String} (h : isDecimal r.toList = true)
    (hlength : r.toList.length ≤ maxDigits) :
    number (HeaderValue.ofText r) = .ok (decimalValue r.toList) := by
  obtain ⟨hne, hdigits⟩ := isDecimal_iff.1 h
  have hfits : (0 + 1) * 10 ^ r.toList.length ≤ 2 ^ 64 :=
    calc (0 + 1) * 10 ^ r.toList.length
        = 10 ^ r.toList.length := by rw [Nat.zero_add, Nat.one_mul]
      _ ≤ 10 ^ maxDigits := Nat.pow_le_pow_right (by decide) hlength
      _ ≤ 2 ^ 64 := by decide
  rw [number, isEmpty_ofText, List.isEmpty_eq_false_iff.2 hne, ofText_eq_map hdigits]
  exact numberFrom_eq hdigits hfits

theorem spanOfParts_eq (amount : Nat) {perSecond nanosEach : Nat}
    (h : perSecond * nanosEach = 1_000_000_000) :
    spanOfParts amount perSecond nanosEach = .ok ⟨amount * nanosEach⟩ := by
  have hpos : 0 < perSecond := Nat.pos_of_ne_zero fun hzero => by simp [hzero] at h
  have heach : 0 < nanosEach := Nat.pos_of_ne_zero fun hzero => by simp [hzero] at h
  have hpart : amount % perSecond < perSecond := Nat.mod_lt _ hpos
  have hle : perSecond ≤ 1_000_000_000 := h ▸ Nat.le_mul_of_pos_right _ heach
  have hnanos : amount % perSecond * nanosEach < 1_000_000_000 :=
    h ▸ Nat.mul_lt_mul_of_pos_right hpart heach
  have hwhole : amount / perSecond * 1_000_000_000 + amount % perSecond * nanosEach =
      amount * nanosEach :=
    calc amount / perSecond * 1_000_000_000 + amount % perSecond * nanosEach
        = (perSecond * (amount / perSecond) + amount % perSecond) * nanosEach := by
          rw [← h]
          ring
      _ = amount * nanosEach := by rw [Nat.div_add_mod]
  rw [spanOfParts, word_of_lt (by omega)]
  show (word 32 (amount % perSecond * nanosEach) >>= fun nanos => _) = _
  rw [word_of_lt (by omega)]
  show (if amount % perSecond * nanosEach < 1_000_000_000 then _ else _) = _
  rw [if_pos hnanos, hwhole]
  rfl

theorem spanInWords_eq {amount : Nat} (h : amount ≤ maxValue) (u : Char) :
    spanInWords amount u = .ok (spanIn amount u) := by
  rw [maxValue] at h
  unfold spanInWords
  split
  · rw [word_of_lt (by omega)]
    show Except.ok (Except.ok (⟨amount * 3600 * 1_000_000_000⟩ : Duration)) = _
    rw [Nat.mul_assoc]
    rfl
  · rw [word_of_lt (by omega)]
    show Except.ok (Except.ok (⟨amount * 60 * 1_000_000_000⟩ : Duration)) = _
    rw [Nat.mul_assoc]
    rfl
  · rfl
  · rw [spanOfParts_eq amount (by decide)]
    rfl
  · rw [spanOfParts_eq amount (by decide)]
    rfl
  · rw [spanOfParts_eq amount (by decide)]
    rfl
  · have hnone : units.lookup u = none := lookup_units_eq_none_iff.2 (by simp_all [units])
    rw [spanIn, hnone]
    rfl

/-- No step of reading a timeout fails, and what is read is what `decode` reads. -/
theorem decodeWords_eq (text : String) : decodeWords text = .ok (decode text) := by
  induction text using String.push_induction with
  | empty => rfl
  | push r u _ =>
    have hlast : (r.push u).toList.getLast? = some u := by simp
    rw [decodeWords, hlast]
    show (bytesWithoutLast (r.push u) u.utf8Size >>= fun digits => _) = _
    rw [bytesWithoutLast_push, decode_push]
    show (if (HeaderValue.ofText r).isEmpty || !(HeaderValue.ofText r).all isDigitByte then _
      else _) = _
    rw [not_isDecimal_eq]
    cases hdecimal : isDecimal r.toList with
    | false => rfl
    | true =>
      have hlength : (HeaderValue.ofText r).length = r.length := by
        rw [ofText_eq_map (isDecimal_iff.1 hdecimal).2, List.length_map, String.length_toList]
      show (if maxDigits < (HeaderValue.ofText r).length then _ else _) = _
      rw [hlength]
      split
      · rfl
      · rename_i hlong
        have hshort : r.toList.length ≤ maxDigits := by
          rw [String.length_toList]
          exact Nat.not_lt.1 hlong
        rw [number_eq hdecimal hshort]
        exact spanInWords_eq (decimalValue_le hdecimal hshort) u

/-! ## The grammar -/

/-- **The grammar of timeouts.** A timeout is one to eight ASCII digits with one of six unit letters
    behind them, and denotes the number that the digits write times the unit; it is read without a
    step that could fail. Of any other text the first thing that is wrong is told: that it is empty;
    else that what stands before the last character is not digits alone; else that these are more
    than eight; else that the last character is no unit. -/
theorem decode_exact (text : String) :
    decodeWords text = .ok (decode text) ∧
    (∀ t, decode text = .ok t ↔ ∃ digits letter nanos,
      text = String.ofList (digits ++ [letter]) ∧ 1 ≤ digits.length ∧ digits.length ≤ 8 ∧
      (∀ c ∈ digits, c.isDigit = true) ∧
      (letter, nanos) ∈ [('n', 1), ('u', 1_000), ('m', 1_000_000), ('S', 1_000_000_000),
        ('M', 60_000_000_000), ('H', 3_600_000_000_000)] ∧
      t.nanos = Nat.ofDigits 10 (digits.reverse.map fun c => c.toNat - '0'.toNat) * nanos) ∧
    (decode text = .error .empty ↔ text = "") ∧
    ∀ r u, text = r.push u →
      (∀ s, decode text = .error (.invalidValue s) ↔
        s = text ∧ (r = "" ∨ ∃ c ∈ r.toList, c.isDigit = false)) ∧
      (∀ n, decode text = .error (.tooLong n) ↔
        (r ≠ "" ∧ ∀ c ∈ r.toList, c.isDigit = true) ∧ 8 < r.length ∧ n = r.length) ∧
      (∀ c, decode text = .error (.invalidUnit c) ↔
        (r ≠ "" ∧ ∀ c ∈ r.toList, c.isDigit = true) ∧ r.length ≤ 8 ∧ c = u ∧
          u ∉ ['n', 'u', 'm', 'S', 'M', 'H']) ∧
      String.Pos.Raw.IsValid text ⟨text.utf8ByteSize - u.utf8Size⟩ := by
  refine ⟨decodeWords_eq text, fun t => ?_, decode_eq_empty_iff, ?_⟩
  · rw [decode_eq_ok_iff]
    constructor
    · rintro ⟨digits, u, hu, htext, hdecimal, hlength, hvalue⟩
      obtain ⟨hne, hdigits⟩ := isDecimal_iff.1 hdecimal
      exact ⟨digits, u.1, u.2, htext, List.length_pos_iff.2 hne, hlength, hdigits, hu,
        decimalValue_eq_ofDigits digits ▸ hvalue⟩
    · rintro ⟨digits, letter, nanos, htext, hpos, hlength, hdigits, hu, hvalue⟩
      exact ⟨digits, (letter, nanos), hu, htext,
        isDecimal_iff.2 ⟨List.length_pos_iff.1 hpos, hdigits⟩, hlength,
        decimalValue_eq_ofDigits digits ▸ hvalue⟩
  · rintro r u rfl
    have hdecimal : isDecimal r.toList = true ↔ r ≠ "" ∧ ∀ c ∈ r.toList, c.isDigit = true := by
      simp [isDecimal_iff]
    have hmalformed : isDecimal r.toList = false ↔ r = "" ∨ ∃ c ∈ r.toList, c.isDigit = false := by
      rw [← Bool.not_eq_true, hdecimal, Classical.not_and_iff_not_or_not]
      simp
    have hletter : (∀ v ∈ units, u ≠ v.1) ↔ u ∉ ['n', 'u', 'm', 'S', 'M', 'H'] := by
      simp [units]
    refine ⟨fun s => ?_, fun n => ?_, fun c => ?_, isValid_beforeLast r u⟩
    · simp [decode_push_eq_iff, hmalformed, and_comm]
    · simp [decode_push_eq_iff, hdecimal, maxDigits]
    · simp only [decode_push_eq_iff, hletter, hdecimal]
      simp [maxDigits, and_comm]

/-- A timeout with superfluous zeros, and a text with each of the faults. -/
theorem decode_texts_of_each_kind :
    decode "00000005m" = .ok ⟨5_000_000⟩ ∧ decode "-1S" = .error (.invalidValue "-1S") ∧
      decode "123456789S" = .error (.tooLong 9) ∧ decode "1é" = .error (.invalidUnit 'é') := by
  have hdigits : ∀ text : String, isDecimal text.toList = true → ∀ c ∈ text.toList,
      c.isDigit = true := fun _ h => (isDecimal_iff.1 h).2
  refine ⟨((decode_exact "00000005m").2.1 _).2 ⟨"00000005".toList, 'm', 1_000_000, by decide,
    by decide, by decide, hdigits _ (by decide), by decide, ?_⟩, ?_, ?_, ?_⟩
  · rw [← decimalValue_eq_ofDigits]
    rfl
  · exact (((decode_exact "-1S").2.2.2 "-1" 'S' rfl).1 _).2 ⟨rfl, .inr ⟨'-', by decide, rfl⟩⟩
  · exact (((decode_exact "123456789S").2.2.2 "123456789" 'S' rfl).2.1 _).2
      ⟨⟨by decide, hdigits _ (by decide)⟩, by decide, rfl⟩
  · exact (((decode_exact "1é").2.2.2 "1" 'é' rfl).2.2.1 _).2
      ⟨⟨by decide, hdigits _ (by decide)⟩, by decide, rfl, by decide⟩

end Timeout

end CallPolicy
