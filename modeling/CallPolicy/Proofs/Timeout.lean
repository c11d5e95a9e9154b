import CallPolicy.Timeout

set_option autoImplicit false

/-! # Timeouts that are sent and read back

A duration is sent in the finest unit in which eight digits suffice (`Timeout.fitting_spec`), which
cuts off less than one such unit. Each unit is at most a thousand times the next finer one, and the
finer one needed more than eight digits: so what is cut off is at most one part in 100000
(`Timeout.Finest.loss_le`). -/

namespace CallPolicy

/-- A span of whole hours. -/
def Duration.ofHours (n : Nat) : Duration := .ofSeconds (n * 3600)

namespace Timeout

/-! ## The units -/

theorem units_increasing : units.Pairwise fun u v => u.2 < v.2 := by decide

theorem lookup_units {u : Char × Nat} (h : u ∈ units) : units.lookup u.1 = some u.2 := by
  revert u
  decide

theorem pos_of_mem_units {u : Char × Nat} (h : u ∈ units) : 0 < u.2 := by
  revert u
  decide

theorem hour_mem_units : ('H', 3_600_000_000_000) ∈ units := by decide

theorem le_hour_of_mem_units {u : Char × Nat} (h : u ∈ units) : u.2 ≤ 3_600_000_000_000 := by
  revert u
  decide

/-- Every unit but the nanosecond is at most a thousand times a finer one. -/
theorem exists_finer_unit {u : Char × Nat} (h : u ∈ units) :
    u.2 = 1 ∨ ∃ v ∈ units, v.2 < u.2 ∧ u.2 ≤ 1000 * v.2 := by
  revert u
  decide

/-! ## The unit that is chosen -/

/-- The finest unit in which the span fits. -/
structure Finest (d : Duration) (u : Char × Nat) : Prop where
  mem : u ∈ units
  fits : d.nanos / u.2 ≤ maxValue
  finer : ∀ v ∈ units, v.2 < u.2 → maxValue < d.nanos / v.2

/-- A duration is sent in the finest unit in which it fits, or else as the longest timeout. -/
theorem fitting_spec (d : Duration) :
    (∃ u, Finest d u ∧ fitting d = (d.nanos / u.2, u.1)) ∨
      (∀ u ∈ units, maxValue < d.nanos / u.2) ∧ fitting d = (maxValue, 'H') := by
  unfold fitting
  split
  · rename_i letter nanos hfind
    obtain ⟨hfits, before, behind, hsplit, hbefore⟩ := List.find?_eq_some_iff_append.1 hfind
    have hmem : (letter, nanos) ∈ units := List.mem_of_find?_eq_some hfind
    refine .inl ⟨(letter, nanos), ⟨hmem, by simpa using hfits, fun v hv hlt => ?_⟩, rfl⟩
    -- the units are sorted, so a finer one stands before the one that was found
    have hsorted := units_increasing
    rw [hsplit, List.pairwise_append, List.pairwise_cons] at hsorted
    rw [hsplit, List.mem_append, List.mem_cons] at hv
    rcases hv with hv | rfl | hv
    · simpa using hbefore v hv
    · exact absurd hlt (Nat.lt_irrefl _)
    · exact absurd (hsorted.2.1.1 v hv) (Nat.lt_asymm hlt)
  · rename_i hnone
    refine .inr ⟨fun u hu => ?_, rfl⟩
    simpa using List.find?_eq_none.1 hnone u hu

theorem hours_le_of_unfit {d : Duration} (h : ∀ u ∈ units, maxValue < d.nanos / u.2) :
    (Duration.ofHours 100000000).nanos ≤ d.nanos := by
  have hhour : (maxValue + 1) * 3_600_000_000_000 ≤ d.nanos :=
    (Nat.le_div_iff_mul_le (by decide)).1 (h _ hour_mem_units)
  exact hhour

theorem exists_fitting (d : Duration) :
    ∃ n, ∃ u ∈ units, n ≤ maxValue ∧ fitting d = (n, u.1) := by
  rcases fitting_spec d with ⟨u, hfinest, hfitting⟩ | ⟨-, hfitting⟩
  · exact ⟨_, u, hfinest.mem, hfinest.fits, hfitting⟩
  · exact ⟨_, _, hour_mem_units, Nat.le_refl _, hfitting⟩

namespace Finest

variable {d : Duration} {u : Char × Nat}

theorem loss_lt (h : Finest d u) : d.nanos - d.nanos / u.2 * u.2 < u.2 := by
  rw [← Nat.mod_eq_sub_div_mul]
  exact Nat.mod_lt _ (pos_of_mem_units h.mem)

theorem loss_le (h : Finest d u) : (d.nanos - d.nanos / u.2 * u.2) * 100000 ≤ d.nanos := by
  rw [← Nat.mod_eq_sub_div_mul]
  rcases exists_finer_unit h.mem with hone | ⟨v, hv, hfiner, hratio⟩
  · rw [hone, Nat.mod_one, Nat.zero_mul]
    exact Nat.zero_le _
  · -- the finer unit would have needed more than eight digits
    have hmany : (maxValue + 1) * v.2 ≤ d.nanos :=
      (Nat.le_div_iff_mul_le (pos_of_mem_units hv)).1 (h.finer v hv hfiner)
    have hcut : d.nanos % u.2 < u.2 := Nat.mod_lt _ (pos_of_mem_units h.mem)
    rw [maxValue] at hmany
    omega

theorem eq_iff_dvd (d : Duration) (u : Char × Nat) :
    (⟨d.nanos / u.2 * u.2⟩ : Duration) = d ↔ u.2 ∣ d.nanos := by
  obtain ⟨nanos⟩ := d
  rw [Duration.mk.injEq]
  exact ⟨fun h => ⟨nanos / u.2, by rw [Nat.mul_comm, h]⟩, Nat.div_mul_cancel⟩

/-- A span that is not zero is not sent as zero. -/
theorem eq_zero_iff (h : Finest d u) : d.nanos / u.2 * u.2 = 0 ↔ d.nanos = 0 := by
  constructor
  · intro hzero
    -- were all of it cut off, it would be a hundred thousand times too much
    have hloss := h.loss_le
    omega
  · intro hzero
    simp [hzero]

/-- A span that fits some unit is shorter than a hundred million hours. -/
theorem lt_hours (h : Finest d u) : d.nanos < (Duration.ofHours 100000000).nanos := by
  have hspan : d.nanos < (maxValue + 1) * u.2 :=
    (Nat.div_lt_iff_lt_mul (pos_of_mem_units h.mem)).1 (Nat.lt_succ_of_le h.fits)
  have hhour := le_hour_of_mem_units h.mem
  rw [maxValue] at hspan
  show d.nanos < 100000000 * 3600 * 1_000_000_000
  omega

end Finest

/-! ## Sending and reading back -/

/-- The text of a timeout is one to eight digits, without a superfluous zero, and a letter. -/
theorem encode_of_fitting {d : Duration} {n : Nat} {letter : Char}
    (hfitting : fitting d = (n, letter)) (hn : n ≤ maxValue) :
    ∃ digits, encode d = String.ofList (digits ++ [letter]) ∧ 1 ≤ digits.length ∧
      digits.length ≤ 8 ∧ (∀ c ∈ digits, c.isDigit = true) ∧
      (digits.head? = some '0' ↔ digits = ['0']) := by
  refine ⟨decimalDigits n, ?_, ?_, ?_, ?_, ?_⟩
  · rw [encode, hfitting]
  · exact List.length_pos_iff.2 (decimalDigits_ne_nil n)
  · exact (length_decimalDigits_le_iff (by decide)).2 (Nat.lt_succ_of_le hn)
  · exact fun c => isDigit_of_mem_decimalDigits
  · exact head?_decimalDigits_eq_zero_iff n

/-- Up to eight digits and a unit letter denote that many units. -/
theorem decode_ofList {digits : List Char} {u : Char × Nat} (hdigits : isDecimal digits = true)
    (hlength : digits.length ≤ maxDigits) (hu : u ∈ units) :
    decode (String.ofList (digits ++ [u.1])) = .ok ⟨decimalValue digits * u.2⟩ := by
  simp [decode, hdigits, Nat.not_lt.2 hlength, lookup_units hu]

theorem decode_encode_of_fitting {d : Duration} {n : Nat} {u : Char × Nat}
    (hfitting : fitting d = (n, u.1)) (hn : n ≤ maxValue) (hu : u ∈ units) :
    decode (encode d) = .ok ⟨n * u.2⟩ := by
  have hlength : (decimalDigits n).length ≤ maxDigits :=
    (length_decimalDigits_le_iff (by decide)).2 (Nat.lt_succ_of_le hn)
  rw [encode, hfitting, decode_ofList (isDecimal_decimalDigits n) hlength hu,
    decimalValue_decimalDigits]

theorem exists_decode_encode (d : Duration) : ∃ t, decode (encode d) = .ok t := by
  obtain ⟨n, u, hu, hn, hfitting⟩ := exists_fitting d
  exact ⟨_, decode_encode_of_fitting hfitting hn hu⟩

theorem visible_of_mem_encode {d : Duration} {c : Char} (h : c ∈ (encode d).toList) :
    0x20 ≤ c.toNat ∧ c.toNat ≤ 0x7e := by
  obtain ⟨n, u, hu, hn, hfitting⟩ := exists_fitting d
  obtain ⟨digits, htext, -, -, hdigits, -⟩ := encode_of_fitting hfitting hn
  rw [htext, String.toList_ofList, List.mem_append, List.mem_singleton] at h
  rcases h with hc | rfl
  · have hdigit := hdigits c hc
    simp only [Char.isDigit, Bool.and_eq_true, decide_eq_true_eq, ge_iff_le,
      UInt32.le_iff_toNat_le] at hdigit
    exact ⟨Nat.le_trans (by decide) hdigit.1, Nat.le_trans hdigit.2 (by decide)⟩
  · have hletters : ∀ u ∈ units, 0x20 ≤ u.1.toNat ∧ u.1.toNat ≤ 0x7e := by decide
    exact hletters u hu

/-- **Round trip of timeouts.** A duration is sent as one to eight digits without a superfluous zero
    and the letter of a unit, and is read back as the same duration less a part of one unit, which
    is at most one part in 100000; from a hundred million hours on it is read back as the longest
    timeout. So it never comes back longer, and as zero only if it is zero. -/
theorem decode_encode_within_unit (d : Duration) :
    ∃ digits letter unit t,
      encode d = String.ofList (digits ++ [letter]) ∧
      1 ≤ digits.length ∧ digits.length ≤ 8 ∧ (∀ c ∈ digits, c.isDigit = true) ∧
      (digits.head? = some '0' ↔ digits = ['0']) ∧
      (letter, unit) ∈ [('n', 1), ('u', 1_000), ('m', 1_000_000), ('S', 1_000_000_000),
        ('M', 60_000_000_000), ('H', 3_600_000_000_000)] ∧
      decode (encode d) = .ok t ∧
      (if d.nanos < (Duration.ofHours 100000000).nanos then
        t.nanos ≤ d.nanos ∧ d.nanos - t.nanos < unit ∧
          (d.nanos - t.nanos) * 100000 ≤ d.nanos ∧ (t = d ↔ unit ∣ d.nanos)
      else t = .ofHours 99999999) ∧
      t.nanos ≤ d.nanos ∧ (t.nanos = 0 ↔ d.nanos = 0) := by
  rcases fitting_spec d with ⟨u, hfinest, hfitting⟩ | ⟨hunfit, hfitting⟩
  · obtain ⟨digits, htext, hone, height, hdigits, hzero⟩ := encode_of_fitting hfitting hfinest.fits
    have hread := decode_encode_of_fitting hfitting hfinest.fits hfinest.mem
    have hle : d.nanos / u.2 * u.2 ≤ d.nanos := Nat.div_mul_le_self _ _
    refine ⟨digits, u.1, u.2, _, htext, hone, height, hdigits, hzero, hfinest.mem, hread, ?_, hle,
      hfinest.eq_zero_iff⟩
    rw [if_pos hfinest.lt_hours]
    exact ⟨hle, hfinest.loss_lt, hfinest.loss_le, Finest.eq_iff_dvd d u⟩
  · obtain ⟨digits, htext, hone, height, hdigits, hzero⟩ :=
      encode_of_fitting hfitting (Nat.le_refl _)
    have hread := decode_encode_of_fitting hfitting (Nat.le_refl _) hour_mem_units
    have hlong : (Duration.ofHours 100000000).nanos ≤ d.nanos := hours_le_of_unfit hunfit
    have hless : (Duration.ofHours 99999999).nanos < (Duration.ofHours 100000000).nanos := by decide
    have hpos : 0 < (Duration.ofHours 99999999).nanos := by decide
    refine ⟨digits, 'H', 3_600_000_000_000, .ofHours 99999999, htext, hone, height, hdigits, hzero,
      hour_mem_units, hread, ?_, by omega, by omega⟩
    rw [if_neg (Nat.not_lt.2 hlong)]

end Timeout

end CallPolicy
