import CallPolicy.Proofs.Timeout.Grammar

set_option autoImplicit false

/-! # The longest timeout that a duration allows

A duration is sent in the finest unit `u` that fits it. Where the next finer unit `w` does not, the
longest timeout within the duration is either the one that is sent, or the longest one in `w`
(`Timeout.Finest.longest`). It is the first wherever a hundred million `w` are a whole number of
`u`. That is so for all units but minutes and hours, which are sixty of the next finer unit; there,
from a hundred million of it on and for twenty more, it is the second (`Timeout.Gap.loss`). -/

namespace CallPolicy

namespace Timeout

/-! ## Spans that timeouts denote -/

/-- The span is what some timeout denotes. -/
def Denoted (d : Duration) : Prop :=
  ∃ text, decode text = .ok d

theorem denoted_iff {d : Duration} :
    Denoted d ↔ ∃ u ∈ units, ∃ n ≤ maxValue, d.nanos = n * u.2 := by
  constructor
  · rintro ⟨text, htext⟩
    obtain ⟨digits, u, hu, -, hdecimal, hlength, hvalue⟩ := decode_eq_ok_iff.1 htext
    exact ⟨u, hu, _, decimalValue_le hdecimal hlength, hvalue⟩
  · rintro ⟨u, hu, n, hn, hvalue⟩
    have hlength : (decimalDigits n).length ≤ maxDigits :=
      (length_decimalDigits_le_iff (by decide)).2 (Nat.lt_succ_of_le hn)
    have hdigits : d.nanos = decimalValue (decimalDigits n) * u.2 := by
      rw [hvalue, decimalValue_decimalDigits]
    exact ⟨_, decode_eq_ok_iff.2
      ⟨decimalDigits n, u, hu, rfl, isDecimal_decimalDigits n, hlength, hdigits⟩⟩

/-- The longest span within `d` that a timeout denotes. -/
structure Longest (d t : Duration) : Prop where
  denoted : Denoted t
  within : t.nanos ≤ d.nanos
  longest : ∀ s, Denoted s → s.nanos ≤ d.nanos → s.nanos ≤ t.nanos

theorem Longest.of_denoted {d : Duration} (h : Denoted d) : Longest d d :=
  ⟨h, Nat.le_refl _, fun _ _ hs => hs⟩

theorem Longest.unique {d s t : Duration} (hs : Longest d s) (ht : Longest d t) : s = t := by
  have hnanos : s.nanos = t.nanos :=
    Nat.le_antisymm (ht.longest s hs.denoted hs.within) (hs.longest t ht.denoted ht.within)
  cases s
  cases t
  exact congrArg Duration.mk hnanos

/-! ## Units side by side -/

/-- The unit `w` is the next finer one than `u`, and every other one either is finer still or
    consists of whole `u`. -/
structure NextFiner (w u : Char × Nat) : Prop where
  mem : w ∈ units
  lt : w.2 < u.2
  others : ∀ v ∈ units, v.2 ≤ w.2 ∨ u.2 ∣ v.2

instance (w u : Char × Nat) : Decidable (NextFiner w u) :=
  decidable_of_iff (w ∈ units ∧ w.2 < u.2 ∧ ∀ v ∈ units, v.2 ≤ w.2 ∨ u.2 ∣ v.2)
    ⟨fun ⟨hmem, hlt, hothers⟩ => ⟨hmem, hlt, hothers⟩, fun h => ⟨h.mem, h.lt, h.others⟩⟩

/-- A hundred million of the next finer unit are whole units, unless these are minutes or hours. -/
theorem exists_nextFiner {u : Char × Nat} (h : u ∈ units) :
    u.2 = 1 ∨ ∃ w ∈ units, NextFiner w u ∧ (u.2 ∣ 100000000 * w.2 ∨
      (w = ('S', 1_000_000_000) ∨ w = ('M', 60_000_000_000)) ∧ u.2 = 60 * w.2) := by
  revert u
  decide

/-- Whole units within a span are within what is left when it is cut. -/
theorem le_cut_of_dvd {unit nanos m : Nat} (hdvd : unit ∣ m) (hle : m ≤ nanos) :
    m ≤ nanos / unit * unit := by
  obtain ⟨k, rfl⟩ := hdvd
  rcases Nat.eq_zero_or_pos unit with rfl | hpos
  · simp
  · rw [Nat.mul_comm unit k] at hle ⊢
    exact Nat.mul_le_mul_right _ ((Nat.le_div_iff_mul_le hpos).2 hle)

namespace Finest

variable {d : Duration} {u w : Char × Nat}

theorem unique {v : Char × Nat} (h : Finest d u) (hv : Finest d v) : u.2 = v.2 := by
  rcases Nat.lt_trichotomy u.2 v.2 with hlt | heq | hlt
  · exact absurd h.fits (Nat.not_le.2 (hv.finer u h.mem hlt))
  · exact heq
  · exact absurd hv.fits (Nat.not_le.2 (h.finer v hv.mem hlt))

/-- What a span that fits some unit is read back as. -/
theorem decode_encode (h : Finest d u) : decode (encode d) = .ok ⟨d.nanos / u.2 * u.2⟩ := by
  rcases fitting_spec d with ⟨v, hv, hfitting⟩ | ⟨hunfit, -⟩
  · rw [decode_encode_of_fitting hfitting hv.fits hv.mem, h.unique hv]
  · exact absurd h.fits (Nat.not_le.2 (hunfit u h.mem))

/-- The longest timeout is one in the chosen unit, or the longest one in the next finer unit. -/
theorem longest (h : Finest d u) (hw : NextFiner w u) :
    Longest d ⟨max (maxValue * w.2) (d.nanos / u.2 * u.2)⟩ := by
  have hcut : d.nanos / u.2 * u.2 ≤ d.nanos := Nat.div_mul_le_self _ _
  have hfiner : maxValue * w.2 ≤ d.nanos :=
    (Nat.le_div_iff_mul_le (pos_of_mem_units hw.mem)).1 (Nat.le_of_lt (h.finer w hw.mem hw.lt))
  refine ⟨denoted_iff.2 ?_, Nat.max_le.2 ⟨hfiner, hcut⟩, fun s hs hle => ?_⟩
  · rcases Nat.le_total (maxValue * w.2) (d.nanos / u.2 * u.2) with hmax | hmax
    · exact ⟨u, h.mem, _, h.fits, Nat.max_eq_right hmax⟩
    · exact ⟨w, hw.mem, _, Nat.le_refl _, Nat.max_eq_left hmax⟩
  · obtain ⟨v, hv, n, hn, hvalue⟩ := denoted_iff.1 hs
    rw [hvalue] at hle ⊢
    rcases hw.others v hv with hvw | huv
    · exact Nat.le_trans (Nat.mul_le_mul hn hvw) (Nat.le_max_left _ _)
    · exact Nat.le_trans (le_cut_of_dvd (Dvd.dvd.mul_left huv n) hle) (Nat.le_max_right _ _)

end Finest

/-! ## The two gaps -/

/-- The span is a hundred million of the units or up to twenty more. -/
def Gap (unit : Nat) (d : Duration) : Prop :=
  100000000 * unit ≤ d.nanos ∧ d.nanos < 100000020 * unit

instance (unit : Nat) (d : Duration) : Decidable (Gap unit d) :=
  inferInstanceAs (Decidable (_ ∧ _))

section

variable {d : Duration} {u w : Char × Nat}

/-- In a gap the next unit is chosen. -/
theorem Gap.finest (h : Gap w.2 d) (hu : u ∈ units) (hw : NextFiner w u) (hsixty : u.2 = 60 * w.2) :
    Finest d u := by
  obtain ⟨hlow, hhigh⟩ := h
  have hpos := pos_of_mem_units hu
  refine ⟨hu, Nat.le_of_lt_succ ((Nat.div_lt_iff_lt_mul hpos).2 ?_), fun v hv hlt => ?_⟩
  · rw [maxValue]
    omega
  · have hvw : v.2 ≤ w.2 := (hw.others v hv).resolve_right fun hdvd =>
      Nat.not_le.2 hlt (Nat.le_of_dvd (pos_of_mem_units hv) hdvd)
    have hmany : (maxValue + 1) * v.2 ≤ d.nanos := Nat.le_trans (Nat.mul_le_mul_left _ hvw) hlow
    exact (Nat.le_div_iff_mul_le (pos_of_mem_units hv)).2 hmany

/-- In a gap 39 finer units more could have been sent. -/
theorem Gap.loss (h : Gap w.2 d) (hu : u ∈ units) (hw : NextFiner w u) (hsixty : u.2 = 60 * w.2) :
    decode (encode d) = .ok ⟨99999960 * w.2⟩ ∧ Longest d ⟨99999999 * w.2⟩ := by
  have hfinest := h.finest hu hw hsixty
  obtain ⟨hlow, hhigh⟩ := h
  have hcut : d.nanos / u.2 = 1666666 := Nat.div_eq_of_lt_le (by omega) (by omega)
  have hspan : d.nanos / u.2 * u.2 = 99999960 * w.2 := by
    rw [hcut]
    omega
  have hlonger : d.nanos / u.2 * u.2 ≤ maxValue * w.2 := by
    rw [maxValue]
    omega
  have hlongest := hfinest.longest hw
  rw [Nat.max_eq_left hlonger] at hlongest
  exact ⟨by rw [hfinest.decode_encode, hspan], hlongest⟩

/-- No timeout denotes a span in a gap. -/
theorem Gap.not_denoted (h : Gap w.2 d) (hu : u ∈ units) (hw : NextFiner w u)
    (hsixty : u.2 = 60 * w.2) : ¬ Denoted d := by
  intro hd
  have hle : d.nanos ≤ 99999999 * w.2 :=
    (h.loss hu hw hsixty).2.longest d hd (Nat.le_refl _)
  have hlow := h.1
  have hpos := pos_of_mem_units hw.mem
  omega

end

theorem minute_mem_units : ('M', 60_000_000_000) ∈ units := by decide

theorem nextFiner_minute : NextFiner ('S', 1_000_000_000) ('M', 60_000_000_000) := by decide

theorem nextFiner_hour : NextFiner ('M', 60_000_000_000) ('H', 3_600_000_000_000) := by decide

/-- A span that fits no unit is sent as the longest timeout of all. -/
theorem longest_of_unfit {d : Duration} (hunfit : ∀ u ∈ units, maxValue < d.nanos / u.2) :
    Longest d ⟨maxValue * 3_600_000_000_000⟩ := by
  have hlong : maxValue * 3_600_000_000_000 ≤ d.nanos :=
    Nat.le_trans (by decide) (hours_le_of_unfit hunfit)
  refine ⟨denoted_iff.2 ⟨_, hour_mem_units, _, Nat.le_refl _, rfl⟩, hlong, fun s hs _ => ?_⟩
  obtain ⟨v, hv, n, hn, hvalue⟩ := denoted_iff.1 hs
  rw [hvalue]
  exact Nat.mul_le_mul hn (le_hour_of_mem_units hv)

/-- Outside the gaps the longest timeout is sent. -/
theorem longest_of_not_gap {d : Duration} (hseconds : ¬ Gap 1_000_000_000 d)
    (hminutes : ¬ Gap 60_000_000_000 d) : ∃ t, decode (encode d) = .ok t ∧ Longest d t := by
  rcases fitting_spec d with ⟨u, hfinest, -⟩ | ⟨hunfit, hfitting⟩
  · refine ⟨_, hfinest.decode_encode, ?_⟩
    rcases exists_nextFiner hfinest.mem with hone | ⟨w, -, hw, hgrid⟩
    · rw [(Finest.eq_iff_dvd d u).2 (hone ▸ Nat.one_dvd _)]
      refine .of_denoted (denoted_iff.2 ⟨u, hfinest.mem, _, hfinest.fits, ?_⟩)
      rw [hone, Nat.div_one, Nat.mul_one]
    · have hmany : 100000000 * w.2 ≤ d.nanos :=
        (Nat.le_div_iff_mul_le (pos_of_mem_units hw.mem)).1 (hfinest.finer w hw.mem hw.lt)
      -- whole units from a hundred million of the finer ones on, and not more than the span
      obtain ⟨m, hm, hdvd, hle⟩ : ∃ m, 100000000 * w.2 ≤ m ∧ u.2 ∣ m ∧ m ≤ d.nanos := by
        rcases hgrid with hdvd | ⟨hgap, hsixty⟩
        · exact ⟨_, Nat.le_refl _, hdvd, hmany⟩
        · refine ⟨100000020 * w.2, by omega, ⟨1666667, by omega⟩, Nat.not_lt.1 fun hlt => ?_⟩
          rcases hgap with rfl | rfl
          · exact hseconds ⟨hmany, hlt⟩
          · exact hminutes ⟨hmany, hlt⟩
      have hlonger : maxValue * w.2 ≤ d.nanos / u.2 * u.2 :=
        calc maxValue * w.2 ≤ 100000000 * w.2 := Nat.mul_le_mul_right _ (by decide)
          _ ≤ m := hm
          _ ≤ d.nanos / u.2 * u.2 := le_cut_of_dvd hdvd hle
      have hlongest := hfinest.longest hw
      rwa [Nat.max_eq_right hlonger] at hlongest
  · exact ⟨_, decode_encode_of_fitting hfitting (Nat.le_refl _) hour_mem_units,
      longest_of_unfit hunfit⟩

/-- What is sent is not longer than the span. -/
theorem decode_encode_le {d t : Duration} (h : decode (encode d) = .ok t) : t.nanos ≤ d.nanos := by
  rcases fitting_spec d with ⟨u, hfinest, -⟩ | ⟨hunfit, hfitting⟩
  · rw [hfinest.decode_encode] at h
    cases h
    exact Nat.div_mul_le_self _ _
  · rw [decode_encode_of_fitting hfitting (Nat.le_refl _) hour_mem_units] at h
    cases h
    exact (longest_of_unfit hunfit).within

/-- What a timeout denotes is sent without loss. -/
theorem decode_encode_of_denoted {d : Duration} (h : Denoted d) : decode (encode d) = .ok d := by
  obtain ⟨t, ht, hlongest⟩ := longest_of_not_gap
    (fun hgap => hgap.not_denoted minute_mem_units nextFiner_minute rfl h)
    (fun hgap => hgap.not_denoted hour_mem_units nextFiner_hour rfl h)
  rw [ht, hlongest.unique (.of_denoted h)]

/-- A longer span is sent as a shorter timeout only in a gap. -/
theorem gap_of_decode_encode_lt {d d' t t' : Duration} (hle : d.nanos ≤ d'.nanos)
    (ht : decode (encode d) = .ok t) (ht' : decode (encode d') = .ok t')
    (hlt : t'.nanos < t.nanos) : Gap 1_000_000_000 d' ∨ Gap 60_000_000_000 d' := by
  by_contra hgap
  rw [not_or] at hgap
  obtain ⟨l, hl, hlongest⟩ := longest_of_not_gap hgap.1 hgap.2
  rw [ht', Except.ok.injEq] at hl
  subst hl
  have hwithin : t.nanos ≤ d'.nanos := Nat.le_trans (decode_encode_le ht) hle
  exact Nat.not_le.2 hlt (hlongest.longest t ⟨_, ht⟩ hwithin)

/-- **The longest timeout.** A duration is sent as the longest timeout that is not longer than it,
    unless it is a hundred million seconds or minutes, or up to twenty more: it is then sent as 39
    seconds or minutes less than that one. So what a timeout denotes is sent as just that, and where
    a longer duration is sent as a shorter timeout, it is such an exception. -/
theorem encode_longest_but_in_gaps (d : Duration) :
    (∃ t, decode (encode d) = .ok t ∧
      (¬ Gap 1_000_000_000 d → ¬ Gap 60_000_000_000 d → Longest d t) ∧
      (Gap 1_000_000_000 d → ∃ l, Longest d l ∧ t.nanos + 39 * 1_000_000_000 = l.nanos) ∧
      (Gap 60_000_000_000 d → ∃ l, Longest d l ∧ t.nanos + 39 * 60_000_000_000 = l.nanos)) ∧
    (∀ text, decode text = .ok d → decode (encode d) = .ok d) ∧
    ∀ d' t t', d.nanos ≤ d'.nanos → decode (encode d) = .ok t → decode (encode d') = .ok t' →
      t'.nanos < t.nanos → Gap 1_000_000_000 d' ∨ Gap 60_000_000_000 d' := by
  refine ⟨?_, fun text htext => decode_encode_of_denoted ⟨text, htext⟩,
    fun d' t t' => gap_of_decode_encode_lt⟩
  obtain ⟨t, ht⟩ := exists_decode_encode d
  refine ⟨t, ht, fun hseconds hminutes => ?_, fun hgap => ?_, fun hgap => ?_⟩
  · obtain ⟨l, hl, hlongest⟩ := longest_of_not_gap hseconds hminutes
    rw [ht, Except.ok.injEq] at hl
    exact hl ▸ hlongest
  · obtain ⟨hsent, hlongest⟩ := hgap.loss minute_mem_units nextFiner_minute rfl
    rw [ht, Except.ok.injEq] at hsent
    exact ⟨_, hlongest, hsent ▸ rfl⟩
  · obtain ⟨hsent, hlongest⟩ := hgap.loss hour_mem_units nextFiner_hour rfl
    rw [ht, Except.ok.injEq] at hsent
    exact ⟨_, hlongest, hsent ▸ rfl⟩

/-- The longest timeout in seconds is sent as it is, and eleven seconds more as a shorter one. A
    hundred million minutes are sent as 39 minutes less than could be. -/
theorem longer_span_sent_shorter :
    decode (encode (.ofSeconds 99999999)) = .ok (.ofSeconds 99999999) ∧
    Longest (.ofSeconds 99999999) (.ofSeconds 99999999) ∧
    (∃ t l, decode (encode (.ofSeconds 100000010)) = .ok t ∧ Longest (.ofSeconds 100000010) l ∧
      t.nanos + 39 * 1_000_000_000 = l.nanos ∧ t.nanos < (Duration.ofSeconds 99999999).nanos ∧
      (Gap 1_000_000_000 (.ofSeconds 100000010) ∨ Gap 60_000_000_000 (.ofSeconds 100000010))) ∧
    ∃ t l, decode (encode (.ofSeconds 6000000000)) = .ok t ∧ Longest (.ofSeconds 6000000000) l ∧
      t.nanos + 39 * 60_000_000_000 = l.nanos := by
  obtain ⟨⟨s, hs, hlongest, -⟩, hkept, hlonger⟩ := encode_longest_but_in_gaps (.ofSeconds 99999999)
  obtain ⟨⟨t, ht, -, hseconds, -⟩, -⟩ := encode_longest_but_in_gaps (.ofSeconds 100000010)
  obtain ⟨⟨t', ht', -, -, hminutes⟩, -⟩ := encode_longest_but_in_gaps (.ofSeconds 6000000000)
  have hsame := hkept "99999999S" (by decide)
  obtain rfl : s = .ofSeconds 99999999 := Except.ok.inj (hs.symm.trans hsame)
  obtain ⟨l, hl, hloss⟩ := hseconds (by decide)
  obtain ⟨l', hl', hloss'⟩ := hminutes (by decide)
  have hlt : t.nanos < (Duration.ofSeconds 99999999).nanos := by
    have hwithin : l.nanos ≤ 100000010 * 1_000_000_000 := hl.within
    show t.nanos < 99999999 * 1_000_000_000
    omega
  exact ⟨hsame, hlongest (by decide) (by decide),
    ⟨t, l, ht, hl, hloss, hlt, hlonger _ _ _ (by decide) hsame ht hlt⟩, t', l', ht', hl', hloss'⟩

end Timeout

end CallPolicy
