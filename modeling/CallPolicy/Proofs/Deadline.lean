import CallPolicy.Proofs.Decode
import CallPolicy.Proofs.DefaultDeadline

set_option autoImplicit false

/-! # Configured deadlines

From the text of a configuration to the timeout that is sent. A written duration stays below
`2 ^ 64` nanoseconds (`Duration.nanos_lt_of_ofText?`), far from the longest timeout; what can become
zero on the way, a product whose parts are cut off, is refused wherever a deadline is put to use. -/

namespace CallPolicy

/-! ## Written durations -/

namespace Duration

theorem lt_of_inWord? {n m : Nat} (h : inWord? n = some m) : m < wordLimit := by
  unfold inWord? at h
  split at h
  · rename_i hlt
    cases h
    exact hlt
  · cases h

theorem lt_of_term? {cs rest : List Char} {n : Nat} (h : term? cs = some (n, rest)) :
    n < wordLimit := by
  unfold term? at h
  dsimp only at h
  split at h
  · cases h
  · obtain ⟨count, -, h⟩ := Option.bind_eq_some_iff.1 h
    -- with or without a unit, the product is the last thing that is checked
    split at h
    · split at h
      · obtain ⟨m, hm, hpair⟩ := Option.bind_eq_some_iff.1 h
        cases hpair
        exact lt_of_inWord? hm
      · cases h
    · obtain ⟨unit, -, h⟩ := Option.bind_eq_some_iff.1 h
      obtain ⟨m, hm, hpair⟩ := Option.bind_eq_some_iff.1 h
      cases hpair
      exact lt_of_inWord? hm

theorem lt_of_sum? {first n : Nat} {terms : List Nat} (hfirst : first < wordLimit)
    (h : sum? first terms = some n) : n < wordLimit := by
  induction terms generalizing first with
  | nil =>
    cases h
    exact hfirst
  | cons t rest ih =>
    obtain ⟨m, hm, hrest⟩ := Option.bind_eq_some_iff.1 h
    exact ih (lt_of_inWord? hm) hrest

theorem lt_of_product? {first n : Nat} {terms : List Nat} (h : product? first terms = some n) :
    n < wordLimit := by
  obtain ⟨factor, -, hlast⟩ := Option.bind_eq_some_iff.1 h
  exact lt_of_inWord? hlast

/-- A written duration has fewer than `2 ^ 64` nanoseconds. -/
theorem nanos_lt_of_ofText? {text : String} {d : Duration} (h : ofText? text = some d) :
    d.nanos < wordLimit := by
  obtain ⟨⟨first, rest⟩, hfirst, h⟩ := Option.bind_eq_some_iff.1 h
  obtain ⟨more, -, h⟩ := Option.bind_eq_some_iff.1 h
  have hterm : first < wordLimit := lt_of_term? hfirst
  dsimp only at h
  split at h
  · cases h
    exact hterm
  · split at h
    · split at h
      · obtain ⟨nanos, hnanos, hd⟩ := Option.bind_eq_some_iff.1 h
        cases hd
        exact lt_of_sum? hterm hnanos
      · obtain ⟨nanos, hnanos, hd⟩ := Option.bind_eq_some_iff.1 h
        cases hd
        exact lt_of_product? hnanos
    · cases h

theorem yields_read (v : YamlValue) :
    Yields (Duration.read v) fun d => d.nanos < wordLimit := by
  refine .bind (.any _) fun view _ => ?_
  cases view with
  | string text =>
    dsimp only
    split
    · rename_i d hd
      exact .pure (nanos_lt_of_ofText? hd)
    · exact .fail _
  | map members => exact .fail _
  | other found => exact .fail _

end Duration

/-! ## Configurations -/

namespace DeadlineConfig

theorem yields_read (v : YamlValue) :
    Yields (DeadlineConfig.read v) fun c => c.defaultDeadline.nanos < Duration.wordLimit := by
  refine .bind (P := fun d => ∀ x ∈ d.values, x.nanos < Duration.wordLimit)
    (yields_readRecord (fun e he v => ?_) v) fun d hd => .pure ?_
  · obtain rfl := List.mem_singleton.1 he
    exact Duration.yields_read v
  · show ((d.values.findSome? some).getD _).nanos < _
    cases hfound : d.values.findSome? some with
    | none => decide
    | some duration =>
      obtain ⟨x, hx, hsome⟩ := List.exists_of_findSome?_eq_some hfound
      cases hsome
      exact hd _ hx

theorem nanos_lt_of_decodeYaml {text : String} {c : DeadlineConfig}
    (h : decodeYaml DeadlineConfig.read text = .ok c) :
    c.defaultDeadline.nanos < Duration.wordLimit :=
  Yields.of_decodeYaml yields_read h

theorem validate_eq_ok_iff {c : DeadlineConfig} :
    c.validate = .ok () ↔ 0 < c.defaultDeadline.nanos := by
  simp [validate, Duration.isZero, Nat.pos_iff_ne_zero]

theorem validate_of_zero {c : DeadlineConfig} (h : c.defaultDeadline.nanos = 0) :
    c.validate = .error ⟨⟩ := by
  simp [validate, Duration.isZero, h]

/-- A deadline is loaded from a text iff the text decodes to it and it passes the check. -/
theorem ofYaml_eq_ok_iff {text : String} {c : DeadlineConfig} :
    ofYaml text = .ok c ↔ decodeYaml DeadlineConfig.read text = .ok c ∧ c.validate = .ok () := by
  simp only [ofYaml, loadText, checked, bind_eq_ok_iff, mapError_eq_ok_iff, pure, Except.pure,
    Except.ok.injEq]
  constructor
  · rintro ⟨c, hdecode, u, hcheck, rfl⟩
    exact ⟨hdecode, hcheck⟩
  · rintro ⟨hdecode, hcheck⟩
    exact ⟨c, hdecode, (), hcheck, rfl⟩

theorem ofYaml_of_zero {text : String} {c : DeadlineConfig}
    (hdecode : decodeYaml DeadlineConfig.read text = .ok c) (hzero : c.defaultDeadline.nanos = 0) :
    ofYaml text = .error (.zeroDeadline ⟨⟩) := by
  rw [ofYaml, loadText, hdecode]
  show c.checked = _
  rw [checked, validate_of_zero hzero]
  rfl

end DeadlineConfig

/-! ## What is sent -/

/-- A duration that is not zero and below `2 ^ 64` nanoseconds is sent within one part in 100000,
    and not as the longest timeout. -/
theorem Timeout.decode_encode_of_lt {d : Duration} (hpos : 0 < d.nanos)
    (hlt : d.nanos < Duration.wordLimit) :
    ∃ t, decode (encode d) = .ok t ∧ encode d ≠ "99999999H" ∧ 0 < t.nanos ∧ t.nanos ≤ d.nanos ∧
      (d.nanos - t.nanos) * 100000 ≤ d.nanos := by
  have hlimit : Duration.wordLimit ≤ (Duration.ofHours 99999999).nanos := by decide
  rcases fitting_spec d with ⟨u, hfinest, hfitting⟩ | ⟨hunfit, -⟩
  · have hread := decode_encode_of_fitting hfitting hfinest.fits hfinest.mem
    have hle : d.nanos / u.2 * u.2 ≤ d.nanos := Nat.div_mul_le_self _ _
    have hsome : d.nanos / u.2 * u.2 ≠ 0 := mt hfinest.eq_zero_iff.1 (Nat.ne_of_gt hpos)
    refine ⟨_, hread, fun hlongest => ?_, Nat.pos_of_ne_zero hsome, hle, hfinest.loss_le⟩
    -- the longest timeout is read back as more than any written duration has
    have hlong : decode "99999999H" = .ok (.ofHours 99999999) := rfl
    rw [hlongest, hlong, Except.ok.injEq] at hread
    rw [hread] at hlimit
    exact absurd (Nat.le_trans hlimit hle) (Nat.not_le.2 hlt)
  · have hlong := hours_le_of_unfit hunfit
    have hmore : (Duration.ofHours 99999999).nanos ≤ (Duration.ofHours 100000000).nanos := by decide
    omega

namespace DefaultDeadline

variable {σ ε α β γ : Type}

theorem ofConfig_eq_ok_iff {c : DeadlineConfig} {d : DefaultDeadline} :
    ofConfig c = .ok d ↔ c.validate = .ok () ∧ d = ⟨c.defaultDeadline⟩ := by
  simp only [ofConfig, bind_eq_ok_iff, pure, Except.pure, Except.ok.injEq]
  exact ⟨fun ⟨_, hcheck, hd⟩ => ⟨hcheck, hd.symm⟩, fun ⟨hcheck, hd⟩ => ⟨(), hcheck, hd.symm⟩⟩

theorem ofConfig_of_zero {c : DeadlineConfig} (h : c.defaultDeadline.nanos = 0) :
    ofConfig c = .error ⟨⟩ := by
  rw [ofConfig, DeadlineConfig.validate_of_zero h]
  rfl

/-- **Accepted deadlines are sent as they are.** A deadline is loaded from a text iff the text
    decodes to it and it makes a layer. The layer then gives every request without a timeout one
    that is read back as a duration above zero, at most the configured one, and less than it by at
    most one part in 100000; the longest timeout is never sent. A text that decodes to a deadline of
    zero is refused for that, both when it is loaded and when the layer is made. -/
theorem accepted_deadline_is_sent (text : String) :
    (∀ c, DeadlineConfig.ofYaml text = .ok c ↔
      decodeYaml DeadlineConfig.read text = .ok c ∧ ofConfig c = .ok ⟨c.defaultDeadline⟩) ∧
    (∀ c d, decodeYaml DeadlineConfig.read text = .ok c → ofConfig c = .ok d →
      ∀ (inner : Service σ (Request α β) ε γ) (state : σ) (request : Request α β),
        request.headers.values timeoutHeader = [] →
        ∃ value sent t,
          ((d.layer inner.recording).call (state, []) request).state.2 =
            [{ request with headers := request.headers.append timeoutHeader value }] ∧
          value.text? = some sent ∧ sent ≠ "99999999H" ∧ Timeout.decode sent = .ok t ∧
          0 < t.nanos ∧ t.nanos ≤ c.defaultDeadline.nanos ∧
          (c.defaultDeadline.nanos - t.nanos) * 100000 ≤ c.defaultDeadline.nanos) ∧
    ∀ c, decodeYaml DeadlineConfig.read text = .ok c → c.defaultDeadline.nanos = 0 →
      DeadlineConfig.ofYaml text = .error (.zeroDeadline ⟨⟩) ∧ ofConfig c = .error ⟨⟩ := by
  refine ⟨fun c => ?_, fun c d hdecode hlayer inner state request habsent => ?_,
    fun c hdecode hzero => ⟨DeadlineConfig.ofYaml_of_zero hdecode hzero, ofConfig_of_zero hzero⟩⟩
  · simp only [DeadlineConfig.ofYaml_eq_ok_iff, ofConfig_eq_ok_iff, and_true]
  · obtain ⟨hcheck, rfl⟩ := ofConfig_eq_ok_iff.1 hlayer
    obtain ⟨t, hread, hshorter, hpos, hle, hloss⟩ :=
      Timeout.decode_encode_of_lt (DeadlineConfig.validate_eq_ok_iff.1 hcheck)
        (DeadlineConfig.nanos_lt_of_decodeYaml hdecode)
    refine ⟨.ofText (Timeout.encode c.defaultDeadline), _, t, ?_,
      HeaderValue.text?_eq_some_iff.2 ⟨Timeout.isVisible_encode _, rfl⟩, hshorter, hread, hpos, hle,
      hloss⟩
    show (call _ inner.recording (state, []) request).state.2 = _
    rw [call_eq]
    show [] ++ [forward _ request] = _
    rw [forward, forwardHeaders, if_pos habsent, List.nil_append]

/-- A written sum is loaded and sent with a request that has no timeout; a written product that is
    cut to zero is refused. -/
theorem sum_sent_and_cut_product_refused :
    let answering : Service Unit (Request Unit Unit) Unit Unit :=
      ⟨fun _ => .ok (), fun state _ => { state, outcome := .ok () }⟩
    let request : Request Unit Unit :=
      { target := ⟨"/Simple/SayHello", none⟩, headers := .ofList [], extras := (), body := () }
    let layer : DefaultDeadline := ⟨⟨60_000_000_001⟩⟩
    (DeadlineConfig.ofYaml "default_deadline: 1m + 1ns" = .ok ⟨layer.deadline⟩ ∧
      ∃ value sent t,
        ((layer.layer answering.recording).call ((), []) request).state.2 =
          [{ request with headers := request.headers.append timeoutHeader value }] ∧
        value.text? = some sent ∧ sent ≠ "99999999H" ∧ Timeout.decode sent = .ok t ∧
        0 < t.nanos ∧ t.nanos ≤ 60_000_000_001 ∧
        (60_000_000_001 - t.nanos) * 100000 ≤ 60_000_000_001) ∧
    DeadlineConfig.ofYaml "default_deadline: 1ns * 1ns" = .error (.zeroDeadline ⟨⟩) := by
  intro answering request layer
  have hdecode : decodeYaml DeadlineConfig.read "default_deadline: 1m + 1ns" =
      .ok ⟨layer.deadline⟩ := toOption_eq_some_iff.1 (by decide +kernel)
  have hcut : decodeYaml DeadlineConfig.read "default_deadline: 1ns * 1ns" = .ok ⟨⟨0⟩⟩ :=
    toOption_eq_some_iff.1 (by decide +kernel)
  have hsum := @accepted_deadline_is_sent Unit Unit Unit Unit Unit "default_deadline: 1m + 1ns"
  have hproduct := @accepted_deadline_is_sent Unit Unit Unit Unit Unit "default_deadline: 1ns * 1ns"
  exact ⟨⟨(hsum.1 _).2 ⟨hdecode, rfl⟩, hsum.2.1 _ layer hdecode rfl answering () request rfl⟩,
    (hproduct.2.2 _ hcut rfl).1⟩

end DefaultDeadline

end CallPolicy
