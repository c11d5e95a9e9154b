import CallPolicy.Proofs.Resolver

set_option autoImplicit false

/-! # The check of a token configuration

What the check of a configuration refuses, and what a configuration that passes is good for. The
check walks over the entries and keeps the tokens that it has seen; these are at every place the
tokens in front of it, none of which was at fault (`TokenConfig.blames_of_validateEntries`), so what
it blames is the first entry at fault. Nothing else stands between a configuration and its resolver,
and with tokens that differ the map of the resolver holds one principal for each entry, whatever
the order of the entries is. -/

namespace CallPolicy

/-! ## Entries at fault -/

namespace TokenConfig

/-- The entry at the index has no token. -/
def LacksToken (l : List TokenEntry) (i : Nat) : Prop :=
  ∃ e, l[i]? = some e ∧ e.token = ""

/-- The entry at the index has the token of an earlier one. -/
def RepeatsToken (l : List TokenEntry) (i : Nat) : Prop :=
  ∃ e, l[i]? = some e ∧ ∃ j < i, ∃ f, l[j]? = some f ∧ f.token = e.token

/-- The entry at the index cannot be used. -/
def AtFault (l : List TokenEntry) (i : Nat) : Prop :=
  LacksToken l i ∨ RepeatsToken l i

/-- The entry at the index is at fault, and none before it is. -/
structure FirstFault (l : List TokenEntry) (i : Nat) : Prop where
  fault : AtFault l i
  before : ∀ j < i, ¬ AtFault l j

/-- The error names the first entry at fault, and its fault. -/
inductive Blames (l : List TokenEntry) : TokenConfigError → Prop where
  | emptyToken {i : Nat} (hfirst : FirstFault l i) (hlacks : LacksToken l i) :
      Blames l (.emptyToken i)
  | duplicateToken {i : Nat} (hfirst : FirstFault l i) (hrepeats : RepeatsToken l i) :
      Blames l (.duplicateToken i)

variable {l front rest : List TokenEntry} {e : TokenEntry}

theorem lacksToken_append_cons : LacksToken (front ++ e :: rest) front.length ↔ e.token = "" := by
  simp [LacksToken]

theorem repeatsToken_append_cons :
    RepeatsToken (front ++ e :: rest) front.length ↔ e.token ∈ front.map TokenEntry.token := by
  have hat : (front ++ e :: rest)[front.length]? = some e := by simp
  rw [RepeatsToken, List.mem_map]
  constructor
  · rintro ⟨e', he', j, hj, f, hf, htoken⟩
    obtain rfl : e = e' := Option.some.inj (hat.symm.trans he')
    rw [List.getElem?_append_left hj] at hf
    exact ⟨f, List.mem_of_getElem? hf, htoken⟩
  · rintro ⟨f, hf, htoken⟩
    obtain ⟨j, hj, rfl⟩ := List.getElem_of_mem hf
    exact ⟨e, hat, j, hj, front[j], by rw [List.getElem?_append_left hj]; simp, htoken⟩

theorem FirstFault.unique {i j : Nat} (hi : FirstFault l i) (hj : FirstFault l j) : i = j := by
  rcases Nat.lt_trichotomy i j with hlt | heq | hlt
  · exact absurd hi.fault (hj.before i hlt)
  · exact heq
  · exact absurd hj.fault (hi.before j hlt)

/-- The first entry at fault has one fault: an empty token that is repeated is at fault earlier. -/
theorem FirstFault.not_both {i : Nat} (h : FirstFault l i) (hlacks : LacksToken l i)
    (hrepeats : RepeatsToken l i) : False := by
  obtain ⟨e, he, hempty⟩ := hlacks
  obtain ⟨e', he', j, hj, f, hf, htoken⟩ := hrepeats
  obtain rfl : e = e' := Option.some.inj (he.symm.trans he')
  exact h.before j hj (.inl ⟨f, hf, htoken.trans hempty⟩)

theorem blames_emptyToken_iff {i : Nat} :
    Blames l (.emptyToken i) ↔ FirstFault l i ∧ LacksToken l i := by
  constructor
  · intro h
    cases h with
    | emptyToken hfirst hlacks => exact ⟨hfirst, hlacks⟩
  · rintro ⟨hfirst, hlacks⟩
    exact .emptyToken hfirst hlacks

theorem blames_duplicateToken_iff {i : Nat} :
    Blames l (.duplicateToken i) ↔ FirstFault l i ∧ RepeatsToken l i := by
  constructor
  · intro h
    cases h with
    | duplicateToken hfirst hrepeats => exact ⟨hfirst, hrepeats⟩
  · rintro ⟨hfirst, hrepeats⟩
    exact .duplicateToken hfirst hrepeats

theorem Blames.unique {x y : TokenConfigError} (hx : Blames l x) (hy : Blames l y) : x = y := by
  cases hx with
  | emptyToken hfirst hlacks =>
    cases hy with
    | emptyToken hfirst' _ => rw [hfirst.unique hfirst']
    | duplicateToken hfirst' hrepeats =>
      obtain rfl := hfirst.unique hfirst'
      exact (hfirst.not_both hlacks hrepeats).elim
  | duplicateToken hfirst hrepeats =>
    cases hy with
    | emptyToken hfirst' hlacks =>
      obtain rfl := hfirst.unique hfirst'
      exact (hfirst.not_both hlacks hrepeats).elim
    | duplicateToken hfirst' _ => rw [hfirst.unique hfirst']

/-! ## What the check blames -/

/-- No entry of a list that passes is at fault. -/
theorem not_atFault_of_ok (h : validateEntries [] 0 l = .ok ()) (i : Nat) : ¬ AtFault l i := by
  obtain ⟨hentries, hpair⟩ := validateEntries_eq_ok_iff.1 h
  rintro (⟨e, he, hempty⟩ | ⟨e, he, j, hj, f, hf, htoken⟩)
  · exact (hentries e (List.mem_of_getElem? he)).1 hempty
  · obtain ⟨hi, rfl⟩ := List.getElem?_eq_some_iff.1 he
    obtain ⟨hj', rfl⟩ := List.getElem?_eq_some_iff.1 hf
    exact List.pairwise_iff_getElem.1 hpair j i hj' hi hj htoken

/-- What is blamed behind entries without a fault, whose tokens have been seen, is the first entry
    at fault of the whole list. -/
theorem blames_of_validateEntries {x : TokenConfigError}
    (hfront : ∀ j < front.length, ¬ AtFault (front ++ rest) j)
    (h : validateEntries (front.reverse.map TokenEntry.token) front.length rest = .error x) :
    Blames (front ++ rest) x := by
  induction rest generalizing front with
  | nil => simp [validateEntries] at h
  | cons e rest ih =>
    have hlacks : e.token = "" ↔ LacksToken (front ++ e :: rest) front.length :=
      lacksToken_append_cons.symm
    have hrepeats : (front.reverse.map TokenEntry.token).contains e.token = true ↔
        RepeatsToken (front ++ e :: rest) front.length := by
      rw [repeatsToken_append_cons]
      simp
    rw [validateEntries] at h
    split at h
    · rename_i hempty
      cases h
      exact .emptyToken ⟨.inl (hlacks.1 hempty), hfront⟩ (hlacks.1 hempty)
    · rename_i hnonempty
      split at h
      · rename_i hseen
        cases h
        exact .duplicateToken ⟨.inr (hrepeats.1 hseen), hfront⟩ (hrepeats.1 hseen)
      · -- the entry is not at fault either, so it joins those in front
        rename_i hunseen
        have hmore : ∀ j < (front ++ [e]).length, ¬ AtFault ((front ++ [e]) ++ rest) j := by
          rw [List.append_assoc, List.singleton_append, List.length_append, List.length_singleton]
          intro j hj
          rcases Nat.lt_succ_iff_lt_or_eq.1 hj with hlt | rfl
          · exact hfront j hlt
          · exact not_or.2 ⟨mt hlacks.2 hnonempty, mt hrepeats.2 hunseen⟩
        have hblames := ih hmore (by simpa using h)
        rwa [List.append_assoc, List.singleton_append] at hblames

theorem validateEntries_eq_error_iff {x : TokenConfigError} :
    validateEntries [] 0 l = .error x ↔ Blames l x := by
  have hblames : ∀ y, validateEntries [] 0 l = .error y → Blames l y := fun y =>
    @blames_of_validateEntries [] l y fun j hj => absurd hj (Nat.not_lt_zero j)
  constructor
  · exact hblames x
  · intro h
    cases hcheck : validateEntries [] 0 l with
    | error y => rw [h.unique (hblames y hcheck)]
    | ok u =>
      cases h with
      | emptyToken hfirst _ => exact absurd hfirst.fault (not_atFault_of_ok hcheck _)
      | duplicateToken hfirst _ => exact absurd hfirst.fault (not_atFault_of_ok hcheck _)

/-- The header is checked first, and the entries are behind it. -/
theorem validate_eq_error_iff {c : TokenConfig} {x : TokenConfigError} :
    c.validate = .error x ↔ isHeaderName c.header = false ∧ x = .headerName ∨
      isHeaderName c.header = true ∧ Blames c.tokens x := by
  unfold validate
  split
  · rename_i hname
    simp [hname, validateEntries_eq_error_iff]
  · rename_i hname
    simp [hname, eq_comm]

end TokenConfig

/-! ## Resolvers of checked configurations -/

namespace TokenResolver

variable {c : TokenConfig} {r : TokenResolver}

theorem exists_ofConfig_eq_ok_iff : (∃ r, ofConfig c = .ok r) ↔ c.validate = .ok () := by
  constructor
  · rintro ⟨r, hr⟩
    exact (ofConfig_eq_ok_iff.1 hr).1
  · intro hcheck
    exact ⟨_, ofConfig_eq_ok_iff.2 ⟨hcheck, rfl⟩⟩

theorem ofConfig_eq_error_iff {x : TokenConfigError} :
    ofConfig c = .error x ↔ c.validate = .error x := by
  rw [ofConfig_eq]
  cases c.validate with
  | error y => simp [Except.map]
  | ok u => simp [Except.map]

/-- The map of a resolver holds one principal for each entry. -/
theorem size_of_ofConfig (h : ofConfig c = .ok r) : r.size = c.tokens.length := by
  have hdistinct := distinct_keys h
  obtain ⟨-, rfl⟩ := ofConfig_eq_ok_iff.1 h
  rw [size, Std.HashMap.size_ofList hdistinct, List.length_map]

/-- Resolvers with the same header and scheme that know the same tokens are alike. -/
theorem resolve_eq_of_lookup {r' : TokenResolver} (hheader : r'.header = r.header)
    (hscheme : r'.scheme = r.scheme)
    (hlookup : ∀ token : String, r'.principals[token]? = r.principals[token]?)
    (headers : Headers) : r'.resolve headers = r.resolve headers := by
  simp only [resolve, hheader, hscheme, hlookup]

/-- The check takes the entries in any order. -/
theorem validate_of_perm {tokens : List TokenEntry} (hperm : c.tokens.Perm tokens)
    (h : c.validate = .ok ()) : TokenConfig.validate { c with tokens } = .ok () := by
  rw [TokenConfig.validate_eq_ok_iff] at h ⊢
  obtain ⟨hname, hempty, hpair⟩ := h
  exact ⟨hname, fun e he => hempty e (hperm.mem_iff.2 he), (hperm.pairwise_iff Ne.symm).1 hpair⟩

/-- A resolver finds the same callers whatever the order of its entries is. -/
theorem exists_resolver_of_perm {tokens : List TokenEntry} (hperm : c.tokens.Perm tokens)
    (h : ofConfig c = .ok r) : ∃ r', ofConfig { c with tokens } = .ok r' ∧
      ∀ headers, r'.resolve headers = r.resolve headers := by
  have hcheck := validate_of_perm hperm (ofConfig_eq_ok_iff.1 h).1
  obtain ⟨r', hr'⟩ := exists_ofConfig_eq_ok_iff.2 hcheck
  refine ⟨r', hr', resolve_eq_of_lookup ?_ ?_ fun token => Option.ext fun p => ?_⟩
  · rw [(ofConfig_eq_ok_iff.1 h).2, (ofConfig_eq_ok_iff.1 hr').2]
  · rw [(ofConfig_eq_ok_iff.1 h).2, (ofConfig_eq_ok_iff.1 hr').2]
  · rw [lookup_eq_some_iff h, lookup_eq_some_iff hr']
    simp only [hperm.mem_iff]

/-- **The check is exact, and the only gate.** A configuration is refused for its header iff that is
    no header name. If it is one, the configuration passes iff its tokens are not empty and differ,
    and otherwise the first entry at fault is blamed for its fault. There is a resolver of a
    configuration iff it passes, and else the error is the one of the check; reading the header once
    more adds none. A resolver knows as many tokens as there are entries, and their order makes no
    difference to what it finds and reports. -/
theorem check_is_only_gate (c : TokenConfig) :
    (c.validate = .error .headerName ↔ isHeaderName c.header = false) ∧
    (isHeaderName c.header = true →
      (c.validate = .ok () ↔ (∀ e ∈ c.tokens, e.token ≠ "") ∧
        c.tokens.Pairwise fun e f => e.token ≠ f.token) ∧
      (∀ i, c.validate = .error (.emptyToken i) ↔
        TokenConfig.FirstFault c.tokens i ∧ TokenConfig.LacksToken c.tokens i) ∧
      ∀ i, c.validate = .error (.duplicateToken i) ↔
        TokenConfig.FirstFault c.tokens i ∧ TokenConfig.RepeatsToken c.tokens i) ∧
    ((∃ r, ofConfig c = .ok r) ↔ c.validate = .ok ()) ∧
    (∀ x, ofConfig c = .error x ↔ c.validate = .error x) ∧
    (ofConfig c = c.validate.map fun _ =>
      ⟨headerKey c.header, c.scheme, .ofList (c.tokens.map fun e => (e.token, principalOf e))⟩) ∧
    ∀ r, ofConfig c = .ok r → r.size = c.tokens.length ∧
      ∀ tokens, c.tokens.Perm tokens → ∃ r', ofConfig { c with tokens } = .ok r' ∧
        ∀ headers, r'.resolve headers = r.resolve headers := by
  refine ⟨?_, fun hname => ⟨?_, fun i => ?_, fun i => ?_⟩, exists_ofConfig_eq_ok_iff,
    fun x => ofConfig_eq_error_iff, ofConfig_eq c,
    fun r hr => ⟨size_of_ofConfig hr, fun tokens hperm => exists_resolver_of_perm hperm hr⟩⟩
  · rw [TokenConfig.validate_eq_error_iff]
    constructor
    · rintro (⟨hname, -⟩ | ⟨-, hblames⟩)
      · exact hname
      · cases hblames
    · exact fun hname => .inl ⟨hname, rfl⟩
  · rw [TokenConfig.validate_eq_ok_iff]
    exact and_iff_right hname
  · rw [TokenConfig.validate_eq_error_iff, ← TokenConfig.blames_emptyToken_iff]
    simp [hname]
  · rw [TokenConfig.validate_eq_error_iff, ← TokenConfig.blames_duplicateToken_iff]
    simp [hname]

/-- Of a repeated and an empty token behind it the repeated one is blamed. Without them the entries
    make a resolver of two tokens, and in the other order one that finds the same callers. -/
theorem repeated_token_blamed :
    (TokenConfig.mk "X-Api-Key" "" [⟨"k1", "alice", []⟩, ⟨"k2", "bob", ["a"]⟩, ⟨"k1", "eve", ["b"]⟩,
      ⟨"", "nobody", []⟩]).validate = .error (.duplicateToken 2) ∧
    ∃ r r', ofConfig ⟨"X-Api-Key", "", [⟨"k1", "alice", []⟩, ⟨"k2", "bob", ["a"]⟩]⟩ = .ok r ∧
      ofConfig ⟨"X-Api-Key", "", [⟨"k2", "bob", ["a"]⟩, ⟨"k1", "alice", []⟩]⟩ = .ok r' ∧
      r.size = 2 ∧ ∀ headers, r'.resolve headers = r.resolve headers := by
  constructor
  · have hgate := (check_is_only_gate ⟨"X-Api-Key", "", [⟨"k1", "alice", []⟩, ⟨"k2", "bob", ["a"]⟩,
      ⟨"k1", "eve", ["b"]⟩, ⟨"", "nobody", []⟩]⟩).2.1 (by decide)
    have hrepeats : TokenConfig.RepeatsToken [⟨"k1", "alice", []⟩, ⟨"k2", "bob", ["a"]⟩,
        ⟨"k1", "eve", ["b"]⟩, ⟨"", "nobody", []⟩] 2 :=
      ⟨_, rfl, 0, by decide, _, rfl, rfl⟩
    refine (hgate.2.2 2).2 ⟨⟨.inr hrepeats, fun j hj => ?_⟩, hrepeats⟩
    obtain rfl | rfl : j = 0 ∨ j = 1 := by omega
    · simp [TokenConfig.AtFault, TokenConfig.LacksToken, TokenConfig.RepeatsToken]
    · simp [TokenConfig.AtFault, TokenConfig.LacksToken, TokenConfig.RepeatsToken]
  · have hgate := (check_is_only_gate
      ⟨"X-Api-Key", "", [⟨"k1", "alice", []⟩, ⟨"k2", "bob", ["a"]⟩]⟩).2
    have hcheck := (hgate.1 (by decide)).1.2 ⟨by decide, by decide⟩
    obtain ⟨r, hr⟩ := hgate.2.1.2 hcheck
    obtain ⟨hsize, hany⟩ := hgate.2.2.2.2 r hr
    obtain ⟨r', hr', hsame⟩ := hany _ (.swap _ _ _)
    exact ⟨r, r', hr, hr', hsize, hsame⟩

end TokenResolver

end CallPolicy
