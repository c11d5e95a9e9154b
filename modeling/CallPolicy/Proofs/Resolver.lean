import CallPolicy.Proofs.Headers
import CallPolicy.Resolver

set_option autoImplicit false

/-! # Static tokens

Who is found by a resolver with a fixed list of tokens. Checking the configuration makes its tokens
pairwise different, so the map that the resolver looks tokens up in loses no entry
(`TokenResolver.lookup_eq_some_iff`); the rest is the first value of one header, read as bytes. -/

namespace CallPolicy

/-! ## Checked entries -/

namespace TokenConfig

/-- Entries pass the check iff their tokens are not empty and differ, from each other and from those
    seen before. -/
theorem validateEntries_eq_ok_iff {seen : List String} {n : Nat} {l : List TokenEntry} :
    validateEntries seen n l = .ok () ↔
      (∀ e ∈ l, e.token ≠ "" ∧ e.token ∉ seen) ∧ l.Pairwise fun e f => e.token ≠ f.token := by
  induction l generalizing seen n with
  | nil => simp [validateEntries]
  | cons e rest ih =>
    rw [validateEntries]
    by_cases hempty : e.token = ""
    · simp [hempty]
    · by_cases hseen : e.token ∈ seen
      · simp [hempty, hseen]
      · rw [if_neg hempty, if_neg (by simpa using hseen), ih]
        simp only [List.mem_cons, not_or, List.pairwise_cons, forall_eq_or_imp]
        constructor
        · rintro ⟨hrest, hpair⟩
          exact ⟨⟨⟨hempty, hseen⟩, fun f hf => ⟨(hrest f hf).1, (hrest f hf).2.2⟩⟩,
            fun f hf => Ne.symm (hrest f hf).2.1, hpair⟩
        · rintro ⟨⟨-, hrest⟩, hfresh, hpair⟩
          exact ⟨fun f hf => ⟨(hrest f hf).1, Ne.symm (hfresh f hf), (hrest f hf).2⟩, hpair⟩

theorem validate_eq_ok_iff {c : TokenConfig} :
    c.validate = .ok () ↔ isHeaderName c.header = true ∧ (∀ e ∈ c.tokens, e.token ≠ "") ∧
      c.tokens.Pairwise fun e f => e.token ≠ f.token := by
  unfold validate
  split
  · rename_i hname
    simp [validateEntries_eq_ok_iff, hname]
  · rename_i hname
    simp [hname]

end TokenConfig

/-! ## The principal of an entry -/

/-- The principal has the identifier of the entry and exactly its authorities. -/
def TokenEntry.Names (e : TokenEntry) (p : Principal) : Prop :=
  p.id = e.id ∧ ∀ a, a ∈ p.authorities.toList ↔ a ∈ e.authorities

theorem TokenEntry.names_iff {e : TokenEntry} {p : Principal} :
    e.Names p ↔ p = TokenResolver.principalOf e := by
  constructor
  · rintro ⟨hid, hauth⟩
    obtain ⟨id, authorities⟩ := p
    obtain rfl : id = e.id := hid
    have hset : authorities = .ofList e.authorities :=
      AuthoritySet.ext_mem fun a => (hauth a).trans AuthoritySet.mem_toList_ofList.symm
    rw [hset]
    rfl
  · rintro rfl
    exact ⟨rfl, fun a => AuthoritySet.mem_toList_ofList⟩

/-! ## Look-up -/

namespace TokenResolver

variable {c : TokenConfig} {r : TokenResolver}

/-- Behind the check the header is a name, so reading it once more goes well. -/
theorem ofConfig_eq (c : TokenConfig) :
    ofConfig c = c.validate.map fun _ =>
      ⟨headerKey c.header, c.scheme, .ofList (c.tokens.map fun e => (e.token, principalOf e))⟩ := by
  unfold ofConfig
  cases hcheck : c.validate with
  | error x => rfl
  | ok u =>
    have hname : isHeaderName c.header = true := (TokenConfig.validate_eq_ok_iff.1 hcheck).1
    rw [headerKey?, if_pos hname]
    rfl

/-- A resolver is made of a configuration iff that passes its check. -/
theorem ofConfig_eq_ok_iff :
    ofConfig c = .ok r ↔ c.validate = .ok () ∧
      r = ⟨headerKey c.header, c.scheme,
        .ofList (c.tokens.map fun e => (e.token, principalOf e))⟩ := by
  rw [ofConfig_eq]
  cases c.validate with
  | error x => simp [Except.map]
  | ok u => simp [Except.map, eq_comm]

/-- The entries of a resolver have tokens that are not empty and differ. -/
theorem tokens_of_ofConfig (h : ofConfig c = .ok r) :
    (∀ e ∈ c.tokens, e.token ≠ "") ∧ c.tokens.Pairwise fun e f => e.token ≠ f.token :=
  (TokenConfig.validate_eq_ok_iff.1 (ofConfig_eq_ok_iff.1 h).1).2

/-- No two entries of a resolver go to one place of its map. -/
theorem distinct_keys (h : ofConfig c = .ok r) :
    (c.tokens.map fun e => (e.token, principalOf e)).Pairwise fun x y => (x.1 == y.1) = false := by
  rw [List.pairwise_map]
  exact (tokens_of_ofConfig h).2.imp fun hne => by simpa using hne

/-- The map of a resolver gives each token the principal of its entry. -/
theorem lookup_eq_some_iff (h : ofConfig c = .ok r) {token : String} {p : Principal} :
    r.principals[token]? = some p ↔ ∃ e ∈ c.tokens, e.token = token ∧ p = principalOf e := by
  have hdistinct := distinct_keys h
  obtain ⟨-, rfl⟩ := ofConfig_eq_ok_iff.1 h
  -- no later entry replaces the principal of an earlier one
  have hfound : ∀ e ∈ c.tokens,
      (Std.HashMap.ofList (c.tokens.map fun e => (e.token, principalOf e)))[e.token]? =
        some (principalOf e) := fun e he =>
    Std.HashMap.getElem?_ofList_of_mem (beq_self_eq_true e.token) hdistinct
      (List.mem_map.2 ⟨e, he, rfl⟩)
  constructor
  · intro hp
    by_cases hmem : token ∈ c.tokens.map TokenEntry.token
    · obtain ⟨e, he, rfl⟩ := List.mem_map.1 hmem
      rw [hfound e he] at hp
      exact ⟨e, he, rfl, (Option.some.inj hp).symm⟩
    · have habsent : ((c.tokens.map fun e => (e.token, principalOf e)).map Prod.fst).contains
          token = false := by
        simpa [List.map_map, Function.comp_def] using hmem
      rw [Std.HashMap.getElem?_ofList_of_contains_eq_false habsent] at hp
      cases hp
  · rintro ⟨e, he, rfl, rfl⟩
    exact hfound e he

/-- The entries of a resolver are told apart by their tokens. -/
theorem index_eq_of_token_eq (h : ofConfig c = .ok r) {i j : Nat} {e f : TokenEntry}
    (hi : c.tokens[i]? = some e) (hj : c.tokens[j]? = some f) (htoken : f.token = e.token) :
    j = i := by
  have hpair := (tokens_of_ofConfig h).2
  obtain ⟨hi', rfl⟩ := List.getElem?_eq_some_iff.1 hi
  obtain ⟨hj', rfl⟩ := List.getElem?_eq_some_iff.1 hj
  rw [List.pairwise_iff_getElem] at hpair
  rcases Nat.lt_trichotomy j i with hlt | rfl | hlt
  · exact absurd htoken (hpair j i hj' hi' hlt)
  · rfl
  · exact absurd htoken.symm (hpair i j hi' hj' hlt)

/-! ## Resolution -/

/-- A caller is found iff the value of the header is visible, and is the scheme with a known token
    behind it. -/
theorem resolve_caller_eq_some_iff (r : TokenResolver) {headers : Headers} {p : Principal} :
    (r.resolve headers).caller = some p ↔
      ∃ value token, headers.first? r.header = some value ∧ value.IsVisible ∧
        value = .ofText (r.scheme ++ token) ∧ r.principals[token]? = some p := by
  constructor
  · intro h
    unfold resolve at h
    split at h
    · cases h
    · rename_i text htext
      obtain ⟨value, hvalue, htext⟩ := Option.bind_eq_some_iff.1 htext
      obtain ⟨hvisible, rfl⟩ := HeaderValue.text?_eq_some_iff.1 htext
      split at h
      · cases h
      · rename_i token htoken
        have hsplit : text = r.scheme ++ String.ofList token :=
          String.toList_inj.1 (by simp [afterScheme?_eq_some_iff.1 htoken])
        split at h
        · cases h
        · rename_i principal hprincipal
          cases h
          exact ⟨_, String.ofList token, hvalue, hvisible, by rw [hsplit], hprincipal⟩
  · rintro ⟨value, token, hvalue, hvisible, rfl, hprincipal⟩
    have htext : (headers.first? r.header >>= HeaderValue.text?) = some (r.scheme ++ token) := by
      simpa [hvalue] using HeaderValue.text?_eq_some_iff.2 ⟨hvisible, rfl⟩
    have htoken : afterScheme? r.scheme.toList (r.scheme.toList ++ token.toList) =
        some token.toList := afterScheme?_eq_some_iff.2 rfl
    simp [resolve, htext, htoken, hprincipal]

theorem first?_header (h : ofConfig c = .ok r) (headers : Headers) :
    headers.first? r.header = (headers.values c.header).head? := by
  obtain ⟨-, rfl⟩ := ofConfig_eq_ok_iff.1 h
  rw [Headers.first?_headerKey, Headers.first?_eq_head?_values]

/-- What is resolved depends on the first value of one header alone. -/
theorem resolve_congr (h : ofConfig c = .ok r) {headers headers' : Headers}
    (hfirst : (headers.values c.header).head? = (headers'.values c.header).head?) :
    r.resolve headers = r.resolve headers' := by
  have hvalue : headers.first? r.header = headers'.first? r.header := by
    rw [first?_header h, first?_header h, hfirst]
  simp only [resolve, hvalue]

/-- Who a configured resolver finds, by its entries. -/
theorem resolve_ofConfig_eq_some_iff (h : ofConfig c = .ok r) {headers : Headers} {p : Principal} :
    (r.resolve headers).caller = some p ↔
      ∃ value later, headers.values c.header = value :: later ∧ value.IsVisible ∧
        ∃ e ∈ c.tokens, value = .ofText (c.scheme ++ e.token) ∧ e.Names p := by
  have hscheme : r.scheme = c.scheme := by
    rw [(ofConfig_eq_ok_iff.1 h).2]
  rw [resolve_caller_eq_some_iff, first?_header h, hscheme]
  constructor
  · rintro ⟨value, token, hvalue, hvisible, htext, hprincipal⟩
    obtain ⟨later, hlater⟩ := List.head?_eq_some_iff.1 hvalue
    obtain ⟨e, he, rfl, hp⟩ := (lookup_eq_some_iff h).1 hprincipal
    exact ⟨value, later, hlater, hvisible, e, he, htext, TokenEntry.names_iff.2 hp⟩
  · rintro ⟨value, later, hlater, hvisible, e, he, htext, hp⟩
    exact ⟨value, e.token, List.head?_eq_some_iff.2 ⟨later, hlater⟩, hvisible, htext,
      (lookup_eq_some_iff h).2 ⟨e, he, rfl, TokenEntry.names_iff.1 hp⟩⟩

/-- A value that ends where the token should begin belongs to nobody. -/
theorem resolve_bare_scheme (h : ofConfig c = .ok r) {headers : Headers} {later : List HeaderValue}
    (hvalues : headers.values c.header = .ofText c.scheme :: later) :
    (r.resolve headers).caller = none := by
  rw [Option.eq_none_iff_forall_not_mem]
  intro p hp
  obtain ⟨value, _, hvalue, -, e, he, htext, -⟩ := (resolve_ofConfig_eq_some_iff h).1 hp
  rw [hvalues, List.cons.injEq] at hvalue
  rw [← hvalue.1, HeaderValue.ofText_inj] at htext
  have hempty : e.token = "" :=
    (String.append_right_inj c.scheme).1 (by simpa using htext.symm)
  exact (tokens_of_ofConfig h).1 e he hempty

/-- Whoever presents the token of an entry is taken for that entry iff the bytes that are presented
    can be read as text. -/
theorem resolve_presented_iff (h : ofConfig c = .ok r) {headers : Headers}
    {later : List HeaderValue} {e : TokenEntry} (he : e ∈ c.tokens)
    (hvalues : headers.values c.header = .ofText (c.scheme ++ e.token) :: later) :
    (∃ p, (r.resolve headers).caller = some p ∧ e.Names p) ↔
      (HeaderValue.ofText c.scheme).IsVisible ∧ (HeaderValue.ofText e.token).IsVisible := by
  rw [← HeaderValue.isVisible_append, ← HeaderValue.ofText_append]
  constructor
  · rintro ⟨p, hp, -⟩
    obtain ⟨value, _, hvalue, hvisible, -⟩ := (resolve_ofConfig_eq_some_iff h).1 hp
    rw [hvalues, List.cons.injEq] at hvalue
    exact hvalue.1 ▸ hvisible
  · intro hvisible
    have hnames : e.Names (principalOf e) := TokenEntry.names_iff.2 rfl
    exact ⟨principalOf e, (resolve_ofConfig_eq_some_iff h).2
      ⟨_, later, hvalues, hvisible, e, he, rfl, hnames⟩, hnames⟩

/-- **Exact authentication.** A resolver that was made of a configuration finds a caller iff the
    first value of the configured header is visible text and is the scheme with the token of an
    entry behind it; the caller is then the one that this entry names, and no other entry has the
    token. So the bare scheme finds nobody, nothing but that first value matters, and the token of
    an entry finds its caller unless the scheme or the token holds a byte that no text value can. -/
theorem resolve_exact (h : ofConfig c = .ok r) :
    (∀ headers p, (r.resolve headers).caller = some p ↔
      ∃ value later, ∃ i : Nat, ∃ e, headers.values c.header = value :: later ∧ value.IsVisible ∧
        c.tokens[i]? = some e ∧ value = .ofText (c.scheme ++ e.token) ∧ e.Names p ∧
        ∀ (j : Nat) f, c.tokens[j]? = some f → f.token = e.token → j = i) ∧
    (∀ headers later, headers.values c.header = .ofText c.scheme :: later →
      (r.resolve headers).caller = none) ∧
    (∀ headers headers', (headers.values c.header).head? = (headers'.values c.header).head? →
      r.resolve headers = r.resolve headers') ∧
    (∀ headers later, ∀ e ∈ c.tokens,
      headers.values c.header = .ofText (c.scheme ++ e.token) :: later →
      ((∃ p, (r.resolve headers).caller = some p ∧ e.Names p) ↔
        (HeaderValue.ofText c.scheme).IsVisible ∧ (HeaderValue.ofText e.token).IsVisible)) := by
  refine ⟨fun headers p => ?_, fun headers later => resolve_bare_scheme h,
    fun headers headers' => resolve_congr h, fun headers later e he => resolve_presented_iff h he⟩
  rw [resolve_ofConfig_eq_some_iff h]
  constructor
  · rintro ⟨value, later, hvalues, hvisible, e, he, htext, hp⟩
    obtain ⟨i, hi⟩ := List.mem_iff_getElem?.1 he
    exact ⟨value, later, i, e, hvalues, hvisible, hi, htext, hp,
      fun j f hj => index_eq_of_token_eq h hi hj⟩
  · rintro ⟨value, later, i, e, hvalues, hvisible, hi, htext, hp, -⟩
    exact ⟨value, later, hvalues, hvisible, e, List.mem_of_getElem? hi, htext, hp⟩

/-- The first of two values decides, under a name in another case. -/
theorem resolve_first_of_two_values :
    ∃ r, ofConfig ⟨"X-Api-Key", "Key ",
        [⟨"k1", "alice", []⟩, ⟨"k2", "bob", ["b", "a"]⟩]⟩ = .ok r ∧
      (∃ p, (r.resolve (.ofList [("accept", []), ("x-API-key", .ofText "Key k2"),
          ("x-api-key", .ofText "Key k1")])).caller = some p ∧
        TokenEntry.Names ⟨"k2", "bob", ["b", "a"]⟩ p) ∧
      (r.resolve (.ofList [("x-api-key", .ofText "Key ")])).caller = none := by
  obtain ⟨r, hr⟩ : ∃ r, ofConfig ⟨"X-Api-Key", "Key ",
      [⟨"k1", "alice", []⟩, ⟨"k2", "bob", ["b", "a"]⟩]⟩ = .ok r :=
    ⟨_, ofConfig_eq_ok_iff.2 ⟨TokenConfig.validate_eq_ok_iff.2 (by decide), rfl⟩⟩
  refine ⟨r, hr, ?_, ?_⟩
  · refine ((resolve_exact hr).2.2.2 _ [.ofText "Key k1"] _ ?_ rfl).2 ⟨?_, ?_⟩
    · simp
    · decide
    · decide
  · exact (resolve_exact hr).2.1 _ [] rfl

end TokenResolver

end CallPolicy
