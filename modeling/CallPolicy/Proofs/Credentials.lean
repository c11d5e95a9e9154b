import CallPolicy.Proofs.Authorization
import CallPolicy.Proofs.Resolver

set_option autoImplicit false

/-! # Credentials that fail

What can be told from outside about a credential that a request presents. It compares with a
configuration in one of four ways (`TokenConfig.Presents`), and what the resolver reports is a
function of that way and of the name of the header (`TokenResolver.resolve_of_presents`): no token,
no scheme and no presented value is part of it. Of a credential that fails in any way the table
learns only that there is no caller, so the layer answers two such requests alike
(`Authorization.AnsweredAlike`). -/

namespace CallPolicy

/-! ## What a request presents -/

/-- How a presented credential compares with those of a configuration. -/
inductive Credential where
  /-- There is none, or it is no text. -/
  | unreadable
  /-- It does not begin with the scheme. -/
  | otherScheme
  /-- What follows the scheme is the token of no entry. -/
  | unknown
  /-- What follows the scheme is the token of an entry. -/
  | known
deriving DecidableEq

/-- What a resolver reports about a credential in the header of this name. -/
def Credential.reported (header : String) : Credential → List Event
  | .unreadable | .known => []
  | .otherScheme => [.unexpectedScheme header]
  | .unknown => [.unknownToken header]

/-- What headers present to the resolver of a configuration: the first value of its header decides,
    by its bytes. -/
inductive TokenConfig.Presents (c : TokenConfig) (headers : Headers) : Credential → Prop where
  | absent (hvalues : headers.values c.header = []) : Presents c headers .unreadable
  | unreadable {value : HeaderValue} {later : List HeaderValue}
      (hvalues : headers.values c.header = value :: later) (hvisible : ¬ value.IsVisible) :
      Presents c headers .unreadable
  | otherScheme {value : HeaderValue} {later : List HeaderValue}
      (hvalues : headers.values c.header = value :: later) (hvisible : value.IsVisible)
      (hscheme : ∀ token, value ≠ .ofText (c.scheme ++ token)) : Presents c headers .otherScheme
  | unknown {token : String} {later : List HeaderValue}
      (hvalues : headers.values c.header = .ofText (c.scheme ++ token) :: later)
      (hvisible : (HeaderValue.ofText (c.scheme ++ token)).IsVisible)
      (htoken : ∀ e ∈ c.tokens, e.token ≠ token) : Presents c headers .unknown
  | known {e : TokenEntry} {later : List HeaderValue} (he : e ∈ c.tokens)
      (hvalues : headers.values c.header = .ofText (c.scheme ++ e.token) :: later)
      (hvisible : (HeaderValue.ofText (c.scheme ++ e.token)).IsVisible) : Presents c headers .known

namespace TokenConfig

variable {c : TokenConfig} {headers : Headers}

theorem exists_presents (c : TokenConfig) (headers : Headers) : ∃ o, c.Presents headers o := by
  cases hvalues : headers.values c.header with
  | nil => exact ⟨_, .absent hvalues⟩
  | cons value later =>
    by_cases hvisible : value.IsVisible
    · by_cases hscheme : ∃ token, value = .ofText (c.scheme ++ token)
      · obtain ⟨token, rfl⟩ := hscheme
        by_cases hknown : ∃ e ∈ c.tokens, e.token = token
        · obtain ⟨e, he, rfl⟩ := hknown
          exact ⟨_, .known he hvalues hvisible⟩
        · exact ⟨_, .unknown hvalues hvisible fun e he htoken => hknown ⟨e, he, htoken⟩⟩
      · exact ⟨_, .otherScheme hvalues hvisible fun token htoken => hscheme ⟨token, htoken⟩⟩
    · exact ⟨_, .unreadable hvalues hvisible⟩

end TokenConfig

namespace TokenResolver

variable {c : TokenConfig} {r : TokenResolver} {headers : Headers}

/-- What is found for a token behind the scheme. -/
theorem resolve_of_token {token : String}
    (hfirst : headers.first? r.header = some (.ofText (r.scheme ++ token)))
    (hvisible : (HeaderValue.ofText (r.scheme ++ token)).IsVisible) :
    r.resolve headers =
      r.principals[token]?.elim ⟨none, [.unknownToken r.header]⟩ fun p => ⟨some p, []⟩ := by
  have htext := HeaderValue.text?_eq_some_iff.2 ⟨hvisible, rfl⟩
  have hrest : afterScheme? r.scheme.toList (r.scheme.toList ++ token.toList) =
      some token.toList := afterScheme?_eq_some_iff.2 rfl
  cases hlookup : r.principals[token]? <;> simp [resolve, hfirst, htext, hrest, hlookup]

/-- What a resolver reports, and whether it finds someone, is settled by how the credential compares
    with those of its configuration. -/
theorem resolve_of_presents (h : ofConfig c = .ok r) {o : Credential} (ho : c.Presents headers o) :
    (r.resolve headers).events = o.reported (headerKey c.header) ∧
      ((r.resolve headers).caller = none ↔ o ≠ .known) := by
  have hheader : r.header = headerKey c.header := by rw [(ofConfig_eq_ok_iff.1 h).2]
  have hscheme : r.scheme = c.scheme := by rw [(ofConfig_eq_ok_iff.1 h).2]
  have hfirst := first?_header h headers
  rw [← hheader]
  cases ho with
  | absent hvalues => simp [resolve, hfirst, hvalues, Credential.reported]
  | unreadable hvalues hvisible =>
    simp [resolve, hfirst, hvalues, HeaderValue.text?_eq_none_iff.2 hvisible, Credential.reported]
  | otherScheme hvalues hvisible hother =>
    obtain ⟨text, htext, rfl⟩ := HeaderValue.exists_text hvisible
    have hnone : afterScheme? r.scheme.toList text.toList = none := by
      rw [Option.eq_none_iff_forall_not_mem]
      intro token htoken
      refine hother (String.ofList token) (congrArg HeaderValue.ofText (String.toList_inj.1 ?_))
      rw [afterScheme?_eq_some_iff.1 htoken, hscheme, String.toList_append, String.toList_ofList]
    simp [resolve, hfirst, hvalues, htext, hnone, Credential.reported]
  | @unknown token later hvalues hvisible htoken =>
    have hnone : r.principals[token]? = none := by
      rw [Option.eq_none_iff_forall_not_mem]
      intro p hp
      obtain ⟨e, he, heq, -⟩ := (lookup_eq_some_iff h).1 hp
      exact htoken e he heq
    rw [hvalues, ← hscheme] at hfirst
    rw [resolve_of_token hfirst (hscheme ▸ hvisible), hnone]
    simp [Credential.reported]
  | @known e later he hvalues hvisible =>
    have hsome : r.principals[e.token]? = some (principalOf e) :=
      (lookup_eq_some_iff h).2 ⟨e, he, rfl, rfl⟩
    rw [hvalues, ← hscheme] at hfirst
    rw [resolve_of_token hfirst (hscheme ▸ hvisible), hsome]
    simp [Credential.reported]

/-- Headers present one credential. -/
theorem presents_unique (h : ofConfig c = .ok r) {o o' : Credential} (ho : c.Presents headers o)
    (ho' : c.Presents headers o') : o' = o := by
  obtain ⟨hevents, hcaller⟩ := resolve_of_presents h ho
  obtain ⟨hevents', hcaller'⟩ := resolve_of_presents h ho'
  have hreported := hevents'.symm.trans hevents
  have hknown := hcaller'.symm.trans hcaller
  -- only the unreadable and the known credential are reported alike, and one of them is known
  cases o <;> cases o' <;> simp_all [Credential.reported]

end TokenResolver

/-! ## Two requests -/

namespace Authorization

variable {σ α β γ ε : Type} [Inhabited γ]

/-- What the service behind the layer reports about the request, if it is let through. -/
def reportedBehind (a : Authorization) (inner : Service σ (Request α β) ε (Response γ)) (state : σ)
    (request : Request α β) : List Event :=
  if a.allows request then (inner.call state (a.forward request)).events else []

/-- The layer treats two requests alike: one rule decides both, in the same way; the layer's own
    event, which stands between those of the resolver and those of the service behind, is the same;
    and if it answers the requests itself, the answers are the same. -/
structure AnsweredAlike (a : Authorization) (inner : Service σ (Request α β) ε (Response γ))
    (state state' : σ) (request request' : Request α β) : Prop where
  verdict : a.verdict request (a.resolver request.headers).caller =
    a.verdict request' (a.resolver request'.headers).caller
  event : ∃ own,
    ((a.layer inner).call state request).events =
      (a.resolver request.headers).events ++ own :: a.reportedBehind inner state request ∧
    ((a.layer inner).call state' request').events =
      (a.resolver request'.headers).events ++ own :: a.reportedBehind inner state' request'
  response : (a.verdict request (a.resolver request.headers).caller).decision = .deny →
    ∃ response, ((a.layer inner).call state request).outcome = .ok response ∧
      ((a.layer inner).call state' request').outcome = .ok response

/-- The layer's own event stands behind those of the resolver. -/
theorem events_call_layer (a : Authorization) (inner : Service σ (Request α β) ε (Response γ))
    (state : σ) (request : Request α β) :
    ((a.layer inner).call state request).events = (a.resolver request.headers).events ++
      a.event request (a.resolver request.headers).caller ::
        a.reportedBehind inner state request := by
  show (a.call inner state request).events = _
  cases hallow : a.allows request with
  | true => simp [call_of_allows hallow, report, reportedBehind, hallow]
  | false => simp [call_of_refuses hallow, report, reportedBehind, hallow]

/-- Of a request the layer regards the path and the caller that it finds, and nothing else. -/
theorem answeredAlike_of_caller_eq (a : Authorization)
    (inner : Service σ (Request α β) ε (Response γ)) (state state' : σ)
    {request request' : Request α β} (hpath : request.target.path = request'.target.path)
    (hcaller : (a.resolver request.headers).caller = (a.resolver request'.headers).caller) :
    a.AnsweredAlike inner state state' request request' := by
  have hmethod : method request = method request' := congrArg methodOfPath hpath
  have hverdict : a.verdict request (a.resolver request.headers).caller =
      a.verdict request' (a.resolver request'.headers).caller := by
    rw [verdict, verdict, hmethod, hcaller]
  refine ⟨hverdict, ⟨a.event request (a.resolver request.headers).caller,
    events_call_layer a inner state request, ?_⟩, fun hdeny => ?_⟩
  · have hevent : a.event request (a.resolver request.headers).caller =
        a.event request' (a.resolver request'.headers).caller := by
      simp only [event, hverdict]
      rw [hmethod, hcaller]
    rw [hevent]
    exact events_call_layer a inner state' request'
  · have hrefuse : a.allows request = false := allows_eq_false_iff.2 hdeny
    have hrefuse' : a.allows request' = false := allows_eq_false_iff.2 (hverdict ▸ hdeny)
    refine ⟨a.refusal request, ?_, ?_⟩
    · show (a.call inner state request).outcome = _
      rw [call_of_refuses hrefuse]
    · show (a.call inner state' request').outcome = _
      rw [call_of_refuses hrefuse', refusal, refusal, hcaller]

end Authorization

namespace TokenResolver

variable {c c' : TokenConfig} {r r' : TokenResolver} {σ α β γ ε : Type} [Inhabited γ]

/-- **Failed credentials.** Headers present exactly one credential to the resolver of a
    configuration, and a caller is found iff it is a known one. Behind that resolver two requests
    with the same path whose credentials fail, however they do, are treated alike. What the resolver
    reports is the same for any two configurations with the same header and any headers that present
    the same credential, whatever the schemes, the tokens and the values are. -/
theorem failed_credentials_alike (h : ofConfig c = .ok r) (h' : ofConfig c' = .ok r')
    (inner : Service σ (Request α β) ε (Response γ)) :
    (∀ headers, ∃ o, c.Presents headers o ∧ (∀ o', c.Presents headers o' → o' = o) ∧
      ((r.resolve headers).caller = none ↔ o ≠ .known)) ∧
    (∀ (table : RuleTable) (state state' : σ) (request request' : Request α β),
      request.target.path = request'.target.path →
      (r.resolve request.headers).caller = none → (r.resolve request'.headers).caller = none →
      Authorization.AnsweredAlike ⟨table, r.resolve⟩ inner state state' request request') ∧
    (headerKey c.header = headerKey c'.header →
      ∀ headers headers' o, c.Presents headers o → c'.Presents headers' o →
        (r.resolve headers).events = (r'.resolve headers').events) := by
  refine ⟨fun headers => ?_, fun table state state' request request' hpath hfails hfails' => ?_,
    fun hheader headers headers' o ho ho' => ?_⟩
  · obtain ⟨o, ho⟩ := c.exists_presents headers
    exact ⟨o, ho, fun o' ho' => presents_unique h ho ho', (resolve_of_presents h ho).2⟩
  · exact Authorization.answeredAlike_of_caller_eq ⟨table, r.resolve⟩ inner state state' hpath
      (hfails.trans hfails'.symm)
  · rw [(resolve_of_presents h ho).1, (resolve_of_presents h' ho').1, hheader]

/-- Of two callers of a method for the authenticated, one presents no credential and the other one
    that nobody has. Both are refused alike, and a resolver of other tokens would have reported of
    the second what this one does. -/
theorem missing_and_unknown_token_alike :
    ∃ r r', ofConfig ⟨"X-Api-Key", "Key ", [⟨"k1", "alice", []⟩]⟩ = .ok r ∧
      ofConfig ⟨"x-api-key", "", [⟨"s3cret", "bob", ["admin"]⟩]⟩ = .ok r' ∧
      (let inner : Service Unit (Request Unit String) Empty (Response String) :=
        ⟨fun _ => .ok (), fun _ _ => ⟨(), .ok ⟨200, .ofList [], "hello"⟩, []⟩⟩
      let a : Authorization :=
        ⟨⟨[⟨⟨"Simple/*", _, by decide, rfl⟩, .authenticated⟩]⟩, r.resolve⟩
      let missing : Request Unit String :=
        ⟨⟨"/Simple/SayHello", none⟩, .ofList [], none, (), "Ann"⟩
      let unknown : Request Unit String :=
        ⟨⟨"/Simple/SayHello", some "x=1"⟩, .ofList [("x-api-key", .ofText "Key k2")], none, (),
          "Ben"⟩
      a.AnsweredAlike inner () () missing unknown) ∧
      (r.resolve (.ofList [("x-api-key", .ofText "Key k2")])).events =
        (r'.resolve (.ofList [("x-api-key", .ofText "guess")])).events := by
  obtain ⟨r, hr⟩ : ∃ r, ofConfig ⟨"X-Api-Key", "Key ", [⟨"k1", "alice", []⟩]⟩ = .ok r :=
    ⟨_, ofConfig_eq_ok_iff.2 ⟨TokenConfig.validate_eq_ok_iff.2 (by decide), rfl⟩⟩
  obtain ⟨r', hr'⟩ : ∃ r', ofConfig ⟨"x-api-key", "", [⟨"s3cret", "bob", ["admin"]⟩]⟩ = .ok r' :=
    ⟨_, ofConfig_eq_ok_iff.2 ⟨TokenConfig.validate_eq_ok_iff.2 (by decide), rfl⟩⟩
  have hmissing : TokenConfig.Presents ⟨"X-Api-Key", "Key ", [⟨"k1", "alice", []⟩]⟩
      (.ofList []) .unreadable := .absent rfl
  have hunknown : TokenConfig.Presents ⟨"X-Api-Key", "Key ", [⟨"k1", "alice", []⟩]⟩
      (.ofList [("x-api-key", .ofText "Key k2")]) .unknown :=
    @TokenConfig.Presents.unknown _ _ "k2" [] rfl (by decide) (by decide)
  have hguess : TokenConfig.Presents ⟨"x-api-key", "", [⟨"s3cret", "bob", ["admin"]⟩]⟩
      (.ofList [("x-api-key", .ofText "guess")]) .unknown :=
    @TokenConfig.Presents.unknown _ _ "guess" [] rfl (by decide) (by decide)
  refine ⟨r, r', hr, hr', ?_, ?_⟩
  · intro inner a missing unknown
    obtain ⟨honce, halike, -⟩ := failed_credentials_alike hr hr' inner
    have hfails : ∀ headers o, TokenConfig.Presents ⟨"X-Api-Key", "Key ", [⟨"k1", "alice", []⟩]⟩
        headers o → o ≠ .known → (r.resolve headers).caller = none := by
      intro headers o ho hne
      obtain ⟨o', -, hunique, hcaller⟩ := honce headers
      exact hcaller.2 (hunique o ho ▸ hne)
    exact halike _ () () missing unknown rfl (hfails _ _ hmissing (by decide))
      (hfails _ _ hunknown (by decide))
  · have hreported := (failed_credentials_alike hr hr'
      (⟨fun _ => .ok (), fun _ _ => ⟨(), .ok ⟨200, .ofList [], ""⟩, []⟩⟩ :
        Service Unit (Request Unit String) Empty (Response String))).2.2
    exact hreported (by decide) _ _ _ hunknown hguess

end TokenResolver

end CallPolicy
