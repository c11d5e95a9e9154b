import CallPolicy.Config.Tokens
import CallPolicy.Event
import Std.Data.HashMap

set_option autoImplicit false

/-! # Resolvers

A resolver finds the caller in the headers of a request, and reports on the way. `TokenResolver`
knows a fixed list of tokens. -/

namespace CallPolicy

/-- What a resolver found, and what it reported. -/
structure Resolution where
  caller : Option Principal
  events : List Event := []
deriving DecidableEq

/-- How callers are found. -/
abbrev Resolver := Headers → Resolution

namespace Resolver

/-- The resolver that knows nobody. -/
def anonymous : Resolver := fun _ => ⟨none, []⟩

/-- The resolver that takes the text of a header for the identifier of the caller. -/
def ofHeader (name : String) (authorities : List String) : Resolver := fun headers =>
  let id := headers.first? name >>= HeaderValue.text?
  ⟨id.map fun id => (Principal.ofId id).withAuthorities authorities, []⟩

end Resolver

/-! ## Fixed tokens -/

/-- What follows a scheme in a text that begins with it. -/
def afterScheme? : List Char → List Char → Option (List Char)
  | [], cs => some cs
  | p :: ps, c :: cs => if p = c then afterScheme? ps cs else none
  | _ :: _, [] => none

theorem afterScheme?_eq_some_iff {scheme cs token : List Char} :
    afterScheme? scheme cs = some token ↔ cs = scheme ++ token := by
  induction scheme generalizing cs with
  | nil => simp [afterScheme?]
  | cons c rest ih =>
    cases cs with
    | nil => simp [afterScheme?]
    | cons d ds =>
      by_cases h : c = d
      · simp [afterScheme?, h, ih]
      · simp [afterScheme?, h, Ne.symm h]

/-- The key of the header that a text names, if it names one. -/
def headerKey? (text : String) : Except TokenConfigError String :=
  if isHeaderName text then .ok (headerKey text) else .error .headerName

/-- Known tokens, ready for look-up. -/
structure TokenResolver where
  /-- The header that carries the token, in lower case. -/
  header : String
  scheme : String
  /-- The principal of each token. -/
  principals : Std.HashMap String Principal

namespace TokenResolver

/-- The principal that an entry stands for. -/
def principalOf (e : TokenEntry) : Principal :=
  (Principal.ofId e.id).withAuthorities e.authorities

/-- The resolver of a configuration, unless that is refused. Behind the check the name of the header
    is read once more. -/
def ofConfig (c : TokenConfig) : Except TokenConfigError TokenResolver := do
  c.validate
  let principals := .ofList (c.tokens.map fun e => (e.token, principalOf e))
  let header ← headerKey? c.header
  return ⟨header, c.scheme, principals⟩

/-- How many tokens are known. -/
def size (r : TokenResolver) : Nat := r.principals.size

/-- The resolver for a reader, without its tokens. -/
def describe (r : TokenResolver) : String :=
  "StaticTokenResolver \x7b header: " ++ quoted r.header ++ ", prefix: " ++ quoted r.scheme ++
    ", tokens: " ++ toString r.size ++ " \x7d"

/-- Finds the caller by the token in the first value of the header. -/
def resolve (r : TokenResolver) : Resolver := fun headers =>
  match headers.first? r.header >>= HeaderValue.text? with
  | none => ⟨none, []⟩
  | some value => match afterScheme? r.scheme.toList value.toList with
    | none => ⟨none, [.unexpectedScheme r.header]⟩
    | some token => match r.principals[String.ofList token]? with
      | none => ⟨none, [.unknownToken r.header]⟩
      | some principal => ⟨some principal, []⟩

end TokenResolver

end CallPolicy
