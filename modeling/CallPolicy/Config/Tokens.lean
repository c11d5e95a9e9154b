import CallPolicy.Decode.Source
import CallPolicy.Http.Headers

set_option autoImplicit false

/-! # Principals and static tokens as they are written

A principal is written as a record. A fixed list of tokens names for each the principal that it
stands for, and where a token is found: the header that carries it and the text in front of it.
Tokens never show up in messages. -/

namespace CallPolicy

/-! ## Principals -/

namespace Principal

/-- The written form of a principal. -/
def toJson (p : Principal) : Json :=
  .object [("id", .string p.id), ("authorities", .strings p.authorities.toList)]

/-- A decoded field of a principal. -/
inductive Field where
  | id (text : String)
  | authorities (l : List String)

section

variable {m : Type → Type} [Monad m] [MonadExceptOf DecodeError m] {ν : Type} [Source m ν]

/-- The fields of a principal. -/
def fields : Fields m ν Field where
  name := "Principal"
  entries :=
    [("id", fun v => return .id (← readText v)),
      ("authorities", fun v => return .authorities (← readTexts v))]

/-- Decodes a principal; the authorities may be left out. -/
def read (v : ν) : m Principal := do
  let d ← readRecord fields v
  let id ← required d "id" fun | .id text => some text | _ => none
  let l := optional d (fun | .authorities l => some l | _ => none) []
  return (Principal.ofId id).withAuthorities l

end

end Principal

/-! ## Tokens -/

/-- A token and the principal it authenticates. -/
structure TokenEntry where
  token : String
  id : String
  authorities : List String := []
deriving DecidableEq

/-- Known tokens and where to look for them. -/
structure TokenConfig where
  /-- The name of the header that carries the token. -/
  header : String := "authorization"
  /-- What precedes the token in the value of the header. -/
  scheme : String := "Bearer "
  tokens : List TokenEntry := []
deriving DecidableEq

/-- Why a token configuration is refused. -/
inductive TokenConfigError where
  | headerName
  | emptyToken (index : Nat)
  /-- The token at the index stands earlier in the list too. -/
  | duplicateToken (index : Nat)
deriving DecidableEq

/-- The wording of the error. -/
def TokenConfigError.message : TokenConfigError → String
  | .headerName => "invalid header name: invalid HTTP header name"
  | .emptyToken index => s!"token {index}: token must not be empty"
  | .duplicateToken index => s!"token {index}: token already configured"

/-! ### Encoding -/

/-- The written form of an entry. -/
def TokenEntry.toJson (e : TokenEntry) : Json :=
  .object [("token", .string e.token), ("id", .string e.id),
    ("authorities", .strings e.authorities)]

/-- The written form of a token configuration. -/
def TokenConfig.toJson (c : TokenConfig) : Json :=
  .object [("header", .string c.header), ("prefix", .string c.scheme),
    ("tokens", .array (c.tokens.map TokenEntry.toJson))]

/-- An entry for a reader, with the token hidden. -/
def TokenEntry.describe (e : TokenEntry) : String :=
  "TokenConfig \x7b token: OpaqueString(****), id: " ++ quoted e.id ++ ", authorities: " ++
    quotedList e.authorities ++ " \x7d"

/-- The configuration for a reader, with the tokens hidden. -/
def TokenConfig.describe (c : TokenConfig) : String :=
  "StaticTokenConfig \x7b header: " ++ quoted c.header ++ ", prefix: " ++ quoted c.scheme ++
    ", tokens: [" ++ ", ".intercalate (c.tokens.map TokenEntry.describe) ++ "] \x7d"

/-! ### Decoding -/

/-- A decoded field of an entry. -/
inductive TokenEntry.Field where
  | token (text : String)
  | id (text : String)
  | authorities (l : List String)

/-- A decoded field of a token configuration. -/
inductive TokenConfig.Field where
  | header (text : String)
  | scheme (text : String)
  | tokens (l : List TokenEntry)

section

variable {m : Type → Type} [Monad m] [MonadExceptOf DecodeError m] {ν : Type} [Source m ν]

/-- The fields of an entry. -/
def TokenEntry.fields : Fields m ν TokenEntry.Field where
  name := "TokenConfig"
  entries :=
    [("token", fun v => return .token (← readText v)),
      ("id", fun v => return .id (← readText v)),
      ("authorities", fun v => return .authorities (← readTexts v))]

/-- Decodes an entry; the authorities may be left out. -/
def TokenEntry.read (v : ν) : m TokenEntry := do
  let d ← readRecord TokenEntry.fields v
  let token ← required d "token" fun | .token text => some text | _ => none
  let id ← required d "id" fun | .id text => some text | _ => none
  let authorities := optional d (fun | .authorities l => some l | _ => none) []
  return ⟨token, id, authorities⟩

/-- The fields of a token configuration. -/
def TokenConfig.fields : Fields m ν TokenConfig.Field where
  name := "StaticTokenConfig"
  entries :=
    [("header", fun v => return .header (← readText v)),
      ("prefix", fun v => return .scheme (← readText v)),
      ("tokens", fun v => return .tokens (← readList TokenEntry.read v))]

/-- Decodes a token configuration; every field may be left out. -/
def TokenConfig.read (v : ν) : m TokenConfig := do
  let d ← readRecord TokenConfig.fields v
  let absent : TokenConfig := {}
  return {
    header := optional d (fun | .header text => some text | _ => none) absent.header
    scheme := optional d (fun | .scheme text => some text | _ => none) absent.scheme
    tokens := optional d (fun | .tokens l => some l | _ => none) absent.tokens }

end

/-! ### Checking -/

namespace TokenConfig

/-- Checks the entries behind those already seen. -/
def validateEntries (seen : List String) (n : Nat) :
    List TokenEntry → Except TokenConfigError Unit
  | [] => .ok ()
  | e :: rest =>
    if e.token = "" then .error (.emptyToken n)
    else if seen.contains e.token then .error (.duplicateToken n)
    else validateEntries (e.token :: seen) (n + 1) rest

/-- Refuses a header that is no name, and the first token that is empty or not new. -/
def validate (c : TokenConfig) : Except TokenConfigError Unit :=
  if isHeaderName c.header then validateEntries [] 0 c.tokens else .error .headerName

end TokenConfig

end CallPolicy
