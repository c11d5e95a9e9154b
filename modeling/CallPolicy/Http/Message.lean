import CallPolicy.Http.Headers
import CallPolicy.Principal

set_option autoImplicit false

/-! # Requests and responses

The messages that layers pass on. A request addresses a path on its server, with an optional query;
nothing of it is decoded or normalized, and a fragment is dropped. Bodies are of any type, and so is
what a server keeps with a request besides the caller. -/

namespace CallPolicy

/-! ## Targets -/

/-- The target of a request. -/
structure Target where
  path : String
  query : Option String := none
deriving DecidableEq

namespace Target

/-- Characters that occur neither in a path nor in a query. -/
def isExcluded (c : Char) : Bool :=
  c.toNat ≤ 0x20 || c == '\x7f' || c == '<' || c == '>'

/-- Characters of a path. -/
def isPathChar (c : Char) : Bool :=
  !isExcluded c && c != '\x60'

/-- Characters of a query. -/
def isQueryChar (c : Char) : Bool :=
  !isExcluded c && c != '\x22'

/-- May a target begin like this? The asterisk stands alone. -/
def isOpening : List Char → Bool
  | ['*'] => true
  | c :: _ => c == '/' || c == '?' || c == '#'
  | [] => false

/-- Reads the text of a target. An empty path is the root. -/
def ofText? (text : String) : Option Target :=
  let cs := text.toList
  let shown := cs.takeWhile (· != '#')
  let path := shown.takeWhile (· != '?')
  let query := (shown.dropWhile (· != '?')).tail?
  if isOpening cs && path.all isPathChar && (query.getD []).all isQueryChar then
    some ⟨if path.isEmpty then "/" else String.ofList path, query.map String.ofList⟩
  else none

/-- The text of the target. -/
def text (t : Target) : String :=
  match t.query with
  | some query => t.path ++ "?" ++ query
  | none => t.path

end Target

/-! ## Messages -/

/-- A request on its way to the service that answers it. -/
structure Request (α β : Type) where
  target : Target
  headers : Headers := {}
  /-- The caller, once a layer has made it known. -/
  caller : Option Principal := none
  /-- Whatever else is kept with the request. -/
  extras : α
  body : β

/-- The answer to a request. -/
structure Response (β : Type) where
  /-- The status code of the transport. -/
  code : Nat := 200
  headers : Headers := {}
  body : β

end CallPolicy
