import CallPolicy.Http.Message

set_option autoImplicit false

/-! # Call statuses

How a call ended: a number and a message. A call that fails before it runs is answered with
headers alone, the message being percent-encoded. -/

namespace CallPolicy

/-! ## Percent-encoding -/

/-- Bytes that stand for themselves in an encoded message. -/
def isUnreservedByte (b : UInt8) : Bool :=
  0x20 < b && b < 0x7f && !("\x22#%<>?\x60\x7b\x7d".toUTF8.toList.contains b)

/-- One byte of an encoded message. -/
def percentByte (b : UInt8) : List Char :=
  if isUnreservedByte b then [Char.ofNat b.toNat] else '%' :: hexDigits 2 b.toNat true

/-- The text with every byte that does not stand for itself as `%` and two digits. -/
def percentEncode (text : String) : String :=
  String.ofList (text.toUTF8.toList.flatMap percentByte)

/-! ## Statuses -/

/-- The end of a call. -/
structure Status where
  code : Nat
  message : String
deriving DecidableEq

namespace Status

/-- The caller is not who the call asks for. -/
def permissionDenied (message : String) : Status := ⟨7, message⟩

/-- The caller is not known. -/
def unauthenticated (message : String) : Status := ⟨16, message⟩

/-- The header that carries the number. -/
def codeHeader : String := "grpc-status"

/-- The header that carries the message. -/
def messageHeader : String := "grpc-message"

/-- The headers of a call that ended before it ran. -/
def headers (s : Status) : Headers :=
  let h : Headers := .ofList
    [("content-type", .ofText "application/grpc"), (codeHeader, .ofText (toString s.code))]
  if s.message.isEmpty then h
  else h.append messageHeader (.ofText (percentEncode s.message))

theorem first?_codeHeader (s : Status) :
    s.headers.first? "grpc-status" = some (.ofText (toString s.code)) := by
  have hcode : (Headers.ofList [("content-type", .ofText "application/grpc"),
      (codeHeader, .ofText (toString s.code))]).first? "grpc-status" =
      some (.ofText (toString s.code)) := rfl
  unfold headers
  split
  · exact hcode
  · rw [Headers.first?_append, hcode]
    rfl

/-- The response of a call that ended before it ran. -/
def toResponse {β : Type} [Inhabited β] (s : Status) : Response β :=
  { headers := s.headers, body := default }

end Status

/-- The number of the status that a response carries, if it carries one. -/
def Response.statusCode? {β : Type} (r : Response β) : Option Nat := do
  let value ← r.headers.first? Status.codeHeader
  let text ← value.text?
  digitsValue? 10 text.toList

end CallPolicy
