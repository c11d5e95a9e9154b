import CallPolicy.Timeout

set_option autoImplicit false

/-! # Log events

What the library reports while it works. Functions that report return their events as data, in
order; `Event.level`, `Event.message` and `Event.fields` say how each is written to a log. -/

namespace CallPolicy

/-- How severe an event is. -/
inductive Level where
  | debug
  | warn
deriving DecidableEq

/-- The name of the level in a log. -/
def Level.name : Level → String
  | .debug => "debug"
  | .warn => "warn"

/-- Why the timeout field of a call could not be read. -/
inductive TimeoutFault where
  /-- The field holds bytes that are not plain text. -/
  | notText
  /-- The field is text but no timeout. -/
  | malformed (error : TimeoutError)
deriving DecidableEq

/-- The wording of the fault. -/
def TimeoutFault.message : TimeoutFault → String
  | .notText => "failed to convert header to a str"
  | .malformed error => error.message

/-- How a call was judged: its method, the text of the deciding pattern and the caller's
    identifier, where there is one. -/
structure Judgement where
  method : String
  pattern : Option String
  caller : Option String
deriving DecidableEq

/-- A reported event. -/
inductive Event where
  /-- The pattern of the rule at this index selects nothing. -/
  | ruleNeverMatches (index : Nat) (pattern : String)
  /-- A configuration file was read. -/
  | configLoaded (path : String)
  /-- A call was let through. -/
  | callAuthorized (judgement : Judgement)
  /-- A call was refused. -/
  | callDenied (judgement : Judgement)
  /-- The header that carries the token does not start as configured. -/
  | unexpectedScheme (header : String)
  /-- The presented token belongs to nobody. -/
  | unknownToken (header : String)
  /-- A call without a timeout was given the default one. -/
  | deadlineApplied (deadline : Duration)
  /-- A call keeps a timeout that cannot be read. -/
  | timeoutKept (fault : TimeoutFault)
  /-- The default timeout cannot stand in a header. -/
  | deadlineNotEncoded
deriving DecidableEq

namespace Event

/-- The severity of the event. -/
def level : Event → Level
  | .ruleNeverMatches .. | .callDenied _ | .deadlineNotEncoded => .warn
  | _ => .debug

/-- The fixed text of the event. -/
def message : Event → String
  | .ruleNeverMatches .. =>
    "method pattern is not '*' nor 'Service/Method': rule will never match"
  | .configLoaded _ => "loaded configuration file"
  | .callAuthorized _ => "call authorized"
  | .callDenied _ => "call denied"
  | .unexpectedScheme _ => "token does not carry the expected prefix"
  | .unknownToken _ => "unknown token"
  | .deadlineApplied _ => "applying default deadline"
  | .timeoutKept _ => "keeping unparseable grpc-timeout header"
  | .deadlineNotEncoded => "failed to encode default deadline"

/-- The fields of a judgement, with a stand-in for what is absent. -/
def judgementFields (j : Judgement) : List (String × String) :=
  [("method", j.method), ("pattern", j.pattern.getD "<none>"),
    ("principal", j.caller.getD "<anonymous>")]

/-- The named values of the event. -/
def fields : Event → List (String × String)
  | .ruleNeverMatches index pattern => [("index", toString index), ("pattern", pattern)]
  | .configLoaded path => [("path", path)]
  | .callAuthorized j | .callDenied j => judgementFields j
  | .unexpectedScheme header | .unknownToken header => [("header", header)]
  | .deadlineApplied deadline => [("deadline", deadline.display)]
  | .timeoutKept fault => [("error", fault.message)]
  | .deadlineNotEncoded => [("error", "failed to parse header value")]

end Event

end CallPolicy
