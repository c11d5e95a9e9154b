import CallPolicy.Config.Deadline
import CallPolicy.Config.Policy
import CallPolicy.Config.Tokens
import CallPolicy.Decode.Yaml

set_option autoImplicit false

/-! # Loading configurations

A configuration is read from a YAML text or from a file that holds one, and then checked. A file
that was read is reported, whatever comes of its text. The configuration of a server holds its rules
together with its tokens; both parts must be there. -/

namespace CallPolicy

/-! ## Servers -/

/-- The rules of a server and the tokens of its callers. -/
structure ServerConfig where
  authorization : Policy
  tokens : TokenConfig
deriving DecidableEq

namespace ServerConfig

/-- A decoded part of a server configuration. -/
inductive Field where
  | authorization (policy : Policy)
  | tokens (config : TokenConfig)

variable {m : Type → Type} [Monad m] [MonadExceptOf DecodeError m] {ν : Type} [Source m ν]

/-- The parts of a server configuration. -/
def fields : Fields m ν Field where
  name := "ServerConfig"
  entries :=
    [("authorization", fun v => return .authorization (← Policy.read v)),
      ("tokens", fun v => return .tokens (← TokenConfig.read v))]

/-- Decodes a server configuration. -/
def read (v : ν) : m ServerConfig := do
  let d ← readRecord fields v
  let authorization ← required d "authorization" fun | .authorization p => some p | _ => none
  let tokens ← required d "tokens" fun | .tokens c => some c | _ => none
  return ⟨authorization, tokens⟩

end ServerConfig

/-! ## Files -/

/-- What stands under a path. -/
inductive FileState where
  | missing
  | directory
  | file (content : ByteArray)

/-- Why a file cannot be read as text. -/
inductive ReadFault where
  | missing
  | directory
  | notUnicode
deriving DecidableEq

/-- The wording of the fault. -/
def ReadFault.message : ReadFault → String
  | .missing => "No such file or directory (os error 2)"
  | .directory => "Is a directory (os error 21)"
  | .notUnicode => "stream did not contain valid UTF-8"

/-- The text of a file. -/
def FileState.text : FileState → Except ReadFault String
  | .missing => .error .missing
  | .directory => .error .directory
  | .file content => match String.fromUTF8? content with
    | some text => .ok text
    | none => .error .notUnicode

/-! ## Errors -/

/-- Why a configuration is not loaded. -/
inductive ConfigError where
  | unreadable (path : String) (fault : ReadFault)
  | malformed (error : DecodeError)
  | emptyPattern (error : EmptyPattern)
  | zeroDeadline (error : ZeroDeadline)
deriving DecidableEq

/-- The wording of the error. -/
def ConfigError.message : ConfigError → String
  | .unreadable path fault =>
    "failed to read configuration file " ++ path ++ ": " ++ fault.message
  | .malformed error => "configuration parse error: " ++ error.message .yaml
  | .emptyPattern error => error.message
  | .zeroDeadline error => error.message

/-- Why a token configuration is not loaded. -/
inductive TokenLoadError where
  | notLoaded (error : ConfigError)
  | refused (error : TokenConfigError)
deriving DecidableEq

/-- The wording of the error. -/
def TokenLoadError.message : TokenLoadError → String
  | .notLoaded error => "config error: " ++ error.message
  | .refused error => error.message

/-! ## Loading -/

section

variable {α : Type}

/-- Decodes a configuration from a YAML text. -/
def loadText (read : YamlValue → YamlDecode α) (text : String) : Except ConfigError α :=
  (decodeYaml read text).mapError .malformed

/-- Decodes a configuration from a file. -/
def loadFile (read : YamlValue → YamlDecode α) (path : String) (file : FileState) :
    Except ConfigError α × List Event :=
  match file.text with
  | .error fault => (.error (.unreadable path fault), [])
  | .ok text => (loadText read text, [.configLoaded path])

end

/-- Decodes a pattern from a YAML text. -/
def Pattern.ofYaml (text : String) : Except DecodeError Pattern :=
  decodeYamlTo readText Pattern.ofDecoded text

/-- Decodes a table from a YAML text. -/
def RuleTable.ofYaml (text : String) : Except DecodeError (RuleTable × List Event) :=
  decodeYamlTo Policy.read RuleTable.ofPolicy text

/-- The policy itself, if it holds no empty pattern. -/
def Policy.checked (p : Policy) : Except ConfigError Policy := do
  p.validate.mapError .emptyPattern
  return p

/-- Loads a policy from a YAML text. -/
def Policy.ofYaml (text : String) : Except ConfigError Policy := do
  (← loadText Policy.read text).checked

/-- Loads a policy from a file. -/
def Policy.ofFile (path : String) (file : FileState) : Except ConfigError Policy × List Event :=
  let (loaded, events) := loadFile Policy.read path file
  (loaded >>= Policy.checked, events)

/-- The default deadline itself, if it is not zero. -/
def DeadlineConfig.checked (c : DeadlineConfig) : Except ConfigError DeadlineConfig := do
  c.validate.mapError .zeroDeadline
  return c

/-- Loads a default deadline from a YAML text. -/
def DeadlineConfig.ofYaml (text : String) : Except ConfigError DeadlineConfig := do
  (← loadText DeadlineConfig.read text).checked

/-- Loads a default deadline from a file. -/
def DeadlineConfig.ofFile (path : String) (file : FileState) :
    Except ConfigError DeadlineConfig × List Event :=
  let (loaded, events) := loadFile DeadlineConfig.read path file
  (loaded >>= DeadlineConfig.checked, events)

/-- Loads a token configuration from a file. -/
def TokenConfig.ofFile (path : String) (file : FileState) :
    Except TokenLoadError TokenConfig × List Event :=
  let (loaded, events) := loadFile TokenConfig.read path file
  let checked : Except TokenLoadError TokenConfig := do
    let c ← loaded.mapError .notLoaded
    c.validate.mapError .refused
    return c
  (checked, events)

end CallPolicy
