import CallPolicy.Config.Deadline
import CallPolicy.Config.Requirement
import CallPolicy.Config.Tokens
import CallPolicy.Schema.Basic

set_option autoImplicit false

/-! # Schemas of the configurations

What the written forms of policies, deadlines, principals and tokens look like, for editors and
other tools. The schemas of policies and tokens ask for no more than the decoders do. -/

namespace CallPolicy

/-! ## Requirements and policies -/

/-- A requirement with an argument: a record whose only member is named for the kind. -/
def requirementRecord (kind : Requirement.Kind) (text : String) (argument : Schema) : Schema :=
  .described text (.record [(kind.name, argument)] [kind.name] true)

/-- The schema of a requirement. -/
def requirementSchema : Schema :=
  .described
    ("What a call must satisfy once its method matched a rule.\n\n" ++
      "In YAML the unit variants are plain strings (`permit_all`,\n" ++
      "`authenticated`, ...) and the others single-key maps\n" ++
      "(`\x7b has_authority: SCOPE_profile \x7d`). Fields of this type must be\n" ++
      "annotated with `serde_yaml::with::singleton_map` for that form.")
    (.oneOf [
      .described "Always allow." (.word Requirement.Kind.permitAll.name),
      .described "Always deny." (.word Requirement.Kind.denyAll.name),
      .described "Allow iff a principal is present." (.word Requirement.Kind.authenticated.name),
      requirementRecord .hasAuthority "Allow iff a principal is present and holds the authority."
        .string,
      requirementRecord .hasAnyAuthority
        "Allow iff a principal is present and holds at least one of the authorities."
        (.list .string)])

/-- The schema of a rule. -/
def ruleSchema : Schema :=
  .described "A single authorization rule."
    (.record
      [("method",
          .described
            ("Method pattern: `Service/Method`, `Service/*` (or `Service.*`), `*/Method` or " ++
              "`*`.") .string),
        ("require",
          .described "Requirement applied to calls matching `method`."
            (.reference "Requirement"))]
      ["method", "require"] false)

/-- The schema of a policy. -/
def policySchema : Schema :=
  .described "Ordered authorization rules. Calls matched by no rule are denied."
    (.record
      [("rules",
          .described "Rules, checked in order. The first match decides."
            (.withDefault (.array []) (.list (.reference "RuleConfig"))))]
      [] false)

/-! ## Deadlines -/

/-- A duration as whole seconds and nanoseconds. -/
def durationParts (d : Duration) : Json :=
  .object [("secs", .int (d.nanos / 1_000_000_000 : Nat)),
    ("nanos", .int (d.nanos % 1_000_000_000 : Nat))]

/-- The schema of a default deadline. -/
def deadlineSchema : Schema :=
  let absent : DeadlineConfig := {}
  .described "Default deadline applied to outbound calls that do not set one."
    (.record
      [("default_deadline",
          .described "Deadline as a duration string (`\x2230s\x22`, `\x22250ms\x22`, ...)"
            (.withDefault (durationParts absent.defaultDeadline) .string))]
      [] false)

/-! ## Principals and tokens -/

/-- The schema of a principal. -/
def principalSchema : Schema :=
  .described "An authenticated identity together with the authorities granted to it."
    (.record
      [("id", .described "Identifier of the caller (subject, client id, ...)" .string),
        ("authorities",
          .described "Granted authorities (scopes, roles, permissions)"
            (.withDefault (.array []) (.set .string)))]
      ["id"] false)

/-- The schema of a token. -/
def secretSchema : Schema :=
  .described "String whose content never shows up in logs." .string

/-- The schema of a token with its principal. -/
def tokenEntrySchema : Schema :=
  .described "A token and the principal it authenticates."
    (.record
      [("token",
          .described "The token presented by the client." (.reference "OpaqueString")),
        ("id", .described "Identifier of the principal." .string),
        ("authorities",
          .described "Authorities granted to the principal."
            (.withDefault (.array []) (.list .string)))]
      ["token", "id"] false)

/-- The schema of a token configuration. -/
def tokenConfigSchema : Schema :=
  let absent : TokenConfig := {}
  .described "Configuration of a [`StaticTokenResolver`]."
    (.record
      [("header",
          .described "Metadata key carrying the token."
            (.withDefault (.string absent.header) .string)),
        ("prefix",
          .described "Prefix stripped from the header value before lookup."
            (.withDefault (.string absent.scheme) .string)),
        ("tokens",
          .described "Known tokens."
            (.withDefault (.array []) (.list (.reference "TokenConfig"))))]
      [] false)

/-! ## The published documents -/

/-- Every published schema. -/
def publishedSchemas : List SchemaDocument :=
  let requirement := ("Requirement", requirementSchema)
  let rule := ("RuleConfig", ruleSchema)
  let secret := ("OpaqueString", secretSchema)
  let token := ("TokenConfig", tokenEntrySchema)
  [{ title := "Requirement", root := requirementSchema },
    { title := "RuleConfig", root := ruleSchema, definitions := [requirement] },
    { title := "AuthorizationConfig", root := policySchema, definitions := [requirement, rule] },
    { title := "DeadlineConfig", root := deadlineSchema },
    { title := "Principal", root := principalSchema },
    { title := "OpaqueString", root := secretSchema },
    { title := "TokenConfig", root := tokenEntrySchema, definitions := [secret] },
    { title := "StaticTokenConfig", root := tokenConfigSchema, definitions := [secret, token] }]

/-- The published schema of that title. -/
def publishedSchema? (title : String) : Option SchemaDocument :=
  publishedSchemas.find? (·.title == title)

end CallPolicy
