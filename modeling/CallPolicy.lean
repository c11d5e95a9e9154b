import CallPolicy.Authorization
import CallPolicy.Config.Load
import CallPolicy.DefaultDeadline
import CallPolicy.Json.Number
import CallPolicy.Schema.Config
import CallPolicy.Schema.Validity
import CallPolicy.Yaml.Printer
import CallPolicy.Proofs.Pattern
import CallPolicy.Proofs.Rule
import CallPolicy.Proofs.Privilege
import CallPolicy.Proofs.Policy
import CallPolicy.Proofs.Authorization
import CallPolicy.Proofs.Path
import CallPolicy.Proofs.Stack
import CallPolicy.Proofs.Headers
import CallPolicy.Proofs.Resolver
import CallPolicy.Proofs.Timeout
import CallPolicy.Proofs.DefaultDeadline
import CallPolicy.Proofs.Decode
import CallPolicy.Proofs.Deadline
import CallPolicy.Proofs.Written
import CallPolicy.Proofs.WrittenJson
import CallPolicy.Proofs.Yaml.Plain
import CallPolicy.Proofs.Yaml.Quoted
import CallPolicy.Proofs.Yaml.Literal
import CallPolicy.Proofs.Yaml.Style
import CallPolicy.Proofs.Yaml.Scan
import CallPolicy.Proofs.Yaml.Leaf
import CallPolicy.Proofs.Yaml.Layout
import CallPolicy.Proofs.Yaml.Allowed
import CallPolicy.Proofs.Yaml.Tree
import CallPolicy.Proofs.WrittenYaml
import CallPolicy.Proofs.Credentials
import CallPolicy.Proofs.Shadowing
import CallPolicy.Proofs.Timeout.Grammar
import CallPolicy.Proofs.Timeout.Longest
import CallPolicy.Proofs.Segments
import CallPolicy.Proofs.Classifiers
import CallPolicy.Proofs.Reordering
import CallPolicy.Proofs.Edit
import CallPolicy.Proofs.Permissiveness
import CallPolicy.Proofs.Build
import CallPolicy.Proofs.TokenCheck
import CallPolicy.Proofs.DecodeJson
import CallPolicy.Proofs.Grammar
import CallPolicy.Proofs.AuditLog
import CallPolicy.Proofs.Principal
import CallPolicy.Proofs.MembersByName
import CallPolicy.Proofs.PublishedSchemas
