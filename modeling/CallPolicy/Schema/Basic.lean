import CallPolicy.Json.Number

set_option autoImplicit false

/-! # JSON schemas

A schema says which JSON values are well formed, and explains itself to a reader. Named schemas are
collected beside the one that refers to them, as its definitions. -/

namespace CallPolicy

/-- A schema. -/
inductive Schema where
  | string
  /-- This string only. -/
  | word (value : String)
  /-- A list of such values; a set holds none of them twice. -/
  | list (items : Schema)
  | set (items : Schema)
  /-- A value with these members. A closed one has no others. -/
  | record (members : List (String × Schema)) (required : List String) (closed : Bool)
  /-- A value that exactly one of the schemas takes. -/
  | oneOf (choices : List Schema)
  /-- The definition of that name. -/
  | reference (name : String)
  /-- A schema with an explanation. -/
  | described (text : String) (schema : Schema)
  /-- A schema with the value that stands for an absent one. -/
  | withDefault (value : Json) (schema : Schema)

namespace Schema

mutual

/-- The keywords of a schema. -/
def keywords : Schema → List (String × Json)
  | .string => [("type", .string "string")]
  | .word value => [("type", .string "string"), ("const", .string value)]
  | .list items => [("type", .string "array"), ("items", .object (keywords items))]
  | .set items =>
    [("type", .string "array"), ("items", .object (keywords items)), ("uniqueItems", .bool true)]
  | .record members required closed =>
    [("type", .string "object"), ("properties", .object (memberSchemas members))] ++
      (if required.isEmpty then [] else [("required", .strings required)]) ++
      (if closed then [("additionalProperties", .bool false)] else [])
  | .oneOf choices => [("oneOf", .array (choiceSchemas choices))]
  | .reference name => [("$ref", .string ("#/$defs/" ++ name))]
  | .described text schema => ("description", .string text) :: keywords schema
  | .withDefault value schema => ("default", value) :: keywords schema

/-- The schemas of members under their names. -/
def memberSchemas : List (String × Schema) → List (String × Json)
  | [] => []
  | (name, schema) :: rest => (name, .object (keywords schema)) :: memberSchemas rest

/-- The schemas of a choice. -/
def choiceSchemas : List Schema → List Json
  | [] => []
  | schema :: rest => .object (keywords schema) :: choiceSchemas rest

end

end Schema

/-! ## Published schemas -/

/-- A schema with a title and the definitions that it refers to. -/
structure SchemaDocument where
  title : String
  root : Schema
  definitions : List (String × Schema) := []

namespace SchemaDocument

/-- The dialect that schemas are written in. -/
def dialect : String := "https://json-schema.org/draft/2020-12/schema"

/-- The document as a JSON value. -/
def toJson (d : SchemaDocument) : Json :=
  let header := [("$schema", Json.string dialect), ("title", Json.string d.title)]
  let definitions :=
    if d.definitions.isEmpty then []
    else [("$defs", Json.object (Schema.memberSchemas d.definitions))]
  .object (header ++ d.root.keywords ++ definitions)

end SchemaDocument

end CallPolicy
