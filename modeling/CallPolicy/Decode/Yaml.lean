import CallPolicy.Decode.Source
import CallPolicy.Yaml.Node
import CallPolicy.Yaml.Resolve

set_option autoImplicit false

/-! # Decoding YAML documents

Where text is expected every scalar is its own text; elsewhere a plain scalar stands for what it
spells. An empty plain scalar counts as an empty map or sequence where one is expected. Aliases
are followed on the way, and how often is counted, since a short text could repeat itself beyond
all bounds. -/

namespace CallPolicy

open Yaml

/-- A node with the document that it belongs to. -/
structure YamlValue where
  node : Node
  /-- The anchored nodes of the document by anchor number. -/
  anchored : List (Nat × Node)
  /-- How many aliases may be followed. -/
  limit : Nat

/-- Decoding of YAML values; the state counts the aliases that were followed. -/
abbrev YamlDecode := StateT Nat (Except DecodeError)

namespace YamlValue

/-! ## Aliases -/

/-- Counts one alias that is followed. -/
def follow (limit : Nat) : YamlDecode Unit := do
  let n := (← get) + 1
  set n
  if limit < n then throw (.here .tooManyRepetitions)

/-- The node itself, or the one that it is an alias of. -/
def target (v : YamlValue) : YamlDecode Node :=
  match v.node with
  | .alias anchor => do
    follow v.limit
    -- an anchored node is never an alias
    return (v.anchored.lookup anchor).getD (.cut .unknownAnchor)
  | n => pure n

/-- A part of the value. -/
def part (v : YamlValue) (n : Node) : YamlValue := { v with node := n }

/-! ## Reading nodes -/

/-- The error of a document that breaks off. -/
def cutFault : Cut → Fault
  | .malformed => .malformedText
  | .unknownAnchor => .unknownAnchor

/-- The name space of the standard tags. -/
def standardTag (name : String) : List Char :=
  ("tag:yaml.org,2002:" ++ name).toList

/-- Is the tag one of the document itself, and of no standard? -/
def isLocalTag : Option (List Char) → Bool
  | some ('!' :: _) => true
  | _ => false

/-- Does the tag name a type? A name is well-formed text; the characters of a tag are its bytes. -/
def namesType : Option (List Char) → Bool
  | some ('!' :: name) =>
    (String.fromUTF8? ⟨(name.map fun c => UInt8.ofNat c.toNat).toArray⟩).isSome
  | _ => false

/-- What a scalar stands for under its tag. A standard tag insists on its type. -/
def scalarFound (tag : Option (List Char)) (style : ScalarStyle) (text : List Char) :
    Except Fault Found :=
  let asText := Found.string (String.ofList text)
  let insist (found : Option Found) (expected : String) : Except Fault Found :=
    match found with
    | some found => .ok found
    | none => .error (.invalidValue asText expected)
  let plain : Found := if style = .plain then resolve text else asText
  match tag with
  | none => .ok plain
  | some t =>
    if t = standardTag "bool" then insist ((boolean? text).map .bool) "a boolean"
    else if t = standardTag "int" then
      insist ((integer? text).map fun (n, width) => .integer n width) "an integer"
    else if t = standardTag "float" then insist (floating? text) "a float"
    else if t = standardTag "null" then insist (if isNull text then some .null else none) "null"
    else if isLocalTag tag then .ok plain
    else .ok asText

/-- Is the node an empty plain scalar, or a document without content? -/
def isBlankNode : Node → Bool
  | .scalar _ .plain [] | .absent => true
  | _ => false

/-- The error of a node that is not what was expected. -/
def mismatch (n : Node) (expected : String) : Fault :=
  match n with
  | .scalar props style text => match scalarFound props.tag style text with
    | .ok found => .invalidType found expected
    | .error fault => fault
  | .sequence .. => .invalidType .sequence expected
  | .mapping .. => .invalidType .map expected
  | .absent => .endOfText
  | .alias _ => .unknownAnchor
  | .cut reason => cutFault reason

/-- The node as it stands. A tag that names a type makes it a choice. -/
def viewNode (v : YamlValue) : Node → Except Fault (View YamlValue)
  | .scalar props style text =>
    if namesType props.tag then .ok (.other .tagged)
    else do
      match ← scalarFound props.tag style text with
      | .string s => return .string s
      | found => return .other found
  | .sequence props _ => .ok (.other (if namesType props.tag then .tagged else .sequence))
  | .mapping props members =>
    if namesType props.tag then .ok (.other .tagged)
    else .ok (.map (members.map fun (k, x) => (v.part k, v.part x)))
  | .absent => .ok (.other .absent)
  | .alias _ => .error .unknownAnchor
  | .cut reason => .error (cutFault reason)

mutual

/-- The first place below a node where the text breaks off. -/
def firstCut? : Node → Option Cut
  | .sequence _ items => firstCutIn? items
  | .mapping _ members => firstCutOf? members
  | .cut reason => some reason
  | _ => none

/-- The first such place in a list of nodes. -/
def firstCutIn? : List Node → Option Cut
  | [] => none
  | n :: rest => (firstCut? n).or (firstCutIn? rest)

/-- The first such place in the members of a mapping. -/
def firstCutOf? : List (Node × Node) → Option Cut
  | [] => none
  | (k, v) :: rest => ((firstCut? k).or (firstCut? v)).or (firstCutOf? rest)

end

end YamlValue

open YamlValue

instance : Source YamlDecode YamlValue where
  text expected v := do
    match ← v.target with
    | .scalar _ _ text => return String.ofList text
    | n => failHere (mismatch n expected)
  items v := do
    match ← v.target with
    | .sequence _ items => return items.map v.part
    | n => if isBlankNode n then return [] else failHere (mismatch n "a sequence")
  record name v := do
    match ← v.target with
    | .mapping _ members => return .keyed (members.map fun (k, x) => (v.part k, v.part x))
    | n => if isBlankNode n then return .keyed [] else failHere (mismatch n ("struct " ++ name))
  view v := do
    match viewNode v (← v.target) with
    | .ok view => return view
    | .error fault => failHere fault
  skip v := match firstCut? v.node with
    | some reason => failHere (cutFault reason)
    | none => pure ()
  step v := match v.node with
    | .scalar _ _ text => .key (String.ofList text)
    | _ => .unnamed

/-! ## Whole documents -/

namespace YamlValue

mutual

/-- The anchored nodes below a node, the last one first. -/
def anchoredBelow (acc : List (Nat × Node)) (n : Node) : List (Nat × Node) :=
  match n with
  | .scalar props _ _ => register acc props n
  | .sequence props items => anchoredIn (register acc props n) items
  | .mapping props members => anchoredOf (register acc props n) members
  | _ => acc

/-- The anchored nodes in a list. -/
def anchoredIn (acc : List (Nat × Node)) : List Node → List (Nat × Node)
  | [] => acc
  | n :: rest => anchoredIn (anchoredBelow acc n) rest

/-- The anchored nodes in the members of a mapping. -/
def anchoredOf (acc : List (Nat × Node)) : List (Node × Node) → List (Nat × Node)
  | [] => acc
  | (k, v) :: rest => anchoredOf (anchoredBelow (anchoredBelow acc k) v) rest

/-- Adds a node under its anchor number, in front of an earlier node of that number. -/
def register (acc : List (Nat × Node)) (props : Props) (n : Node) : List (Nat × Node) :=
  match props.anchor with
  | some number => (number, n) :: acc
  | none => acc

end

mutual

/-- The number of marks that a node is made of: one for a leaf, two more than its parts for a
    collection. -/
def size : Node → Nat
  | .sequence _ items => 2 + sizeIn items
  | .mapping _ members => 2 + sizeOfMembers members
  | .cut _ => 0
  | _ => 1

/-- The marks of a list of nodes. -/
def sizeIn : List Node → Nat
  | [] => 0
  | n :: rest => size n + sizeIn rest

/-- The marks of the members of a mapping. -/
def sizeOfMembers : List (Node × Node) → Nat
  | [] => 0
  | (k, v) :: rest => size k + size v + sizeOfMembers rest

end

end YamlValue

/-- Decodes the only document of a YAML text. -/
def decodeYaml {α : Type} (read : YamlValue → YamlDecode α) (text : String) :
    Except DecodeError α := do
  let d := Document.ofText text
  let v : YamlValue := ⟨d.root, anchoredBelow [] d.root, 100 * YamlValue.size d.root⟩
  let (x, _) ← (read v).run 0
  match d.after with
  | .ended => return x
  | .more => throw (.here .severalDocuments)
  | .cut reason => throw (.here (cutFault reason))

/-- Decodes the only document of a YAML text, and makes the result of it. A text that cannot be
    decoded as a whole is at fault before what is made of it. -/
def decodeYamlTo {α β : Type} (read : YamlValue → YamlDecode α) (make : α → Except Fault β)
    (text : String) : Except DecodeError β := do
  (make (← decodeYaml read text)).mapError .here

end CallPolicy
