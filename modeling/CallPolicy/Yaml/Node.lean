import CallPolicy.Yaml.Scan

set_option autoImplicit false

/-! # Nodes of YAML documents

`Document.ofText` reads a text as a tree of nodes. An alias stays in the tree as a reference to an
anchored node, so the tree is finite even where a node refers to itself. Where the text breaks
off, because it is not well formed or names an unknown anchor, the tree holds a `cut`: what stands
before it has been read, and whoever comes to it meets the reason.

The functions that read collections follow the grammar of tokens: each takes the tokens that are
left and gives back what it read and what is left behind it. -/

namespace CallPolicy.Yaml

/-! ## The tree -/

/-- Why a document breaks off. -/
inductive Cut where
  | malformed
  | unknownAnchor
deriving DecidableEq

/-- The properties of a node: the number of its anchor, and its tag. -/
structure Props where
  anchor : Option Nat := none
  tag : Option (List Char) := none
deriving DecidableEq

/-- A node of a document. -/
inductive Node where
  | scalar (props : Props) (style : ScalarStyle) (text : List Char)
  | sequence (props : Props) (items : List Node)
  | mapping (props : Props) (members : List (Node × Node))
  /-- The node with this anchor number. -/
  | alias (anchor : Nat)
  /-- A document without content. -/
  | absent
  /-- The text breaks off here. -/
  | cut (reason : Cut)

/-- The node that stands where nothing is written. -/
def Node.blank (props : Props) : Node :=
  .scalar props .plain []

/-! ## Reading nodes -/

/-- What is left to read. -/
structure Feed where
  tokens : List Token
  /-- Why the tokens end before the text does. -/
  reason : Cut := .malformed
  /-- The anchors so far, the latest first, with their numbers. -/
  anchors : List (List Char × Nat) := []
  /-- The tag handles of the document. -/
  handles : List (List Char × List Char) := []

namespace Feed

/-- Nothing more can be read, for this reason. -/
def stop (f : Feed) (reason : Cut) : Feed :=
  { f with tokens := [], reason }

/-- Breaks off for a text that is not well formed. -/
def fail (f : Feed) : Node × Feed :=
  (.cut .malformed, f.stop .malformed)

/-- Gives an anchor its number: how many different names there have been before. A name that is
    used again moves to its new number. -/
def anchor (f : Feed) : Option (List Char) → Option Nat × Feed
  | none => (none, f)
  | some name =>
    let number := f.anchors.length
    let others := f.anchors.filter (·.1 != name)
    (some number, { f with anchors := (name, number) :: others })

end Feed

/-- The anchor and the tag before a node, in either order. -/
def nodeProps : List Token →
    Option (List Char) × Option (List Char × List Char) × List Token
  | .anchor name :: .tag handle suffix :: rest => (some name, some (handle, suffix), rest)
  | .tag handle suffix :: .anchor name :: rest => (some name, some (handle, suffix), rest)
  | .anchor name :: rest => (some name, none, rest)
  | .tag handle suffix :: rest => (none, some (handle, suffix), rest)
  | rest => (none, none, rest)

/-- The full tag; `none` if its handle was not declared. -/
def fullTag? (handles : List (List Char × List Char)) :
    Option (List Char × List Char) → Option (Option (List Char))
  | none => some none
  | some ([], uri) => some (some uri)
  | some (handle, suffix) => (handles.lookup handle).map fun uri => some (uri ++ suffix)

/-- Is the token one of the marks that may follow an empty entry of a block mapping? -/
def endsBlockPart : Token → Bool
  | .key | .value | .blockEnd => true
  | _ => false

mutual

/-- Reads a node. `block` says whether block collections may stand here, and `indentless` whether
    a block sequence may stand without indentation. -/
def node (fuel : Nat) (block indentless : Bool) (f : Feed) : Node × Feed :=
  match fuel with
  | 0 => f.fail
  | fuel + 1 =>
    match f.tokens with
    | [] => (.cut f.reason, f)
    | .alias name :: rest =>
      match f.anchors.lookup name with
      | some number => (.alias number, { f with tokens := rest })
      | none => (.cut .unknownAnchor, f.stop .unknownAnchor)
    | tokens =>
      let (name, shorthand, tokens) := nodeProps tokens
      if tokens.isEmpty then (.cut f.reason, f.stop f.reason)
      else match fullTag? f.handles shorthand with
        | none => f.fail
        | some tag =>
          let (number, f) := f.anchor name
          let props : Props := ⟨number, tag⟩
          content fuel block indentless props { f with tokens }

/-- Reads the content of a node behind its properties. -/
def content (fuel : Nat) (block indentless : Bool) (props : Props) (f : Feed) : Node × Feed :=
  match fuel with
  | 0 => f.fail
  | fuel + 1 =>
    match f.tokens with
    | .blockEntry :: _ =>
      if indentless then
        let (items, f) := indentlessItems fuel f
        (.sequence props items, f)
      else noContent props f
    | .scalar style text :: rest =>
      (.scalar props style text, { f with tokens := rest })
    | .flowSequenceStart :: rest =>
      let (items, f) := flowItems fuel true { f with tokens := rest }
      (.sequence props items, f)
    | .flowMappingStart :: rest =>
      let (members, f) := flowMembers fuel true { f with tokens := rest }
      (.mapping props members, f)
    | .blockSequenceStart :: rest =>
      if block then
        let (items, f) := blockItems fuel { f with tokens := rest }
        (.sequence props items, f)
      else noContent props f
    | .blockMappingStart :: rest =>
      if block then
        let (members, f) := blockMembers fuel { f with tokens := rest }
        (.mapping props members, f)
      else noContent props f
    | _ => noContent props f

/-- An empty node, if a property announced it. -/
def noContent (props : Props) (f : Feed) : Node × Feed :=
  if props.anchor.isSome || props.tag.isSome then (.blank props, f) else f.fail

/-- Reads the items of a block sequence behind its start. -/
def blockItems (fuel : Nat) (f : Feed) : List Node × Feed :=
  match fuel with
  | 0 => ([.cut .malformed], f.stop .malformed)
  | fuel + 1 =>
    match f.tokens with
    | .blockEnd :: rest => ([], { f with tokens := rest })
    | .blockEntry :: rest =>
      let f := { f with tokens := rest }
      let (item, f) := match rest with
        | .blockEntry :: _ | .blockEnd :: _ => (.blank {}, f)
        | _ => node fuel true false f
      let (items, f) := blockItems fuel f
      (item :: items, f)
    | [] => ([.cut f.reason], f)
    | _ => ([.cut .malformed], f.stop .malformed)

/-- Reads the items of a block sequence that is not indented. -/
def indentlessItems (fuel : Nat) (f : Feed) : List Node × Feed :=
  match fuel with
  | 0 => ([.cut .malformed], f.stop .malformed)
  | fuel + 1 =>
    match f.tokens with
    | .blockEntry :: rest =>
      let f := { f with tokens := rest }
      let (item, f) := match rest with
        | .blockEntry :: _ | .key :: _ | .value :: _ | .blockEnd :: _ => (.blank {}, f)
        | _ => node fuel true false f
      let (items, f) := indentlessItems fuel f
      (item :: items, f)
    | [] => ([.cut f.reason], f)
    | _ => ([], f)

/-- Reads the members of a block mapping behind its start. -/
def blockMembers (fuel : Nat) (f : Feed) : List (Node × Node) × Feed :=
  match fuel with
  | 0 => ([(.cut .malformed, .cut .malformed)], f.stop .malformed)
  | fuel + 1 =>
    match f.tokens with
    | .blockEnd :: rest => ([], { f with tokens := rest })
    | .key :: rest =>
      let (k, f) := blockPart fuel { f with tokens := rest }
      let (v, f) := blockValue fuel f
      let (members, f) := blockMembers fuel f
      ((k, v) :: members, f)
    | [] => ([(.cut f.reason, .cut f.reason)], f)
    | _ => ([(.cut .malformed, .cut .malformed)], f.stop .malformed)

/-- Reads the value of a member of a block mapping, if there is one. -/
def blockValue (fuel : Nat) (f : Feed) : Node × Feed :=
  match fuel with
  | 0 => f.fail
  | fuel + 1 =>
    match f.tokens with
    | .value :: rest => blockPart fuel { f with tokens := rest }
    | [] => (.cut f.reason, f)
    | _ => (.blank {}, f)

/-- Reads a key or a value of a block mapping behind its indicator. -/
def blockPart (fuel : Nat) (f : Feed) : Node × Feed :=
  match fuel with
  | 0 => f.fail
  | fuel + 1 =>
    match f.tokens with
    | t :: _ => if endsBlockPart t then (.blank {}, f) else node fuel true true f
    | [] => (.cut f.reason, f)

/-- Reads the items of a flow sequence. -/
def flowItems (fuel : Nat) (first : Bool) (f : Feed) : List Node × Feed :=
  match fuel with
  | 0 => ([.cut .malformed], f.stop .malformed)
  | fuel + 1 =>
    match f.tokens with
    | .flowSequenceEnd :: rest => ([], { f with tokens := rest })
    | .flowEntry :: rest =>
      if first then flowItem fuel f else flowItem fuel { f with tokens := rest }
    | [] => ([.cut f.reason], f)
    | _ => if first then flowItem fuel f else ([.cut .malformed], f.stop .malformed)

/-- Reads one item of a flow sequence, or its end behind a comma, and then the others. -/
def flowItem (fuel : Nat) (f : Feed) : List Node × Feed :=
  match fuel with
  | 0 => ([.cut .malformed], f.stop .malformed)
  | fuel + 1 =>
    match f.tokens with
    | .flowSequenceEnd :: rest => ([], { f with tokens := rest })
    | .key :: rest =>
      let (k, f) := pairKey fuel { f with tokens := rest }
      let (v, f) := pairValue fuel f
      let (items, f) := flowItems fuel false f
      (.mapping {} [(k, v)] :: items, f)
    | [] => ([.cut f.reason], f)
    | _ =>
      let (item, f) := node fuel false false f
      let (items, f) := flowItems fuel false f
      (item :: items, f)

/-- Reads the key of a single pair in a flow sequence. A key that is left out takes the token that
    stands there with it. -/
def pairKey (fuel : Nat) (f : Feed) : Node × Feed :=
  match fuel with
  | 0 => f.fail
  | fuel + 1 =>
    match f.tokens with
    | .value :: rest | .flowEntry :: rest | .flowSequenceEnd :: rest =>
      (.blank {}, { f with tokens := rest })
    | [] => (.cut f.reason, f)
    | _ => node fuel false false f

/-- Reads the value of a single pair in a flow sequence, if there is one. -/
def pairValue (fuel : Nat) (f : Feed) : Node × Feed :=
  match fuel with
  | 0 => f.fail
  | fuel + 1 =>
    match f.tokens with
    | .value :: rest => match rest with
      | .flowEntry :: _ | .flowSequenceEnd :: _ => (.blank {}, { f with tokens := rest })
      | _ => node fuel false false { f with tokens := rest }
    | [] => (.cut f.reason, f)
    | _ => (.blank {}, f)

/-- Reads the members of a flow mapping. -/
def flowMembers (fuel : Nat) (first : Bool) (f : Feed) : List (Node × Node) × Feed :=
  match fuel with
  | 0 => ([(.cut .malformed, .cut .malformed)], f.stop .malformed)
  | fuel + 1 =>
    match f.tokens with
    | .flowMappingEnd :: rest => ([], { f with tokens := rest })
    | .flowEntry :: rest =>
      if first then flowMember fuel f else flowMember fuel { f with tokens := rest }
    | [] => ([(.cut f.reason, .cut f.reason)], f)
    | _ =>
      if first then flowMember fuel f
      else ([(.cut .malformed, .cut .malformed)], f.stop .malformed)

/-- Reads one member of a flow mapping, or its end behind a comma, and then the others. -/
def flowMember (fuel : Nat) (f : Feed) : List (Node × Node) × Feed :=
  match fuel with
  | 0 => ([(.cut .malformed, .cut .malformed)], f.stop .malformed)
  | fuel + 1 =>
    match f.tokens with
    | .flowMappingEnd :: rest => ([], { f with tokens := rest })
    | .key :: rest =>
      let (k, f) := match rest with
        | .value :: _ | .flowEntry :: _ | .flowMappingEnd :: _ =>
          (.blank {}, { f with tokens := rest })
        | _ => node fuel false false { f with tokens := rest }
      let (v, f) := flowValue fuel f
      let (members, f) := flowMembers fuel false f
      ((k, v) :: members, f)
    | [] => ([(.cut f.reason, .cut f.reason)], f)
    | _ =>
      let (k, f) := node fuel false false f
      let v := if f.tokens.isEmpty then .cut f.reason else .blank {}
      let (members, f) := flowMembers fuel false f
      ((k, v) :: members, f)

/-- Reads the value of a member of a flow mapping, if there is one. -/
def flowValue (fuel : Nat) (f : Feed) : Node × Feed :=
  match fuel with
  | 0 => f.fail
  | fuel + 1 =>
    match f.tokens with
    | .value :: rest => match rest with
      | .flowEntry :: _ | .flowMappingEnd :: _ => (.blank {}, { f with tokens := rest })
      | _ => node fuel false false { f with tokens := rest }
    | [] => (.cut f.reason, f)
    | _ => (.blank {}, f)

end

/-! ## Documents -/

/-- What stands behind a document. -/
inductive After where
  /-- The end of the text. -/
  | ended
  /-- Something more. -/
  | more
  /-- The text breaks off before it is known. -/
  | cut (reason : Cut)
deriving DecidableEq

/-- The first document of a text. -/
structure Document where
  root : Node
  after : After

/-- Reads the directives before a document. A version is given once and is 1.1 or 1.2; no handle
    is declared twice. -/
def directives? (version : Bool) (handles : List (List Char × List Char)) :
    List Token → Option (List (List Char × List Char) × List Token)
  | .version major minor :: rest =>
    if version || major != 1 || (minor != 1 && minor != 2) then none
    else directives? true handles rest
  | .tagDirective handle uri :: rest =>
    if (handles.lookup handle).isSome then none
    else directives? version ((handle, uri) :: handles) rest
  | rest => some (handles, rest)

/-- The handles that every document knows, unless it declares them itself. -/
def standardHandles : List (List Char × List Char) :=
  [(['!'], ['!']), (['!', '!'], "tag:yaml.org,2002:".toList)]

/-- What stands behind a document that ends before these tokens. -/
def afterDocument : List Token → After
  | .documentEnd :: rest => afterDocument rest
  | [.streamEnd] => .ended
  | _ => .more

/-- Reads the content of a document and looks behind it. -/
def documentBody (handles : List (List Char × List Char)) (root : Feed → Node × Feed)
    (tokens : List Token) : Document :=
  let (n, f) := root { tokens, handles := handles ++ standardHandles }
  let after := match f.tokens with
    | [] => .cut f.reason
    | tokens => afterDocument tokens
  ⟨n, after⟩

/-- The content of a document behind its marker, which may be missing. -/
def contentOrBlank (fuel : Nat) (f : Feed) : Node × Feed :=
  match f.tokens with
  | .version .. :: _ | .tagDirective .. :: _ | .documentStart :: _ | .documentEnd :: _
  | .streamEnd :: _ => (.blank {}, f)
  | _ => node fuel true false f

/-- Reads the first document of the tokens. -/
def documentOf (tokens : List Token) : Document :=
  -- between two tokens at most five readers call one another
  let fuel := 5 * tokens.length + 16
  let broken : Document := ⟨.cut .malformed, .cut .malformed⟩
  let explicit (tokens : List Token) : Document :=
    match directives? false [] tokens with
    | some (handles, .documentStart :: rest) =>
      documentBody handles (contentOrBlank fuel) rest
    | _ => broken
  match tokens with
  | .streamStart :: rest => match rest with
    | [] => broken
    | .streamEnd :: _ => ⟨.absent, .ended⟩
    | .version .. :: _ | .tagDirective .. :: _ | .documentStart :: _ => explicit rest
    | _ => documentBody [] (node fuel true false) rest
  | _ => broken

/-- The first document of a text. -/
def Document.ofText (text : String) : Document :=
  documentOf (scanTokens text).1

end CallPolicy.Yaml
