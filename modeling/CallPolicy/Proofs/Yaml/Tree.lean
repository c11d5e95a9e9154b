import CallPolicy.Proofs.Yaml.Allowed
import CallPolicy.Yaml.Node

set_option autoImplicit false

/-! # Documents of what is rendered

A rendered value is read as the tree that it was rendered from (`ofText_render`): the scanner finds
the tokens of the value, and the tokens make the tree. -/

namespace CallPolicy.Yaml

open Scan

/-! ## Tokens of a whole text -/

/-- The scanner finds the tokens of a rendered record, and all of them. -/
theorem scanTokens_render {members : List (String × Json)} (h : (Json.object members).Textual)
    (hne : members ≠ []) :
    scanTokens (render (.object members)) =
      (.streamStart :: (valueTokens false (.object members) ++ [.streamEnd]), true) := by
  obtain ⟨hnames, heach⟩ : (∀ m ∈ members, isMemberName m.1 = true) ∧
      ∀ m ∈ members, m.2.Textual := by
    cases h with
    | object hnames heach => exact ⟨hnames, heach⟩
  have hrender : (render (.object members)).toList = membersText 0 members := by
    obtain ⟨m, l, rfl⟩ := List.exists_cons_of_ne_nil hne
    exact String.toList_ofList
  have hwhole : (membersText 0 members).all isAllowed = true :=
    List.all_eq_true.2 (isAllowedText_members hnames
      (fun m hm n => (isAllowedText_of_textual (heach m hm) n).1) 0)
  let start : Blocks := ⟨[.streamStart], 1, -1, []⟩
  have hentry := atEntry_members 0 hnames hne (spaces 0 ++ [])
  have hstart : (start.scan ⟨membersText 0 members ++ (spaces 0 ++ []), {}⟩ true none).Ready true 0
      (membersText 0 members ++ (spaces 0 ++ [])) start :=
    ready_of_gapEnd (gapEnd_entry hentry) (isPast_none {}) (Nat.le_refl _)
  obtain ⟨s', ⟨k, hk, hrun⟩, hready⟩ := hstart.members hnames
    (fun m hm => (found_of_textual (heach m hm)).1) hne (by decide) (Nat.le_refl 0)
    (fun c hc => by cases hc)
  -- each step took a character, so the fuel is not used up
  obtain ⟨fuel, hfuel⟩ : ∃ fuel, (membersText 0 members).length + 2 = fuel + 1 + k :=
    ⟨(membersText 0 members).length + 1 - k, by simp [Blocks.scan, spaces] at hk; omega⟩
  let blocks := (start.rolled 0 .blockMappingStart).add (memberTokens members)
  have hopen : blocks.close 0 = blocks :=
    Blocks.close_of_le (Int.le_of_eq (Blocks.rolled_indent (by decide) _))
  have hclosed : blocks.close (-1) =
      start.add (.blockMappingStart :: memberTokens members ++ [.blockEnd]) :=
    (Blocks.close_rolled (by decide) (by decide) _ _).trans (Blocks.close_of_le (Int.le_refl (-1)))
  have hdone := (hrun (fuel + 1)).trans (hready.run_end fuel)
  rw [← hfuel] at hdone
  simp only [scanTokens, hrender, hwhole, if_true]
  have htext : membersText 0 members ++ (spaces 0 ++ []) = membersText 0 members := by simp [spaces]
  rw [htext] at hdone
  refine Eq.trans hdone ?_
  show ((((blocks.close 0).close (-1)).add [.streamEnd]).done.reverse, true) = _
  rw [hopen, hclosed]
  obtain ⟨m, l, rfl⟩ := List.exists_cons_of_ne_nil hne
  simp [Blocks.add, start, valueTokens]

/-! ## The tree of a value -/

mutual

/-- The tree that a rendered value is read as. -/
def nodeOf : Json → Node
  | .string s => .scalar {} (scalarStyle s.toList) s.toList
  | .array items => .sequence {} (nodesOf items)
  | .object members => .mapping {} (nodePairsOf members)
  | _ => .absent

/-- The trees of the items of a sequence. -/
def nodesOf : List Json → List Node
  | [] => []
  | v :: rest => nodeOf v :: nodesOf rest

/-- The trees of the members of a mapping. -/
def nodePairsOf : List (String × Json) → List (Node × Node)
  | [] => []
  | (k, v) :: rest => (.scalar {} .plain k.toList, nodeOf v) :: nodePairsOf rest

end

/-! ## From tokens to trees -/

/-- Tokens that the content of a node begins with. -/
def beginsContent : Token → Bool
  | .scalar .. | .flowSequenceStart | .flowMappingStart | .blockSequenceStart | .blockMappingStart
  | .blockEntry => true
  | _ => false

section

variable {fuel : Nat} {block indentless : Bool} {f : Feed} {t : Token} {rest : List Token}

/-- A node without properties is its content. -/
theorem node_eq_content (ht : beginsContent t = true) :
    node (fuel + 1) block indentless { f with tokens := t :: rest } =
      content fuel block indentless {} { f with tokens := t :: rest } := by
  cases t <;> first | rfl | cases ht

/-- Tokens that an item begins with. -/
def beginsItem (t : Token) : Bool := beginsContent t && t != .blockEntry

theorem valueTokens_cons {v : Json} (hv : v.Textual) (indentless : Bool) :
    ∃ t ts, valueTokens indentless v = t :: ts ∧ beginsContent t = true ∧
      (indentless = false → beginsItem t = true) := by
  cases hv with
  | string text => exact ⟨_, _, rfl, rfl, fun _ => rfl⟩
  | @array items _ =>
    cases items with
    | nil => exact ⟨_, _, rfl, rfl, fun _ => rfl⟩
    | cons v l => cases indentless <;> exact ⟨_, _, rfl, rfl, by decide⟩
  | @object members _ _ => cases members <;> exact ⟨_, _, rfl, rfl, fun _ => rfl⟩

theorem indentlessItems_entry (ht : beginsItem t = true) :
    indentlessItems (fuel + 1) { f with tokens := .blockEntry :: t :: rest } =
      let (item, f) := node fuel true false { f with tokens := t :: rest }
      let (items, f) := indentlessItems fuel f
      (item :: items, f) := by
  cases t <;> first | rfl | cases ht

theorem blockItems_entry (ht : beginsItem t = true) :
    blockItems (fuel + 1) { f with tokens := .blockEntry :: t :: rest } =
      let (item, f) := node fuel true false { f with tokens := t :: rest }
      let (items, f) := blockItems fuel f
      (item :: items, f) := by
  cases t <;> first | rfl | cases ht

theorem blockPart_content (ht : beginsContent t = true) :
    blockPart (fuel + 1) { f with tokens := t :: rest } =
      node fuel true true { f with tokens := t :: rest } := by
  cases t <;> first | rfl | cases ht

/-- A scalar that a mapping has for a key. -/
theorem blockPart_scalar (style : ScalarStyle) (text : List Char) :
    blockPart (fuel + 3) { f with tokens := .scalar style text :: rest } =
      (.scalar {} style text, { f with tokens := rest }) := by
  rw [blockPart_content rfl, node_eq_content rfl]
  rfl

/-- A member of a block mapping. -/
theorem blockMembers_key :
    blockMembers (fuel + 1) { f with tokens := .key :: rest } =
      let (k, f) := blockPart fuel { f with tokens := rest }
      let (v, f) := blockValue fuel f
      let (members, f) := blockMembers fuel f
      ((k, v) :: members, f) := by
  rw [blockMembers]

theorem blockValue_content (ht : beginsContent t = true) :
    blockValue (fuel + 2) { f with tokens := .value :: t :: rest } =
      node fuel true true { f with tokens := t :: rest } := by
  rw [blockValue]
  exact blockPart_content ht

/-- Tokens that a sequence without indentation ends in front of. -/
def EndsItems (rest : List Token) : Prop :=
  ∃ t more, rest = t :: more ∧ t ≠ .blockEntry

/-- The tokens of the value are read as its tree, with fuel for five readers between two of them. -/
def ReadsNode (v : Json) : Prop :=
  ∀ (indentless : Bool) (fuel : Nat) (f : Feed) (rest : List Token),
    5 * (valueTokens indentless v).length ≤ fuel → (indentless = true → EndsItems rest) →
    node fuel true indentless { f with tokens := valueTokens indentless v ++ rest } =
      (nodeOf v, { f with tokens := rest })

theorem indentlessItems_tokens {l : List Json} (hl : ∀ v ∈ l, v.Textual ∧ ReadsNode v)
    (hfuel : 5 * (itemTokens l).length ≤ fuel + 2) (hpos : 0 < fuel) (hrest : EndsItems rest) :
    indentlessItems fuel { f with tokens := itemTokens l ++ rest } =
      (nodesOf l, { f with tokens := rest }) := by
  induction l generalizing fuel with
  | nil =>
    obtain ⟨t, more, rfl, ht⟩ := hrest
    obtain ⟨fuel, rfl⟩ : ∃ n, fuel = n + 1 := ⟨fuel - 1, by omega⟩
    cases t <;> first | rfl | exact absurd rfl ht
  | cons v l ih =>
    obtain ⟨⟨htextual, hv⟩, htail⟩ := List.forall_mem_cons.1 hl
    simp only [itemTokens, List.cons_append, List.append_assoc, List.length_cons,
      List.length_append] at hfuel ⊢
    obtain ⟨fuel, rfl⟩ : ∃ n, fuel = n + 1 := ⟨fuel - 1, by omega⟩
    have hitem := hv false fuel f (itemTokens l ++ rest) (by omega) (fun h => by cases h)
    obtain ⟨t, ts, htokens, -, ht⟩ := valueTokens_cons htextual false
    rw [htokens, List.cons_append] at hitem ⊢
    have hitems : indentlessItems fuel { f with tokens := itemTokens l ++ rest } =
        (nodesOf l, { f with tokens := rest }) := ih htail (by omega) (by omega)
    rw [indentlessItems_entry (ht rfl), hitem]
    simp only [hitems]
    rfl

theorem blockItems_tokens {l : List Json} (hl : ∀ v ∈ l, v.Textual ∧ ReadsNode v)
    (hfuel : 5 * (itemTokens l).length < fuel) :
    blockItems fuel { f with tokens := itemTokens l ++ .blockEnd :: rest } =
      (nodesOf l, { f with tokens := rest }) := by
  induction l generalizing fuel with
  | nil =>
    obtain ⟨fuel, rfl⟩ : ∃ n, fuel = n + 1 := ⟨fuel - 1, by omega⟩
    rfl
  | cons v l ih =>
    obtain ⟨⟨htextual, hv⟩, htail⟩ := List.forall_mem_cons.1 hl
    simp only [itemTokens, List.cons_append, List.append_assoc, List.length_cons,
      List.length_append] at hfuel ⊢
    obtain ⟨fuel, rfl⟩ : ∃ n, fuel = n + 1 := ⟨fuel - 1, by omega⟩
    have hitem := hv false fuel f (itemTokens l ++ .blockEnd :: rest) (by omega)
      (fun h => by cases h)
    obtain ⟨t, ts, htokens, -, ht⟩ := valueTokens_cons htextual false
    rw [htokens, List.cons_append] at hitem ⊢
    have hitems : blockItems fuel { f with tokens := itemTokens l ++ .blockEnd :: rest } =
        (nodesOf l, { f with tokens := rest }) := ih htail (by omega)
    rw [blockItems_entry (ht rfl), hitem]
    simp only [hitems]
    rfl

theorem blockMembers_tokens {l : List (String × Json)} (hl : ∀ m ∈ l, m.2.Textual ∧ ReadsNode m.2)
    (hfuel : 5 * (memberTokens l).length < fuel) :
    blockMembers fuel { f with tokens := memberTokens l ++ .blockEnd :: rest } =
      (nodePairsOf l, { f with tokens := rest }) := by
  induction l generalizing fuel with
  | nil =>
    obtain ⟨fuel, rfl⟩ : ∃ n, fuel = n + 1 := ⟨fuel - 1, by omega⟩
    rfl
  | cons m l ih =>
    obtain ⟨name, v⟩ := m
    obtain ⟨⟨htextual, (hv : ReadsNode v)⟩, htail⟩ := List.forall_mem_cons.1 hl
    simp only [memberTokens, List.cons_append, List.append_assoc, List.length_cons,
      List.length_append] at hfuel ⊢
    obtain ⟨fuel, rfl⟩ : ∃ n, fuel = n + 4 := ⟨fuel - 4, by omega⟩
    have hbehind : EndsItems (memberTokens l ++ .blockEnd :: rest) := by
      cases l with
      | nil => exact ⟨_, _, rfl, by simp⟩
      | cons m l => exact ⟨_, _, rfl, by simp⟩
    have hvalue := hv true (fuel + 1) f (memberTokens l ++ .blockEnd :: rest) (by omega)
      fun _ => hbehind
    obtain ⟨t, ts, htokens, ht, -⟩ := valueTokens_cons htextual true
    rw [htokens, List.cons_append] at hvalue ⊢
    have hmembers : blockMembers (fuel + 3)
        { f with tokens := memberTokens l ++ .blockEnd :: rest } =
          (nodePairsOf l, { f with tokens := rest }) := ih htail (by omega)
    rw [blockMembers_key, blockPart_scalar]
    simp only [blockValue_content ht, hvalue, hmembers]
    rfl

/-- The tokens of a value that is made of texts are read as its tree. -/
theorem readsNode_of_textual {v : Json} (hv : v.Textual) : ReadsNode v := by
  induction hv with
  | string text =>
    intro indentless fuel f rest hfuel _
    obtain ⟨fuel, rfl⟩ : ∃ n, fuel = n + 2 := ⟨fuel - 2, by simp [valueTokens] at hfuel; omega⟩
    rfl
  | @array items htextual ih =>
    intro indentless fuel f rest hfuel hrest
    have hitems : ∀ v ∈ items, v.Textual ∧ ReadsNode v := fun v hv => ⟨htextual v hv, ih v hv⟩
    cases items with
    | nil =>
      obtain ⟨fuel, rfl⟩ : ∃ n, fuel = n + 3 := ⟨fuel - 3, by simp [valueTokens] at hfuel; omega⟩
      rfl
    | cons v l =>
      obtain ⟨fuel, rfl⟩ : ∃ n, fuel = n + 2 :=
        ⟨fuel - 2, by cases indentless <;> simp [valueTokens, itemTokens] at hfuel <;> omega⟩
      cases indentless with
      | true =>
        have hopen : itemTokens (v :: l) ++ rest =
            .blockEntry :: (valueTokens false v ++ itemTokens l ++ rest) := rfl
        have hread : indentlessItems fuel { f with tokens := itemTokens (v :: l) ++ rest } =
            (nodesOf (v :: l), { f with tokens := rest }) :=
          indentlessItems_tokens hitems hfuel
            (by simp [valueTokens, itemTokens] at hfuel; omega) (hrest rfl)
        show node _ _ _ { f with tokens := itemTokens (v :: l) ++ rest } = _
        rw [hopen] at hread ⊢
        rw [node_eq_content rfl, content]
        simp only [if_true, hread]
        rfl
      | false =>
        have hread : blockItems fuel
            { f with tokens := itemTokens (v :: l) ++ .blockEnd :: rest } =
              (nodesOf (v :: l), { f with tokens := rest }) :=
          blockItems_tokens hitems (by simp [valueTokens] at hfuel; omega)
        have hopen : valueTokens false (.array (v :: l)) ++ rest =
            .blockSequenceStart :: (itemTokens (v :: l) ++ .blockEnd :: rest) := by
          simp [valueTokens]
        rw [hopen, node_eq_content rfl, content]
        simp only [if_true, hread]
        rfl
  | @object members _ htextual ih =>
    intro indentless fuel f rest hfuel _
    have hmembers : ∀ m ∈ members, m.2.Textual ∧ ReadsNode m.2 := fun m hm =>
      ⟨htextual m hm, ih m hm⟩
    cases members with
    | nil =>
      obtain ⟨fuel, rfl⟩ : ∃ n, fuel = n + 3 := ⟨fuel - 3, by simp [valueTokens] at hfuel; omega⟩
      rfl
    | cons m l =>
      obtain ⟨fuel, rfl⟩ : ∃ n, fuel = n + 2 :=
        ⟨fuel - 2, by simp [valueTokens] at hfuel; omega⟩
      have hread : blockMembers fuel
          { f with tokens := memberTokens (m :: l) ++ .blockEnd :: rest } =
            (nodePairsOf (m :: l), { f with tokens := rest }) :=
        blockMembers_tokens hmembers (by simp [valueTokens] at hfuel; omega)
      simp only [valueTokens, List.cons_append, List.append_assoc, List.nil_append]
      rw [node_eq_content rfl, content]
      simp only [if_true, hread]
      rfl

end

/-! ## Whole documents -/

/-- A rendered record is read as its tree, and nothing stands behind it. -/
theorem ofText_render {members : List (String × Json)} (h : (Json.object members).Textual)
    (hne : members ≠ []) :
    Document.ofText (render (.object members)) = ⟨nodeOf (.object members), .ended⟩ := by
  obtain ⟨m, l, rfl⟩ := List.exists_cons_of_ne_nil hne
  let tokens := valueTokens false (.object (m :: l))
  let fuel := 5 * (Token.streamStart :: (tokens ++ [.streamEnd])).length + 16
  have hread : node fuel true false
      { tokens := tokens ++ [.streamEnd], handles := [] ++ standardHandles } =
        (nodeOf (.object (m :: l)), { tokens := [.streamEnd], handles := [] ++ standardHandles }) :=
    readsNode_of_textual h false fuel { tokens := [], handles := [] ++ standardHandles } _
      (by simp [fuel, tokens]; omega) (fun h => by cases h)
  rw [Document.ofText, scanTokens_render h hne]
  show documentBody [] (node fuel true false) (tokens ++ [.streamEnd]) = _
  rw [documentBody, hread]
  rfl

end CallPolicy.Yaml
