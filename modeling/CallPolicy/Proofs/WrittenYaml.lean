import CallPolicy.Proofs.Decode
import CallPolicy.Proofs.WrittenJson
import CallPolicy.Proofs.Yaml.Tree

set_option autoImplicit false

/-! # Written forms in YAML

What is written as a YAML text is decoded from it (`decodeYaml_render_of_recovers`): the text is
read as the tree of the written form (`Yaml.ofText_render`), and that tree answers every decoder as
the written form does. Policies and tables are recovered so from their texts. -/

namespace CallPolicy

open Yaml

/-! ## Trees as sources -/

instance : LawfulDecoding YamlDecode where
  tryCatch_pure _ _ := rfl

namespace YamlValue

/-- A text that is written in the style of its own is seen as text. -/
theorem scalarFound_scalarStyle (text : String) :
    scalarFound none (scalarStyle text.toList) text.toList = .ok (.string text) := by
  simp only [scalarFound, scalarStyle]
  by_cases hstyle : Style.ofText text.toList = .plain
  · simp [hstyle, Style.resolve_of_ofText hstyle]
  · simp [hstyle]

theorem viewNode_text (v : YamlValue) (text : String) :
    viewNode v (.scalar {} (scalarStyle text.toList) text.toList) = .ok (.string text) := by
  simp only [viewNode, scalarFound_scalarStyle]
  rfl

theorem isText_scalar (v : YamlValue) (style : ScalarStyle) (text : String) :
    IsText YamlDecode (v.part (.scalar {} style text.toList)) text := by
  intro expected
  simp only [Source.text, target, part, pure_bind, String.ofList_toList]

theorem forall₂_nodesOf {S : Json → YamlValue → Prop} (v : YamlValue) {items : List Json}
    (h : ∀ j ∈ items, S j (v.part (nodeOf j))) :
    List.Forall₂ S items ((nodesOf items).map v.part) := by
  induction items with
  | nil => exact .nil
  | cons j l ih =>
    obtain ⟨hj, hl⟩ := List.forall_mem_cons.1 h
    exact .cons hj (ih hl)

theorem forall₂_nodePairsOf {S : String × Json → YamlValue × YamlValue → Prop} (v : YamlValue)
    {members : List (String × Json)}
    (h : ∀ m ∈ members, S m (v.part (.scalar {} .plain m.1.toList), v.part (nodeOf m.2))) :
    List.Forall₂ S members ((nodePairsOf members).map fun (k, x) => (v.part k, v.part x)) := by
  induction members with
  | nil => exact .nil
  | cons m l ih =>
    obtain ⟨hm, hl⟩ := List.forall_mem_cons.1 h
    exact .cons hm (ih hl)

/-- The tree of a value answers a decoder as the value does. -/
theorem standsFor_nodeOf {j : Json} (hj : j.Textual) (v : YamlValue) :
    StandsFor YamlDecode j (v.part (nodeOf j)) := by
  induction hj with
  | string text =>
    refine .string (isText_scalar v _ text) ?_
    simp only [Source.view, target, part, nodeOf, pure_bind, viewNode_text]
  | array _ ih => exact .array rfl (forall₂_nodesOf v ih)
  | object _ _ ih =>
    exact .object (fun _ => rfl) rfl (.refl _)
      (forall₂_nodePairsOf v fun m _ => isText_scalar v .plain m.1) (forall₂_nodePairsOf v ih)

end YamlValue

/-! ## Recovering what was written -/

/-- A record of texts that is written as a YAML text is decoded from it. -/
theorem decodeYaml_render_of_recovers {α : Type} {read : YamlValue → YamlDecode α}
    {members : List (String × Json)} (htextual : (Json.object members).Textual) (hne : members ≠ [])
    {a : α} (hread : Recovers read (.object members) a) :
    decodeYaml read (render (.object members)) = .ok a := by
  have hdocument := ofText_render htextual hne
  let root := YamlValue.ofDocument ⟨nodeOf (.object members), .ended⟩
  have hroot : read root = pure a := hread root (YamlValue.standsFor_nodeOf htextual root)
  refine decodeYaml_eq_ok_iff.2 ⟨⟨0, ?_⟩, by rw [hdocument]⟩
  rw [hdocument, hroot]
  rfl

/-- A policy is decoded from its text, whether it would pass the check or not. -/
theorem Policy.decodeYaml_render (p : Policy) :
    decodeYaml Policy.read (render p.toJson) = .ok p :=
  decodeYaml_render_of_recovers p.textual_toJson (List.cons_ne_nil _ _) p.recovers_read

/-- **Policies are recovered from their texts.** A policy is loaded from the YAML text that it is
    written as iff each of its rules has a pattern, and a table is read from the text that it is
    written as. The methods and the authorities are any texts. -/
theorem policies_recovered_from_text :
    (∀ p : Policy, Policy.ofYaml (render p.toJson) = .ok p ↔ ∀ r ∈ p.rules, r.method ≠ "") ∧
    ∀ t : RuleTable, ∃ events, (Policy.ofTable t).table = (.ok t, events) ∧
      RuleTable.ofYaml (render t.toJson) = .ok (t, events) := by
  refine ⟨fun p => ?_, fun t => ?_⟩
  · rw [Policy.ofYaml_eq_ok_iff, Policy.validate_eq_ok_iff_methods]
    exact and_iff_right p.decodeYaml_render
  · obtain ⟨events, htable⟩ := t.exists_events_ofTable
    have hdecode := (Policy.ofTable t).decodeYaml_render
    exact ⟨events, htable, RuleTable.ofYaml_eq_ok_iff.2 ⟨_, hdecode, htable⟩⟩

/-- Words that would stand for other values, marks, line breaks at the end and control characters
    are quoted or stand in a block, and so come back. -/
theorem marks_and_breaks_recovered :
    let p : Policy := ⟨[⟨"null", .hasAnyAuthority ["", "0x1F", "!tag", "~"]⟩,
      ⟨" #: 'x' ", .hasAnyAuthority []⟩, ⟨"first\n\n", .permitAll⟩,
      ⟨"\t\x07", .hasAuthority "permit_all"⟩]⟩
    let text := "rules:\n" ++
      "- method: 'null'\n  require:\n    has_any_authority:\n" ++
      "    - ''\n    - '0x1F'\n    - '!tag'\n    - '~'\n" ++
      "- method: ' #: ''x'' '\n  require:\n    has_any_authority: []\n" ++
      "- method: |+\n    first\n\n  require: permit_all\n" ++
      "- method: \"\\t\\a\"\n  require:\n    has_authority: permit_all\n"
    (∀ r ∈ p.rules, r.method ≠ "") ∧ render p.toJson = text ∧ Policy.ofYaml text = .ok p := by
  intro p text
  have hmethods : ∀ r ∈ p.rules, r.method ≠ "" := by decide
  have htext : render p.toJson = text := by decide +kernel
  have hloaded := (policies_recovered_from_text.1 p).2 hmethods
  rw [htext] at hloaded
  exact ⟨hmethods, htext, hloaded⟩

end CallPolicy
