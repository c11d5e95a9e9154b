import CallPolicy.Config.Load

set_option autoImplicit false

/-! # What decoders yield

Properties of whatever a decoder of YAML values gives back, if it does not fail: they are put
together along the decoder (`Yields.bind`), and hold of the fields of a record once they hold of
each field by itself (`yields_readRecord`). -/

namespace CallPolicy

variable {α β φ : Type}

/-- The decoder gives back nothing but what has the property. -/
def Yields (x : YamlDecode α) (P : α → Prop) : Prop :=
  ∀ n a n', x.run n = .ok (a, n') → P a

namespace Yields

variable {P : α → Prop} {Q : β → Prop}

theorem any (x : YamlDecode α) : Yields x fun _ => True :=
  fun _ _ _ _ => True.intro

theorem pure {a : α} (h : P a) : Yields (pure a) P := by
  intro n b n' hb
  cases hb
  exact h

theorem fail (fault : Fault) : Yields (failHere fault) P := by
  intro n a n' h
  cases h

theorem bind {x : YamlDecode α} {f : α → YamlDecode β} (hx : Yields x P)
    (hf : ∀ a, P a → Yields (f a) Q) : Yields (x >>= f) Q := by
  intro n b n' h
  rw [StateT.run_bind, bind_eq_ok_iff] at h
  obtain ⟨⟨a, m⟩, ha, hb⟩ := h
  exact hf a (hx n a m ha) m b n' hb

/-- Where a decoder fails its error is told one step further up, and what it gives back stays. -/
theorem within {x : YamlDecode α} (step : Step) (hx : Yields x P) :
    Yields (within step x) P := by
  intro n a n' h
  refine hx n a n' ?_
  change tryCatchThe DecodeError (x n) (fun e => throw (e.under step)) = .ok (a, n') at h
  cases hrun : x n with
  | error e =>
    rw [hrun] at h
    cases h
  | ok r =>
    rw [hrun] at h
    exact hrun.trans h

end Yields

/-! ## Records -/

section

variable {P : φ → Prop} {entries : List (String × (YamlValue → YamlDecode φ))}

theorem yields_readMembers (hentries : ∀ e ∈ entries, ∀ v, Yields (e.2 v) P) (seen : List String)
    (members : List (YamlValue × YamlValue)) :
    Yields (readMembers entries seen members) fun values => ∀ x ∈ values, P x := by
  induction members generalizing seen with
  | nil => exact .pure (by simp)
  | cons member rest ih =>
    obtain ⟨k, v⟩ := member
    refine .bind (.any _) fun name _ => ?_
    cases hfield : entries.lookup name with
    | none => exact .bind (.any _) fun _ _ => ih seen
    | some read =>
      have hread : Yields (read v) P := by
        obtain ⟨before, behind, hsplit, -⟩ := List.lookup_eq_some_iff.1 hfield
        exact hentries (name, read) (by rw [hsplit]; simp) v
      show Yields (if seen.contains name then _ else _) _
      split
      · exact .fail _
      · refine .bind (.within _ hread) fun x hx => .bind (ih _) fun xs hxs => .pure ?_
        exact List.forall_mem_cons.2 ⟨hx, hxs⟩

theorem yields_readPositions (hentries : ∀ e ∈ entries, ∀ v, Yields (e.2 v) P)
    (items : List YamlValue) :
    Yields (readPositions entries items) fun values => ∀ x ∈ values, P x := by
  induction entries generalizing items with
  | nil => exact .pure (by simp)
  | cons entry entries ih =>
    cases items with
    | nil => exact .pure (by simp)
    | cons v rest =>
      have hrest := ih (fun e he => hentries e (List.mem_cons_of_mem _ he)) rest
      refine .bind (hentries entry List.mem_cons_self v) fun x hx => .bind hrest fun xs hxs => ?_
      exact .pure (List.forall_mem_cons.2 ⟨hx, hxs⟩)

/-- What holds of every field by itself holds of all fields of a record. -/
theorem yields_readRecord {fields : Fields YamlDecode YamlValue φ}
    (hfields : ∀ e ∈ fields.entries, ∀ v, Yields (e.2 v) P) (v : YamlValue) :
    Yields (readRecord fields v) fun d => ∀ x ∈ d.values, P x := by
  refine .bind (.any _) fun record _ => ?_
  cases record with
  | keyed members => exact .bind (yields_readMembers hfields [] members) fun _ h => .pure h
  | positional items =>
    refine .bind (yields_readPositions hfields items) fun values h => ?_
    show Yields (if _ then _ else _) _
    split
    · exact .fail _
    · exact .pure h

end

/-! ## Whole documents -/

/-- The value that a document stands for. -/
def YamlValue.ofDocument (d : Yaml.Document) : YamlValue :=
  ⟨d.root, YamlValue.anchoredBelow [] d.root, 100 * YamlValue.size d.root⟩

/-- A text decodes iff its first document does and nothing stands behind it. -/
theorem decodeYaml_eq_ok_iff {read : YamlValue → YamlDecode α} {text : String} {a : α} :
    decodeYaml read text = .ok a ↔
      (∃ n, (read (.ofDocument (.ofText text))).run 0 = .ok (a, n)) ∧
        (Yaml.Document.ofText text).after = .ended := by
  constructor
  · intro h
    obtain ⟨⟨b, n⟩, hrun, hend⟩ := bind_eq_ok_iff.1 h
    dsimp only at hend
    split at hend
    · rename_i hafter
      cases hend
      exact ⟨⟨n, hrun⟩, hafter⟩
    · cases hend
    · cases hend
  · rintro ⟨⟨n, hrun⟩, hafter⟩
    refine bind_eq_ok_iff.2 ⟨(a, n), hrun, ?_⟩
    rw [hafter]
    rfl

/-- What a document decodes to has the properties that its decoder ensures. -/
theorem Yields.of_decodeYaml {read : YamlValue → YamlDecode α} {P : α → Prop}
    (hread : ∀ v, Yields (read v) P) {text : String} {a : α}
    (h : decodeYaml read text = .ok a) : P a := by
  obtain ⟨⟨n, hrun⟩, -⟩ := decodeYaml_eq_ok_iff.1 h
  exact hread _ 0 a n hrun

end CallPolicy
