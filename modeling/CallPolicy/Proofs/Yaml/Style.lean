import CallPolicy.Proofs.Yaml.Literal

set_option autoImplicit false

/-! # What the style of a text says about it

The style is chosen so that the reader of that style gives the text back. -/

namespace CallPolicy.Yaml

/-! ## Characters -/

theorem isAllowed_of_isShown {c : Char} (h : isShown c = true) : isAllowed c = true := by
  have hvalid : c.toNat < 0xd800 ∨ (0xdfff < c.toNat ∧ c.toNat < 0x110000) := c.valid
  simp only [isShown, Bool.or_eq_true, Bool.and_eq_true, beq_iff_eq, decide_eq_true_eq,
    bne_iff_ne] at h
  simp only [isAllowed, Bool.or_eq_true, Bool.and_eq_true, beq_iff_eq, decide_eq_true_eq]
  omega

/-- The line breaks that are shown are the line feed and the separators. -/
theorem isBreak_of_isShown {c : Char} (h : isShown c = true) (hbreak : isBreak c = true) :
    c = '\n' ∨ isSeparator c = true := by
  simp only [isBreak, Bool.or_eq_true, beq_iff_eq] at hbreak
  rcases hbreak with (((rfl | rfl) | rfl) | rfl) | rfl
  · exact .inl rfl
  · exact absurd h (by decide)
  · exact absurd h (by decide)
  · exact .inr rfl
  · exact .inr rfl

theorem ne_tab_of_isShown {c : Char} (h : isShown c = true) : c ≠ '\t' := by
  rintro rfl
  exact absurd h (by decide)

theorem keepsBreak_of_isShown {c : Char} (h : isShown c = true) : KeepsBreak c := by
  intro hbreak
  rcases isBreak_of_isShown h hbreak with rfl | hseparator
  · rfl
  · exact (eq_of_isSeparator hseparator).2.1

variable {cs : List Char}

/-! ## What plain scalars stand for -/

theorem floating?_ne_string {text : String} :
    floating? cs ≠ some (.string text) := by
  intro h
  simp only [floating?] at h
  split at h
  · cases h
  · split at h
    · cases h
    · split at h
      · cases h
      · split at h <;> simp [Option.bind_eq_some_iff] at h

/-- A plain scalar that stands for text stands for its own. -/
theorem text_of_resolve {text : String} (h : resolve cs = .string text) :
    text = String.ofList cs := by
  unfold resolve at h
  split at h
  · cases h
  · split at h
    · cases h
    · split at h
      · cases h
      · dsimp only at h
        split at h
        · cases h
          rfl
        · cases hreal : floating? cs with
          | none =>
            rw [hreal] at h
            cases h
            rfl
          | some found =>
            rw [hreal] at h
            cases h
            exact absurd hreal floating?_ne_string

/-! ## Styles -/

/-- Outside double quotes every character is shown, and no space stands in front of a break. -/
theorem Style.shown_of_ne_doubleQuoted (h : Style.ofText cs ≠ .doubleQuoted) :
    (∀ c ∈ cs, isShown c = true) ∧ meets (· == ' ') isBreak cs = false := by
  unfold Style.ofText at h
  split at h
  · exact absurd rfl h
  · rename_i hnot
    simpa using hnot

theorem Style.literal_of_ofText (h : Style.ofText cs = .literal) : '\n' ∈ cs := by
  unfold Style.ofText at h
  split at h
  · cases h
  · split at h
    · rename_i hnewline
      simpa using hnewline
    · split at h
      · cases h
      · split at h <;> cases h

/-- Plain and single-quoted text has no line feed, and no space stands behind a break. -/
theorem Style.inline_of_ofText (h : Style.ofText cs = .plain ∨ Style.ofText cs = .singleQuoted) :
    '\n' ∉ cs ∧ meets isBreak (· == ' ') cs = false := by
  unfold Style.ofText at h
  split at h
  · simp at h
  · split at h
    · split at h <;> simp at h
    · rename_i hnewline
      split at h
      · simp at h
      · rename_i hbreak
        exact ⟨by simpa using hnewline, by simpa using hbreak⟩

theorem Style.isPlainText_of_ofText (h : Style.ofText cs = .plain) : isPlainText cs = true := by
  unfold Style.ofText at h
  split at h
  · cases h
  · split at h
    · split at h <;> cases h
    · split at h
      · cases h
      · split at h
        · assumption
        · cases h

/-- A text in plain style stands for itself. -/
theorem Style.resolve_of_ofText (h : Style.ofText cs = .plain) :
    resolve cs = .string (String.ofList cs) := by
  have hplain := Style.isPlainText_of_ofText h
  simp only [isPlainText, Bool.and_eq_true] at hplain
  obtain ⟨⟨⟨⟨⟨htext, -⟩, -⟩, -⟩, -⟩, -⟩ := hplain
  cases hfound : resolve cs with
  | string text => rw [text_of_resolve hfound]
  | _ => simp [hfound] at htext

theorem isPlainWord_of_ofText (h : Style.ofText cs = .plain) : IsPlainWord cs ∧ cs ≠ [] := by
  obtain ⟨hshown, -⟩ := Style.shown_of_ne_doubleQuoted (by rw [h]; decide)
  have hplain := Style.isPlainText_of_ofText h
  simp only [isPlainText, Bool.and_eq_true, Bool.not_eq_true', bne_iff_ne, ne_eq] at hplain
  obtain ⟨⟨⟨⟨⟨htext, hbreak⟩, hfirst⟩, hlast⟩, hbegins⟩, hholds⟩ := hplain
  have hinline : IsInline cs := fun c hc =>
    ⟨by simpa using List.any_eq_false.1 hbreak c hc, ne_tab_of_isShown (hshown c hc)⟩
  refine ⟨⟨hinline, hbegins, hholds, hfirst, hlast⟩, ?_⟩
  rintro rfl
  exact absurd htext (by decide)

end CallPolicy.Yaml
