import CallPolicy.Proofs.Pattern

set_option autoImplicit false

/-! # Segments of pattern texts

Only `*` and the texts that are written with two segments denote a method
(`Denotes.eq_star_or_segments`). A text with two segments denotes the methods whose halves agree
with them (`Segments.denotes_iff`), which always hold exactly one slash; whatever else is a method
is one to `*` alone. -/

namespace CallPolicy

/-! ## The segments of a pattern text -/

/-- The two segments that a pattern text is written with. -/
inductive Segments : String → String → String → Prop where
  /-- `a/b` is written with the segments `a` and `b`. -/
  | slash {a b : String} (ha : '/' ∉ a.toList) (hb : '/' ∉ b.toList) : Segments (a ++ "/" ++ b) a b
  /-- `service.*` is another spelling of `service/*`. -/
  | dotted {service : String} (hne : service ≠ "") (hs : '/' ∉ service.toList) :
      Segments (service ++ ".*") service "*"

theorem Segment.ofText_inj {a b : List Char} : Segment.ofText a = Segment.ofText b ↔ a = b := by
  refine ⟨fun h => ?_, fun h => h ▸ rfl⟩
  unfold Segment.ofText at h
  split at h <;> split at h <;> simp_all

theorem Segment.ofText_eq_any_iff {text : String} :
    Segment.ofText text.toList = .any ↔ text = "*" := by
  rw [show Segment.any = Segment.ofText "*".toList from rfl, Segment.ofText_inj, String.toList_inj]

theorem Form.ofText_eq_everything_iff {text : String} :
    Form.ofText text.toList = .everything ↔ text = "*" := by
  rw [← String.toList_inj, show "*".toList = ['*'] from rfl]
  unfold Form.ofText
  split
  · simp_all
  · rename_i hstar
    split
    · simp [hstar]
    · split <;> simp [hstar]

/-- A text that is read as two segments is written with two. -/
theorem exists_segments {text : String} {x y : Segment}
    (h : Form.ofText text.toList = .qualified x y) : ∃ a b, Segments text a b := by
  unfold Form.ofText at h
  split at h
  · cases h
  · split at h
    · rename_i service hservice
      obtain ⟨htext, hne, hs⟩ := dottedService?_eq_some_iff.1 hservice
      obtain rfl : text = String.ofList service ++ ".*" := String.toList_inj.1 (by simp [htext])
      exact ⟨_, _, .dotted (by simpa using hne) (by simpa)⟩
    · split at h
      · rename_i a b hsplit
        obtain ⟨htext, ha, hb⟩ := splitAtSlash_eq_some_iff.1 hsplit
        obtain rfl := Denotes.text_eq htext
        exact ⟨_, _, .slash (by simpa) (by simpa)⟩
      · cases h

namespace Segments

variable {text a b : String}

theorem form_eq (h : Segments text a b) :
    Form.ofText text.toList = .qualified (.ofText a.toList) (.ofText b.toList) := by
  cases h with
  | slash ha hb =>
    rw [← Form.ofText_halves ha hb]
    congr 1
    simp
  | dotted hne hs =>
    rw [String.toList_append, show ".*".toList = ['.', '*'] from rfl,
      Form.ofText_dotted (by simpa using hne) hs, Form.ofText_halves hs (by simp)]
    rfl

/-- Neither segment is longer than the text. -/
theorem length_le (h : Segments text a b) : a.length ≤ text.length ∧ b.length ≤ text.length := by
  cases h with
  | slash ha hb =>
    simp only [String.length_append]
    omega
  | dotted hne hs =>
    have hstar : "*".length ≤ ".*".length := by decide
    simp only [String.length_append]
    omega

/-- No segment holds a slash. -/
theorem slash_not_mem (h : Segments text a b) : '/' ∉ a.toList ∧ '/' ∉ b.toList := by
  cases h with
  | slash ha hb => exact ⟨ha, hb⟩
  | dotted hne hs => exact ⟨hs, by decide⟩

/-- A text with two segments denotes the methods that agree with both. -/
theorem denotes_iff (h : Segments text a b) {method : String} :
    Denotes text method ↔ ∃ s m, method = s ++ "/" ++ m ∧ '/' ∉ s.toList ∧ '/' ∉ m.toList ∧
      (a = "*" ∨ a = s) ∧ (b = "*" ∨ b = m) := by
  rw [← Form.accepts_ofText, h.form_eq, Form.accepts_qualified]
  simp only [Segment.accepts_ofText]
  constructor
  · rintro ⟨s, m, hmethod, hs, hm, has, hbm⟩
    exact ⟨String.ofList s, String.ofList m, Denotes.text_eq hmethod, by simpa, by simpa,
      Denotes.half_iff.1 (by simpa using has), Denotes.half_iff.1 (by simpa using hbm)⟩
  · rintro ⟨s, m, rfl, hs, hm, has, hbm⟩
    exact ⟨s.toList, m.toList, by simp, hs, hm, Denotes.half_iff.2 has, Denotes.half_iff.2 hbm⟩

/-- The same for a method given by its halves, of which there is one choice. -/
theorem denotes_halves_iff (h : Segments text a b) {s m : String} (hs : '/' ∉ s.toList)
    (hm : '/' ∉ m.toList) :
    Denotes text (s ++ "/" ++ m) ↔ (a = "*" ∨ a = s) ∧ (b = "*" ∨ b = m) := by
  rw [h.denotes_iff]
  constructor
  · rintro ⟨s', m', hmethod, hs', hm', has, hbm⟩
    have hsplit : splitAtSlash (s ++ "/" ++ m).toList = some (s.toList, m.toList) :=
      splitAtSlash_eq_some_iff.2 ⟨by simp, hs, hm⟩
    have hsplit' : splitAtSlash (s ++ "/" ++ m).toList = some (s'.toList, m'.toList) :=
      splitAtSlash_eq_some_iff.2 ⟨by simp [hmethod], hs', hm'⟩
    rw [hsplit, Option.some.injEq, Prod.mk.injEq, String.toList_inj, String.toList_inj] at hsplit'
    obtain ⟨rfl, rfl⟩ := hsplit'
    exact ⟨has, hbm⟩
  · rintro ⟨has, hbm⟩
    exact ⟨s, m, rfl, hs, hm, has, hbm⟩

/-- A text with two segments denotes the method with these halves. -/
theorem denotes_self (h : Segments text a b) : Denotes text (a ++ "/" ++ b) :=
  (h.denotes_halves_iff h.slash_not_mem.1 h.slash_not_mem.2).2 ⟨.inr rfl, .inr rfl⟩

end Segments

/-- Only `*` and texts with two segments denote a method. -/
theorem Denotes.eq_star_or_segments {text method : String} (h : Denotes text method) :
    text = "*" ∨ ∃ a b, Segments text a b := by
  cases h with
  | everything method => exact .inl rfl
  | dotted hne hs _ => exact .inr ⟨_, _, .dotted hne hs⟩
  | halves ha hb _ _ _ _ => exact .inr ⟨_, _, .slash ha hb⟩

theorem Form.ofText_ne_nothing_iff {text : String} :
    Form.ofText text.toList ≠ .nothing ↔ text = "*" ∨ ∃ a b, Segments text a b := by
  constructor
  · intro h
    cases hform : Form.ofText text.toList with
    | everything => exact .inl (Form.ofText_eq_everything_iff.1 hform)
    | qualified x y => exact .inr (exists_segments hform)
    | nothing => exact absurd hform h
  · rintro (hstar | ⟨a, b, hsegments⟩)
    · simp [Form.ofText_eq_everything_iff.2 hstar]
    · simp [hsegments.form_eq]

/-! ## Halves for segments -/

/-- The half of a typical method that agrees with a segment: `name` if the segment is `*`. -/
def typicalHalf (name segment : String) : String :=
  if segment = "*" then name else segment

theorem slash_not_mem_typicalHalf {name segment : String} (hname : '/' ∉ name.toList)
    (hsegment : '/' ∉ segment.toList) : '/' ∉ (typicalHalf name segment).toList := by
  unfold typicalHalf
  split
  · exact hname
  · exact hsegment

theorem agrees_typicalHalf (name segment : String) :
    segment = "*" ∨ segment = typicalHalf name segment := by
  unfold typicalHalf
  split
  · rename_i hstar
    exact .inl hstar
  · exact .inr rfl

/-! ## Classes of patterns -/

theorem Pattern.canMatch_iff {p : Pattern} :
    p.canMatch = true ↔ p.text = "*" ∨ ∃ a b, Segments p.text a b := by
  rw [Pattern.canMatch, p.form_eq, bne_iff_ne, Form.ofText_ne_nothing_iff]

theorem Pattern.canMatch_of_selects {p : Pattern} {method : String}
    (h : p.selects method = true) : p.canMatch = true :=
  canMatch_iff.2 ((p.selects_iff_denotes method).1 h).eq_star_or_segments

theorem Pattern.isWildcard_iff {p : Pattern} : p.isWildcard = true ↔ p.text = "*" := by
  rw [Pattern.isWildcard, p.form_eq, beq_iff_eq, Form.ofText_eq_everything_iff]

/-! ## Malformed methods -/

/-- Two halves without a slash make a method with one. -/
theorem count_slash_halves {s m : String} (hs : '/' ∉ s.toList) (hm : '/' ∉ m.toList) :
    (s ++ "/" ++ m).toList.count '/' = 1 := by
  simp [List.count_eq_zero.2 hs, List.count_eq_zero.2 hm]

/-- Apart from `*`, pattern texts denote only methods with exactly one slash. -/
theorem Denotes.eq_star_or_one_slash {text method : String} (h : Denotes text method) :
    text = "*" ∨ method.toList.count '/' = 1 := by
  induction h with
  | everything method => exact .inl rfl
  | dotted _ _ _ ih =>
    rcases ih with hstar | hone
    · -- the text with a slash is never the star alone
      have hmem : '/' ∈ "*".toList := by
        rw [← hstar]
        simp
      simp at hmem
    · exact .inr hone
  | halves _ _ hs hm _ _ => exact .inr (count_slash_halves hs hm)

theorem denotes_iff_eq_star {text method : String} (h : method.toList.count '/' ≠ 1) :
    Denotes text method ↔ text = "*" := by
  constructor
  · intro hdenotes
    exact hdenotes.eq_star_or_one_slash.resolve_right h
  · rintro rfl
    exact .everything method

end CallPolicy
