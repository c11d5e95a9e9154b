import CallPolicy.Pattern
import Mathlib.Data.List.TakeWhile

set_option autoImplicit false

/-! # What pattern texts denote

`Denotes text method` says what a pattern text means, by the texts alone: it names neither the split
at the slash nor the form that a pattern is read into. `Pattern.selects_iff_denotes` ties the two
together, by way of one lemma for each step of the reader. -/

namespace CallPolicy

/-! ## Texts with one slash -/

theorem takeWhile_ne_slash {s m : List Char} (hs : '/' ∉ s) :
    (s ++ '/' :: m).takeWhile (· != '/') = s := by
  rw [List.takeWhile_append_of_pos fun c hc => by simpa using ne_of_mem_of_not_mem hc hs]
  simp

theorem dropWhile_ne_slash {s m : List Char} (hs : '/' ∉ s) :
    (s ++ '/' :: m).dropWhile (· != '/') = '/' :: m := by
  rw [List.dropWhile_append_of_pos fun c hc => by simpa using ne_of_mem_of_not_mem hc hs]
  simp

/-- A text splits exactly when one slash stands between two halves without any. -/
theorem splitAtSlash_eq_some_iff {cs s m : List Char} :
    splitAtSlash cs = some (s, m) ↔ cs = s ++ '/' :: m ∧ '/' ∉ s ∧ '/' ∉ m := by
  constructor
  · intro h
    have hcat := List.takeWhile_append_dropWhile (p := (· != '/')) (l := cs)
    have hfront : '/' ∉ cs.takeWhile (· != '/') := fun hc => by
      simpa using List.mem_takeWhile_imp hc
    unfold splitAtSlash at h
    split at h
    · cases h
    · rename_i c back hback
      have hc : c = '/' := by
        simpa [hback] using List.head?_dropWhile_not (· != '/') cs
      split at h
      · cases h
      · rename_i hm
        cases h
        rw [hback, hc] at hcat
        exact ⟨hcat.symm, hfront, by simpa using hm⟩
  · rintro ⟨rfl, hs, hm⟩
    simp [splitAtSlash, takeWhile_ne_slash hs, dropWhile_ne_slash hs, hm]

/-! ## Reading a pattern -/

/-- The dotted spelling: a service, not empty and without a slash, in front of `.*`. -/
theorem dottedService?_eq_some_iff {cs service : List Char} :
    dottedService? cs = some service ↔
      cs = service ++ ['.', '*'] ∧ service ≠ [] ∧ '/' ∉ service := by
  constructor
  · intro h
    unfold dottedService? at h
    split at h
    · rename_i stem hstem
      split at h
      · cases h
      · rename_i hok
        cases h
        simp only [Bool.or_eq_true, List.isEmpty_iff, List.contains_iff_mem, not_or] at hok
        refine ⟨?_, by simpa using hok.1, by simpa using hok.2⟩
        rw [← List.reverse_reverse cs, hstem]
        simp
    · cases h
  · rintro ⟨rfl, hne, hs⟩
    simp [dottedService?, hne, hs]

/-- A segment agrees with the text that it was written as, and with every text if that is `*`. -/
theorem Segment.accepts_ofText {written cs : List Char} :
    (Segment.ofText written).accepts cs = true ↔ written = ['*'] ∨ written = cs := by
  unfold Segment.ofText
  by_cases h : written = ['*']
  · simp [h, Segment.accepts]
  · simp [h, Segment.accepts]

/-- A qualified form selects the methods whose halves agree with its segments. -/
theorem Form.accepts_qualified {service method : Segment} {cs : List Char} :
    (Form.qualified service method).accepts cs = true ↔
      ∃ s m, cs = s ++ '/' :: m ∧ '/' ∉ s ∧ '/' ∉ m ∧
        service.accepts s = true ∧ method.accepts m = true := by
  constructor
  · intro h
    cases hsplit : splitAtSlash cs with
    | none => simp [Form.accepts, hsplit] at h
    | some halves =>
      obtain ⟨hcs, hs, hm⟩ := splitAtSlash_eq_some_iff.1 hsplit
      simp only [Form.accepts, hsplit, Bool.and_eq_true] at h
      exact ⟨halves.1, halves.2, hcs, hs, hm, h⟩
  · rintro ⟨s, m, hcs, hs, hm, hsm⟩
    simp [Form.accepts, splitAtSlash_eq_some_iff.2 ⟨hcs, hs, hm⟩, hsm]

/-- A text with one slash is read half by half. -/
theorem Form.ofText_halves {a b : List Char} (ha : '/' ∉ a) (hb : '/' ∉ b) :
    Form.ofText (a ++ '/' :: b) = .qualified (.ofText a) (.ofText b) := by
  have hstar : a ++ '/' :: b ≠ ['*'] := fun h => by
    have hmem : '/' ∈ ['*'] := h ▸ List.mem_append_right a List.mem_cons_self
    simp at hmem
  have hdotted : dottedService? (a ++ '/' :: b) = none := by
    rw [Option.eq_none_iff_forall_not_mem]
    intro service h
    obtain ⟨hcs, -, hs⟩ := dottedService?_eq_some_iff.1 h
    have hmem : '/' ∈ service ++ ['.', '*'] := hcs ▸ List.mem_append_right a List.mem_cons_self
    simp [hs] at hmem
  simp [Form.ofText, hstar, hdotted, splitAtSlash_eq_some_iff.2 ⟨rfl, ha, hb⟩]

/-- A text with one slash selects the methods with one slash that agree with it half by half. -/
theorem Form.accepts_halves {a b cs : List Char} (ha : '/' ∉ a) (hb : '/' ∉ b) :
    (Form.ofText (a ++ '/' :: b)).accepts cs = true ↔
      ∃ s m, cs = s ++ '/' :: m ∧ '/' ∉ s ∧ '/' ∉ m ∧
        (a = ['*'] ∨ a = s) ∧ (b = ['*'] ∨ b = m) := by
  simp only [Form.ofText_halves ha hb, Form.accepts_qualified, Segment.accepts_ofText]

/-- The dotted spelling is read like the one with a slash and a star. -/
theorem Form.ofText_dotted {service : List Char} (hne : service ≠ []) (hs : '/' ∉ service) :
    Form.ofText (service ++ ['.', '*']) = Form.ofText (service ++ ['/', '*']) := by
  have hstar : service ++ ['.', '*'] ≠ ['*'] := fun h => by
    have hlen := congrArg List.length h
    simp at hlen
  rw [Form.ofText_halves hs (by simp)]
  simp [Form.ofText, Segment.ofText, hstar, dottedService?_eq_some_iff.2 ⟨rfl, hne, hs⟩]

/-! ## Denotation -/

/-- Pattern texts and the methods that they denote. No two of the rules apply to one text: the first
    two are about texts without a slash, of which `*` alone does not end in `.*`. -/
inductive Denotes : String → String → Prop where
  /-- `*` denotes every method, well formed or not. -/
  | everything (method : String) : Denotes "*" method
  /-- `service.*` denotes what `service/*` does. -/
  | dotted {service method : String} (hne : service ≠ "") (hs : '/' ∉ service.toList)
      (h : Denotes (service ++ "/*") method) : Denotes (service ++ ".*") method
  /-- `a/b` denotes `s/m` if each of its halves is `*` or the same half of the method. -/
  | halves {a b s m : String} (ha : '/' ∉ a.toList) (hb : '/' ∉ b.toList)
      (hs : '/' ∉ s.toList) (hm : '/' ∉ m.toList) (has : a = "*" ∨ a = s) (hbm : b = "*" ∨ b = m) :
      Denotes (a ++ "/" ++ b) (s ++ "/" ++ m)

namespace Denotes

/-- Two halves as lists of characters, put together as texts. -/
theorem text_eq {text : String} {a b : List Char} (h : text.toList = a ++ '/' :: b) :
    text = String.ofList a ++ "/" ++ String.ofList b := by
  apply String.toList_inj.1
  simp [h]

/-- The agreement of two halves, as texts and as lists of characters. -/
theorem half_iff {a s : String} :
    a.toList = ['*'] ∨ a.toList = s.toList ↔ a = "*" ∨ a = s := by
  rw [show ['*'] = "*".toList from rfl, String.toList_inj, String.toList_inj]

/-- `Denotes.halves` for texts given by their characters. -/
theorem of_halves {text method : String} {a b s m : List Char} (htext : text.toList = a ++ '/' :: b)
    (hmethod : method.toList = s ++ '/' :: m) (ha : '/' ∉ a) (hb : '/' ∉ b) (hs : '/' ∉ s)
    (hm : '/' ∉ m) (has : a = ['*'] ∨ a = s) (hbm : b = ['*'] ∨ b = m) : Denotes text method := by
  rw [text_eq htext, text_eq hmethod]
  exact .halves (by simpa) (by simpa) (by simpa) (by simpa)
    (half_iff.1 (by simpa using has)) (half_iff.1 (by simpa using hbm))

end Denotes

/-- The form that a text is read into selects exactly the methods that the text denotes. -/
theorem Form.accepts_ofText {text method : String} :
    (Form.ofText text.toList).accepts method.toList = true ↔ Denotes text method := by
  constructor
  · -- the readings are tried in order, and each of them that succeeds is one rule of `Denotes`
    intro h
    by_cases hstar : text.toList = ['*']
    · have htext : text = "*" := String.toList_inj.1 hstar
      exact htext ▸ .everything method
    · cases hdotted : dottedService? text.toList with
      | some service =>
        obtain ⟨hdots, hne, hs⟩ := dottedService?_eq_some_iff.1 hdotted
        rw [hdots, Form.ofText_dotted hne hs, Form.accepts_halves hs (by simp)] at h
        obtain ⟨s, m, hmethod, hms, hmm, hservice, hname⟩ := h
        have htext : text = String.ofList service ++ ".*" := String.toList_inj.1 (by simp [hdots])
        rw [htext]
        refine .dotted (by simpa using hne) (by simpa) ?_
        exact .of_halves (by simp) hmethod hs (by simp) hms hmm hservice hname
      | none =>
        cases hsplit : splitAtSlash text.toList with
        | none => simp [Form.ofText, hstar, hdotted, hsplit, Form.accepts] at h
        | some halves =>
          obtain ⟨htext, ha, hb⟩ := splitAtSlash_eq_some_iff.1 hsplit
          rw [htext, Form.accepts_halves ha hb] at h
          obtain ⟨s, m, hmethod, hs, hm, hservice, hname⟩ := h
          exact .of_halves htext hmethod ha hb hs hm hservice hname
  · intro h
    induction h with
    | everything method => rfl
    | dotted hne hs _ ih =>
      -- the form is the one of the text that the rule falls back on
      rw [String.toList_append] at ih ⊢
      exact Form.ofText_dotted (by simpa using hne) hs ▸ ih
    | halves ha hb hs hm has hbm =>
      simp only [String.toList_append, List.append_assoc]
      rw [show "/".toList = ['/'] from rfl, List.singleton_append, List.singleton_append,
        Form.accepts_halves ha hb]
      exact ⟨_, _, rfl, hs, hm, Denotes.half_iff.2 has, Denotes.half_iff.2 hbm⟩

instance (text method : String) : Decidable (Denotes text method) :=
  decidable_of_iff _ Form.accepts_ofText

example : Denotes "*.*" "any/thing" ∧ ¬ Denotes ".*" "/" ∧ ¬ Denotes "a/b.*" "a/b" := by decide

/-- **Denotation of patterns.** A pattern selects the methods that its text denotes. -/
theorem Pattern.selects_iff_denotes (p : Pattern) (method : String) :
    p.selects method = true ↔ Denotes p.text method := by
  rw [Pattern.selects, p.form_eq, Form.accepts_ofText]

theorem Pattern.selects_eq_false_iff (p : Pattern) (method : String) :
    p.selects method = false ↔ ¬ Denotes p.text method := by
  rw [← Pattern.selects_iff_denotes, Bool.not_eq_true]

end CallPolicy
