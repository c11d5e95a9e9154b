import CallPolicy.Http.Headers

set_option autoImplicit false

/-! # Header values

All values of a name, of which `Headers.first?` gives the first, and the bytes of values that are
text. A value is text iff all of its bytes are visible (`HeaderValue.text?_eq_some_iff`), and it is
then the UTF-8 form of that text. -/

namespace CallPolicy

/-! ## Bytes and text -/

/-- Every byte is a tab or a visible ASCII character or the space. -/
def HeaderValue.IsVisible (v : HeaderValue) : Prop :=
  ∀ b ∈ v, b = 0x09 ∨ 0x20 ≤ b ∧ b ≤ 0x7e

theorem isTextByte_iff {b : UInt8} : isTextByte b = true ↔ b = 0x09 ∨ 0x20 ≤ b ∧ b ≤ 0x7e := by
  simp [isTextByte]

theorem HeaderValue.all_isTextByte_iff {v : HeaderValue} :
    v.all isTextByte = true ↔ v.IsVisible := by
  simp only [List.all_eq_true, isTextByte_iff, IsVisible]

instance (v : HeaderValue) : Decidable v.IsVisible :=
  decidable_of_iff _ HeaderValue.all_isTextByte_iff

/-- A byte of text is the whole UTF-8 form of its character. -/
theorem utf8EncodeChar_of_isTextByte {b : UInt8} (h : isTextByte b = true) :
    String.utf8EncodeChar (Char.ofNat b.toNat) = [b] := by
  have hlt : b.toNat < 128 := by
    rcases isTextByte_iff.1 h with rfl | ⟨-, hb⟩
    · decide
    · have hle := UInt8.le_iff_toNat_le.1 hb
      have hmax : (0x7e : UInt8).toNat = 126 := rfl
      omega
  -- below 128 the number is a character of its own, and UTF-8 writes it as one byte
  have hsize : b.toNat < UInt32.size := Nat.lt_trans hlt (by decide)
  have hchar : Nat.isValidChar b.toNat := .inl (by omega)
  have hval : (Char.ofNat b.toNat).val = UInt32.ofNatLT b.toNat hsize := by
    rw [Char.ofNat, dif_pos hchar]
    rfl
  rw [String.utf8EncodeChar_eq_singleton, hval]
  · simp
  · rw [Char.utf8Size_eq_one_iff, hval, UInt32.le_iff_toNat_le, UInt32.toNat_ofNatLT]
    exact Nat.le_of_lt_succ hlt

namespace HeaderValue

theorem ofText_eq_flatMap (text : String) :
    ofText text = text.toList.flatMap String.utf8EncodeChar := by
  have hbytes : text.toByteArray = text.toList.utf8Encode := by
    rw [← String.toByteArray_ofList, String.ofList_toList]
  simp [ofText, hbytes, List.utf8Encode]

theorem ofText_append (s t : String) : ofText (s ++ t) = ofText s ++ ofText t := by
  simp [ofText_eq_flatMap]

theorem ofText_inj {s t : String} : ofText s = ofText t ↔ s = t := by
  refine ⟨fun h => ?_, fun h => h ▸ rfl⟩
  exact String.toByteArray_inj.1 (ByteArray.ext (Array.toList_inj.1 h))

/-- Reading a value byte by byte and writing the text as UTF-8 gives the value back. -/
theorem ofText_ofList_of_isTextByte {v : HeaderValue} (h : v.all isTextByte = true) :
    ofText (String.ofList (v.map fun b => Char.ofNat b.toNat)) = v := by
  have hbyte : v.flatMap (fun b => String.utf8EncodeChar (Char.ofNat b.toNat)) =
      v.flatMap (fun b => [b]) := by
    rw [List.flatMap_def, List.flatMap_def, List.map_congr_left fun b hb =>
      utf8EncodeChar_of_isTextByte (List.all_eq_true.1 h b hb)]
  rw [ofText_eq_flatMap, String.toList_ofList, List.flatMap_map, hbyte, List.flatMap_singleton']

/-- A value is text iff its bytes are visible, and then they are the bytes of that text. -/
theorem text?_eq_some_iff {v : HeaderValue} {text : String} :
    v.text? = some text ↔ v.IsVisible ∧ v = ofText text := by
  unfold text?
  rw [← all_isTextByte_iff]
  split
  · rename_i hall
    simp only [Option.some.injEq, hall, true_and]
    rw [← ofText_inj, ofText_ofList_of_isTextByte hall, eq_comm]
  · rename_i hall
    simp [hall]

theorem text?_eq_none_iff {v : HeaderValue} : v.text? = none ↔ ¬ v.IsVisible := by
  rw [← all_isTextByte_iff, Bool.not_eq_true]
  unfold text?
  split <;> simp_all

theorem exists_text {v : HeaderValue} (h : v.IsVisible) :
    ∃ text, v.text? = some text ∧ v = ofText text := by
  obtain ⟨text, htext⟩ := Option.ne_none_iff_exists'.1 fun hnone => text?_eq_none_iff.1 hnone h
  exact ⟨text, htext, (text?_eq_some_iff.1 htext).2⟩

theorem isVisible_append {v w : HeaderValue} :
    IsVisible (v ++ w) ↔ v.IsVisible ∧ w.IsVisible := by
  simp only [IsVisible, List.mem_append, or_imp, forall_and]

/-- A text of visible characters is written in visible bytes. -/
theorem isVisible_ofText {text : String} (h : ∀ c ∈ text.toList, 0x20 ≤ c.toNat ∧ c.toNat ≤ 0x7e) :
    (ofText text).IsVisible := by
  intro b hb
  rw [ofText_eq_flatMap, List.mem_flatMap] at hb
  obtain ⟨c, hc, hb⟩ := hb
  obtain ⟨hlow, hhigh⟩ := h c hc
  -- such a character is written as one byte, which is its number
  have hsize : c.utf8Size = 1 :=
    Char.utf8Size_eq_one_iff.2 (UInt32.le_iff_toNat_le.2 (Nat.le_trans hhigh (by decide)))
  rw [String.utf8EncodeChar_eq_singleton hsize, List.mem_singleton] at hb
  have hbyte : b.toNat = c.toNat := by
    rw [hb]
    show c.toNat % 256 = c.toNat
    omega
  refine .inr ⟨UInt8.le_iff_toNat_le.2 ?_, UInt8.le_iff_toNat_le.2 ?_⟩
  · rw [hbyte]
    exact hlow
  · rw [hbyte]
    exact hhigh

theorem ofText?_of_isVisible {text : String} (h : (ofText text).IsVisible) :
    ofText? text = some (ofText text) :=
  if_pos (all_isTextByte_iff.2 h)

end HeaderValue

/-! ## Values of a name -/

namespace Headers

/-- All values of a name, which is compared without regard to case. -/
def values (h : Headers) (name : String) : List HeaderValue :=
  (h.fields.filter fun f => headerKey f.1 = headerKey name).map Prod.snd

theorem first?_eq_head?_values (h : Headers) (name : String) :
    h.first? name = (h.values name).head? := by
  obtain ⟨fields, keyed⟩ := h
  simp only [first?, values]
  induction fields with
  | nil => rfl
  | cons f rest ih =>
    obtain ⟨key, value⟩ := f
    have hkey : headerKey key = key := keyed (key, value) List.mem_cons_self
    have hrest := ih fun g hg => keyed g (List.mem_cons_of_mem _ hg)
    by_cases hname : headerKey name = key
    · simp [hkey, hname]
    · have hbeq : (headerKey name == key) = false := by simpa using hname
      rw [List.lookup_cons, hbeq, List.filter_cons_of_neg (by simpa [hkey] using Ne.symm hname)]
      exact hrest

/-- A field that is added gives its name one more value. -/
theorem values_append (h : Headers) (name : String) (value : HeaderValue) (wanted : String) :
    (h.append name value).values wanted =
      h.values wanted ++ if headerKey wanted = headerKey name then [value] else [] := by
  simp only [values, append, List.filter_append, List.map_append]
  by_cases hk : headerKey wanted = headerKey name
  · simp [hk]
  · simp [hk, Ne.symm hk]

/-- Where a name has no value there is none to replace. -/
theorem set_eq_append {h : Headers} {name : String} (hnone : h.values name = [])
    (value : HeaderValue) : h.set name value = h.append name value := by
  have hkept : h.fields.filter (·.1 != headerKey name) = h.fields := by
    rw [List.filter_eq_self]
    intro f hf
    have hother : headerKey f.1 ≠ headerKey name := by
      simpa using List.filter_eq_nil_iff.1 (List.map_eq_nil_iff.1 hnone) f hf
    simpa [h.keyed f hf] using hother
  simp only [set, append, hkept]

theorem first?_headerKey (h : Headers) (name : String) :
    h.first? (headerKey name) = h.first? name := by
  simp [first?]

end Headers

end CallPolicy
