import CallPolicy.Text.Digits

set_option autoImplicit false

/-! # Header fields

The fields of a message, in the order in which they were added. A name may occur several times and
is compared without regard to case, so it is kept in lower case; a value is any bytes. -/

namespace CallPolicy

/-! ## Names -/

/-- Characters of which names are made. -/
def isHeaderNameChar (c : Char) : Bool :=
  c.isAlphanum || "!#$%&'*+-.^_|~".toList.contains c || c == '\x60'

/-- Is the text a header name? -/
def isHeaderName (name : String) : Bool :=
  let cs := name.toList
  !cs.isEmpty && cs.length < Nat.pow 2 16 && cs.all isHeaderNameChar

/-- A header name in the form in which names are compared. -/
def headerKey (name : String) : String :=
  String.ofList (name.toList.map Char.toLower)

@[simp] theorem headerKey_headerKey (name : String) :
    headerKey (headerKey name) = headerKey name := by
  rw [headerKey, headerKey, String.toList_ofList, List.map_map]
  congr 2
  funext c
  unfold Char.toLower
  grind

/-! ## Values -/

/-- The bytes of a value. -/
abbrev HeaderValue := List UInt8

/-- Bytes that stand for themselves in text: the tab and the visible ASCII characters with the
    space. -/
def isTextByte (b : UInt8) : Bool :=
  b == 9 || (0x20 ≤ b && b ≤ 0x7e)

/-- The value as text, if every byte stands for itself. -/
def HeaderValue.text? (v : HeaderValue) : Option String :=
  if v.all isTextByte then some (String.ofList (v.map fun b => Char.ofNat b.toNat)) else none

/-- The value made of the bytes of a text. -/
def HeaderValue.ofText (text : String) : HeaderValue :=
  text.toUTF8.data.toList

/-- The value made of a text, if every byte of it stands for itself. -/
def HeaderValue.ofText? (text : String) : Option HeaderValue :=
  if (HeaderValue.ofText text).all isTextByte then some (.ofText text) else none

/-! ## Fields -/

/-- The fields of a message: name in lower case, and value. -/
structure Headers where
  fields : List (String × HeaderValue) := []
  keyed : ∀ f ∈ fields, headerKey f.1 = f.1 := by simp
deriving DecidableEq

namespace Headers

/-- Adds a field behind the others. -/
def append (h : Headers) (name : String) (value : HeaderValue) : Headers where
  fields := h.fields ++ [(headerKey name, value)]
  keyed f hf := by
    rcases List.mem_append.1 hf with hf | hf
    · exact h.keyed f hf
    · simp [List.mem_singleton.1 hf]

/-- The fields of a list, added in order. -/
def ofList (l : List (String × HeaderValue)) : Headers :=
  l.foldl (fun h (name, value) => h.append name value) {}

/-- The first value of a name. -/
def first? (h : Headers) (name : String) : Option HeaderValue :=
  h.fields.lookup (headerKey name)

theorem first?_append (h : Headers) (name : String) (value : HeaderValue) (wanted : String) :
    (h.append name value).first? wanted =
      (h.first? wanted).or (if headerKey wanted = headerKey name then some value else none) := by
  simp only [first?, append, List.lookup_append, List.lookup_cons, List.lookup_nil]
  by_cases hk : headerKey wanted = headerKey name
  · simp [hk]
  · have hb : (headerKey wanted == headerKey name) = false := by simpa using hk
    simp [hk, hb]

/-- Replaces all values of a name by one. -/
def set (h : Headers) (name : String) (value : HeaderValue) : Headers where
  fields := h.fields.filter (·.1 != headerKey name) ++ [(headerKey name, value)]
  keyed f hf := by
    rcases List.mem_append.1 hf with hf | hf
    · exact h.keyed f (List.mem_filter.1 hf).1
    · simp [List.mem_singleton.1 hf]

/-- The fields sorted by name; those of one name stay in order. -/
def sorted (h : Headers) : List (String × HeaderValue) :=
  h.fields.mergeSort fun x y => x.1 ≤ y.1

end Headers

end CallPolicy
