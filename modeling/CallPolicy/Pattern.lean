set_option autoImplicit false

/-! # Method patterns

A call is named by its method, `Service/Method`. A pattern selects methods: `*` selects every
call, `Service/Method` one method, and either half may be `*`; `Service.*` is another spelling of
`Service/*`. Any other text is a pattern that selects nothing.

`Pattern.ofText?` refuses the empty text only. What a pattern selects is read off its `Form`, which
is computed once, when the pattern is made. -/

namespace CallPolicy

/-! ## Method names -/

/-- The two halves of a text that holds exactly one `/`. -/
def splitAtSlash (cs : List Char) : Option (List Char × List Char) :=
  match cs.dropWhile (· != '/') with
  | [] => none
  | _ :: back => if back.contains '/' then none else some (cs.takeWhile (· != '/'), back)

/-! ## Pattern texts -/

/-- One half of a qualified pattern. -/
inductive Segment where
  /-- Written `*`: agrees with every text. -/
  | any
  /-- Agrees with this text only. -/
  | literal (text : List Char)
deriving DecidableEq

/-- The segment that a text stands for. -/
def Segment.ofText (cs : List Char) : Segment :=
  if cs = ['*'] then .any else .literal cs

/-- Does the segment agree with one half of a method name? -/
def Segment.accepts : Segment → List Char → Bool
  | .any, _ => true
  | .literal text, cs => text == cs

/-- What a pattern text means. -/
inductive Form where
  /-- Every method, well formed or not. -/
  | everything
  /-- The methods `service/method` that agree with both segments. -/
  | qualified (service method : Segment)
  /-- No method at all. -/
  | nothing
deriving DecidableEq

/-- The service named by `Service.*`: not empty, and free of `/`. -/
def dottedService? (cs : List Char) : Option (List Char) :=
  match cs.reverse with
  | '*' :: '.' :: stem =>
    if stem.isEmpty || stem.contains '/' then none else some stem.reverse
  | _ => none

/-- The meaning of a pattern text. The dotted spelling is tried before the split at `/`; the two
    cannot both apply, since a dotted service holds no `/`. -/
def Form.ofText (cs : List Char) : Form :=
  if cs = ['*'] then .everything
  else match dottedService? cs with
    | some service => .qualified (.ofText service) .any
    | none => match splitAtSlash cs with
      | some (service, method) => .qualified (.ofText service) (.ofText method)
      | none => .nothing

/-- Does a pattern of this form select the method? -/
def Form.accepts : Form → List Char → Bool
  | .everything, _ => true
  | .qualified service method, cs => match splitAtSlash cs with
    | some (s, m) => service.accepts s && method.accepts m
    | none => false
  | .nothing, _ => false

/-! ## Patterns -/

/-- A pattern keeps the text that it was written as. -/
structure Pattern where
  text : String
  /-- What the text means. -/
  form : Form
  text_ne : text ≠ ""
  form_eq : form = Form.ofText text.toList
deriving DecidableEq

/-- The pattern written as `text`; the empty text is none. -/
def Pattern.ofText? (text : String) : Option Pattern :=
  if h : text = "" then none else some ⟨text, Form.ofText text.toList, h, rfl⟩

/-- Does the pattern select the method? -/
def Pattern.selects (p : Pattern) (method : String) : Bool :=
  p.form.accepts method.toList

/-- Does the pattern select every call? -/
def Pattern.isWildcard (p : Pattern) : Bool :=
  p.form == .everything

/-- Can the pattern select anything? -/
def Pattern.canMatch (p : Pattern) : Bool :=
  p.form != .nothing

theorem Pattern.text_of_ofText? {text : String} {p : Pattern} (h : Pattern.ofText? text = some p) :
    p.text = text := by
  unfold Pattern.ofText? at h
  split at h
  · cases h
  · cases h; rfl

theorem Pattern.ofText?_eq_none_iff (text : String) : Pattern.ofText? text = none ↔ text = "" := by
  unfold Pattern.ofText?
  split <;> simp_all

/-- A pattern is recovered from its own text. -/
theorem Pattern.ofText?_text (p : Pattern) : Pattern.ofText? p.text = some p := by
  unfold Pattern.ofText?
  obtain ⟨text, form, hne, hform⟩ := p
  subst hform
  simp [hne]

/-- A pattern is determined by its text. -/
theorem Pattern.ext_text {p q : Pattern} (h : p.text = q.text) : p = q := by
  rw [← Option.some.injEq, ← p.ofText?_text, ← q.ofText?_text, h]

end CallPolicy
