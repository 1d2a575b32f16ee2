import Conformance.Text.Blank

/-!
# Test case ids

A test case id is a dotted path such as `dEQP-GLES2.info.vendor`, kept without the blanks
around it; an id that is blank is refused. A filter selects an id when it names the id or
one of its dotted ancestors: `dEQP-GLES2.info` selects `dEQP-GLES2.info.vendor`, and
`dEQP-GLES2.inf` does not.
-/

namespace Conformance

/-- A test case id: a nonblank text without blanks at either end. -/
@[ext]
structure CaseId where
  text : String
  trimmed : Text.trim text = text := by decide
  nonblank : text ≠ "" := by decide
  deriving DecidableEq, Hashable, Repr

/-- Why a text is no test case id. -/
inductive CaseIdError where
  /-- Nothing is left once the blanks at both ends are dropped. -/
  | blank
  deriving DecidableEq, Repr

/-- The text of a case id error. -/
def CaseIdError.message : CaseIdError → String
  | .blank => "test case id is empty"

namespace CaseId

/-- Reads a case id: blanks at both ends are dropped, and nothing must be left over. -/
def make (raw : String) : Except CaseIdError CaseId :=
  let t := Text.trim raw
  if h : t = "" then .error .blank else .ok ⟨t, Text.trim_trim raw, h⟩

theorem make_of_nonblank {raw : String} (h : Text.trim raw ≠ "") :
    make raw = .ok ⟨Text.trim raw, Text.trim_trim raw, h⟩ := by
  simp [make, h]

/-- Every case id reads back as itself. -/
theorem make_text (id : CaseId) : make id.text = .ok id := by
  simp [make, id.trimmed, id.nonblank]

/-- A case id, when the text holds one. -/
def ofString? (raw : String) : Option CaseId :=
  (make raw).toOption

/-- The case ids among some texts, in order, with blank ones dropped. -/
def ofStrings (raws : List String) : List CaseId :=
  raws.filterMap ofString?

/-- Whether the filter `p` names the id itself or one of its dotted ancestors: the id starts
with `p`, and what follows is nothing or starts with a dot. -/
def matchesPrefix (id : CaseId) (p : String) : Bool :=
  let cs := id.text.toList
  p.toList.isPrefixOf cs &&
    match cs.drop p.length with
    | [] => true
    | c :: _ => c == '.'

instance : Ord CaseId := ⟨fun a b => compare a.text b.text⟩

instance : LT CaseId := ⟨fun a b => a.text < b.text⟩

instance (a b : CaseId) : Decidable (a < b) := inferInstanceAs (Decidable (a.text < b.text))

theorem compare_def (a b : CaseId) : compare a b = compare a.text b.text := rfl

/-- Case ids are ordered as their texts are, so the order is a lawful total one. -/
instance : Std.TransOrd CaseId where
  eq_swap {a b} := Std.OrientedOrd.eq_swap (α := String) (a := a.text) (b := b.text)
  isLE_trans h₁ h₂ := Std.TransOrd.isLE_trans (α := String) h₁ h₂

instance : Std.LawfulEqOrd CaseId where
  eq_of_compare h := CaseId.ext (Std.LawfulEqOrd.eq_of_compare (α := String) h)

end CaseId

end Conformance
