import Conformance.Text.Blank
import Conformance.Text.Lines

/-!
# Outcomes

An outcome is what a test case ended with, known by its canonical name. Eleven names are
well known; any other name read from a log is kept as it was written, less its blanks at
both ends. Outcomes are equal and ordered by name, so sets and maps of them list in the
byte order of their names.
-/

namespace Conformance

/-- What a test case ended with, known by its canonical name: a nonblank name without blanks
at either end, never the old spelling of a parse failure. -/
@[ext]
structure Outcome where
  name : String
  trimmed : Text.trim name = name := by decide
  nonblank : name ≠ "" := by decide
  current : name ≠ "ParseTestResultFail" := by decide
  deriving Hashable, Repr

/-- Outcomes are equal when their names are. -/
instance : DecidableEq Outcome := fun a b =>
  decidable_of_iff (a.name = b.name) ⟨Outcome.ext, congrArg Outcome.name⟩

namespace Outcome

/-- The log or its payload could not be read. -/
def parseFailure : Outcome := .mk "ParseFailure"
/-- The case passed. -/
def pass : Outcome := .mk "Pass"
/-- The implementation does not support what the case tests. -/
def notSupported : Outcome := .mk "NotSupported"
/-- The case failed. -/
def fail : Outcome := .mk "Fail"
/-- The case passed with a quality warning. -/
def qualityWarning : Outcome := .mk "QualityWarning"
/-- The case passed with a compatibility warning. -/
def compatibilityWarning : Outcome := .mk "CompatibilityWarning"
/-- The test harness itself failed. -/
def internalError : Outcome := .mk "InternalError"
/-- The process crashed. -/
def crash : Outcome := .mk "Crash"
/-- The case ran out of time. -/
def timeout : Outcome := .mk "Timeout"
/-- The case ran out of a resource. -/
def resourceError : Outcome := .mk "ResourceError"
/-- The case gave different outcomes on different runs. -/
def flaky : Outcome := .mk "Flaky"

/-- The eleven well-known outcomes. -/
def wellKnown : List Outcome :=
  [parseFailure, pass, notSupported, fail, qualityWarning, compatibilityWarning,
    internalError, crash, timeout, resourceError, flaky]

/-- Reads an outcome: blanks at both ends are dropped, an empty name and the old spelling
`ParseTestResultFail` both mean a parse failure, and every other name is kept as written. -/
def parse (raw : String) : Outcome :=
  let t := Text.trim raw
  if h : t = "" ∨ t = "ParseTestResultFail" then parseFailure
  else ⟨t, Text.trim_trim raw, fun blank => h (.inl blank), fun old => h (.inr old)⟩

/-- Whether an outcome is one of the eleven well-known ones. -/
def isWellKnown (o : Outcome) : Bool := wellKnown.contains o

/-- Only a pass and an unsupported case are healthy. -/
def isHealthy (o : Outcome) : Bool := o == pass || o == notSupported

/-- A character that may not stand in a file-name suffix. -/
def isSuffixBreaker (c : Char) : Bool :=
  c == '.' || c == '/' || c == '\\' || Text.isBlank c || Text.isControl c

/-- An outcome names a plain-text list file when its name is nonempty, is not `json`, and
holds no dot, slash, backslash, blank or control character. -/
def isFileSuffix (o : Outcome) : Bool :=
  !o.name.isEmpty && o.name != "json" && !o.name.toList.any isSuffixBreaker

/-- The name, padded with spaces in front up to `width` characters. -/
def alignRight (width : Nat) (o : Outcome) : String := Text.padStart width o.name

/-- The name, padded with spaces behind up to `width` characters. -/
def alignLeft (width : Nat) (o : Outcome) : String := Text.padEnd width o.name

instance : Ord Outcome := ⟨fun a b => compare a.name b.name⟩

instance : LT Outcome := ⟨fun a b => a.name < b.name⟩

instance (a b : Outcome) : Decidable (a < b) := inferInstanceAs (Decidable (a.name < b.name))

theorem compare_def (a b : Outcome) : compare a b = compare a.name b.name := rfl

/-- Outcomes are ordered as their names are, so the order is a lawful total one. -/
instance : Std.TransOrd Outcome where
  eq_swap {a b} := Std.OrientedOrd.eq_swap (α := String) (a := a.name) (b := b.name)
  isLE_trans h₁ h₂ := Std.TransOrd.isLE_trans (α := String) h₁ h₂

instance : Std.LawfulEqOrd Outcome where
  eq_of_compare h := Outcome.ext (Std.LawfulEqOrd.eq_of_compare (α := String) h)

theorem parse_name (raw : String) :
    (parse raw).name = if Text.trim raw = "" ∨ Text.trim raw = "ParseTestResultFail" then
      "ParseFailure" else Text.trim raw := by
  unfold parse
  dsimp only
  split <;> rfl

/-- Every outcome reads back as itself. -/
theorem parse_name_self (o : Outcome) : parse o.name = o := by
  simp [parse, o.trimmed, o.nonblank, o.current]

end Outcome

end Conformance
