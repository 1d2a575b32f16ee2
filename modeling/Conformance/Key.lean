import Conformance.Text.Blank

/-!
# Baseline keys

A baseline is stored under a key: a GPU family and a test filter. Each becomes a path
component on disk, so each must be nonblank, hold no slash or backslash, and be neither `.`
nor `..`. Both are kept without the blanks around them; the GPU family is checked first.
-/

namespace Conformance

/-- The two parts of a baseline key. -/
inductive KeyPart where
  | gpuFamily
  | testFilter
  deriving DecidableEq, Repr

/-- How a key part is named in messages. -/
def KeyPart.label : KeyPart → String
  | .gpuFamily => "GPU family"
  | .testFilter => "test filter"

/-- Why a text cannot be a key part. -/
inductive KeyError where
  /-- Nothing is left once blanks are dropped. -/
  | empty (part : KeyPart)
  /-- The part holds a slash or a backslash. -/
  | pathSeparator (part : KeyPart) (value : String)
  /-- The part is `.` or `..`. -/
  | reserved (part : KeyPart) (value : String)
  deriving DecidableEq, Repr

/-- The text of a key error. -/
def KeyError.message : KeyError → String
  | .empty part => s!"{part.label} is empty"
  | .pathSeparator part value =>
    part.label ++ " `" ++ value ++ "` contains a path separator"
  | .reserved part value =>
    part.label ++ " `" ++ value ++ "` is a reserved path component"

namespace Key

/-- Checks one key part and gives it back without the blanks around it. -/
def checkPart (part : KeyPart) (raw : String) : Except KeyError String :=
  let value := Text.trim raw
  if value = "" then .error (.empty part)
  else if value.toList.any (fun c => c == '/' || c == '\\') then
    .error (.pathSeparator part value)
  else if value = "." ∨ value = ".." then .error (.reserved part value)
  else .ok value

/-- A part that passes its check passes it again unchanged. -/
theorem checkPart_checkPart {part : KeyPart} {raw value : String} (h : checkPart part raw = .ok value) :
    checkPart part value = .ok value := by
  unfold checkPart at h
  dsimp only at h
  split at h
  · cases h
  split at h
  · cases h
  split at h
  · cases h
  rename_i blank separator reserved
  cases h
  unfold checkPart
  simp only [Text.trim_trim, if_neg blank, if_neg separator, if_neg reserved]

end Key

/-- Where a baseline lives: a GPU family and a test filter, each a valid path component,
kept as their checks give them back. -/
structure Key where
  gpu : String
  filter : String
  gpuChecked : Key.checkPart .gpuFamily gpu = .ok gpu := by rfl
  filterChecked : Key.checkPart .testFilter filter = .ok filter := by rfl
  deriving DecidableEq, Repr

namespace Key

theorem ext {k k' : Key} (gpu : k.gpu = k'.gpu) (filter : k.filter = k'.filter) : k = k' := by
  obtain ⟨g, f, _, _⟩ := k
  obtain ⟨g', f', _, _⟩ := k'
  subst gpu filter
  rfl

/-- A key from a GPU family and a test filter, the family checked first. -/
def make (gpu filter : String) : Except KeyError Key :=
  match hg : checkPart .gpuFamily gpu with
  | .error e => .error e
  | .ok g =>
    match hf : checkPart .testFilter filter with
    | .error e => .error e
    | .ok f => .ok ⟨g, f, checkPart_checkPart hg, checkPart_checkPart hf⟩

/-- How a key is shown: `gpu/filter`. -/
def display (k : Key) : String := k.gpu ++ "/" ++ k.filter

end Key

end Conformance
