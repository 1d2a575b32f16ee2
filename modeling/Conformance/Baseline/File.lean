import Conformance.Baseline.Basic
import Conformance.Json.Value
import Conformance.Json.Read

/-!
# Baseline files

A baseline is stored as a JSON object from kind names to arrays of case ids, kinds and
cases in order, indented by four spaces and ended by a line feed. Reading one back is
strict about the JSON and then checks the content: raw kinds are taken in byte order, the
last of repeated keys winning; a kind that is blank is refused, every case id must be
nonblank, and two spellings of one kind (such as ` Pass` and `Pass`) are merged. A case
under two different kinds is refused as when building a baseline.
-/

namespace Conformance

/-- Why a stored baseline or plain-text list cannot be loaded. -/
inductive LoadError where
  /-- The baseline file exists but cannot be read as text. -/
  | read (path : String)
  /-- The file is not a JSON object of string arrays. -/
  | deserialize (path : String)
  /-- A kind is blank. -/
  | emptyKind (path : String)
  /-- A case id under a kind is blank. -/
  | invalidCaseId (path : String) (kind : Outcome)
  /-- A case is under two kinds. -/
  | duplicateCase (path : String) (caseId : String) (first second : Outcome)
  /-- A plain-text list exists but cannot be read as text. -/
  | subsetRead (path : String)
  deriving DecidableEq, Repr

/-- The text of a load error. -/
def LoadError.message : LoadError → String
  | .read p => "failed to read baseline `" ++ p ++ "`"
  | .deserialize p => "baseline `" ++ p ++ "` is not a valid expectation file"
  | .emptyKind p => "baseline `" ++ p ++ "` contains an empty outcome kind"
  | .invalidCaseId p k =>
    "baseline `" ++ p ++ "` contains an empty test case id under `" ++ k.name ++ "`"
  | .duplicateCase p id a b =>
    "baseline `" ++ p ++ "` records `" ++ id ++ "` under both `" ++ a.name ++ "` and `" ++
      b.name ++ "`"
  | .subsetRead p => "failed to read subset file `" ++ p ++ "`"

namespace Baseline

/-- The baseline as a JSON document. -/
def toJsonValue (b : Baseline) : Json :=
  .obj (b.kinds.map fun (k, ids) => (k.name, Json.strs (ids.map CaseId.text)))

/-- The baseline file's text. -/
def toJson (b : Baseline) : String := Json.pretty 4 b.toJsonValue ++ "\n"

/-- The members of a JSON object keyed by raw kind: the last of repeated keys wins, and
keys are put in order. -/
def rawTable (members : List (String × List String)) : List (String × List String) :=
  members.foldl (fun m (k, v) => Sorted.put k v m) []

/-- The cases under one raw kind, or the error for the first blank one. -/
def readCases (path : String) (kind : Outcome) (raws : List String) :
    Except LoadError (List CaseId) :=
  raws.mapM fun raw =>
    match CaseId.make raw with
    | .ok id => .ok id
    | .error _ => .error (.invalidCaseId path kind)

/-- Files the cases of one raw kind under the outcome it spells, beside those of another
spelling of the same outcome; a blank kind is refused. -/
def addRawKind (path : String) (kinds : List (Outcome × List CaseId))
    (entry : String × List String) : Except LoadError (List (Outcome × List CaseId)) := do
  if Text.trim entry.1 = "" then throw (.emptyKind path)
  let kind := Outcome.parse entry.1
  let ids ← readCases path kind entry.2
  pure (Sorted.modify kind [] (Sorted.union · (Sorted.ofList ids)) kinds)

/-- Reads a baseline file's text; `path` names it in errors. -/
def fromJson (text : String) (path : String) : Except LoadError Baseline := do
  let members ← match Json.readStringTable text with
    | some m => pure m
    | none => throw (.deserialize path)
  let kinds ← (rawTable members).foldlM (addRawKind path) []
  match fromKinds kinds with
  | .ok b => pure b
  | .error d => throw (.duplicateCase path d.caseId.text d.first d.second)

end Baseline

end Conformance
