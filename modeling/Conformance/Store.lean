import Conformance.Disk
import Conformance.Key
import Conformance.Baseline.File
import Conformance.Text.Lines

/-!
# The expectation store

Baselines live under a root directory, one directory per GPU family. The baseline of a key
is the file `<filter>.json` in its family's directory; beside it, each kind that can serve
as a file-name suffix gets a plain-text list `<filter>.<kind>` of its cases, one per line,
and the lists of a key are exactly the regular files named `<filter>.<suffix>` whose suffix
is nonempty, holds no dot and is not `json`, so a family's other files are never touched.
Saving removes the old lists, then writes every list and the JSON file, each in one step;
loading a baseline never saved gives the empty one; resetting removes the JSON file and the
lists. Operations report what they noticed on the way as notes, which the command line prints
as they come, details only when asked to be verbose.
-/

namespace Conformance

/-- A message reported on the way. -/
inductive Note where
  | warning (text : String)
  | info (text : String)
  /-- A detail of how the work went, shown only in verbose output. -/
  | debug (text : String)
  deriving DecidableEq, Repr

/-- Why saving a baseline fails. -/
inductive SaveError where
  | createDir (path : String)
  | listDir (path : String)
  | removeStale (path : String)
  | serialize (path : String)
  | write (path : String)
  deriving DecidableEq, Repr

/-- The text of a save error. -/
def SaveError.message : SaveError → String
  | .createDir p => "failed to create expectations directory `" ++ p ++ "`"
  | .listDir p => "failed to list expectations directory `" ++ p ++ "`"
  | .removeStale p => "failed to remove stale expectation file `" ++ p ++ "`"
  | .serialize p => "failed to serialize baseline for `" ++ p ++ "`"
  | .write p => "failed to write expectation file `" ++ p ++ "`"

/-- Why resetting a baseline fails. -/
inductive ResetError where
  | listDir (path : String)
  | remove (path : String)
  deriving DecidableEq, Repr

/-- The text of a reset error. -/
def ResetError.message : ResetError → String
  | .listDir p => "failed to list expectations directory `" ++ p ++ "`"
  | .remove p => "failed to remove expectation file `" ++ p ++ "`"

/-- What an operation on a disk gives: its answer, the disk after it, and the notes it
reported on the way. -/
structure Effect (ε α : Type) where
  answer : Except ε α
  disk : Disk
  notes : List Note

/-- A store of baselines under a root directory. -/
structure Store where
  root : Place
  deriving DecidableEq, Repr

namespace Store

/-- The directory of a key's GPU family. -/
def familyDir (s : Store) (k : Key) : Place := s.root.join k.gpu

/-- The baseline file of a key. -/
def jsonPath (s : Store) (k : Key) : Place := (s.familyDir k).join (k.filter ++ ".json")

/-- The plain-text list of a kind of a key. -/
def subsetPath (s : Store) (k : Key) (kind : Outcome) : Place :=
  (s.familyDir k).join (k.filter ++ "." ++ kind.name)

/-- Whether a file name is one of a key's lists. -/
def isListName (k : Key) (name : String) : Bool :=
  let pre := (k.filter ++ ".").toList
  pre.isPrefixOf name.toList &&
    let suffix := name.toList.drop pre.length
    !suffix.isEmpty && suffix != "json".toList && !suffix.contains '.'

/-- The lists of a key present on a disk, in order of name; none when the family directory
does not exist. -/
def listFiles (s : Store) (k : Key) (d : Disk) : Except IoError (List Place) :=
  match d.listDir (s.familyDir k) with
  | .ok entries =>
    let names := Sorted.ofList (entries.filterMap fun (name, e) =>
      match e with
      | .file _ => if isListName k name then some name else none
      | .dir => none)
    .ok (names.map (s.familyDir k).join)
  | .error .notFound => .ok []
  | .error e => .error e

/-- Loads the baseline of a key, with a detail saying what was found; a missing file is the
empty baseline. -/
def loadNoted (s : Store) (k : Key) (d : Disk) : Except LoadError Baseline × List Note :=
  let path := s.jsonPath k
  match d.readText path with
  | .ok text =>
    match Baseline.fromJson text path.shown with
    | .ok b =>
      (.ok b, [.debug ("loaded baseline `" ++ path.shown ++ "` (" ++ toString b.caseCount ++
        " cases in " ++ toString b.kinds.length ++ " kinds)")])
    | .error e => (.error e, [])
  | .error .notFound =>
    (.ok Baseline.empty, [.debug ("no baseline at `" ++ path.shown ++ "`, starting from an empty one")])
  | .error _ => (.error (.read path.shown), [])

/-- Loads the baseline of a key; a missing file is the empty baseline. -/
def load (s : Store) (k : Key) (d : Disk) : Except LoadError Baseline := (s.loadNoted k d).1

/-- The text of a kind's list: each case on a line of its own. -/
def listText (cases : List CaseId) : String :=
  String.join (cases.map (fun id => id.text ++ "\n"))

/-- The warning for a kind that cannot name a list. -/
def unlistedWarning (k : Key) (kind : Outcome) (count : Nat) : Note :=
  .warning ("outcome `" ++ kind.name ++ "` in baseline " ++ k.display ++
    " cannot be used as a file name; its " ++ toString count ++
    " cases are only recorded in the JSON baseline")

/-- Writes the lists of the kinds in order, after the notes `notes` (kept reversed). -/
def writeLists (s : Store) (k : Key) (notes : List Note) (d : Disk) :
    List (Outcome × List CaseId) → Effect SaveError Unit
  | [] => ⟨.ok (), d, notes.reverse⟩
  | (kind, cases) :: rest =>
    if kind.isFileSuffix then
      let path := s.subsetPath k kind
      match d.writeAtomic path (Text.Utf8.encode (listText cases)) with
      | .ok d' => writeLists s k notes d' rest
      | .error _ => ⟨.error (.write path.shown), d, notes.reverse⟩
    else writeLists s k (unlistedWarning k kind cases.length :: notes) d rest

/-- Removes files one after another, stopping at the first failure; a file already gone is
passed over. Gives whether any was removed, or the file that could not be, with the disk the
removals left. -/
def removeAll (d : Disk) : List Place → Except Place Bool × Disk
  | [] => (.ok false, d)
  | p :: rest =>
    match d.removeFile p with
    | .ok d' => let r := removeAll d' rest; (r.1.map (fun _ => true), r.2)
    | .error .notFound => removeAll d rest
    | .error _ => (.error p, d)

/-- Saves the baseline of a key; a save that succeeds ends with a detail naming the JSON
file. -/
def save (s : Store) (k : Key) (b : Baseline) (d : Disk) : Effect SaveError Unit :=
  let dir := s.familyDir k
  let (d1, made) := d.createDirAll dir
  match made with
  | .error _ => ⟨.error (.createDir dir.shown), d1, []⟩
  | .ok () =>
    let json := b.toJson
    match s.listFiles k d1 with
    | .error _ => ⟨.error (.listDir dir.shown), d1, []⟩
    | .ok stale =>
      match removeAll d1 stale with
      | (.error p, d2) => ⟨.error (.removeStale p.shown), d2, []⟩
      | (.ok _, d2) =>
        let lists := s.writeLists k [] d2 b.kinds
        match lists.answer with
        | .error e => ⟨.error e, lists.disk, lists.notes⟩
        | .ok () =>
          let path := s.jsonPath k
          match lists.disk.writeAtomic path (Text.Utf8.encode json) with
          | .ok d3 => ⟨.ok (), d3, lists.notes ++ [.debug ("saved baseline `" ++ path.shown ++ "`")]⟩
          | .error _ => ⟨.error (.write path.shown), lists.disk, lists.notes⟩

/-- Removes the baseline of a key and its lists; gives whether anything was removed. -/
def reset (s : Store) (k : Key) (d : Disk) : Except ResetError Bool × Disk :=
  let path := s.jsonPath k
  let first : Except ResetError (Bool × Disk) :=
    match d.removeFile path with
    | .ok d' => .ok (true, d')
    | .error .notFound => .ok (false, d)
    | .error _ => .error (.remove path.shown)
  match first with
  | .error e => (.error e, d)
  | .ok (removed, d1) =>
    match s.listFiles k d1 with
    | .error _ => (.error (.listDir (s.familyDir k).shown), d1)
    | .ok lists =>
      match removeAll d1 lists with
      | (.ok more, d2) => (.ok (removed || more), d2)
      | (.error p, d2) => (.error (.remove p.shown), d2)

/-- The cases of a kind's list, in file order; none when the kind names no list or the
list does not exist. -/
def loadSubset (s : Store) (k : Key) (kind : Outcome) (d : Disk) :
    Except LoadError (Option (List CaseId)) :=
  if !kind.isFileSuffix then .ok none
  else
    let path := s.subsetPath k kind
    match d.readText path with
    | .ok text => .ok (some (CaseId.ofStrings (Text.linesOf text)))
    | .error .notFound => .ok none
    | .error _ => .error (.subsetRead path.shown)

end Store

end Conformance
