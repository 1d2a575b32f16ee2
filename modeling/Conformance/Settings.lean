import Conformance.Toml.Read
import Conformance.Policy
import Conformance.Disk
import Conformance.Store
import Conformance.Sorted

/-!
# Settings

Three settings steer the tool: the directory that holds the baselines, resolved against the
working directory, the flaky detection policy, and whether an incomplete run may be merged.
Each has a default, and a TOML file at a standard place below the working directory, or at a
place named on the command line, may override any of them. A missing file at the standard
place means the defaults and a missing named file is an error, as is a file that cannot be
read, is not TOML, or gives a setting a value of the wrong kind; a policy named by a name that
names none is reported with that name. The settings are checked in the order of their keys'
names, and keys the tool does not know are ignored with one warning naming them.
-/

namespace Conformance

/-- Why the text of a settings file gives no settings. -/
inductive ContentError where
  /-- The text is not TOML, or a setting holds a value of the wrong kind. -/
  | malformed
  /-- The flaky detection policy is given a name that names no policy. -/
  | unknownPolicy (name : String)
  deriving DecidableEq, Repr

/-- Why the settings cannot be loaded. -/
inductive SettingsError where
  | notFound (path : String)
  | read (path : String)
  | parse (path : String) (cause : ContentError)
  deriving DecidableEq, Repr

/-- The text of a settings error. -/
def SettingsError.message : SettingsError → String
  | .notFound p => "config file `" ++ p ++ "` not found"
  | .read p => "failed to read config file `" ++ p ++ "`"
  | .parse p _ => "failed to parse config file `" ++ p ++ "`"

/-- The messages of the errors behind a settings error: an unknown policy name is listed
with the names that are known. -/
def SettingsError.causes : SettingsError → List String
  | .parse _ (.unknownPolicy name) =>
    ["unknown variant `" ++ name ++ "`, expected `any-outcome` or `healthy-vs-unhealthy`"]
  | _ => []

/-- The settings in force. -/
structure Settings where
  expectationsDir : Place
  flakyDetection : FlakyPolicy
  requireComplete : Bool
  deriving DecidableEq, Repr

/-- What a settings file sets; a missing key keeps the default. -/
structure Overrides where
  expectationsDir : Option String := none
  flakyDetection : Option FlakyPolicy := none
  requireComplete : Option Bool := none
  deriving DecidableEq, Repr

/-- Where the settings file is looked for. -/
inductive SettingsSource where
  /-- The standard place below the working directory; it may be missing. -/
  | standard
  /-- A path named on the command line; it must exist. -/
  | named (path : String)
  deriving DecidableEq, Repr

namespace Settings

/-- The standard place of the settings file, below the working directory. -/
def standardPath : String := ".config/deqp-expect.toml"

/-- The directory that holds the baselines when no file names one. -/
def defaultDir : String := "expectations"

/-- The keys a settings file may set. -/
def knownKeys : List String := ["expectations-dir", "flaky-detection", "require-complete"]

/-- A policy as TOML may write it: its name as a string, or a table whose one key is its
name and whose value is empty. The name is looked up before the value is checked. -/
def policyOf : Toml.Node → Except ContentError FlakyPolicy
  | .scalar (.str s) =>
    match FlakyPolicy.parse s with
    | .ok p => .ok p
    | .error _ => .error (.unknownPolicy s)
  | .table _ [(k, v)] =>
    let empty : Bool := match v with
      | .table _ [] | .array [] | .tables [] => true
      | _ => false
    match FlakyPolicy.parse k with
    | .ok p => if empty then .ok p else .error .malformed
    | .error _ => .error (.unknownPolicy k)
  | _ => .error .malformed

/-- The overrides a settings file's root table sets, checked in the order of the keys'
names; an error when a known key holds a value of the wrong kind. -/
def overridesOf (root : Toml.Entries) : Except ContentError Overrides := do
  let dir ← match root.lookup "expectations-dir" with
    | none => pure none
    | some (.scalar (.str s)) => pure (some s)
    | some _ => throw .malformed
  let policy ← match root.lookup "flaky-detection" with
    | none => pure none
    | some n => some <$> policyOf n
  let complete ← match root.lookup "require-complete" with
    | none => pure none
    | some (.scalar (.bool b)) => pure (some b)
    | some _ => throw .malformed
  pure ⟨dir, policy, complete⟩

/-- The keys of a root table that the tool does not know, sorted. -/
def unknownKeys (root : Toml.Entries) : List String :=
  Sorted.ofList ((root.map (·.1)).filter (· ∉ knownKeys))

/-- The warning for keys the tool does not know. -/
def unknownWarning (path : String) : List String → Note
  | [k] => .warning ("in config file " ++ path ++ ", ignoring unknown configuration key: " ++ k)
  | ks => .warning ("in config file " ++ path ++ ", ignoring unknown configuration keys:\n" ++
      String.join (ks.map ("\n  - " ++ ·)))

/-- The defaults under a set of overrides, with the directory resolved against the working
directory. -/
def resolve (cwd : Place) (o : Overrides) : Settings where
  expectationsDir := cwd.join (o.expectationsDir.getD defaultDir)
  flakyDetection := o.flakyDetection.getD .anyOutcome
  requireComplete := o.requireComplete.getD false

/-- The overrides of the settings file at a place, if there is a file there, with the
notes reading it gave: the warning for unknown keys, and a detail saying whether a file was
found. -/
def readFile (d : Disk) (path : Place) :
    Except SettingsError (Option Overrides) × List Note :=
  match d.readText path with
  | .error .notFound => (.ok none, [.debug ("config: no file at " ++ path.shown)])
  | .error _ => (.error (.read path.shown), [])
  | .ok text =>
    let loaded : Note := .debug ("config: loaded " ++ path.shown)
    let content : Except ContentError (Overrides × List String) :=
      match Toml.read text with
      | none => .error .malformed
      | some root => (overridesOf root).map (·, unknownKeys root)
    match content with
    | .error e => (.error (.parse path.shown e), [])
    | .ok (o, []) => (.ok (some o), [loaded])
    | .ok (o, ks) => (.ok (some o), [unknownWarning path.shown ks, loaded])

/-- Loads the settings from a source, with the warnings loading gave. -/
def load (d : Disk) (cwd : Place) (source : SettingsSource) :
    Except SettingsError Settings × List Note :=
  match source with
  | .standard =>
    let (r, notes) := readFile d (cwd.join standardPath)
    (r.map fun o => resolve cwd (o.getD {}), notes)
  | .named p =>
    let path := cwd.join p
    let (r, notes) := readFile d path
    match r with
    | .ok (some o) => (.ok (resolve cwd o), notes)
    | .ok none => (.error (.notFound path.shown), notes)
    | .error e => (.error e, notes)

end Settings

end Conformance
