import Conformance.Cli.Session

/-!
# What a command may touch

The paths a command may read or write, found from the command line and from what the disk
already shows: the settings file, the logs and caselists it names, and for each baseline it
works on, the baseline file and the plain-text list of every kind that may be stored. A
program that runs a command on a real file system loads these paths into a disk first, and
writes the disk's changes back afterwards.
-/

namespace Conformance.Cli

/-- The text of a resolved disk path, as a file system takes it. -/
def pathText : List String → String
  | [] => "."
  | "/" :: rest => "/" ++ "/".intercalate rest
  | parts => "/".intercalate parts

namespace Invocation

/-- The settings file a command reads. -/
def settingsPath (inv : Invocation) (cwd : Place) : List String :=
  (cwd.join (inv.globals.configFile.getD Settings.standardPath)).parts

/-- The logs and caselists a command names. -/
def namedPaths (inv : Invocation) : List (List String) :=
  match inv.command with
  | .merge logs src _ => (logs ++ src.caselist.toList).map Session.pathOf
  | .parse log src _ => (log :: src.caselist.toList).map Session.pathOf
  | .plan _ _ _ caselist => caselist.toList.map Session.pathOf
  | _ => []

/-- The policy a command line sets, if any. -/
def policy (inv : Invocation) : Option FlakyPolicy :=
  match inv.command with
  | .merge _ _ p => p
  | _ => none

/-- The store a command works on, given the disk; none when its settings cannot be
loaded. -/
def store? (inv : Invocation) (cwd : Place) (d : Disk) : Option Store :=
  match ((Session.settings inv.globals cwd inv.policy).run.run { disk := d }).1 with
  | .ok s => some ⟨s.expectationsDir⟩
  | .error _ => none

/-- The baseline a log on the disk names for itself, if it is an autotest log. -/
def logKey (d : Disk) (log : String) : Option Key :=
  match d.read (Place.ofText log) with
  | .ok bytes =>
    let text := Text.Utf8.decodeLossy bytes
    if Autotest.isAutotestLog text then
      ((Autotest.AutotestLog.parse text).key log).toOption
    else none
  | .error _ => none

/-- The keys of the baselines a command may work on. -/
def keys (inv : Invocation) (d : Disk) : List Key :=
  let given (g f : String) : List Key := (Key.make g f).toOption.toList
  match inv.command with
  | .display g f _ | .reset g f | .plan g f _ _ => given g f
  | .merge logs src _ =>
    match src.gpu, src.filter with
    | some g, some f => given g f
    | _, _ => logs.filterMap (logKey d)
  | .parse _ _ _ => []

/-- The kinds whose lists may be stored for a key: the well-known ones, those the stored
baseline records, and the one a plan asks for. -/
def kinds (inv : Invocation) (s : Store) (k : Key) (d : Disk) : List Outcome :=
  let recorded := match s.load k d with
    | .ok b => b.kinds.map (·.1)
    | .error _ => []
  let asked := match inv.command with
    | .plan _ _ subset _ => [subset]
    | _ => []
  Sorted.ofList (Outcome.wellKnown ++ recorded ++ asked)

/-- The paths of a store that a command may touch for a key: the family directory, the
baseline file, and the lists of the kinds that may be stored. -/
def storePaths (inv : Invocation) (s : Store) (k : Key) (d : Disk) : List (List String) :=
  (s.familyDir k).parts :: (s.jsonPath k).parts ::
    ((inv.kinds s k d).filter Outcome.isFileSuffix).map fun kind => (s.subsetPath k kind).parts

end Invocation

end Conformance.Cli
