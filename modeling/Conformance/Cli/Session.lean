import Conformance.Cli.Help
import Conformance.Cli.Failure
import Conformance.Cli.Report
import Conformance.Log.Reader

/-!
# Running a command

A command runs against a disk and a console: it reads and writes files, prints its report to
standard output, and writes warnings, notes and errors to the error stream as they arise. A
failure ends the command with its exit code, and what was printed and written before it
stays; `merge` goes on after a log that fails and fails at the end, with the exit code of the
first failure. Paths on the command line are relative to the working directory, and messages
show them as given, the baseline directory resolved against the working directory.
-/

namespace Conformance.Cli

/-- What a command has printed and the disk it works on. -/
structure Console where
  disk : Disk
  out : String := ""
  err : List String := []
  /-- The colours of standard output. -/
  outColors : Palette := {}
  /-- The colours of the error stream. -/
  errColors : Palette := {}
  /-- Whether details are shown. -/
  verbose : Bool := false

/-- A command's steps: they change the console and may fail. -/
abbrev Session := ExceptT Failure (StateM Console)

/-- What a finished command leaves: its exit code, its standard output, the messages of its
error stream, and the disk. -/
structure Transcript where
  exitCode : Nat
  out : String
  err : List String
  disk : Disk

/-- A note as the error stream shows it, under its heading. -/
def noteLine (p : Palette) : Note → String
  | .warning t => Palette.paint p.warningHeading "warning" ++ ": " ++ t
  | .info t => Palette.paint p.infoHeading "info" ++ ": " ++ t
  | .debug t => Palette.paint p.debugHeading "debug" ++ ": " ++ t

namespace Session

/-- Prints to standard output. -/
def say (s : String) : Session Unit := modify fun c => { c with out := c.out ++ s }

/-- Writes a message to the error stream. -/
def tell (m : String) : Session Unit := modify fun c => { c with err := c.err ++ [m] }

/-- Writes notes to the error stream; details only when the console is verbose. -/
def notes (ns : List Note) : Session Unit := do
  let c ← get
  ns.forM fun n =>
    match n with
    | .debug _ => if c.verbose then tell (noteLine c.errColors n) else pure ()
    | _ => tell (noteLine c.errColors n)

/-- Prints a report made with the colours of standard output. -/
def present (report : Palette → String) : Session Unit := do
  say (report (← get).outColors)

/-- The disk as it is now. -/
def disk : Session Disk := return (← get).disk

/-- Replaces the disk. -/
def setDisk (d : Disk) : Session Unit := modify fun c => { c with disk := d }

/-- Fails with a failure made from an error. -/
def orFail {ε α : Type} (f : ε → Failure) : Except ε α → Session α
  | .ok a => pure a
  | .error e => throw (f e)

/-- The components of a path given on the command line. -/
def pathOf (path : String) : List String := (Place.ofText path).parts

/-- The text of a log: octets that are not UTF-8 are replaced, and a missing log is empty,
which is noted. -/
def readLog (path : String) : Session String := do
  match (← disk).read (Place.ofText path) with
  | .ok bytes => pure (Text.Utf8.decodeLossy bytes)
  | .error .notFound =>
    notes [.debug ("log file `" ++ path ++ "` does not exist, treating it as empty")]
    pure ""
  | .error _ => throw (.logRead path)

/-- The baseline named on the command line for a log, if one is. -/
def explicitKey (src : LogSource) : Session (Option Key) :=
  match src.gpu, src.filter with
  | some g, some f => some <$> orFail .invalidKey (Key.make g f)
  | _, _ => pure none

/-- A log as read: the baseline it belongs to if known, its pairs, and whether it records a
completed run. -/
structure LoadedLog where
  key : Option Key
  results : List (CaseId × Outcome)
  completed : Bool

/-- The warning for an outcome no case can be found for. -/
def droppedWarning : Note := .warning "dropping outcome that cannot be associated with a test case"

/-- Reads a log. An autotest log names its own baseline unless one is given, and may be
incomplete; a raw log uses the baseline given, if any, and the caselist given. -/
def loadLog (src : LogSource) (path : String) : Session LoadedLog := do
  let text ← readLog path
  let explicit ← explicitKey src
  if Autotest.isAutotestLog text then
    let log := Autotest.AutotestLog.parse text
    let key ← match explicit with
      | some k => pure k
      | none => orFail .autotestLog (log.key path)
    pure ⟨some key, log.results, log.completed⟩
  else
    let caselist ← match src.caselist with
      | none => pure []
      | some p =>
        match (← disk).readText (Place.ofText p) with
        | .ok t => pure (Caselist.submitted t)
        | .error _ => throw (.caselistRead p)
    let account := Log.account text caselist
    notes (account.filterMap fun
      | .emission (.dropped _) => some droppedWarning
      | .emission (.reported _ _) => none
      | .remark t => some (.debug t))
    pure ⟨explicit, Log.pairsOf (account.filterMap Log.Account.emission?), true⟩

/-- The settings for a command line, from the settings file and the shared options. -/
def settings (g : Globals) (cwd : Place) (policy : Option FlakyPolicy) : Session Settings := do
  let source : SettingsSource := match g.configFile with
    | some p => .named p
    | none => .standard
  let (r, ns) := Settings.load (← disk) cwd source
  notes ns
  let s ← orFail .settings r
  let s := match g.expectationsDir with
    | some dir => { s with expectationsDir := cwd.join dir }
    | none => s
  pure (match policy with
    | some p => { s with flakyDetection := p }
    | none => s)

/-- Merges one log; gives the key and summary of a merge that took place. -/
def mergeOne (cfg : Settings) (store : Store) (src : LogSource) (path : String) :
    Session (Option (Key × MergeSummary)) := do
  let log ← loadLog src path
  let key ← match log.key with
    | some k => pure k
    | none => throw (.missingKey path)
  if !log.completed then
    if cfg.requireComplete then throw (.incompleteRun path)
    notes [.warning ("`" ++ path ++
      "` does not record a completed run, merging its results anyway")]
  let run := RunTally.ofPairs log.results
  if run.isEmpty then
    notes [.warning ("no test results in `" ++ path ++ "`, baseline for " ++
      key.display ++ " left unchanged")]
    return none
  let e := store.merge key run cfg.flakyDetection (← disk)
  setDisk e.disk
  notes e.notes
  match e.answer with
  | .ok summary => pure (some (key, summary))
  | .error err => throw (.merge key.display err)

/-- Merges logs in order. A log that fails is reported and the next one is merged; at the
end, the count of failed logs fails the command with the first failure's exit code. -/
def merge (cfg : Settings) (store : Store) (src : LogSource) (logs : List String) :
    Session Nat := do
  let mut failed := 0
  let mut firstCode : Option Nat := none
  for log in logs do
    match ← tryCatch (Except.ok <$> mergeOne cfg store src log) (fun f => pure (.error f)) with
    | .ok (some (key, summary)) => present (mergeReport · key summary)
    | .ok none => pure ()
    | .error f =>
      tell (f.report (← get).errColors)
      failed := failed + 1
      firstCode := firstCode.orElse fun _ => some f.exitCode
  match firstCode with
  | some code => throw (.someLogsFailed failed logs.length code)
  | none => pure ExitCode.ok

/-- Prints the results of one log; fails when it holds none or some did not pass. -/
def parse (src : LogSource) (path : String) (format : Format) : Session Nat := do
  let log ← loadLog src path
  let run := RunTally.ofPairs log.results
  match format with
  | .human => present (runReport · run)
  | .json => say (runJson run)
  if run.isEmpty then throw (.noTestsRun path)
  if run.failureCount > 0 then throw (.testRunFailed run.failureCount run.total)
  pure ExitCode.ok

/-- Prints a key's baseline. -/
def display (store : Store) (gpu filter : String) (format : Format) : Session Nat := do
  let key ← orFail .invalidKey (Key.make gpu filter)
  let (loaded, loadNotes) := store.loadNoted key (← disk)
  notes loadNotes
  let b ← orFail .baselineLoad loaded
  if b.isEmpty then
    notes [.info ("no baseline recorded for " ++ key.display ++ " under `" ++
      store.root.shown ++ "`")]
  match format with
  | .human => present (baselineReport · b)
  | .json => say b.toJson
  pure ExitCode.ok

/-- Removes a key's baseline. -/
def reset (store : Store) (gpu filter : String) : Session Nat := do
  let key ← orFail .invalidKey (Key.make gpu filter)
  let (r, d) := store.reset key (← disk)
  setDisk d
  match r with
  | .ok true => notes [.info ("removed baseline for " ++ key.display)]
  | .ok false => notes [.info ("no baseline recorded for " ++ key.display)]
  | .error e => throw (.baselineReset e)
  pure ExitCode.ok

/-- Prints the cases to run next. -/
def plan (store : Store) (gpu filter : String) (subset : Outcome) (caselist : Option String) :
    Session Nat := do
  let key ← orFail .invalidKey (Key.make gpu filter)
  let text ← match caselist with
    | none => pure none
    | some p =>
      match (← disk).readText (Place.ofText p) with
      | .ok t => pure (some t)
      | .error _ => throw (.plan (.caselistRead p))
  let (r, ns) := store.plan key subset text (← disk)
  notes ns
  let cases ← orFail .plan r
  say (planReport cases)
  pure ExitCode.ok

/-- Runs an invocation in a working directory. -/
def exec (inv : Invocation) (cwd : Place) : Session Nat := do
  let policy := match inv.command with
    | .merge _ _ p => p
    | _ => none
  let cfg ← settings inv.globals cwd policy
  let store : Store := ⟨cfg.expectationsDir⟩
  match inv.command with
  | .merge logs src _ => merge cfg store src logs
  | .parse log src format => parse src log format
  | .display gpu filter format => display store gpu filter format
  | .reset gpu filter => reset store gpu filter
  | .plan gpu filter subset caselist => plan store gpu filter subset caselist

end Session

/-- The name and version the program reports. -/
def versionText : String := "deqp-expect 0.1.0\n"

/-- Whether standard output and the error stream are terminals that take colour. -/
structure Terminals where
  out : Bool := false
  err : Bool := false

/-- Runs a command line, without the program's name, in a working directory on a disk. -/
def run (args : List String) (cwd : Place) (d : Disk) (terms : Terminals) : Transcript :=
  match readArgs args with
  | .error e =>
    ⟨ExitCode.usage, "",
      ["error: " ++ e.message ++ e.details ++ "\n\nFor more information, try '--help'."], d⟩
  | .ok .version => ⟨ExitCode.ok, versionText, [], d⟩
  | .ok (.help c full) => ⟨ExitCode.ok, helpPage c full, [], d⟩
  | .ok (.run inv) =>
    let console : Console :=
      { disk := d
        outColors := Palette.choose inv.globals.color terms.out
        errColors := Palette.choose inv.globals.color terms.err
        verbose := inv.globals.verbose }
    match ((Session.exec inv cwd).run).run console with
    | (.ok code, c) => ⟨code, c.out, c.err, c.disk⟩
    | (.error f, c) => ⟨f.exitCode, c.out, c.err ++ [f.report c.errColors], c.disk⟩

end Conformance.Cli
