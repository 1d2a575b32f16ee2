import Conformance.Cli.Footprint

/-!
# The program

Runs one command line on the real file system. The paths the command may touch are read
into a disk first; the command runs on that disk; what it printed is printed, the disk's
changes are written back, and the program ends with the command's exit code.
-/

open Conformance Conformance.Cli

/-- What is at a path: a file with its octets, a directory, or nothing. A directory is told
apart by the error that reading it as a file gives. -/
def probe (path : String) : IO (Option Entry) := do
  try
    return some (.file (← IO.FS.readBinFile path).toList)
  catch e =>
    match e with
    | .inappropriateType _ 21 _ => return some .dir
    | _ => return none

/-- Adds what resolving paths looks up to a disk, as the file system has it. -/
def loadPaths (d : Disk) (paths : List (List String)) : IO Disk :=
  (paths.flatMap Disk.trail).foldlM (fun d p => do
    if (d.get? p).isSome then return d
    match ← probe (pathText p) with
    | some e => return d.put p e
    | none => return d) d

/-- The disk a command line needs: its settings file, the logs and caselists it names,
and the files of the baselines it works on. -/
def loadFor (args : List String) (cwd : Place) : IO Disk := do
  match readArgs args with
  | .ok (.run inv) =>
    let d ← loadPaths Disk.empty (inv.settingsPath cwd :: inv.namedPaths)
    match inv.store? cwd d with
    | some s =>
      let keys := inv.keys d
      let d ← loadPaths d (keys.flatMap fun k => [(s.familyDir k).parts, (s.jsonPath k).parts])
      loadPaths d (keys.flatMap fun k => inv.storePaths s k d)
    | none => return d
  | _ => return Disk.empty

/-- Writes the changes between two disks to the file system: new directories and changed
files first, in the order they were made, then removals. -/
def writeBack (before after : Disk) : IO Unit := do
  for (p, e) in after.entries do
    if before.get? p ≠ some e then
      match e with
      | .dir => IO.FS.createDirAll (pathText p)
      | .file bytes => IO.FS.writeBinFile (pathText p) ⟨bytes.toArray⟩
  for (p, e) in before.entries do
    if (after.get? p).isNone then
      match e with
      | .file _ => IO.FS.removeFile (pathText p)
      | .dir => IO.FS.removeDirAll (pathText p)

/-- Whether a stream takes colour: it is a terminal, `NO_COLOR` is unset or `0`, and the
terminal's type is known and is not `dumb`. -/
def takesColor (isTerminal : Bool) : IO Bool := do
  let noColor := match ← IO.getEnv "NO_COLOR" with
    | some v => v != "0"
    | none => false
  let term ← IO.getEnv "TERM"
  return isTerminal && !noColor && term.isSome && term != some "dumb"

/-- Runs the command line given to the program. -/
def main (args : List String) : IO UInt32 := do
  let ⟨here⟩ ← IO.currentDir
  let cwd : Place := ⟨here, []⟩
  let disk ← loadFor args cwd
  let terms : Terminals :=
    { out := ← takesColor (← (← IO.getStdout).isTty)
      err := ← takesColor (← (← IO.getStderr).isTty) }
  let t := run args cwd disk terms
  IO.print t.out
  let err ← IO.getStderr
  for m in t.err do
    err.putStrLn m
  writeBack disk t.disk
  return t.exitCode.toUInt32
