import Conformance.Settings
import Conformance.Autotest
import Conformance.Merge
import Conformance.Plan
import Conformance.Cli.Palette

/-!
# Why a command fails

Each failure of a command has a headline, printed after `error: `, the messages of the
errors that caused it, and the exit code the program ends with. Exit codes sort failures
by what went wrong: the setup, reading a log, an incomplete run, a corrupt baseline, a
failed write, no cases to plan, or tests that did not pass.
-/

namespace Conformance.Cli

/-! ## Exit codes -/

namespace ExitCode

/-- Everything went well. -/
def ok : Nat := 0
/-- The command line is malformed. -/
def usage : Nat := 2
/-- A log holds no results. -/
def noTestsRun : Nat := 4
/-- The settings, a key, a caselist or the working directory are unusable. -/
def setupError : Nat := 96
/-- Some test results did not pass. -/
def testRunFailed : Nat := 100
/-- A log cannot be read or names no baseline. -/
def logReadFailed : Nat := 101
/-- A log records no completed run and complete runs are required. -/
def incompleteRun : Nat := 106
/-- A stored baseline cannot be loaded. -/
def baselineCorrupt : Nat := 107
/-- A baseline cannot be written or removed. -/
def baselineWriteFailed : Nat := 108
/-- No cases are planned. -/
def noCasesPlanned : Nat := 109

end ExitCode

/-- Why a command fails. -/
inductive Failure where
  | settings (cause : SettingsError)
  | invalidKey (cause : KeyError)
  | missingKey (log : String)
  | caselistRead (path : String)
  | logRead (path : String)
  | autotestLog (cause : Autotest.LogKeyError)
  | incompleteRun (log : String)
  | baselineLoad (cause : LoadError)
  | baselineReset (cause : ResetError)
  | merge (key : String) (cause : MergeError)
  | plan (cause : PlanError)
  | someLogsFailed (failed total code : Nat)
  | noTestsRun (log : String)
  | testRunFailed (failures total : Nat)
  deriving DecidableEq, Repr

namespace Failure

/-- The headline of a failure; the paths, keys and counts it names stand out in colour. -/
def headline (p : Palette) : Failure → String
  | .settings _ => "failed to load configuration"
  | .invalidKey _ => "invalid baseline key"
  | .missingKey log =>
    "`" ++ Palette.paint p.strong log ++ "` is a raw dEQP log: pass " ++
      Palette.paint p.strong "--gpu" ++ " and " ++ Palette.paint p.strong "--filter" ++
      " to name its baseline"
  | .caselistRead path => "failed to read caselist `" ++ Palette.paint p.strong path ++ "`"
  | .logRead path => "failed to read log `" ++ Palette.paint p.strong path ++ "`"
  | .autotestLog _ => "failed to process autotest log"
  | .incompleteRun log =>
    "`" ++ Palette.paint p.strong log ++ "` does not record a completed run, refusing to merge it " ++
      "(require-complete is set)"
  | .baselineLoad _ => "expectation history could not be loaded"
  | .baselineReset _ => "failed to reset baseline"
  | .merge k _ => "failed to merge results into " ++ Palette.paint p.strong k
  | .plan _ => "failed to plan the next run"
  | .someLogsFailed f t _ => toString f ++ " of " ++ toString t ++ " logs could not be merged"
  | .noTestsRun log => "no test results found in `" ++ Palette.paint p.strong log ++ "`"
  | .testRunFailed f t =>
    Palette.paint p.unhealthy (toString f) ++ " of " ++ toString t ++ " test results did not pass"

/-- The messages of the errors behind a failure, outermost first. -/
def causes : Failure → List String
  | .settings e => e.message :: e.causes
  | .invalidKey e => [e.message]
  | .autotestLog e =>
    e.message :: match e with
      | .invalidKey _ k => [k.message]
      | .missingMetadata _ _ => []
  | .baselineLoad e => [e.message]
  | .baselineReset e => [e.message]
  | .merge _ e =>
    e.message :: match e with
      | .load l => [l.message]
      | .save s => [s.message]
  | .plan e =>
    e.message :: match e with
      | .load l => [l.message]
      | _ => []
  | _ => []

/-- The exit code of a failure. -/
def exitCode : Failure → Nat
  | .settings _ | .invalidKey _ | .missingKey _ | .caselistRead _ => ExitCode.setupError
  | .logRead _ | .autotestLog _ => ExitCode.logReadFailed
  | .incompleteRun _ => ExitCode.incompleteRun
  | .baselineLoad _ => ExitCode.baselineCorrupt
  | .baselineReset _ => ExitCode.baselineWriteFailed
  | .merge _ (.load _) => ExitCode.baselineCorrupt
  | .merge _ (.save _) => ExitCode.baselineWriteFailed
  | .plan (.load _) => ExitCode.baselineCorrupt
  | .plan (.caselistRead _) => ExitCode.setupError
  | .plan _ => ExitCode.noCasesPlanned
  | .someLogsFailed _ _ code => code
  | .noTestsRun _ => ExitCode.noTestsRun
  | .testRunFailed _ _ => ExitCode.testRunFailed

/-- A failure as the error stream shows it: the headline under its heading, then each cause
in a paragraph of its own. -/
def report (p : Palette) (f : Failure) : String :=
  Palette.paint p.errorHeading "error" ++ ": " ++ f.headline p ++
    String.join (f.causes.map ("\n\nCaused by:\n  " ++ ·))

end Failure

end Conformance.Cli
