import Conformance.Run
import Conformance.Merge
import Conformance.Text.Lines
import Conformance.Cli.Palette

/-!
# What the commands print

The text each command writes to standard output. A run lists its pairs in order under a
right-aligned outcome column, then its conflicts and a summary with counts by outcome. A
baseline lists each kind with its cases. A merge summary gives the case count of the new
baseline, its kinds, and the cases that became flaky. A plan gives one case per line.
-/

namespace Conformance.Cli

/-- The width of a run's outcome column: the longest outcome name, counted in UTF-8 octets.
Names are then padded by characters, so a name with characters beyond ASCII stands further
to the left. -/
def outcomeWidth (t : RunTally) : Nat :=
  (t.counts.map (·.1.name.utf8ByteSize)).foldl max 0

/-- The report of a run; outcome names are coloured by health, padding included. -/
def runReport (p : Palette) (t : RunTally) : String :=
  let width := outcomeWidth t
  let pairs := t.pairs.map fun (id, o) =>
    Palette.paint (p.outcome o) (Text.padStart width o.name) ++ " " ++ id.text ++ "\n"
  let conflicts :=
    if t.conflicts.isEmpty then ""
    else "\n" ++ Palette.paint p.strong "conflicting outcomes:" ++ "\n" ++
      String.join (t.conflicts.map fun (id, os) =>
        "  " ++ id.text ++ ": " ++ Text.joinWith ", " (os.map Outcome.name) ++ "\n")
  let counts := t.counts.map fun (o, n) =>
    "  " ++ Palette.paint (p.outcome o) o.name ++ ": " ++ toString n ++ "\n"
  String.join pairs ++ conflicts ++ "\n" ++ Palette.paint p.strong "summary:" ++ " " ++
    toString t.total ++ " results, " ++ toString t.failureCount ++ " failures\n" ++
    String.join counts

/-- The summary of a run as a JSON document, with its pairs. -/
def runJson (t : RunTally) : String :=
  Json.pretty 2 (t.summary true).toJson ++ "\n"

/-- The listing of a baseline: each kind with its number of cases, then the cases. -/
def baselineReport (p : Palette) (b : Baseline) : String :=
  String.join (b.kinds.map fun (kind, ids) =>
    Palette.paint (p.outcome kind) kind.name ++ " (" ++ toString ids.length ++ "):\n" ++
      String.join (ids.map fun id => "  " ++ id.text ++ "\n"))

/-- The summary of a merge into a key's baseline. -/
def mergeReport (p : Palette) (k : Key) (m : MergeSummary) : String :=
  Palette.paint p.strong k.display ++ ": " ++ toString m.baseline.caseCount ++ " cases (" ++
    toString m.newCases.length ++ " new, " ++ toString m.newlyFlaky.length ++
    " newly flaky)\n" ++
  String.join (m.baseline.kinds.map fun (kind, ids) =>
    "  " ++ Palette.paint (p.outcome kind) kind.name ++ ": " ++ toString ids.length ++ "\n") ++
  String.join (m.newlyFlaky.map fun id =>
    "  " ++ Palette.paint p.flaky "newly flaky:" ++ " " ++ id.text ++ "\n")

/-- A plan: one case per line. -/
def planReport (cases : List CaseId) : String :=
  String.join (cases.map fun id => id.text ++ "\n")

end Conformance.Cli
