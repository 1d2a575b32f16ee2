import Conformance.Outcome
import Conformance.CaseId
import Conformance.Sorted
import Conformance.Json.Value

/-!
# Run tallies

A run is the sequence of (case, outcome) pairs read from one log. A tally keeps the pairs in
the order they were pushed, and beside them two views kept up to date by each push: how many
pairs have each outcome, and which cases were seen with each outcome. From these come the
number of failures (pairs whose outcome is not healthy), the conflicts (cases seen with two
or more different outcomes) and the run summary.
-/

namespace Conformance

/-- The pairs of a run, with per-outcome counts and case sets kept beside them. -/
structure RunTally where
  /-- The pairs, in the order pushed. -/
  pairs : List (CaseId × Outcome)
  /-- How many pairs have each outcome; no zero entries. -/
  counts : List (Outcome × Nat)
  /-- The cases pushed with each outcome; no empty entries. -/
  byOutcome : List (Outcome × List CaseId)
  deriving Repr

namespace RunTally

/-- The tally of no pairs. -/
def empty : RunTally := ⟨[], [], []⟩

/-- Adds one pair. -/
def push (t : RunTally) (id : CaseId) (o : Outcome) : RunTally where
  pairs := t.pairs ++ [(id, o)]
  counts := Sorted.modify o 0 (· + 1) t.counts
  byOutcome := Sorted.modify o [] (Sorted.insert id) t.byOutcome

/-- The tally of a list of pairs, pushed in order. -/
def ofPairs (ps : List (CaseId × Outcome)) : RunTally :=
  ps.foldl (fun t p => t.push p.1 p.2) empty

/-- Whether no pair was pushed. -/
def isEmpty (t : RunTally) : Bool := t.pairs.isEmpty

/-- The number of pairs. -/
def total (t : RunTally) : Nat := t.pairs.length

/-- The number of pairs whose outcome is not healthy. -/
def failureCount (t : RunTally) : Nat :=
  (t.counts.filter (fun e => !e.1.isHealthy)).foldl (fun n e => n + e.2) 0

/-- Each case with the distinct outcomes it was pushed with, ordered by case. -/
def outcomesByCase (t : RunTally) : List (CaseId × List Outcome) :=
  t.pairs.foldl (fun m p => Sorted.modify p.1 [] (Sorted.insert p.2) m) []

/-- The cases pushed with two or more different outcomes, with those outcomes. -/
def conflicts (t : RunTally) : List (CaseId × List Outcome) :=
  (outcomesByCase t).filter (fun e => e.2.length > 1)

end RunTally

/-- What a run summary reports: totals, counts by outcome name, conflicts, and optionally
every pair in order. -/
structure RunSummary where
  total : Nat
  failures : Nat
  counts : List (String × Nat)
  conflicts : List (String × List String)
  results : List (String × String)
  deriving Repr

/-- The summary of a tally; the pairs are listed only when `withResults` holds. -/
def RunTally.summary (t : RunTally) (withResults : Bool) : RunSummary where
  total := t.total
  failures := t.failureCount
  counts := t.counts.map (fun e => (e.1.name, e.2))
  conflicts := t.conflicts.map (fun e => (e.1.text, e.2.map Outcome.name))
  results := if withResults then t.pairs.map (fun p => (p.1.text, p.2.name)) else []

/-- A summary as a JSON document. Conflicts and results are left out when there are none. -/
def RunSummary.toJson (s : RunSummary) : Json :=
  .obj ([("total", .num s.total), ("failures", .num s.failures),
      ("counts", .obj (s.counts.map (fun e => (e.1, .num e.2))))] ++
    (if s.conflicts.isEmpty then [] else
      [("conflicts", .obj (s.conflicts.map (fun e => (e.1, Json.strs e.2))))]) ++
    (if s.results.isEmpty then [] else
      [("results", .arr (s.results.map (fun r =>
        .obj [("case", .str r.1), ("outcome", .str r.2)])))]))

end Conformance
