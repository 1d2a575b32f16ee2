import Conformance.Store
import Conformance.Caselist

/-!
# Planning the next run

The cases to run next are those recorded under a kind, read from the kind's plain-text list.
When no `Pass` list exists yet, the plan is bootstrapped from a suite caselist. Plans are
sorted and free of repeats, an empty plan is an error, and planning notes how many cases it
found recorded, or bootstrapped and kept out.
-/

namespace Conformance

/-- Why no plan can be made. -/
inductive PlanError where
  | load (cause : LoadError)
  | missingSubset (key : String) (subset : Outcome)
  | noCaselist (key : String)
  | empty (key : String) (subset : Outcome)
  | caselistRead (path : String)
  deriving DecidableEq, Repr

/-- The text of a planning error. -/
def PlanError.message : PlanError → String
  | .load _ => "failed to load expectations"
  | .missingSubset k s => "no `" ++ s.name ++ "` subset recorded for " ++ k
  | .noCaselist k => "no `Pass` subset recorded for " ++ k ++ " and no caselist to bootstrap from"
  | .empty k s => "no `" ++ s.name ++ "` test cases found for " ++ k
  | .caselistRead p => "failed to read caselist `" ++ p ++ "`"

namespace Store

/-- The cases to run next under a kind, with the caselist to bootstrap from, if any. -/
def plan (s : Store) (k : Key) (subset : Outcome) (caselist : Option String) (d : Disk) :
    Except PlanError (List CaseId) × List Note :=
  let nonEmpty (cases : List CaseId) : Except PlanError (List CaseId) :=
    if cases.isEmpty then .error (.empty k.display subset) else .ok cases
  match s.loadSubset k subset d with
  | .error e => (.error (.load e), [])
  | .ok (some cases) =>
    (nonEmpty (Sorted.ofList cases),
      [.debug (k.display ++ ": " ++ toString cases.length ++ " cases recorded under `" ++
        subset.name ++ "`")])
  | .ok none =>
    if subset != .pass then (.error (.missingSubset k.display subset), [])
    else
      match caselist with
      | none => (.error (.noCaselist k.display), [])
      | some text =>
        match s.loadNoted k d with
        | (.error e, loadNotes) => (.error (.load e), loadNotes)
        | (.ok b, loadNotes) =>
          let cases := bootstrap k b text
          (nonEmpty cases, loadNotes ++
            [.info (k.display ++ ": bootstrapping test cases from caselist"),
             .debug (k.display ++ ": " ++ toString cases.length ++ " cases bootstrapped, " ++
               toString (notPassing b).length ++ " excluded by the baseline")])

end Store

end Conformance
