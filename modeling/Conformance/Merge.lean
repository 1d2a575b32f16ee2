import Conformance.Store
import Conformance.Baseline.Fold
import Conformance.Run

/-!
# Merging runs into the store

Merging a run loads the key's baseline, folds the run's pairs into it under a flaky policy
and saves the result. A run without pairs changes nothing and saves nothing. A baseline that
cannot be loaded stops the merge before anything is written. On the way it notes how many
cases the run saw with conflicting outcomes, how many cases each kind now holds, and how
many cases became flaky.
-/

namespace Conformance

/-- Why a merge fails. -/
inductive MergeError where
  | load (cause : LoadError)
  | save (cause : SaveError)
  deriving DecidableEq, Repr

/-- The text of a merge error. -/
def MergeError.message : MergeError → String
  | .load _ => "failed to load existing baseline"
  | .save _ => "failed to save merged baseline"

/-- What a merge did: the baseline now stored, the cases that became flaky, the cases that
are new, and whether anything was saved. -/
structure MergeSummary where
  baseline : Baseline
  newlyFlaky : List CaseId
  newCases : List CaseId
  saved : Bool
  deriving DecidableEq, Repr

namespace Store

/-- Merges a run into the baseline of a key. -/
def merge (s : Store) (k : Key) (run : RunTally) (policy : FlakyPolicy)
    (d : Disk) : Effect MergeError MergeSummary :=
  let (loaded, loadNotes) := s.loadNoted k d
  match loaded with
  | .error e => ⟨.error (.load e), d, loadNotes⟩
  | .ok existing =>
    if run.isEmpty then
      ⟨.ok ⟨existing, [], [], false⟩, d,
        loadNotes ++ [.info ("no results for " ++ k.display ++ ", baseline left unchanged")]⟩
    else
      let conflicts := run.conflicts.length
      let f := existing.foldRun run.pairs policy
      let notes := loadNotes ++
        (if conflicts = 0 then [] else
          [.debug (toString conflicts ++ " cases of " ++ k.display ++
            " had conflicting outcomes within the run")]) ++
        f.baseline.kinds.map (fun (kind, cases) =>
          .debug (k.display ++ ": " ++ kind.name ++ ": " ++ toString cases.length ++ " cases")) ++
        (if f.newlyFlaky.isEmpty then [] else
          [.info (k.display ++ ": " ++ toString f.newlyFlaky.length ++ " newly flaky cases")])
      let r := s.save k f.baseline d
      match r.answer with
      | .error e => ⟨.error (.save e), r.disk, notes ++ r.notes⟩
      | .ok () => ⟨.ok ⟨f.baseline, f.newlyFlaky, f.newCases, true⟩, r.disk, notes ++ r.notes⟩

end Store

end Conformance
