import Conformance.Baseline.Basic
import Conformance.Policy

/-!
# Folding a run into a baseline

Folding adds the pairs of a run to a baseline. First every case goes under every outcome it
was seen with, beside the kind the baseline already had for it. A case that then stands under
two kinds that the policy counts as a disagreement becomes flaky, as does every case already
flaky or reported flaky, and flaky cases leave all other kinds. A case still under two kinds,
a disagreement the policy forgives, keeps only the outcome of its last pair in the run, and
empty kinds are dropped. The fold also reports the cases that became flaky and the cases the
baseline did not know.
-/

namespace Conformance

/-- Whether two kinds of one case mark it flaky under a policy: any two do under
`any-outcome`; under `healthy-vs-unhealthy`, only two where one is flaky or healthy. -/
def FlakyPolicy.countsAsFlaky (policy : FlakyPolicy) (a b : Outcome) : Bool :=
  match policy with
  | .anyOutcome => true
  | .healthyVsUnhealthy => a == .flaky || b == .flaky || a.isHealthy || b.isHealthy

/-- Every two elements of a list, the earlier first. -/
def unorderedPairs {α : Type} : List α → List (α × α)
  | [] => []
  | x :: xs => xs.map (x, ·) ++ unorderedPairs xs

/-- The result of a fold: the new baseline, the cases that became flaky, and the cases the
old baseline did not know. -/
structure Folded where
  baseline : Baseline
  newlyFlaky : List CaseId
  newCases : List CaseId
  deriving DecidableEq, Repr

namespace Baseline

/-- Every case under every outcome it was paired with. -/
def addPairs (kinds : List (Outcome × List CaseId)) (pairs : List (CaseId × Outcome)) :
    List (Outcome × List CaseId) :=
  pairs.foldl (fun m p => Sorted.modify p.2 [] (Sorted.insert p.1) m) kinds

/-- The flaky cases: those under the flaky kind, and those under two kinds that the policy
counts as a disagreement. -/
def flakyCases (policy : FlakyPolicy) (kinds : List (Outcome × List CaseId)) : List CaseId :=
  (unorderedPairs kinds).foldl
    (fun acc ab =>
      if policy.countsAsFlaky ab.1.1 ab.2.1 then Sorted.union acc (Sorted.inter ab.1.2 ab.2.2)
      else acc)
    ((Sorted.find? Outcome.flaky kinds).getD [])

/-- How many kinds hold each case. -/
def membership (kinds : List (Outcome × List CaseId)) : List (CaseId × Nat) :=
  kinds.foldl (fun m e => e.2.foldl (fun m id => Sorted.modify id 0 (· + 1) m) m) []

/-- Keeps each case that is still under two or more kinds only under the outcome of its
last pair. -/
def resolveLeftovers (kinds : List (Outcome × List CaseId)) (pairs : List (CaseId × Outcome)) :
    List (Outcome × List CaseId) :=
  let ambiguous := ((membership kinds).filter (·.2 > 1)).map (·.1)
  let latest := pairs.foldl
    (fun m p => if ambiguous.contains p.1 then Sorted.put p.1 p.2 m else m) []
  kinds.map fun (kind, cases) =>
    (kind, cases.filter fun id =>
      match Sorted.find? id latest with
      | some k => k == kind
      | none => true)

/-- Folds the pairs of a run into a baseline under a policy. -/
def foldRun (existing : Baseline) (pairs : List (CaseId × Outcome)) (policy : FlakyPolicy) :
    Folded :=
  let known := existing.cases
  let oldFlaky := (existing.get? .flaky).getD []
  let seen := addPairs existing.kinds pairs
  let flaky := flakyCases policy seen
  let settled := seen.map fun (kind, cases) =>
    if kind == .flaky then (kind, cases) else (kind, Sorted.diff cases flaky)
  let resolved := Sorted.put .flaky flaky (resolveLeftovers settled pairs)
  { baseline := ⟨dropEmpty resolved⟩
    newlyFlaky := Sorted.diff flaky oldFlaky
    newCases := Sorted.ofList ((pairs.map (·.1)).filter (fun id => !known.contains id)) }

end Baseline

end Conformance
