import Conformance.Outcome
import Conformance.CaseId
import Conformance.Sorted

/-!
# Baselines

A baseline records, for one GPU family and test filter, which outcome each known case is
expected to have: a map from outcome kinds to sets of cases, kinds and cases listed in the
byte order of their names. A valid baseline puts each case under one kind only and has no
empty kind. It is built from entries of a kind and a set of cases, scanned in order, each
entry's cases in sorted order: the first case met under a kind other than the one it was
first seen under is a conflict, reported with both kinds; otherwise the entries of one kind
are united and empty kinds are dropped.
-/

namespace Conformance

/-- The expected outcome kind of each known case. -/
structure Baseline where
  /-- The kinds in order, each with its cases in order. -/
  kinds : List (Outcome × List CaseId)
  deriving DecidableEq, Repr

/-- A case found under two different kinds while building a baseline. -/
structure DuplicateCase where
  caseId : CaseId
  first : Outcome
  second : Outcome
  deriving DecidableEq, Repr

/-- The text of a conflict. -/
def DuplicateCase.message (d : DuplicateCase) : String :=
  "`" ++ d.caseId.text ++ "` under both `" ++ d.first.name ++ "` and `" ++ d.second.name ++ "`"

namespace Baseline

/-- The baseline that knows no case. -/
def empty : Baseline := ⟨[]⟩

/-- Whether the baseline knows no case. -/
def isEmpty (b : Baseline) : Bool := b.kinds.isEmpty

/-- The cases under a kind, if it has any. -/
def get? (b : Baseline) (kind : Outcome) : Option (List CaseId) := Sorted.find? kind b.kinds

/-- The cases under the flaky kind. -/
def flaky (b : Baseline) : Option (List CaseId) := b.get? .flaky

/-- Every case, kind by kind. -/
def cases (b : Baseline) : List CaseId := b.kinds.flatMap (·.2)

/-- The number of cases. -/
def caseCount (b : Baseline) : Nat := b.kinds.foldr (fun e n => e.2.length + n) 0

/-- The first kind, in order, that holds a case. -/
def kindOf (b : Baseline) (id : CaseId) : Option Outcome :=
  (b.kinds.find? (fun e => e.2.contains id)).map (·.1)

/-- Drops the kinds without cases. -/
def dropEmpty (kinds : List (Outcome × List CaseId)) : List (Outcome × List CaseId) :=
  kinds.filter (fun e => !e.2.isEmpty)

/-- The cases of one entry checked against the kinds seen so far: the updated record of
first kinds, or the first conflict. -/
def checkCases (kind : Outcome) :
    List (CaseId × Outcome) → List CaseId → Except DuplicateCase (List (CaseId × Outcome))
  | seen, [] => .ok seen
  | seen, id :: rest =>
    match Sorted.find? id seen with
    | some first =>
      if first = kind then checkCases kind seen rest else .error ⟨id, first, kind⟩
    | none => checkCases kind (Sorted.put id kind seen) rest

/-- Builds a baseline from entries, scanned in order. -/
def fromKinds (entries : List (Outcome × List CaseId)) : Except DuplicateCase Baseline :=
  go [] [] entries
where
  /-- Scans the remaining entries with the first kinds seen and the kinds built so far. -/
  go (seen : List (CaseId × Outcome)) (out : List (Outcome × List CaseId)) :
      List (Outcome × List CaseId) → Except DuplicateCase Baseline
    | [] => .ok ⟨out⟩
    | (kind, cases) :: rest => do
      let set := Sorted.ofList cases
      let seen' ← checkCases kind seen set
      let out' := if set.isEmpty then out else Sorted.modify kind [] (Sorted.union · set) out
      go seen' out' rest

end Baseline

end Conformance
