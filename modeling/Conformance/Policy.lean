/-!
# Flaky detection policies

A case is flaky when runs disagree about it. Under `any-outcome` every disagreement counts;
under `healthy-vs-unhealthy` one counts when either outcome is healthy or is the flaky mark,
so two healthy outcomes (`Pass` against `NotSupported`) count too, and two unhealthy ones do
not. Policies are named exactly; no other spelling is accepted.
-/

namespace Conformance

/-- Which disagreements between outcomes mark a case flaky. -/
inductive FlakyPolicy where
  /-- Any two different outcomes. -/
  | anyOutcome
  /-- Two different outcomes of which one is healthy or the flaky mark. -/
  | healthyVsUnhealthy
  deriving DecidableEq, Repr

/-- Why a text names no policy. -/
inductive PolicyError where
  | unknown (name : String)
  deriving DecidableEq, Repr

/-- The text of a policy error. -/
def PolicyError.message : PolicyError → String
  | .unknown name => "unknown flaky detection policy `" ++ name ++
      "` (expected one of: any-outcome, healthy-vs-unhealthy)"

namespace FlakyPolicy

/-- The name of a policy. -/
def name : FlakyPolicy → String
  | .anyOutcome => "any-outcome"
  | .healthyVsUnhealthy => "healthy-vs-unhealthy"

/-- The policy of a name, matched exactly. -/
def parse (s : String) : Except PolicyError FlakyPolicy :=
  if s = "any-outcome" then .ok .anyOutcome
  else if s = "healthy-vs-unhealthy" then .ok .healthyVsUnhealthy
  else .error (.unknown s)

theorem parse_name (p : FlakyPolicy) : parse p.name = .ok p := by
  cases p <;> rfl

end FlakyPolicy

end Conformance
