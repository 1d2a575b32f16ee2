import Conformance.Proofs.FoldRuns

/-!
Flaky detection reads its evidence as a set. A case becomes flaky when the outcomes it has
been seen with disagree, and those outcomes come from the pairs that name it, so the flaky
cases of a fold depend on a run only through the pairs it holds: not on their order, nor on
repeats, nor on how the pairs are split over successive folds (`flaky_detection_order_free`).
Any other case is filed under the outcome of its last pair, which does depend on order; but
under `any-outcome` such a case was seen with one outcome only, so there the whole fold is
order-free and two runs folded in either order give the same baseline.
-/

namespace Conformance.Baseline
open Sorted

/-! ## Runs that hold the same pairs -/

section SamePairs

variable {p q : List (CaseId × Outcome)} (same : ∀ x, x ∈ p ↔ x ∈ q)
include same

theorem named_congr (c : CaseId) : c ∈ p.map (·.1) ↔ c ∈ q.map (·.1) := by
  simp only [List.mem_map]
  exact exists_congr fun x => and_congr_left fun _ => same x

theorem lastOutcome_eq_none_congr (c : CaseId) :
    lastOutcome p c = none ↔ lastOutcome q c = none := by
  rw [lastOutcome_eq_none_iff, lastOutcome_eq_none_iff, named_congr same]

theorem seenWith_congr (b : Baseline) (c : CaseId) : seenWith b p c = seenWith b q c := by
  ext o
  rw [mem_seenWith, mem_seenWith, same]

theorem foldedKind_anyOutcome_congr (b : Baseline) (c : CaseId) :
    foldedKind b p .anyOutcome c = foldedKind b q .anyOutcome c := by
  have seen := seenWith_congr same b c
  unfold foldedKind
  cases hp : lastOutcome p c with
  | none => rw [(lastOutcome_eq_none_congr same c).mp hp]
  | some l =>
    cases hq : lastOutcome q c with
    | none => exact absurd ((lastOutcome_eq_none_congr same c).mpr hq) (by simp [hp])
    | some l' =>
      rw [seen]
      by_cases disagree : FlakyPolicy.anyOutcome.Disagree (seenWith b q c)
      · simp only [disagree, if_true]
      · have small : (seenWith b q c).card ≤ 1 := by
          by_contra big
          exact disagree (.inr ⟨by omega, .inl rfl⟩)
        have last : l = l' := (mem_iff_of_card_le_one small (mem_seenWith_of_lastOutcome hq)).mp
          (seen ▸ mem_seenWith_of_lastOutcome hp)
        simp only [disagree, if_false, last]

theorem newCases_foldRun_congr (b : Baseline) (policy : FlakyPolicy) :
    (b.foldRun p policy).newCases = (b.foldRun q policy).newCases :=
  (newCases_ascending_foldRun b p policy).eq_of_mem_iff (newCases_ascending_foldRun b q policy)
    fun c => by rw [mem_newCases_foldRun, mem_newCases_foldRun, named_congr same]

end SamePairs

/-! ## The flaky kind -/

section Valid

variable {b : Baseline} (hb : b.Valid) (policy : FlakyPolicy)
include hb

theorem under_flaky_foldRun (pairs : List (CaseId × Outcome)) (c : CaseId) :
    (b.foldRun pairs policy).baseline.Under .flaky c ↔ policy.Disagree (seenWith b pairs c) := by
  rw [under_foldRun hb, foldedKind_eq_flaky_iff]

theorem flaky_foldRun_congr {p q : List (CaseId × Outcome)} (same : ∀ x, x ∈ p ↔ x ∈ q) :
    (b.foldRun p policy).baseline.flaky = (b.foldRun q policy).baseline.flaky :=
  (valid_foldRun hb p policy).get?_congr (valid_foldRun hb q policy) fun c => by
    rw [under_flaky_foldRun hb, under_flaky_foldRun hb, seenWith_congr same]

theorem newlyFlaky_foldRun_congr {p q : List (CaseId × Outcome)} (same : ∀ x, x ∈ p ↔ x ∈ q) :
    (b.foldRun p policy).newlyFlaky = (b.foldRun q policy).newlyFlaky :=
  (newlyFlaky_ascending_foldRun hb p policy).eq_of_mem_iff (newlyFlaky_ascending_foldRun hb q policy)
    fun c => by
      rw [mem_newlyFlaky_foldRun hb, mem_newlyFlaky_foldRun hb, kindOf_foldRun hb, kindOf_foldRun hb,
        foldedKind_eq_flaky_iff, foldedKind_eq_flaky_iff, seenWith_congr same]

theorem foldRun_anyOutcome_congr {p q : List (CaseId × Outcome)} (same : ∀ x, x ∈ p ↔ x ∈ q) :
    b.foldRun p .anyOutcome = b.foldRun q .anyOutcome := by
  have baseline := (valid_foldRun hb p .anyOutcome).ext (valid_foldRun hb q .anyOutcome) fun c => by
    rw [kindOf_foldRun hb, kindOf_foldRun hb, foldedKind_anyOutcome_congr same]
  exact Folded.eq_of_parts baseline (newlyFlaky_foldRun_congr hb .anyOutcome same)
    (newCases_foldRun_congr same b .anyOutcome)

theorem foldRun_anyOutcome_comm (p₁ p₂ : List (CaseId × Outcome)) :
    ((b.foldRun p₁ .anyOutcome).baseline.foldRun p₂ .anyOutcome).baseline =
      ((b.foldRun p₂ .anyOutcome).baseline.foldRun p₁ .anyOutcome).baseline := by
  have same : ∀ x, x ∈ p₁ ++ p₂ ↔ x ∈ p₂ ++ p₁ := fun x => by
    rw [List.mem_append, List.mem_append, or_comm]
  rw [foldRun_foldRun hb, foldRun_foldRun hb, foldRun_anyOutcome_congr hb same]

end Valid

/-! ## Runs split over successive folds -/

/-- The reports of folding runs one after the other, each into the baseline the one before
left. -/
def foldSteps (b : Baseline) (policy : FlakyPolicy) : List (List (CaseId × Outcome)) → List Folded
  | [] => []
  | p :: runs => b.foldRun p policy :: foldSteps (b.foldRun p policy).baseline policy runs

section Steps

variable {b : Baseline} (hb : b.Valid) (policy : FlakyPolicy)
include hb

theorem foldl_foldRun (runs : List (List (CaseId × Outcome))) :
    runs.foldl (fun b p => (b.foldRun p policy).baseline) b = (b.foldRun runs.flatten policy).baseline := by
  induction runs generalizing b with
  | nil => rw [List.foldl_nil, List.flatten_nil, foldRun_nil hb]
  | cons p runs ih =>
    rw [List.foldl_cons, ih (valid_foldRun hb p policy), foldRun_foldRun hb, List.flatten_cons]

theorem mem_foldSteps_newlyFlaky (runs : List (List (CaseId × Outcome))) (c : CaseId) :
    c ∈ (foldSteps b policy runs).flatMap (·.newlyFlaky) ↔
      c ∈ (b.foldRun runs.flatten policy).newlyFlaky := by
  induction runs generalizing b with
  | nil => simp [foldSteps, foldRun_nil hb]
  | cons p runs ih =>
    rw [foldSteps, List.flatMap_cons, List.mem_append, ih (valid_foldRun hb p policy),
      List.flatten_cons, mem_newlyFlaky_steps hb]

end Steps

/-- What flaky detection owes to the order of its evidence. The flaky cases of a fold, and
those it reports newly flaky, are the same for any two runs holding the same pairs, and for
runs split in any way over successive folds. Under `any-outcome` the whole fold is the same
for two runs holding the same pairs, and two runs give the same baseline in either order. -/
structure OrderFree (b : Baseline) : Prop where
  flaky : ∀ policy (p q : List (CaseId × Outcome)), (∀ x, x ∈ p ↔ x ∈ q) →
    (b.foldRun p policy).baseline.flaky = (b.foldRun q policy).baseline.flaky ∧
      (b.foldRun p policy).newlyFlaky = (b.foldRun q policy).newlyFlaky
  steps : ∀ policy (runs : List (List (CaseId × Outcome))) (q : List (CaseId × Outcome)),
    (∀ x, x ∈ runs.flatten ↔ x ∈ q) →
      (runs.foldl (fun b p => (b.foldRun p policy).baseline) b).flaky =
        (b.foldRun q policy).baseline.flaky ∧
      ∀ c, c ∈ (foldSteps b policy runs).flatMap (·.newlyFlaky) ↔ c ∈ (b.foldRun q policy).newlyFlaky
  anyOutcome : ∀ p q : List (CaseId × Outcome), (∀ x, x ∈ p ↔ x ∈ q) →
    b.foldRun p .anyOutcome = b.foldRun q .anyOutcome
  anyOutcomeComm : ∀ p₁ p₂ : List (CaseId × Outcome),
    ((b.foldRun p₁ .anyOutcome).baseline.foldRun p₂ .anyOutcome).baseline =
      ((b.foldRun p₂ .anyOutcome).baseline.foldRun p₁ .anyOutcome).baseline

theorem flaky_detection_order_free (b : Baseline) (hb : b.Valid) : OrderFree b where
  flaky policy _ _ same := ⟨flaky_foldRun_congr hb policy same, newlyFlaky_foldRun_congr hb policy same⟩
  steps policy runs _ same := by
    refine ⟨?_, fun c => ?_⟩
    · rw [foldl_foldRun hb policy, flaky_foldRun_congr hb policy same]
    · rw [mem_foldSteps_newlyFlaky hb policy, newlyFlaky_foldRun_congr hb policy same]
  anyOutcome _ _ same := foldRun_anyOutcome_congr hb same
  anyOutcomeComm := foldRun_anyOutcome_comm hb

/-- The baseline left by a run that saw one case fail and pass. -/
theorem flaky_detection_order_free_after_a_run :
    (Baseline.empty.foldRun [(.mk "A", .fail), (.mk "A", .pass), (.mk "B", .crash)] .anyOutcome).baseline.Valid ∧
      OrderFree (Baseline.empty.foldRun [(.mk "A", .fail), (.mk "A", .pass), (.mk "B", .crash)]
        .anyOutcome).baseline :=
  ⟨valid_foldRun valid_empty _ _, flaky_detection_order_free _ (valid_foldRun valid_empty _ _)⟩

end Conformance.Baseline
