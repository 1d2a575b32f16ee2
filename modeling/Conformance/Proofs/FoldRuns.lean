import Mathlib.Data.Finset.Lattice.Lemmas
import Conformance.Proofs.Fold

/-!
History is folded one run at a time: folding two runs one after the other gives the baseline
that folding them as one run gives, and folding no run changes nothing. The reports of the
two folds split those of the single fold. Under `healthy-vs-unhealthy` the intermediate
baseline forgets all but the last of the failure kinds a case was seen with; that loss never
changes a later decision, since a case seen with two failure kinds and no healthy outcome can
only become flaky through an outcome of a later run (`disagree_insert_iff`).
-/
namespace Conformance.Baseline
open Sorted

/-! ## The reference over concatenated runs -/

theorem outcomesOf_append (p₁ p₂ : List (CaseId × Outcome)) (c : CaseId) :
    outcomesOf (p₁ ++ p₂) c = outcomesOf p₁ c ++ outcomesOf p₂ c := by
  simp [outcomesOf]

theorem lastOutcome_append (p₁ p₂ : List (CaseId × Outcome)) (c : CaseId) :
    lastOutcome (p₁ ++ p₂) c = (lastOutcome p₂ c).or (lastOutcome p₁ c) := by
  simp [lastOutcome, outcomesOf_append]

theorem seenWith_append (b : Baseline) (p₁ p₂ : List (CaseId × Outcome)) (c : CaseId) :
    seenWith b (p₁ ++ p₂) c = seenWith b p₁ c ∪ (outcomesOf p₂ c).toFinset := by
  simp [seenWith, outcomesOf_append, List.toFinset_append, Finset.union_assoc]

theorem seenWith_foldRun {b : Baseline} (hb : b.Valid) (p₁ p₂ : List (CaseId × Outcome))
    (policy : FlakyPolicy) (c : CaseId) :
    seenWith (b.foldRun p₁ policy).baseline p₂ c =
      (foldedKind b p₁ policy c).toList.toFinset ∪ (outcomesOf p₂ c).toFinset := by
  rw [seenWith, kindOf_foldRun hb, List.toFinset_append]

theorem foldedKind_nil (b : Baseline) (policy : FlakyPolicy) (c : CaseId) :
    foldedKind b [] policy c = b.kindOf c := rfl

theorem disagree_mono {policy : FlakyPolicy} {s t : Finset Outcome} (sub : s ⊆ t)
    (disagree : policy.Disagree s) : policy.Disagree t := by
  rcases disagree with flaky | ⟨two, rule⟩
  · exact .inl (sub flaky)
  · refine .inr ⟨two.trans (Finset.card_le_card sub), ?_⟩
    rcases rule with any | pass | ns
    · exact .inl any
    · exact .inr (.inl (sub pass))
    · exact .inr (.inr (sub ns))

/-- A case whose outcomes agree, as the policy counts it, disagrees with later outcomes
exactly when its last outcome alone would: the outcomes it forgets change nothing. -/
theorem disagree_insert_iff {policy : FlakyPolicy} {seen later : Finset Outcome} {last : Outcome}
    (agree : ¬ policy.Disagree seen) (hl : last ∈ seen) :
    policy.Disagree (insert last later) ↔ policy.Disagree (seen ∪ later) := by
  by_cases small : seen.card ≤ 1
  · have single : seen = {last} := Finset.eq_singleton_iff_unique_mem.mpr
      ⟨hl, fun o ho => Finset.card_le_one.mp small o ho last hl⟩
    rw [single, Finset.insert_eq]
  -- two outcomes that agree: the policy is `healthy-vs-unhealthy` and none of them is healthy
  have two : 2 ≤ seen.card := by omega
  simp only [FlakyPolicy.Disagree, two, true_and, not_or] at agree
  obtain ⟨notFlaky, notAny, notPass, notNs⟩ := agree
  have other : ∀ o, o ∉ seen → (o ∈ insert last later ↔ o ∈ seen ∪ later) := by
    intro o absent
    rw [Finset.mem_insert, Finset.mem_union]
    constructor
    · rintro (rfl | mem)
      · exact absurd hl absent
      · exact .inr mem
    · rintro (mem | mem)
      · exact absurd mem absent
      · exact .inr mem
  have wide : ∀ o ∈ later, o ∉ seen → 2 ≤ (insert last later).card := by
    intro o mem absent
    refine Finset.one_lt_card.mpr ⟨last, Finset.mem_insert_self _ _, o, Finset.mem_insert_of_mem mem, ?_⟩
    rintro rfl
    exact absent hl
  have wider : 2 ≤ (seen ∪ later).card := two.trans (Finset.card_le_card Finset.subset_union_left)
  unfold FlakyPolicy.Disagree
  rw [other _ notFlaky, other _ notPass, other _ notNs]
  constructor
  · rintro (flaky | ⟨_, rule⟩)
    · exact .inl flaky
    · exact .inr ⟨wider, rule⟩
  · rintro (flaky | ⟨_, any | pass | ns⟩)
    · exact .inl flaky
    · exact absurd any notAny
    · have mem := (Finset.mem_union.mp pass).resolve_left notPass
      exact .inr ⟨wide _ mem notPass, .inr (.inl pass)⟩
    · have mem := (Finset.mem_union.mp ns).resolve_left notNs
      exact .inr ⟨wide _ mem notNs, .inr (.inr ns)⟩

theorem foldedKind_congr {b b' : Baseline} {p p' : List (CaseId × Outcome)} {policy : FlakyPolicy}
    {c : CaseId} (last : lastOutcome p c = lastOutcome p' c)
    (seen : policy.Disagree (seenWith b p c) ↔ policy.Disagree (seenWith b' p' c))
    (kind : lastOutcome p c = none → b.kindOf c = b'.kindOf c) :
    foldedKind b p policy c = foldedKind b' p' policy c := by
  unfold foldedKind
  rw [← last]
  cases hl : lastOutcome p c with
  | none => exact kind hl
  | some l => simp only [seen]

theorem foldedKind_of_flaky {b : Baseline} {pairs : List (CaseId × Outcome)} {policy : FlakyPolicy}
    {c : CaseId} (wasFlaky : b.kindOf c = some .flaky) : foldedKind b pairs policy c = some .flaky := by
  cases hl : lastOutcome pairs c with
  | none => rw [foldedKind, hl, wasFlaky]
  | some last => exact foldedKind_eq_flaky_iff.mpr (.inl (mem_seenWith.mpr (.inl wasFlaky)))

theorem disagree_seenWith_foldRun {b : Baseline} (hb : b.Valid) (p₁ p₂ : List (CaseId × Outcome))
    (policy : FlakyPolicy) (c : CaseId) :
    policy.Disagree (seenWith (b.foldRun p₁ policy).baseline p₂ c) ↔
      policy.Disagree (seenWith b (p₁ ++ p₂) c) := by
  rw [seenWith_foldRun hb, seenWith_append]
  cases h₁ : lastOutcome p₁ c with
  | none => rw [foldedKind, h₁, seenWith_unnamed h₁]
  | some l₁ =>
    by_cases disagree : policy.Disagree (seenWith b p₁ c)
    · -- flaky after the first run, and so over both
      rw [foldedKind_eq_flaky_iff.mpr disagree]
      constructor
      · intro _
        exact disagree_mono Finset.subset_union_left disagree
      · intro _
        exact .inl (by simp)
    · -- the first fold keeps only the last outcome, which is all that matters later
      have kept : foldedKind b p₁ policy c = some l₁ := by
        rw [foldedKind, h₁]
        exact if_neg disagree
      have single : (some l₁).toList.toFinset ∪ (outcomesOf p₂ c).toFinset =
          insert l₁ (outcomesOf p₂ c).toFinset := by
        ext o
        simp
      rw [kept, single]
      exact disagree_insert_iff disagree (mem_seenWith_of_lastOutcome h₁)

theorem foldedKind_append {b : Baseline} (hb : b.Valid) (p₁ p₂ : List (CaseId × Outcome))
    (policy : FlakyPolicy) (c : CaseId) :
    foldedKind (b.foldRun p₁ policy).baseline p₂ policy c = foldedKind b (p₁ ++ p₂) policy c := by
  cases h₂ : lastOutcome p₂ c with
  | none =>
    -- a case the second run does not name keeps the kind the first fold gave it
    have later : outcomesOf p₂ c = [] := List.getLast?_eq_none_iff.mp h₂
    rw [foldedKind, h₂, kindOf_foldRun hb]
    apply foldedKind_congr
    · rw [lastOutcome_append, h₂]
      rfl
    · rw [seenWith_append, later, List.toFinset_nil, Finset.union_empty]
    · intro _
      rfl
  | some l₂ =>
    apply foldedKind_congr
    · rw [lastOutcome_append, h₂]
      rfl
    · exact disagree_seenWith_foldRun hb p₁ p₂ policy c
    · intro unnamed
      rw [h₂] at unnamed
      cases unnamed

theorem foldedKind_twice (b : Baseline) (pairs : List (CaseId × Outcome)) (policy : FlakyPolicy)
    (c : CaseId) : foldedKind b (pairs ++ pairs) policy c = foldedKind b pairs policy c := by
  apply foldedKind_congr
  · rw [lastOutcome_append]
    cases lastOutcome pairs c <;> rfl
  · rw [seenWith_append, seenWith, List.toFinset_append, Finset.union_assoc, Finset.union_self]
  · intro _
    rfl

/-! ## Folding in steps -/

theorem Folded.eq_of_parts {r : Folded} {b : Baseline} {newlyFlaky newCases : List CaseId}
    (hb : r.baseline = b) (hf : r.newlyFlaky = newlyFlaky) (hc : r.newCases = newCases) :
    r = ⟨b, newlyFlaky, newCases⟩ := by
  cases r
  cases hb
  cases hf
  cases hc
  rfl

theorem foldRun_eq_of_kindOf {b : Baseline} (hb : b.Valid) (pairs : List (CaseId × Outcome))
    (policy : FlakyPolicy) (known : ∀ c ∈ pairs.map (·.1), c ∈ b.cases)
    (same : ∀ c, (b.foldRun pairs policy).baseline.kindOf c = b.kindOf c) :
    b.foldRun pairs policy = ⟨b, [], []⟩ := by
  refine Folded.eq_of_parts ((valid_foldRun hb pairs policy).ext hb same) ?_ ?_
  · refine List.eq_nil_iff_forall_not_mem.mpr fun c mem => ?_
    rw [mem_newlyFlaky_foldRun hb, same] at mem
    exact mem.2 mem.1
  · refine List.eq_nil_iff_forall_not_mem.mpr fun c mem => ?_
    rw [mem_newCases_foldRun] at mem
    exact mem.2 (known c mem.1)

section Steps

variable {b : Baseline} (hb : b.Valid) (p₁ p₂ : List (CaseId × Outcome)) (policy : FlakyPolicy)
include hb

theorem kindOf_foldRun_foldRun (c : CaseId) :
    ((b.foldRun p₁ policy).baseline.foldRun p₂ policy).baseline.kindOf c =
      (b.foldRun (p₁ ++ p₂) policy).baseline.kindOf c := by
  rw [kindOf_foldRun (valid_foldRun hb p₁ policy), kindOf_foldRun hb, foldedKind_append hb]

theorem foldRun_foldRun :
    ((b.foldRun p₁ policy).baseline.foldRun p₂ policy).baseline =
      (b.foldRun (p₁ ++ p₂) policy).baseline :=
  (valid_foldRun (valid_foldRun hb p₁ policy) p₂ policy).ext (valid_foldRun hb _ policy)
    (kindOf_foldRun_foldRun hb p₁ p₂ policy)

theorem mem_newlyFlaky_steps {c : CaseId} :
    c ∈ (b.foldRun (p₁ ++ p₂) policy).newlyFlaky ↔ c ∈ (b.foldRun p₁ policy).newlyFlaky ∨
      c ∈ ((b.foldRun p₁ policy).baseline.foldRun p₂ policy).newlyFlaky := by
  have first := valid_foldRun hb p₁ policy
  -- a flaky case stays flaky through each fold
  have keep₁ : b.kindOf c = some .flaky → (b.foldRun p₁ policy).baseline.kindOf c = some .flaky := by
    intro wasFlaky
    rw [kindOf_foldRun hb]
    exact foldedKind_of_flaky wasFlaky
  have keep₂ : (b.foldRun p₁ policy).baseline.kindOf c = some .flaky →
      (b.foldRun (p₁ ++ p₂) policy).baseline.kindOf c = some .flaky := by
    intro wasFlaky
    rw [← kindOf_foldRun_foldRun hb, kindOf_foldRun first]
    exact foldedKind_of_flaky wasFlaky
  rw [mem_newlyFlaky_foldRun hb, mem_newlyFlaky_foldRun hb, mem_newlyFlaky_foldRun first,
    kindOf_foldRun_foldRun hb]
  constructor
  · rintro ⟨flaky, wasNot⟩
    by_cases early : (b.foldRun p₁ policy).baseline.kindOf c = some .flaky
    · exact .inl ⟨early, wasNot⟩
    · exact .inr ⟨flaky, early⟩
  · rintro (⟨early, wasNot⟩ | ⟨flaky, early⟩)
    · exact ⟨keep₂ early, wasNot⟩
    · exact ⟨flaky, fun was => early (keep₁ was)⟩

theorem newlyFlaky_disjoint :
    (b.foldRun p₁ policy).newlyFlaky.Disjoint
      ((b.foldRun p₁ policy).baseline.foldRun p₂ policy).newlyFlaky := by
  intro c early late
  rw [mem_newlyFlaky_foldRun hb] at early
  rw [mem_newlyFlaky_foldRun (valid_foldRun hb p₁ policy)] at late
  exact late.2 early.1

theorem mem_newCases_steps {c : CaseId} :
    c ∈ (b.foldRun (p₁ ++ p₂) policy).newCases ↔ c ∈ (b.foldRun p₁ policy).newCases ∨
      c ∈ ((b.foldRun p₁ policy).baseline.foldRun p₂ policy).newCases := by
  rw [mem_newCases_foldRun, mem_newCases_foldRun, mem_newCases_foldRun, mem_cases_foldRun hb,
    List.map_append, List.mem_append]
  constructor
  · rintro ⟨named | named, unknown⟩
    · exact .inl ⟨named, unknown⟩
    · by_cases early : c ∈ p₁.map (·.1)
      · exact .inl ⟨early, unknown⟩
      · exact .inr ⟨named, fun known => known.elim unknown early⟩
  · rintro (⟨named, unknown⟩ | ⟨named, unknown⟩)
    · exact ⟨.inl named, unknown⟩
    · exact ⟨.inr named, fun known => unknown (.inl known)⟩

theorem newCases_disjoint :
    (b.foldRun p₁ policy).newCases.Disjoint
      ((b.foldRun p₁ policy).baseline.foldRun p₂ policy).newCases := by
  intro c early late
  rw [mem_newCases_foldRun] at early late
  exact late.2 ((mem_cases_foldRun hb p₁ policy).mpr (.inr early.1))

theorem foldRun_nil : b.foldRun [] policy = ⟨b, [], []⟩ :=
  foldRun_eq_of_kindOf hb [] policy (fun _ named => absurd named List.not_mem_nil)
    (fun c => by rw [kindOf_foldRun hb, foldedKind_nil])

theorem foldRun_again :
    (b.foldRun p₁ policy).baseline.foldRun p₁ policy = ⟨(b.foldRun p₁ policy).baseline, [], []⟩ := by
  have first := valid_foldRun hb p₁ policy
  refine foldRun_eq_of_kindOf first p₁ policy
    (fun c named => (mem_cases_foldRun hb p₁ policy).mpr (.inr named)) fun c => ?_
  rw [kindOf_foldRun first, foldedKind_append hb, foldedKind_twice, kindOf_foldRun hb]

end Steps

/-- Folding runs one at a time agrees with folding them at once: the empty run changes nothing,
two folds in a row give the baseline of one fold over both runs, and the cases each reports are
split between the two folds, so a run folded twice reports nothing the second time. -/
structure FoldsInSteps (b : Baseline) (p₁ p₂ : List (CaseId × Outcome)) (policy : FlakyPolicy) :
    Prop where
  nothing : b.foldRun [] policy = ⟨b, [], []⟩
  baseline : ((b.foldRun p₁ policy).baseline.foldRun p₂ policy).baseline =
    (b.foldRun (p₁ ++ p₂) policy).baseline
  newlyFlaky : (b.foldRun (p₁ ++ p₂) policy).newlyFlaky =
    Sorted.union (b.foldRun p₁ policy).newlyFlaky
      ((b.foldRun p₁ policy).baseline.foldRun p₂ policy).newlyFlaky
  newlyFlakyDisjoint : (b.foldRun p₁ policy).newlyFlaky.Disjoint
    ((b.foldRun p₁ policy).baseline.foldRun p₂ policy).newlyFlaky
  newCases : (b.foldRun (p₁ ++ p₂) policy).newCases =
    Sorted.union (b.foldRun p₁ policy).newCases
      ((b.foldRun p₁ policy).baseline.foldRun p₂ policy).newCases
  newCasesDisjoint : (b.foldRun p₁ policy).newCases.Disjoint
    ((b.foldRun p₁ policy).baseline.foldRun p₂ policy).newCases
  again : (b.foldRun p₁ policy).baseline.foldRun p₁ policy =
    ⟨(b.foldRun p₁ policy).baseline, [], []⟩

theorem foldRun_acts_in_steps (b : Baseline) (hb : b.Valid) (p₁ p₂ : List (CaseId × Outcome))
    (policy : FlakyPolicy) : FoldsInSteps b p₁ p₂ policy where
  nothing := foldRun_nil hb policy
  baseline := foldRun_foldRun hb p₁ p₂ policy
  newlyFlaky := by
    refine (newlyFlaky_ascending_foldRun hb _ policy).eq_of_mem_iff
      (ascending_union _ (newlyFlaky_ascending_foldRun hb p₁ policy)) fun c => ?_
    rw [mem_union, mem_newlyFlaky_steps hb]
  newlyFlakyDisjoint := newlyFlaky_disjoint hb p₁ p₂ policy
  newCases := by
    refine (newCases_ascending_foldRun b _ policy).eq_of_mem_iff
      (ascending_union _ (newCases_ascending_foldRun b p₁ policy)) fun c => ?_
    rw [mem_union, mem_newCases_steps hb]
  newCasesDisjoint := newCases_disjoint hb p₁ p₂ policy
  again := foldRun_again hb p₁ policy

/-- Two runs folded one after the other into the empty baseline. -/
theorem foldRun_in_steps_from_empty :
    Baseline.empty.Valid ∧
      FoldsInSteps Baseline.empty [(.mk "A", .fail), (.mk "B", .pass)]
        [(.mk "A", .pass), (.mk "C", .crash), (.mk "B", .pass)] .healthyVsUnhealthy :=
  ⟨valid_empty, foldRun_acts_in_steps _ valid_empty _ _ _⟩

end Conformance.Baseline
