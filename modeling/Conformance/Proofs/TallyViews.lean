import Conformance.Run
import Conformance.Proofs.Sorted

/-!
# The views of a run tally

A tally keeps the pairs of a run as they were pushed, and beside them two views that each push
updates: how many pairs have each outcome, and which cases were pushed with each outcome. One
push keeps both views in step with the pairs (`RunTally.Tallies.push`), so every tally built by
pushes reads them off its pairs (`RunTally.tallies_ofPairs`). The number of pairs, the failures
and the conflicts then follow from the pairs alone, whatever repeats and disagreements they hold,
and so does the summary, which reports the same under the names of cases and outcomes
(`RunTally.tally_reports_its_pairs`).
-/

namespace Conformance

open Sorted

theorem Outcome.ascending_names {os : List Outcome} : Ascending (os.map (·.name)) ↔ Ascending os := by
  simp only [Ascending, List.pairwise_map]
  rfl

theorem Outcome.keysAscending_names {β : Type} {m : List (Outcome × β)} :
    KeysAscending (m.map fun e => (e.1.name, e.2)) ↔ KeysAscending m := by
  simp only [KeysAscending, Ascending, List.map_map, List.pairwise_map]
  rfl

theorem CaseId.keysAscending_texts {β : Type} {m : List (CaseId × β)} :
    KeysAscending (m.map fun e => (e.1.text, e.2)) ↔ KeysAscending m := by
  simp only [KeysAscending, Ascending, List.map_map, List.pairwise_map]
  rfl

namespace RunTally

variable {t : RunTally}

/-! ## Counting under some outcomes -/

/-- What the counts of the outcomes that `q` accepts add up to. -/
def countWhere (q : Outcome → Bool) (counts : List (Outcome × Nat)) : Nat :=
  (counts.filter (fun e => q e.1)).foldl (fun n e => n + e.2) 0

theorem foldl_add_count (l : List (Outcome × Nat)) (n : Nat) :
    l.foldl (fun n e => n + e.2) n = n + l.foldl (fun n e => n + e.2) 0 := by
  induction l generalizing n with
  | nil => rfl
  | cons e l ih =>
    rw [List.foldl_cons, List.foldl_cons, ih, ih (0 + e.2)]
    omega

theorem countWhere_cons (q : Outcome → Bool) (e : Outcome × Nat) (rest : List (Outcome × Nat)) :
    countWhere q (e :: rest) = (if q e.1 then e.2 else 0) + countWhere q rest := by
  unfold countWhere
  by_cases accepted : q e.1 <;> simp [accepted, foldl_add_count _ e.2]

theorem countWhere_modify (q : Outcome → Bool) (o : Outcome) (counts : List (Outcome × Nat)) :
    countWhere q (Sorted.modify o 0 (· + 1) counts) = countWhere q counts + if q o then 1 else 0 := by
  induction counts with
  | nil => by_cases accepted : q o <;> simp [Sorted.modify, alter, countWhere, accepted]
  | cons e rest ih =>
    obtain ⟨o', n⟩ := e
    -- the counter of `o` is made in front, found here, or lies further on
    cases hc : compare o o' with
    | lt =>
      simp only [Sorted.modify, alter, hc, Option.getD_none, countWhere_cons]
      split <;> omega
    | eq =>
      obtain rfl := compare_eq_iff.mp hc
      simp only [Sorted.modify, alter, hc, Option.getD_some, countWhere_cons]
      split <;> omega
    | gt =>
      have rest' : Sorted.modify o 0 (· + 1) ((o', n) :: rest) =
          (o', n) :: Sorted.modify o 0 (· + 1) rest := by
        simp [Sorted.modify, alter, hc]
      rw [rest', countWhere_cons, countWhere_cons, ih]
      omega

/-! ## The invariant of pushing -/

/-- The views of a tally agree with its pairs: the counts are a map giving each outcome how
many pairs have it, with no zero entries, and the case sets are a map giving each outcome the
ascending set of the cases pushed with it, with no empty entries. -/
structure Tallies (t : RunTally) : Prop where
  countsAscending : KeysAscending t.counts
  count : ∀ o, (find? o t.counts).getD 0 = t.pairs.countP (·.2 = o)
  positive : ∀ e ∈ t.counts, 0 < e.2
  weighs : ∀ q, countWhere q t.counts = t.pairs.countP (q ·.2)
  byOutcomeAscending : KeysAscending t.byOutcome
  casesAscending : ∀ e ∈ t.byOutcome, Ascending e.2
  nonempty : ∀ e ∈ t.byOutcome, e.2 ≠ []
  under : ∀ o c, Under t.byOutcome o c ↔ (c, o) ∈ t.pairs

theorem tallies_empty : empty.Tallies where
  countsAscending := List.Pairwise.nil
  count _ := rfl
  positive _ h := by cases h
  weighs _ := rfl
  byOutcomeAscending := List.Pairwise.nil
  casesAscending _ h := by cases h
  nonempty _ h := by cases h
  under _ _ := by simp [Under, find?, empty]

/-- One push keeps the views in step with the pairs. -/
theorem Tallies.push (h : t.Tallies) (c : CaseId) (o : Outcome) : (t.push c o).Tallies where
  countsAscending := keysAscending_alter h.countsAscending
  count o' := by
    simp only [RunTally.push, List.countP_append, ← h.count o']
    by_cases same : o' = o
    · subst same
      simp [Sorted.modify, find?_alter_self h.countsAscending]
    · simp [Sorted.modify, find?_alter_of_ne h.countsAscending same, Ne.symm same]
  positive := by
    rintro ⟨o', n⟩ mem
    rcases (mem_alter h.countsAscending).mp mem with ⟨-, counted⟩ | ⟨-, old⟩
    · obtain rfl := Option.some_inj.mp counted
      exact Nat.succ_pos _
    · exact h.positive _ old
  weighs q := by
    simp only [RunTally.push, countWhere_modify, h.weighs q, List.countP_append,
      List.countP_singleton]
  byOutcomeAscending := keysAscending_alter h.byOutcomeAscending
  casesAscending := setsAscending_modify_insert h.byOutcomeAscending h.casesAscending o c
  nonempty := by
    rintro ⟨o', cs⟩ mem
    rcases (mem_alter h.byOutcomeAscending).mp mem with ⟨-, filed⟩ | ⟨-, old⟩
    · obtain rfl := Option.some_inj.mp filed
      exact List.ne_nil_of_mem (mem_insert.mpr (.inl rfl))
    · exact h.nonempty _ old
  under o' c' := by
    simp only [RunTally.push, under_modify_insert h.byOutcomeAscending, h.under, List.mem_append,
      List.mem_singleton, Prod.mk.injEq]
    constructor
    · rintro (⟨rfl, rfl⟩ | mem)
      · exact .inr ⟨rfl, rfl⟩
      · exact .inl mem
    · rintro (mem | ⟨rfl, rfl⟩)
      · exact .inr mem
      · exact .inl ⟨rfl, rfl⟩

theorem Tallies.pushAll (h : t.Tallies) (ps : List (CaseId × Outcome)) :
    (ps.foldl (fun t p => t.push p.1 p.2) t).Tallies := by
  induction ps generalizing t with
  | nil => exact h
  | cons p ps ih => exact ih (h.push p.1 p.2)

theorem tallies_ofPairs (ps : List (CaseId × Outcome)) : (ofPairs ps).Tallies :=
  tallies_empty.pushAll ps

theorem pairs_ofPairs (ps : List (CaseId × Outcome)) : (ofPairs ps).pairs = ps := by
  have pushed : ∀ (t : RunTally) (ps : List (CaseId × Outcome)),
      (ps.foldl (fun t p => t.push p.1 p.2) t).pairs = t.pairs ++ ps := by
    intro t ps
    induction ps generalizing t with
    | nil => simp
    | cons p ps ih => rw [List.foldl_cons, ih]; simp [RunTally.push]
  simpa [RunTally.ofPairs, RunTally.empty] using pushed RunTally.empty ps

/-! ## What the views say -/

theorem Tallies.mem_counts (h : t.Tallies) {o : Outcome} {n : Nat} :
    (o, n) ∈ t.counts ↔ 0 < n ∧ n = t.pairs.countP (·.2 = o) := by
  rw [← h.count o]
  constructor
  · intro mem
    rw [(find?_eq_some_iff h.countsAscending).mpr mem]
    exact ⟨h.positive _ mem, rfl⟩
  · rintro ⟨pos, rfl⟩
    cases found : find? o t.counts with
    | none => simp [found] at pos
    | some n => simpa using (find?_eq_some_iff h.countsAscending).mp found

theorem Tallies.mem_byOutcome (h : t.Tallies) {o : Outcome} {cs : List CaseId} :
    (o, cs) ∈ t.byOutcome ↔ cs ≠ [] ∧ Ascending cs ∧ ∀ c, c ∈ cs ↔ (c, o) ∈ t.pairs := by
  by_cases empty : cs = []
  · subst empty
    simpa using fun mem => h.nonempty _ mem rfl
  · simp only [mem_iff_ascending h.byOutcomeAscending h.casesAscending empty, h.under, ne_eq, empty,
      not_false_eq_true, true_and]

theorem Tallies.total_eq_sum (h : t.Tallies) : t.total = t.counts.foldl (fun n e => n + e.2) 0 := by
  have all := h.weighs fun _ => true
  simp only [countWhere, List.filter_eq_self.mpr (fun _ _ => rfl), List.countP_true] at all
  exact all.symm

theorem Tallies.failureCount_eq (h : t.Tallies) :
    t.failureCount = t.pairs.countP fun p => p.2 ≠ .pass ∧ p.2 ≠ .notSupported := by
  have unhealthy := h.weighs fun o => !o.isHealthy
  change countWhere (fun o => !o.isHealthy) t.counts = _
  rw [unhealthy]
  exact List.countP_congr fun p _ => by simp [Outcome.isHealthy]

/-! ## Conflicts -/

theorem keysAscending_outcomesByCase (t : RunTally) : KeysAscending t.outcomesByCase :=
  keysAscending_foldl_file (fun p : CaseId × Outcome => p.1) (·.2) t.pairs List.Pairwise.nil

theorem outcomesAscending (t : RunTally) : ∀ e ∈ t.outcomesByCase, Ascending e.2 :=
  setsAscending_foldl_file (fun p : CaseId × Outcome => p.1) (·.2) t.pairs List.Pairwise.nil
    (fun _ h => by cases h)

theorem under_outcomesByCase (t : RunTally) {c : CaseId} {o : Outcome} :
    Under t.outcomesByCase c o ↔ (c, o) ∈ t.pairs := by
  rw [outcomesByCase, under_foldl_file (fun p : CaseId × Outcome => p.1) (·.2) t.pairs
    (m := []) List.Pairwise.nil]
  simp only [Under, find?, Option.getD_none, List.not_mem_nil, false_or]
  constructor
  · rintro ⟨⟨c', o'⟩, mem, rfl, rfl⟩
    exact mem
  · exact fun mem => ⟨(c, o), mem, rfl, rfl⟩

theorem keysAscending_conflicts (t : RunTally) : KeysAscending t.conflicts :=
  keysAscending_filter _ (keysAscending_outcomesByCase t)

theorem mem_conflicts (t : RunTally) {c : CaseId} {os : List Outcome} :
    (c, os) ∈ t.conflicts ↔ 1 < os.length ∧ Ascending os ∧ ∀ o, o ∈ os ↔ (c, o) ∈ t.pairs := by
  simp only [conflicts, List.mem_filter, decide_eq_true_eq]
  by_cases empty : os = []
  · subst empty
    simp
  · rw [mem_iff_ascending (keysAscending_outcomesByCase t) (outcomesAscending t) empty]
    simp only [under_outcomesByCase]
    exact ⟨fun ⟨⟨a, b⟩, c⟩ => ⟨c, a, b⟩, fun ⟨c, a, b⟩ => ⟨⟨a, b⟩, c⟩⟩

/-! ## The summary -/

theorem Tallies.mem_summary_counts (h : t.Tallies) (b : Bool) {x : String} {n : Nat} :
    (x, n) ∈ (t.summary b).counts ↔ 0 < n ∧ n = t.pairs.countP (·.2.name = x) := by
  have named : ∀ o : Outcome, t.pairs.countP (·.2 = o) = t.pairs.countP (·.2.name = o.name) := by
    intro o
    simp only [Outcome.ext_iff]
  simp only [summary, List.mem_map, Prod.mk.injEq]
  constructor
  · rintro ⟨⟨o, n⟩, mem, rfl, rfl⟩
    rw [← named]
    exact h.mem_counts.mp mem
  · rintro ⟨pos, counted⟩
    -- a count above zero is the count of the outcome of some pair
    obtain ⟨p, -, hp⟩ := List.countP_pos_iff.mp (counted ▸ pos)
    have hp' : p.2.name = x := by simpa using hp
    refine ⟨(p.2, n), h.mem_counts.mpr ⟨pos, ?_⟩, hp', rfl⟩
    rw [named, hp']
    exact counted

theorem keysAscending_summary_counts (h : t.Tallies) (b : Bool) :
    KeysAscending (t.summary b).counts :=
  Outcome.keysAscending_names.mpr h.countsAscending

theorem mem_summary_conflicts (t : RunTally) (b : Bool) {x : String} {names : List String} :
    (x, names) ∈ (t.summary b).conflicts ↔
      1 < names.length ∧ Ascending names ∧
        ∀ n, n ∈ names ↔ ∃ p ∈ t.pairs, p.1.text = x ∧ p.2.name = n := by
  simp only [summary, List.mem_map, Prod.mk.injEq]
  constructor
  · rintro ⟨⟨c, os⟩, mem, rfl, rfl⟩
    obtain ⟨two, ascending, same⟩ := (mem_conflicts t).mp mem
    refine ⟨by simpa using two, Outcome.ascending_names.mpr ascending, fun n => ?_⟩
    rw [List.mem_map]
    constructor
    · rintro ⟨o, ho, rfl⟩
      exact ⟨(c, o), (same o).mp ho, rfl, rfl⟩
    · rintro ⟨⟨c', o⟩, pair, htext, rfl⟩
      obtain rfl : c' = c := CaseId.ext htext
      exact ⟨o, (same o).mpr pair, rfl⟩
  · rintro ⟨two, ascending, same⟩
    obtain ⟨n₀, mem₀⟩ : ∃ n, n ∈ names := List.exists_mem_of_length_pos (by omega)
    obtain ⟨⟨c, o₀⟩, -, rfl, -⟩ := (same n₀).mp mem₀
    -- every name listed is the name of an outcome of a pair, so it reads back as that outcome
    have parsed : ∀ n ∈ names, (Outcome.parse n).name = n := by
      intro n mem
      obtain ⟨p, -, -, rfl⟩ := (same n).mp mem
      rw [Outcome.parse_name_self]
    have named : (names.map Outcome.parse).map (·.name) = names := by
      rw [List.map_map]
      exact (List.map_congr_left parsed).trans (List.map_id names)
    refine ⟨(c, names.map Outcome.parse), (mem_conflicts t).mpr ⟨by simpa using two,
      Outcome.ascending_names.mp (by rw [named]; exact ascending), fun o => ?_⟩, rfl, named⟩
    rw [List.mem_map]
    constructor
    · rintro ⟨n, hn, rfl⟩
      obtain ⟨⟨c', o⟩, mem, htext, rfl⟩ := (same n).mp hn
      obtain rfl : c' = c := CaseId.ext htext
      rwa [Outcome.parse_name_self]
    · exact fun mem => ⟨o.name, (same _).mpr ⟨(c, o), mem, rfl, rfl⟩, Outcome.parse_name_self o⟩

theorem keysAscending_summary_conflicts (t : RunTally) (b : Bool) :
    KeysAscending (t.summary b).conflicts := by
  have named : (t.summary b).conflicts =
      (t.conflicts.map fun e => (e.1, e.2.map (·.name))).map fun e => (e.1.text, e.2) := by
    simp [summary, List.map_map, Function.comp_def]
  rw [named, CaseId.keysAscending_texts]
  exact keysAscending_map _ (fun _ => rfl) (keysAscending_conflicts t)

/-! ## A tally of a run -/

/-- What the tally of the pairs `ps` reports, each view read off the pairs. The counts map each
outcome of a pair to how many pairs have it and no other outcome; the case sets map each such
outcome to the ascending set of the cases pushed with it; the total is the number of pairs and
the sum of the counts; the failures are the pairs whose outcome is neither a pass nor an
unsupported case; the conflicts map each case pushed with two or more different outcomes to the
ascending set of them. The summary reports the same keyed by names, and lists the pairs in
order when asked to. -/
structure Reports (t : RunTally) (ps : List (CaseId × Outcome)) : Prop where
  pairs : t.pairs = ps
  countsAscending : KeysAscending t.counts
  counts : ∀ o n, (o, n) ∈ t.counts ↔ 0 < n ∧ n = ps.countP (·.2 = o)
  byOutcomeAscending : KeysAscending t.byOutcome
  byOutcome : ∀ o cs, (o, cs) ∈ t.byOutcome ↔ cs ≠ [] ∧ Ascending cs ∧ ∀ c, c ∈ cs ↔ (c, o) ∈ ps
  total : t.total = ps.length
  totalSum : t.total = t.counts.foldl (fun n e => n + e.2) 0
  failures : t.failureCount = ps.countP fun p => p.2 ≠ .pass ∧ p.2 ≠ .notSupported
  conflictsAscending : KeysAscending t.conflicts
  conflicts : ∀ c os, (c, os) ∈ t.conflicts ↔
    1 < os.length ∧ Ascending os ∧ ∀ o, o ∈ os ↔ (c, o) ∈ ps
  summaryTotal : ∀ b, (t.summary b).total = ps.length
  summaryFailures : ∀ b, (t.summary b).failures =
    ps.countP fun p => p.2 ≠ .pass ∧ p.2 ≠ .notSupported
  summaryCountsAscending : ∀ b, KeysAscending (t.summary b).counts
  summaryCounts : ∀ b x n, (x, n) ∈ (t.summary b).counts ↔ 0 < n ∧ n = ps.countP (·.2.name = x)
  summaryConflictsAscending : ∀ b, KeysAscending (t.summary b).conflicts
  summaryConflicts : ∀ b x names, (x, names) ∈ (t.summary b).conflicts ↔
    1 < names.length ∧ Ascending names ∧ ∀ n, n ∈ names ↔ ∃ p ∈ ps, p.1.text = x ∧ p.2.name = n
  results : (t.summary true).results = ps.map (fun p => (p.1.text, p.2.name)) ∧
    (t.summary false).results = []

theorem Tallies.reports (h : t.Tallies) : t.Reports t.pairs where
  pairs := rfl
  countsAscending := h.countsAscending
  counts _ _ := h.mem_counts
  byOutcomeAscending := h.byOutcomeAscending
  byOutcome _ _ := h.mem_byOutcome
  total := rfl
  totalSum := h.total_eq_sum
  failures := h.failureCount_eq
  conflictsAscending := keysAscending_conflicts t
  conflicts _ _ := mem_conflicts t
  summaryTotal _ := rfl
  summaryFailures _ := h.failureCount_eq
  summaryCountsAscending := keysAscending_summary_counts h
  summaryCounts b _ _ := h.mem_summary_counts b
  summaryConflictsAscending := keysAscending_summary_conflicts t
  summaryConflicts b _ _ := mem_summary_conflicts t b
  results := ⟨rfl, rfl⟩

theorem tally_reports_its_pairs (ps : List (CaseId × Outcome)) : (ofPairs ps).Reports ps := by
  have reports := (tallies_ofPairs ps).reports
  rwa [pairs_ofPairs] at reports

/-- Two outcomes for one case in one run stay a conflict, and every pair is counted. -/
example : (ofPairs [(.mk "a", .pass), (.mk "a", .fail), (.mk "b", .pass)]).conflicts =
      [(.mk "a", [.fail, .pass])] ∧
    (ofPairs [(.mk "a", .pass), (.mk "a", .fail), (.mk "b", .pass)]).failureCount = 1 := by
  decide

end RunTally

end Conformance
