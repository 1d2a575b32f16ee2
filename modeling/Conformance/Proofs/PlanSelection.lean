import Conformance.Plan
import Conformance.Proofs.MergeHistory

/-!
# What a plan selects

Planning under a kind reads the kind's list where there is one; otherwise it fails for every
kind but `Pass`, and bootstraps a `Pass` plan from a suite caselist: the caselist's cases under
the key's filter that the baseline records under no other kind (`Store.mem_bootstrap`). Over
store states reached from an empty disk by saves, resets and merges that all succeed, under a
root that does not lead up and where the file system takes the key's paths whole, a plan of a kind with a list and cases is those
cases, sorted, any other kind but `Pass` fails for want of a list, and `Pass` fails for want of
a caselist or of cases, or is the bootstrapped cases, sorted
(`Store.plan_selects_recorded_or_bootstrapped`); so a `Pass` plan holds no case the baseline
records under another kind (`Store.Selects.passing`). A valid filter holding a NUL names no
file, and planning for it fails to read where a missing list would have asked for a caselist
(`Store.nul_filter_plan_fails`).
-/

namespace Conformance

open Disk Sorted

namespace Baseline

theorem Valid.has_iff {b : Baseline} (hb : b.Valid) {kind : Outcome} :
    (∃ c, b.Under kind c) ↔ ∃ cases, b.get? kind = some cases := by
  constructor
  · rintro ⟨c, under⟩
    obtain ⟨cases, mem, -⟩ := hb.under_iff.mp under
    exact ⟨cases, (find?_eq_some_iff hb.kindsAscending).mpr mem⟩
  · rintro ⟨cases, found⟩
    have mem := (find?_eq_some_iff hb.kindsAscending).mp found
    obtain ⟨c, hc⟩ := List.exists_mem_of_ne_nil _ (hb.nonempty _ mem)
    exact ⟨c, hb.under_iff.mpr ⟨cases, mem, hc⟩⟩

end Baseline

namespace Store

variable {s : Store} {k : Key} {d : Disk}

/-! ## Planning by cases -/

theorem plan_of_recorded {subset : Outcome} {cl : Option String} {cases : List CaseId}
    (h : s.loadSubset k subset d = .ok (some cases)) :
    (s.plan k subset cl d).1 = if (ofList cases).isEmpty then .error (.empty k.display subset)
      else .ok (ofList cases) := by
  simp [plan, h]

theorem plan_of_unrecorded {subset : Outcome} {cl : Option String}
    (h : s.loadSubset k subset d = .ok none) (ne : subset ≠ .pass) :
    (s.plan k subset cl d).1 = .error (.missingSubset k.display subset) := by
  simp [plan, h, ne]

theorem plan_without_caselist (h : s.loadSubset k .pass d = .ok none) :
    (s.plan k .pass none d).1 = .error (.noCaselist k.display) := by
  simp [plan, h]

theorem plan_of_caselist (h : s.loadSubset k .pass d = .ok none) {b : Baseline}
    (loaded : s.load k d = .ok b) (text : String) :
    (s.plan k .pass (some text) d).1 = if (bootstrap k b text).isEmpty
      then .error (.empty k.display .pass) else .ok (bootstrap k b text) := by
  cases noted : s.loadNoted k d with
  | mk r notes =>
    have read : r = .ok b := by simpa [load, noted] using loaded
    subst read
    simp [plan, h, noted]

/-! ## Bootstrapping -/

theorem mem_notPassing {b : Baseline} (hb : b.Valid) {c : CaseId} :
    c ∈ notPassing b ↔ ∃ kind, kind ≠ .pass ∧ b.Under kind c := by
  rw [notPassing, mem_ofList, List.mem_flatMap]
  constructor
  · rintro ⟨⟨kind, cases⟩, mem, hc⟩
    obtain ⟨mem, other⟩ := List.mem_filter.mp mem
    exact ⟨kind, by simpa using other, hb.under_iff.mpr ⟨cases, mem, hc⟩⟩
  · rintro ⟨kind, other, under⟩
    obtain ⟨cases, mem, hc⟩ := hb.under_iff.mp under
    exact ⟨(kind, cases), List.mem_filter.mpr ⟨mem, by simpa using other⟩, hc⟩

/-- A case a `Pass` plan may be bootstrapped with: a `TEST:` entry of the caselist, under the
key's filter, that the baseline records under no kind but `Pass`. -/
def Bootstrappable (k : Key) (b : Baseline) (text : String) (c : CaseId) : Prop :=
  c ∈ Caselist.entries text ∧ c.matchesPrefix k.filter = true ∧ ∀ kind, b.Under kind c → kind = .pass

theorem mem_bootstrap {b : Baseline} (hb : b.Valid) {text : String} {c : CaseId} :
    c ∈ bootstrap k b text ↔ Bootstrappable k b text c := by
  rw [bootstrap, mem_ofList, List.mem_filter, Bootstrappable, Bool.and_eq_true, Bool.not_eq_true']
  simp only [List.contains_eq_mem, decide_eq_false_iff_not, mem_notPassing hb, not_exists, not_and,
    not_imp_not]

/-! ## Plans over a baseline the store holds -/

/-- What planning answers for a key whose baseline is `b`, under the kind `subset` and with the
caselist `cl`. -/
structure Selects (k : Key) (b : Baseline) (subset : Outcome) (cl : Option String)
    (r : Except PlanError (List CaseId)) : Prop where
  /-- A kind that names a list and has cases plans exactly its cases, sorted. -/
  recorded : subset.isFileSuffix = true → (∃ c, b.Under subset c) →
    ∃ cases, r = .ok cases ∧ Ascending cases ∧ ∀ c, c ∈ cases ↔ b.Under subset c
  /-- Any other kind but `Pass` has no list to plan from. -/
  missing : ¬ (subset.isFileSuffix = true ∧ ∃ c, b.Under subset c) → subset ≠ .pass →
    r = .error (.missingSubset k.display subset)
  /-- `Pass` without cases and without a caselist has nothing to be bootstrapped from. -/
  noCaselist : subset = .pass → (¬ ∃ c, b.Under .pass c) → cl = none →
    r = .error (.noCaselist k.display)
  /-- `Pass` without cases is bootstrapped from the caselist, sorted, or fails where no case
  may be. -/
  bootstrapped : subset = .pass → (¬ ∃ c, b.Under .pass c) → ∀ text, cl = some text →
    ((∀ c, ¬ Bootstrappable k b text c) ∧ r = .error (.empty k.display .pass)) ∨
      ∃ cases, cases ≠ [] ∧ r = .ok cases ∧ Ascending cases ∧
        ∀ c, c ∈ cases ↔ Bootstrappable k b text c

/-- A `Pass` plan holds no case the baseline records under another kind: it is the baseline's
`Pass` cases or bootstrapped without the others. -/
theorem Selects.passing {b : Baseline} (hb : b.Valid) {cl : Option String}
    {r : Except PlanError (List CaseId)} (sel : Selects k b .pass cl r) {cases : List CaseId}
    (planned : r = .ok cases) : ∀ c ∈ cases, ∀ kind, b.Under kind c → kind = .pass := by
  intro c hc kind under
  by_cases has : ∃ c, b.Under .pass c
  · obtain ⟨cases', same, -, members⟩ := sel.recorded rfl has
    rw [planned, Except.ok.injEq] at same
    exact hb.oneKind c kind .pass under ((members c).mp (same ▸ hc))
  · cases cl with
    | none => simp [sel.noCaselist rfl has rfl] at planned
    | some text =>
      rcases sel.bootstrapped rfl has text rfl with ⟨-, failed⟩ | ⟨cases', -, same, -, members⟩
      · simp [failed] at planned
      · rw [planned, Except.ok.injEq] at same
        exact ((members c).mp (same ▸ hc)).2.2 kind under

theorem Holds.loadSubset_getD {a : Key → Option Baseline} (h : s.Holds a d) (hs : s.PlainRoot)
    (k : Key) (unbroken : ∀ e ∈ ((a k).getD .empty).kinds, ∀ id ∈ e.2, '\n' ∉ id.text.toList)
    {subset : Outcome} (fitsList : subset.isFileSuffix = true → Fits (s.subsetPath k subset)) :
    s.loadSubset k subset d =
      .ok (if subset.isFileSuffix then ((a k).getD .empty).get? subset else none) := by
  have storable : ∀ b, a k = some b → b.Storable := fun b stored => by
    have hb := h.valid_getD k
    simp only [stored, Option.getD_some] at hb unbroken
    exact ⟨hb, unbroken⟩
  rw [h.loadSubset hs k storable fitsList]
  cases a k <;> rfl

theorem Holds.selects {a : Key → Option Baseline} (h : s.Holds a d) (hs : s.PlainRoot)
    (k : Key) (unbroken : ∀ e ∈ ((a k).getD .empty).kinds, ∀ id ∈ e.2, '\n' ∉ id.text.toList)
    (subset : Outcome) (cl : Option String)
    (fitsList : subset.isFileSuffix = true → Fits (s.subsetPath k subset))
    (fitsJson : subset = .pass → Fits (s.jsonPath k)) :
    Selects k ((a k).getD .empty) subset cl (s.plan k subset cl d).1 := by
  have hb := h.valid_getD k
  have listed := h.loadSubset_getD hs k unbroken fitsList
  -- a kind without cases, or naming no list, has no list to read
  have unlisted : ¬ (subset.isFileSuffix = true ∧ ∃ c, ((a k).getD .empty).Under subset c) →
      s.loadSubset k subset d = .ok none := by
    intro none
    rw [listed]
    cases suffix : subset.isFileSuffix with
    | false => rfl
    | true =>
      cases found : ((a k).getD .empty).get? subset with
      | none => rfl
      | some cases => exact absurd ⟨suffix, hb.has_iff.mpr ⟨cases, found⟩⟩ none
  refine ⟨fun suffix has => ?_, fun none ne => plan_of_unrecorded (unlisted none) ne,
    fun pass none absent => ?_, fun pass none text given => ?_⟩
  · obtain ⟨cases, found⟩ := hb.has_iff.mp has
    rw [plan_of_recorded (by rw [listed, if_pos suffix, found])]
    have members : ∀ c, c ∈ ofList cases ↔ ((a k).getD .empty).Under subset c := fun c => by
      rw [mem_ofList, Baseline.Under, Sorted.Under, ← Baseline.get?, found, Option.getD_some]
    have nonempty : (ofList cases).isEmpty = false := by
      obtain ⟨c, under⟩ := has
      exact List.isEmpty_eq_false_iff_exists_mem.mpr ⟨c, (members c).mpr under⟩
    exact ⟨ofList cases, by rw [nonempty, if_neg Bool.false_ne_true], ascending_ofList cases, members⟩
  · subst pass absent
    exact plan_without_caselist (unlisted fun both => none both.2)
  · subst pass given
    rw [plan_of_caselist (unlisted fun both => none both.2) (h.load hs k (fitsJson rfl)) text]
    have members : ∀ c, c ∈ bootstrap k ((a k).getD .empty) text ↔
        Bootstrappable k ((a k).getD .empty) text c := fun c => mem_bootstrap hb
    cases empty : (bootstrap k ((a k).getD .empty) text).isEmpty with
    | true =>
      refine .inl ⟨fun c may => ?_, rfl⟩
      rw [List.isEmpty_iff] at empty
      simpa [empty] using (members c).mpr may
    | false =>
      exact .inr ⟨_, by simpa using empty, rfl, ascending_ofList _, members⟩

theorem plan_resolved (hs : s.NamedRoot) (k : Key) (subset : Outcome) (cl : Option String)
    (d : Disk) : s.resolved.plan k subset cl d = s.plan k subset cl d := by
  simp only [plan, loadSubset_resolved hs k, loadNoted_resolved hs k]

/-- Over store states reached from a disk with nothing on it by changes that all succeed, under
a root that does not lead up, a plan for a key selects from the key's baseline: a kind that names a list and has cases
plans its cases, sorted; any other kind but `Pass` fails for want of a list; `Pass` fails for
want of a caselist, or is bootstrapped from it without the cases the baseline records under
another kind, or fails for want of any. So a `Pass` plan holds none of those. This holds for
a baseline whose ids hold no line feed, and where the file system takes whole the paths the
plan reads. -/
theorem plan_selects_recorded_or_bootstrapped (hs : s.NamedRoot) {cs : List Change}
    (fair : ∀ c ∈ cs, c.Fair) (ok : s.changes Disk.empty cs = some d) (k : Key)
    (unbroken : ∀ e ∈ (Change.history k cs).kinds, ∀ id ∈ e.2, '\n' ∉ id.text.toList)
    (subset : Outcome) (cl : Option String)
    (fitsList : subset.isFileSuffix = true → Fits (s.subsetPath k subset))
    (fitsJson : subset = .pass → Fits (s.jsonPath k)) :
    Selects k (Change.history k cs) subset cl (s.plan k subset cl d).1 ∧
      (subset = .pass → ∀ cases, (s.plan k subset cl d).1 = .ok cases →
        ∀ c ∈ cases, ∀ kind, (Change.history k cs).Under kind c → kind = .pass) := by
  rw [← changes_resolved hs tree_empty cs] at ok
  rw [← plan_resolved hs k]
  have h := (holds_empty s.resolved).changes hs.resolved fair ok
  have history : ((cs.foldl Change.apply fun _ => none) k).getD .empty = Change.history k cs :=
    Change.getD_foldl_apply k cs _
  have sel := h.selects hs.resolved k (history ▸ unbroken) subset cl
    (fun listed => subsetPath_undotted hs k listed ▸ (fitsList listed).undotted)
    (fun pass => jsonPath_undotted hs k ▸ (fitsJson pass).undotted)
  rw [history] at sel
  refine ⟨sel, fun pass cases planned => ?_⟩
  subst pass
  exact sel.passing (history ▸ h.valid_getD k) planned

/-- Planning `Pass` for a key whose baseline records one crash bootstraps from the caselist
without the crash, without a case outside the filter, and without repeats. -/
theorem bootstrap_skips_a_known_crash :
    let s : Store := ⟨⟨"s", ["s"]⟩⟩
    let k : Key := .mk "g" "f"
    let b : Baseline := ⟨[(Outcome.crash, [.mk "f.a"])]⟩
    let text := "TEST: f.b\nTEST: f.a\n  TEST: fx.c\nGROUP: f\nTEST: f.b\n"
    let d := (s.save k b Disk.empty).disk
    s.changes Disk.empty [.save k b] = some d ∧
      Selects k (Change.history k [.save k b]) .pass (some text) (s.plan k .pass (some text) d).1 ∧
      (s.plan k .pass (some text) d).1 = .ok [.mk "f.b"] := by
  intro s k b text d
  have hs : s.NamedRoot := ⟨by decide, [], ["s"], by decide, .inl rfl, by decide⟩
  have valid : b.Valid := ((Baseline.fromKinds_spec b.kinds).2 b (by decide +kernel)).1
  have fair : ∀ c ∈ [Change.save k b], c.Fair := by
    simp only [List.mem_singleton, forall_eq]
    exact valid
  have ok : s.changes Disk.empty [.save k b] = some d := by decide +kernel
  exact ⟨ok, (plan_selects_recorded_or_bootstrapped hs fair ok k (by decide +kernel) .pass
    (some text) (fun _ => ⟨⟨by decide +kernel, by decide +kernel⟩, by decide +kernel⟩)
    (fun _ => ⟨⟨by decide +kernel, by decide +kernel⟩, by decide +kernel⟩)).1, by decide +kernel⟩

/-- A key with a NUL in its filter is valid, yet its lists are no path the file system takes:
on a disk with nothing on it, planning `Pass` without a caselist fails to read the list
instead of asking for a caselist. -/
theorem nul_filter_plan_fails :
    let s : Store := ⟨⟨"store", ["store"]⟩⟩
    let k : Key := .mk "g" "a\x00b"
    s.changes Disk.empty [] = some Disk.empty ∧
      (s.plan k .pass none Disk.empty).1 ≠ .error (.noCaselist k.display) ∧
      (s.plan k .pass none Disk.empty).1 = .error (.load (.subsetRead "store/g/a\x00b.Pass")) := by
  decide +kernel

end Store

end Conformance
