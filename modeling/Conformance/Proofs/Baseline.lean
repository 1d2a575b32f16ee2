import Conformance.Baseline.Basic
import Conformance.Proofs.Sorted

/-!
What a baseline records is the kind of each case. A valid baseline keeps its kinds and the
cases of each kind ascending, has no empty kind and puts a case under one kind only, as the
program's ordered maps and sets do. Such a baseline is determined by the kind of each case
(`Valid.ext`).
-/
namespace Conformance.Baseline
open Sorted

/-- A case is recorded under a kind. -/
def Under (b : Baseline) (kind : Outcome) (c : CaseId) : Prop := Sorted.Under b.kinds kind c

/-- A baseline as the program keeps it: each case under exactly one kind, no empty kind,
kinds and cases in ascending order. -/
structure Valid (b : Baseline) : Prop where
  kindsAscending : KeysAscending b.kinds
  casesAscending : ∀ e ∈ b.kinds, Ascending e.2
  nonempty : ∀ e ∈ b.kinds, e.2 ≠ []
  oneKind : ∀ c k₁ k₂, b.Under k₁ c → b.Under k₂ c → k₁ = k₂

theorem Valid.under_iff {b : Baseline} (hb : b.Valid) {kind : Outcome} {c : CaseId} :
    b.Under kind c ↔ ∃ cs, (kind, cs) ∈ b.kinds ∧ c ∈ cs :=
  Sorted.under_iff hb.kindsAscending

theorem Valid.kindOf_eq_some_iff {b : Baseline} (hb : b.Valid) {c : CaseId} {kind : Outcome} :
    b.kindOf c = some kind ↔ b.Under kind c := by
  unfold kindOf
  constructor
  · intro found
    obtain ⟨e, he, rfl⟩ := Option.map_eq_some_iff.mp found
    have holds : c ∈ e.2 := by simpa using List.find?_some he
    exact hb.under_iff.mpr ⟨e.2, List.mem_of_find?_eq_some he, holds⟩
  · intro under
    obtain ⟨cs, mem, hc⟩ := hb.under_iff.mp under
    cases hfind : b.kinds.find? (fun e => e.2.contains c) with
    | none =>
      have := List.find?_eq_none.mp hfind (kind, cs) mem
      simp [hc] at this
    | some e =>
      -- the first kind holding the case is its only kind
      have holds : c ∈ e.2 := by simpa using List.find?_some hfind
      have under' : b.Under e.1 c := hb.under_iff.mpr ⟨e.2, List.mem_of_find?_eq_some hfind, holds⟩
      simp [hb.oneKind c e.1 kind under' under]

theorem Valid.mem_cases_iff {b : Baseline} (hb : b.Valid) {c : CaseId} :
    c ∈ b.cases ↔ ∃ kind, b.Under kind c := by
  simp only [cases, List.mem_flatMap, hb.under_iff]
  constructor
  · rintro ⟨⟨kind, cs⟩, mem, hc⟩
    exact ⟨kind, cs, mem, hc⟩
  · rintro ⟨kind, cs, mem, hc⟩
    exact ⟨(kind, cs), mem, hc⟩

theorem Valid.kindOf_eq_none_iff {b : Baseline} (hb : b.Valid) {c : CaseId} :
    b.kindOf c = none ↔ c ∉ b.cases := by
  rw [hb.mem_cases_iff]
  constructor
  · rintro absent ⟨kind, under⟩
    rw [hb.kindOf_eq_some_iff.mpr under] at absent
    cases absent
  · intro absent
    cases hk : b.kindOf c with
    | none => rfl
    | some kind => exact absurd ⟨kind, hb.kindOf_eq_some_iff.mp hk⟩ absent

/-- Two valid baselines that give every case the same kind are equal. -/
theorem Valid.ext {b₁ b₂ : Baseline} (h₁ : b₁.Valid) (h₂ : b₂.Valid)
    (same : ∀ c, b₁.kindOf c = b₂.kindOf c) : b₁ = b₂ := by
  have under : ∀ kind c, b₁.Under kind c ↔ b₂.Under kind c := by
    intro kind c
    rw [← h₁.kindOf_eq_some_iff, ← h₂.kindOf_eq_some_iff, same]
  -- an entry of one baseline is an entry of the other, as its cases are nonempty
  have entry : ∀ {b b' : Baseline}, b.Valid → b'.Valid → (∀ kind c, b.Under kind c ↔ b'.Under kind c) →
      ∀ e ∈ b.kinds, e ∈ b'.kinds := by
    intro b b' hb hb' under e mem
    obtain ⟨kind, cs⟩ := e
    obtain ⟨c, hc⟩ := List.exists_mem_of_ne_nil cs (hb.nonempty _ mem)
    obtain ⟨cs', mem', hc'⟩ := hb'.under_iff.mp ((under kind c).mp (hb.under_iff.mpr ⟨cs, mem, hc⟩))
    have sameCases : cs = cs' := by
      refine (hb.casesAscending _ mem).eq_of_mem_iff (hb'.casesAscending _ mem') fun x => ?_
      constructor
      · intro hx
        obtain ⟨cs'', mem'', hx''⟩ := hb'.under_iff.mp ((under kind x).mp (hb.under_iff.mpr ⟨cs, mem, hx⟩))
        rwa [← Option.some_inj.mp (((find?_eq_some_iff hb'.kindsAscending).mpr mem'').symm.trans
          ((find?_eq_some_iff hb'.kindsAscending).mpr mem'))]
      · intro hx
        obtain ⟨cs'', mem'', hx''⟩ := hb.under_iff.mp ((under kind x).mpr (hb'.under_iff.mpr ⟨cs', mem', hx⟩))
        rwa [← Option.some_inj.mp (((find?_eq_some_iff hb.kindsAscending).mpr mem'').symm.trans
          ((find?_eq_some_iff hb.kindsAscending).mpr mem))]
    exact sameCases ▸ mem'
  have kinds : b₁.kinds = b₂.kinds :=
    h₁.kindsAscending.eq_of_mem_iff h₂.kindsAscending fun e =>
      ⟨entry h₁ h₂ under e, entry h₂ h₁ (fun kind c => (under kind c).symm) e⟩
  cases b₁
  cases b₂
  simp only at kinds
  rw [kinds]

theorem Valid.get?_eq_some_iff {b : Baseline} (hb : b.Valid) {kind : Outcome} {cs : List CaseId} :
    b.get? kind = some cs ↔ cs ≠ [] ∧ Ascending cs ∧ ∀ c, c ∈ cs ↔ b.Under kind c := by
  have under : ∀ c, b.Under kind c ↔ c ∈ (b.get? kind).getD [] := fun c => Iff.rfl
  constructor
  · intro h
    have mem := (find?_eq_some_iff hb.kindsAscending).mp h
    refine ⟨hb.nonempty _ mem, hb.casesAscending _ mem, fun c => ?_⟩
    rw [under, h, Option.getD_some]
  · rintro ⟨ne, asc, members⟩
    obtain ⟨c, hc⟩ := List.exists_mem_of_ne_nil cs ne
    cases h : b.get? kind with
    | none =>
      -- the kind holds a case, so the baseline lists it
      have held := (under c).mp ((members c).mp hc)
      rw [h] at held
      cases held
    | some cs' =>
      have mem := (find?_eq_some_iff hb.kindsAscending).mp h
      refine congrArg some ((hb.casesAscending _ mem).eq_of_mem_iff asc fun x => ?_)
      rw [members, under, h, Option.getD_some]

theorem Valid.get?_congr {b b' : Baseline} (hb : b.Valid) (hb' : b'.Valid) {kind : Outcome}
    (same : ∀ c, b.Under kind c ↔ b'.Under kind c) : b.get? kind = b'.get? kind :=
  Option.ext fun cs => by
    rw [hb.get?_eq_some_iff, hb'.get?_eq_some_iff]
    simp only [same]

end Conformance.Baseline
