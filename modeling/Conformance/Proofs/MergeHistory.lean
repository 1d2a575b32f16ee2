import Conformance.Merge
import Conformance.Proofs.StoreHistory
import Conformance.Proofs.FoldRuns

/-!
# Merges fold the history of a key

A merge loads the key's baseline, folds the run into it and saves the fold: one whose load
fails writes nothing, nor does one of a run without pairs (`Store.merge_of_load_error`,
`Store.merge_of_isEmpty`), and one of a run with pairs is exactly a save of the fold
(`Store.merge_of_pairs`). Over merges, saves and resets that all succeed from a disk with
nothing on it, a key loads the left fold of the runs merged into it since its last save or
reset, over that save's baseline or the empty one (`Store.load_after_changes`). The invariant
is `Store.Holds` of the store's history, kept by a merge because a fold of a run read from a
log into a baseline the program keeps is again such a baseline (`Baseline.valid_foldRun`)
and a save that succeeds wrote a path the file system takes (`Store.fits_of_save_ok`).
-/

namespace Conformance

open Disk

namespace Store

variable {s : Store} {k : Key} {run : RunTally} {policy : FlakyPolicy} {d : Disk}

/-- A merge whose load fails stops there and writes nothing. -/
theorem merge_of_load_error {e : LoadError} (h : s.load k d = .error e) :
    (s.merge k run policy d).answer = .error (.load e) ∧ (s.merge k run policy d).disk = d := by
  unfold Store.load at h
  cases loaded : s.loadNoted k d with
  | mk r notes =>
    rw [loaded] at h
    subst h
    simp [merge, loaded]

/-- A merge of a run without pairs writes nothing and gives back the loaded baseline. -/
theorem merge_of_isEmpty {b : Baseline} (h : s.load k d = .ok b) (empty : run.isEmpty = true) :
    (s.merge k run policy d).answer = .ok ⟨b, [], [], false⟩ ∧ (s.merge k run policy d).disk = d := by
  unfold Store.load at h
  cases loaded : s.loadNoted k d with
  | mk r notes =>
    rw [loaded] at h
    subst h
    simp [merge, loaded, empty]

/-- A merge of a run with pairs saves the fold of the run into the loaded baseline, and gives
back the fold, or the save's failure. -/
theorem merge_of_pairs {b : Baseline} (h : s.load k d = .ok b) (pairs : run.isEmpty = false) :
    (s.merge k run policy d).disk = (s.save k (b.foldRun run.pairs policy).baseline d).disk ∧
      (s.merge k run policy d).answer =
        ((s.save k (b.foldRun run.pairs policy).baseline d).answer.map fun _ =>
          (⟨(b.foldRun run.pairs policy).baseline, (b.foldRun run.pairs policy).newlyFlaky,
            (b.foldRun run.pairs policy).newCases, true⟩ : MergeSummary)).mapError .save := by
  unfold Store.load at h
  cases loaded : s.loadNoted k d with
  | mk r notes =>
    rw [loaded] at h
    subst h
    cases saved : (s.save k (b.foldRun run.pairs policy).baseline d).answer with
    | ok u => simp [merge, loaded, pairs, saved, Except.map, Except.mapError]
    | error e => simp [merge, loaded, pairs, saved, Except.map, Except.mapError]

/-- A save that succeeds wrote the baseline file, so its path is one the file system takes. -/
theorem fits_of_save_ok {b : Baseline} (h : (s.save k b d).answer = .ok ()) :
    Fits (s.jsonPath k) := by
  obtain ⟨d1, stale, more, d2, -, -, -, -, json⟩ := save_eq_ok h
  exact fits_of_writeAtomic json

/-- A merge keeps a disk a tree, whether it succeeds or not. -/
theorem tree_merge (t : d.Tree) (hs : s.NamedRoot) (k : Key) :
    (s.merge k run policy d).disk.Tree := by
  cases loaded : s.load k d with
  | error e => rw [(merge_of_load_error loaded).2]; exact t
  | ok b =>
    cases empty : run.isEmpty with
    | true => rw [(merge_of_isEmpty loaded empty).2]; exact t
    | false => rw [(merge_of_pairs loaded empty).1]; exact tree_save hs k t _

theorem merge_resolved (hs : s.NamedRoot) (k : Key) (t : d.Tree) :
    s.resolved.merge k run policy d = s.merge k run policy d := by
  simp only [merge, loadNoted_resolved hs k, save_resolved hs k t]

end Store

/-! ## Changes one after another -/

/-- A change a program makes to a store. -/
inductive Change where
  | save (k : Key) (b : Baseline)
  | reset (k : Key)
  | merge (k : Key) (run : RunTally) (policy : FlakyPolicy)

namespace Change

/-- What a change does to the baseline a key loads: a save of the key replaces it, a reset
empties it, a merge of a run with pairs folds the run in, and a change to another key
leaves it. -/
def step (k : Key) (b : Baseline) : Change → Baseline
  | .save k' b' => if k' = k then b' else b
  | .reset k' => if k' = k then .empty else b
  | .merge k' run policy =>
    if k' = k ∧ run.isEmpty = false then (b.foldRun run.pairs policy).baseline else b

/-- The baseline a key loads after changes made from an empty store: the left fold of the
runs merged into it since its last save or reset, over that save's baseline or the empty
one. -/
def history (k : Key) (cs : List Change) : Baseline := cs.foldl (step k) .empty

/-- What a change does to the baselines held. -/
def apply (a : Key → Option Baseline) : Change → Key → Option Baseline
  | .save k b => Function.update a k (some b)
  | .reset k => Function.update a k none
  | .merge k run policy =>
    if run.isEmpty then a
    else Function.update a k (some (((a k).getD .empty).foldRun run.pairs policy).baseline)

/-- A change within what the store answers as a map: a saved baseline is one the program
keeps. -/
def Fair : Change → Prop
  | .save _ b => b.Valid
  | .reset _ => True
  | .merge _ _ _ => True

end Change

namespace Store

/-- A change made on a disk: whether it succeeded, and the disk it leaves. -/
def change (s : Store) (d : Disk) : Change → Bool × Disk
  | .save k b => ((s.save k b d).answer.isOk, (s.save k b d).disk)
  | .reset k => ((s.reset k d).1.isOk, (s.reset k d).2)
  | .merge k run policy => ((s.merge k run policy d).answer.isOk, (s.merge k run policy d).disk)

/-- The disk that changes made one after another leave, when every one succeeds. -/
def changes (s : Store) (d : Disk) : List Change → Option Disk
  | [] => some d
  | c :: cs => if (s.change d c).1 then s.changes (s.change d c).2 cs else none

end Store

theorem Change.getD_apply (a : Key → Option Baseline) (c : Change) (k : Key) :
    (c.apply a k).getD .empty = c.step k ((a k).getD .empty) := by
  cases c with
  | save k' b =>
    by_cases same : k = k'
    · subst same
      simp [Change.apply, Change.step]
    · simp [Change.apply, Change.step, Function.update_of_ne same, Ne.symm same]
  | reset k' =>
    by_cases same : k = k'
    · subst same
      simp [Change.apply, Change.step]
    · simp [Change.apply, Change.step, Function.update_of_ne same, Ne.symm same]
  | merge k' run policy =>
    by_cases same : k = k'
    · subst same
      cases empty : run.isEmpty <;> simp [Change.apply, Change.step, empty]
    · cases empty : run.isEmpty <;>
        simp [Change.apply, Change.step, empty, Function.update_of_ne same, Ne.symm same]

theorem Change.getD_foldl_apply (k : Key) (cs : List Change) (a : Key → Option Baseline) :
    ((cs.foldl Change.apply a) k).getD .empty = cs.foldl (Change.step k) ((a k).getD .empty) := by
  induction cs generalizing a with
  | nil => rfl
  | cons c cs ih => rw [List.foldl_cons, List.foldl_cons, ih, Change.getD_apply]

namespace Store

variable {s : Store} {a : Key → Option Baseline} {d : Disk}

theorem Holds.valid_getD (h : s.Holds a d) (k : Key) : ((a k).getD .empty).Valid := by
  cases stored : a k with
  | none => exact Baseline.valid_empty
  | some b => exact h.valid k b stored

theorem Holds.change (h : s.Holds a d) (hs : s.PlainRoot) {c : Change} (fair : c.Fair)
    (ok : (s.change d c).1 = true) : s.Holds (c.apply a) (s.change d c).2 := by
  cases c with
  | save k b =>
    cases saved : (s.save k b d).answer with
    | error e => simp [Store.change, saved, Except.isOk, Except.toBool] at ok
    | ok u => exact h.save hs k fair saved
  | reset k =>
    cases reset : s.reset k d with
    | mk r d' =>
      cases r with
      | error e => simp [Store.change, reset, Except.isOk, Except.toBool] at ok
      | ok r => simpa [Store.change, reset, Change.apply] using (h.reset hs k reset).1
  | merge k run policy =>
    cases loaded : s.load k d with
    | error e =>
      simp [Store.change, (merge_of_load_error loaded).1, Except.isOk, Except.toBool] at ok
    | ok b =>
      cases empty : run.isEmpty with
      | true => simpa [Store.change, Change.apply, empty, (merge_of_isEmpty loaded empty).2] using h
      | false =>
        obtain ⟨disk, answer⟩ := @merge_of_pairs s k run policy d b loaded empty
        cases saved : (s.save k (b.foldRun run.pairs policy).baseline d).answer with
        | error e => simp [Store.change, answer, saved, Except.map, Except.mapError, Except.isOk,
            Except.toBool] at ok
        | ok u =>
          -- the save wrote the key's baseline file, so the load read what the disk holds
          have same : b = (a k).getD .empty := by
            rw [h.load hs k (fits_of_save_ok saved)] at loaded
            exact (Except.ok.inj loaded).symm
          subst same
          simpa [Store.change, Change.apply, empty, disk] using
            h.save hs k (Baseline.valid_foldRun (h.valid_getD k) run.pairs policy) saved

theorem Holds.changes (h : s.Holds a d) (hs : s.PlainRoot) {cs : List Change}
    (fair : ∀ c ∈ cs, c.Fair) {d' : Disk} (ok : s.changes d cs = some d') :
    s.Holds (cs.foldl Change.apply a) d' := by
  induction cs generalizing a d with
  | nil =>
    cases ok
    exact h
  | cons c cs ih =>
    unfold Store.changes at ok
    split at ok
    · rename_i first
      exact ih (h.change hs (fair c List.mem_cons_self) first)
        (fun c' mem => fair c' (List.mem_cons_of_mem c mem)) ok
    · cases ok

/-! ## Roots written with `.` -/

theorem change_resolved (hs : s.NamedRoot) (t : d.Tree) (c : Change) :
    s.resolved.change d c = s.change d c := by
  cases c with
  | save k b => simp only [Store.change, save_resolved hs k t b]
  | reset k => simp only [Store.change, reset_resolved hs k t]
  | merge k run policy => simp only [Store.change, merge_resolved hs k t]

/-- Every change keeps a disk a tree, whether it succeeds or not. -/
theorem tree_change (hs : s.NamedRoot) (t : d.Tree) (c : Change) : (s.change d c).2.Tree := by
  cases c with
  | save k b => exact tree_save hs k t b
  | reset k => exact tree_reset hs k t
  | merge k run policy => exact tree_merge t hs k

/-- Changes one after another under a root with `.` in it leave what they leave under the root
without them. -/
theorem changes_resolved (hs : s.NamedRoot) (t : d.Tree) (cs : List Change) :
    s.resolved.changes d cs = s.changes d cs := by
  induction cs generalizing d with
  | nil => rfl
  | cons c cs ih => rw [Store.changes, Store.changes, change_resolved hs t c, ih (tree_change hs t c)]

/-- After changes made from a disk with nothing on it, all of which succeed, a key whose
baseline file the file system takes loads the runs merged into it since its last save or
reset, folded over that save's baseline or the empty one. -/
theorem load_after_changes (hs : s.NamedRoot) {cs : List Change} (fair : ∀ c ∈ cs, c.Fair)
    (ok : s.changes Disk.empty cs = some d) (k : Key) (fits : Fits (s.jsonPath k)) :
    s.load k d = .ok (Change.history k cs) := by
  rw [← changes_resolved hs tree_empty cs] at ok
  have held := (holds_empty s.resolved).changes hs.resolved fair ok
  rw [← load_resolved hs k, held.load hs.resolved k (jsonPath_undotted hs k ▸ fits.undotted),
    Change.getD_foldl_apply]
  rfl

/-- A merge folds the history of a key exactly. A merge whose load fails writes nothing; one
of a run without pairs writes nothing and gives back the loaded baseline; one of a run with
pairs saves the fold of the run into the loaded baseline and gives back the fold, or the
save's failure. After changes from a disk with nothing on it, all of which succeed, a key
loads the runs merged into it since its last save or reset, folded over that save's
baseline or the empty one, where the file system takes its baseline file's path. -/
theorem merge_folds_history (s : Store) :
    (∀ k run policy d e, s.load k d = .error e →
      (s.merge k run policy d).answer = .error (.load e) ∧ (s.merge k run policy d).disk = d) ∧
    (∀ k run policy d b, s.load k d = .ok b → run.isEmpty = true →
      (s.merge k run policy d).answer = .ok ⟨b, [], [], false⟩ ∧ (s.merge k run policy d).disk = d) ∧
    (∀ k run policy d b, s.load k d = .ok b → run.isEmpty = false →
      (s.merge k run policy d).disk = (s.save k (b.foldRun run.pairs policy).baseline d).disk ∧
      (s.merge k run policy d).answer =
        ((s.save k (b.foldRun run.pairs policy).baseline d).answer.map fun _ =>
          (⟨(b.foldRun run.pairs policy).baseline, (b.foldRun run.pairs policy).newlyFlaky,
            (b.foldRun run.pairs policy).newCases, true⟩ : MergeSummary)).mapError .save) ∧
    (s.NamedRoot → ∀ cs : List Change, (∀ c ∈ cs, c.Fair) → ∀ d, s.changes Disk.empty cs = some d →
      ∀ k, Fits (s.jsonPath k) → s.load k d = .ok (Change.history k cs)) :=
  ⟨fun _ _ _ _ _ failed => merge_of_load_error failed,
    fun _ _ _ _ _ loaded empty => merge_of_isEmpty loaded empty,
    fun _ _ _ _ _ loaded pairs => merge_of_pairs loaded pairs,
    fun hs _ fair _ ok k fits => load_after_changes hs fair ok k fits⟩

/-- Two keys of one family, one filter a dotted prefix of the other: runs merged into both, a
save and a reset of one, and the other loads its two runs folded in order. -/
theorem prefix_filters_fold_their_runs :
    let s : Store := ⟨⟨"store", ["store"]⟩⟩
    let k : Key := .mk "gpu" "dEQP-GLES2"
    let k' : Key := .mk "gpu" "dEQP-GLES2.info"
    let cs := [Change.merge k (RunTally.ofPairs [(.mk "dEQP-GLES2.a", .pass)]) .anyOutcome,
      .save k' ⟨[(Outcome.fail, [.mk "dEQP-GLES2.info.vendor"])]⟩,
      .merge k (RunTally.ofPairs [(.mk "dEQP-GLES2.a", .fail), (.mk "dEQP-GLES2.b", .pass)]) .anyOutcome,
      .reset k']
    let d := (s.changes Disk.empty cs).getD Disk.empty
    s.changes Disk.empty cs = some d ∧ s.load k d = .ok (Change.history k cs) := by
  intro s k k' cs d
  have hs : s.NamedRoot := ⟨by decide, [], ["store"], by decide, .inl rfl, by decide⟩
  have fair : ∀ c ∈ cs, c.Fair := by
    simp only [cs, List.mem_cons, List.mem_nil_iff, or_false]
    rintro c (rfl | rfl | rfl | rfl)
    · trivial
    · exact ((Baseline.fromKinds_spec [(Outcome.fail, [.mk "dEQP-GLES2.info.vendor"])]).2 _
        (by decide +kernel)).1
    · trivial
    · trivial
  have ok : s.changes Disk.empty cs = some d := by decide +kernel
  exact ⟨ok, (merge_folds_history s).2.2.2 hs cs fair d ok k
    ⟨⟨by decide +kernel, by decide +kernel⟩, by decide +kernel⟩⟩

/-- A key with a NUL in its filter is valid, yet its baseline file is no path the file system
takes: even with no change made, its load fails instead of giving the empty baseline. -/
theorem nul_filter_load_fails :
    let s : Store := ⟨⟨"store", ["store"]⟩⟩
    let k : Key := .mk "g" "a\x00b"
    s.changes Disk.empty [] = some Disk.empty ∧
      s.load k Disk.empty ≠ .ok (Change.history k []) ∧
      s.load k Disk.empty = .error (.read "store/g/a\x00b.json") := by
  decide +kernel

end Store

end Conformance
