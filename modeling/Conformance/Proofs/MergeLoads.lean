import Conformance.Proofs.MergeHistory
import Conformance.Proofs.SaveFailure

/-!
# What a merge does to the loads of a store

On any disk shaped as a file system and under a root that does not lead up, a merge changes the
load of its own key only, and only when it succeeds: the key then loads the run folded into the
baseline it loaded, as `Change.step` says (`Store.load_merge_of_ok`); every other load, and every
load after a merge that fails, reads as before where the components of the key's path fit
(`Store.load_merge_of_error`). A merge keeps the disk a tree (`Store.tree_merge`), so merges one
after another can be followed key by key without assuming how the disk came to be. What a save
may change before it writes the key's baseline file last is `SaveChanges`, and with that file
`KeyChanges`: the files of one key and directories made on the way to its family's.
-/

namespace Conformance

open Disk

namespace Store

variable {s : Store} {k k' : Key} {d : Disk}

theorem valid_of_load {b : Baseline} (h : s.load k d = .ok b) : b.Valid := by
  unfold load loadNoted at h
  dsimp only at h
  split at h
  · split at h
    · cases h
      exact Baseline.valid_of_fromJson ‹_›
    · cases h
  · cases h
    exact Baseline.valid_empty
  · cases h

/-- How a save of a key may change a disk, the baseline file included: directories made
where nothing stood on the way to the family's directory, and the key's own files. -/
def KeyChanges (s : Store) (k : Key) (d d' : Disk) : Prop :=
  ∀ q, d'.get? q = d.get? q ∨
    (d.get? q = none ∧ d'.get? q = some .dir ∧ q <+: s.root.parts ++ [k.gpu]) ∨
    ∃ name, KeyFile k name ∧ q = s.root.parts ++ [k.gpu, name]

theorem SaveChanges.keyChanges {d' : Disk} (h : s.SaveChanges k d d') : s.KeyChanges k d d' :=
  fun q => (h q).imp_right fun made => made.imp_right fun ⟨name, list, at'⟩ => ⟨name, .inr list, at'⟩

theorem SaveChanges.keyChanges_put {d' : Disk} (h : s.SaveChanges k d d') (e : Entry) :
    s.KeyChanges k d (d'.put (s.root.parts ++ [k.gpu, k.filter ++ ".json"]) e) := by
  intro q
  by_cases json : q = s.root.parts ++ [k.gpu, k.filter ++ ".json"]
  · exact .inr (.inr ⟨_, .inl rfl, json⟩)
  · rw [get?_put_of_ne _ _ json]
    exact h.keyChanges q

theorem KeyChanges.read_congr {d' : Disk} (t : d.Tree) (t' : d'.Tree) (h : s.KeyChanges k d d')
    (hs : s.PlainRoot) (k' : Key) (ne : k' ≠ k) (fit : NamesFit (s.jsonPath k')) :
    d.read (s.jsonPath k') = d'.read (s.jsonPath k') := by
  have hp : (s.jsonPath k').parts = (s.root.parts ++ [k'.gpu]) ++ [k'.filter ++ ".json"] := by
    simp [jsonPath_parts hs k']
  have plain := plain_of_names hs k' (isName_json k'.names.2)
  refine Tree.read_congr t t' hp (jsonPath_parts hs k' ▸ plain) fit (fun q b hq => ?_) ?_
  · -- on the way to a family's directory a save only makes directories
    rcases h q with same | ⟨none, made, -⟩ | ⟨name, -, rfl⟩
    · rw [same]
    · simp [none, made]
    · simpa using hq.length_le
  · rw [jsonPath_parts hs k']
    rcases h (s.root.parts ++ [k'.gpu, k'.filter ++ ".json"]) with same | ⟨-, -, hq⟩ | ⟨name, file, at'⟩
    · exact same.symm
    · simpa using hq.length_le
    · exact absurd at' (place_ne ne (.inl rfl) file _)

theorem keyChanges_save (t : d.Tree) (hs : s.PlainRoot) (k : Key) (b : Baseline) :
    s.KeyChanges k d (s.save k b d).disk := by
  obtain ⟨-, d', changes, same | ⟨-, bytes, wrote⟩⟩ := save_frame t hs k b
  · rw [same]
    exact changes.keyChanges
  · rw [wrote]
    exact changes.keyChanges_put _

theorem load_save_of_ne (t : d.Tree) (hs : s.PlainRoot) (k : Key) (k' : Key)
    (ne : k' ≠ k) (fit : NamesFit (s.jsonPath k')) (b : Baseline) :
    s.load k' (s.save k b d).disk = s.load k' d :=
  (load_congr ((keyChanges_save t hs k b).read_congr t (save_frame t hs k b).1 hs k' ne fit)).symm

theorem load_save_of_error (t : d.Tree) (hs : s.PlainRoot) (k : Key) (k' : Key)
    (fit : NamesFit (s.jsonPath k')) {b : Baseline} {e : SaveError}
    (failed : (s.save k b d).answer = .error e) : s.load k' (s.save k b d).disk = s.load k' d := by
  obtain ⟨t', d', changes, same | ⟨ok, -⟩⟩ := save_frame t hs k b
  · rw [same] at t' ⊢
    exact (load_congr (changes.read_congr t t' (jsonPath_parts hs k')
      (plain_of_names hs k' (isName_json k'.names.2)) fit
      fun name list _ => (list_ne_json list k'.filter).symm)).symm
  · rw [failed] at ok
    cases ok

theorem load_save_of_ok (t : d.Tree) (hs : s.PlainRoot) (k : Key) {b : Baseline}
    (hb : b.Valid) (ok : (s.save k b d).answer = .ok ()) : s.load k (s.save k b d).disk = .ok b := by
  obtain ⟨-, -, -, d2, -, -, -, -, json⟩ := save_eq_ok ok
  have hp := jsonPath_snoc hs k
  have plain := jsonPath_plain hs k
  obtain ⟨written, -, way⟩ := writeAtomic_eq_ok hp plain json
  have ne : ∀ q, q <+: s.root.parts ++ [k.gpu] → q ≠ (s.jsonPath k).parts := fun q hq same => by
    simpa [same, hp] using hq.length_le
  -- the directories on the way are there, and the file at the end holds the baseline's text
  have clear : ∀ q c, q <+: s.root.parts ++ [k.gpu] → (s.save k b d).disk.get? q ≠ some (.file c) := by
    intro q c hq
    rw [written, get?_put_of_ne _ _ (ne q hq), show q = [] ++ q from rfl, way q hq]
    simp
  have read := (save_frame t hs k b).1.read_of_clear (fits_of_save_ok ok) hp plain clear
  rw [written, found, get?_put_self _ _ _ (hp ▸ fixed_snoc_name (isName_json k.names.2)),
    ← written] at read
  simp [load, loadNoted, readText, read, bind, Except.bind, pure, Except.pure,
    Text.Utf8.decode?_encode, Baseline.fromJson_toJson hb]

variable {run : RunTally} {policy : FlakyPolicy}

theorem PlainRoot.load_merge_of_error (hs : s.PlainRoot) (t : d.Tree) (k : Key)
    (k' : Key) (fit : NamesFit (s.jsonPath k')) {e : MergeError}
    (failed : (s.merge k run policy d).answer = .error e) :
    s.load k' (s.merge k run policy d).disk = s.load k' d := by
  cases loaded : s.load k d with
  | error e => rw [(merge_of_load_error loaded).2]
  | ok b =>
    cases empty : run.isEmpty with
    | true => rw [(merge_of_isEmpty loaded empty).2]
    | false =>
      obtain ⟨disk, answer⟩ := (merge_of_pairs loaded empty : (s.merge k run policy d).disk = _ ∧ _)
      -- the merge failed in its save
      cases saved : (s.save k (b.foldRun run.pairs policy).baseline d).answer with
      | ok u => simp [answer, saved, Except.map, Except.mapError] at failed
      | error e' => rw [disk, load_save_of_error t hs k k' fit saved]

theorem PlainRoot.load_merge_of_ok (hs : s.PlainRoot) (t : d.Tree) (k : Key) (k' : Key)
    (fit : NamesFit (s.jsonPath k')) {m : MergeSummary} (ok : (s.merge k run policy d).answer = .ok m) :
    s.load k' (s.merge k run policy d).disk =
      (s.load k' d).map fun b => Change.step k' b (.merge k run policy) := by
  cases loaded : s.load k d with
  | error e => simp [(merge_of_load_error loaded).1] at ok
  | ok b =>
    cases empty : run.isEmpty with
    | true =>
      -- nothing is written, and the step of a run without pairs keeps every baseline
      have keep : (fun b => Change.step k' b (.merge k run policy)) = id := by
        funext b
        simp [Change.step, empty]
      rw [(merge_of_isEmpty loaded empty).2, keep, Except.map_id]
      rfl
    | false =>
      obtain ⟨disk, answer⟩ := (merge_of_pairs loaded empty : (s.merge k run policy d).disk = _ ∧ _)
      cases saved : (s.save k (b.foldRun run.pairs policy).baseline d).answer with
      | error e => simp [answer, saved, Except.map, Except.mapError] at ok
      | ok u =>
        rw [disk]
        by_cases same : k' = k
        · subst same
          rw [load_save_of_ok t hs k' (Baseline.valid_foldRun (valid_of_load loaded) run.pairs policy)
            saved, loaded]
          simp [Except.map, Change.step, empty]
        · rw [load_save_of_ne t hs k k' same fit]
          cases loaded' : s.load k' d <;> simp [Except.map, Change.step, Ne.symm same]

/-- A merge that fails changes no load, where the components of the path fit. -/
theorem load_merge_of_error (t : d.Tree) (hs : s.NamedRoot) (k : Key) (k' : Key)
    (fit : NamesFit (s.jsonPath k')) {e : MergeError}
    (failed : (s.merge k run policy d).answer = .error e) :
    s.load k' (s.merge k run policy d).disk = s.load k' d := by
  rw [← merge_resolved hs k t] at failed ⊢
  rw [← load_resolved hs k', ← load_resolved hs k']
  exact hs.resolved.load_merge_of_error t k k' (jsonPath_undotted hs k' ▸ fit.undotted) failed

/-- A merge that succeeds changes the load of its own key only: that key loads the run
folded into the baseline it loaded. -/
theorem load_merge_of_ok (t : d.Tree) (hs : s.NamedRoot) (k : Key) (k' : Key)
    (fit : NamesFit (s.jsonPath k')) {m : MergeSummary} (ok : (s.merge k run policy d).answer = .ok m) :
    s.load k' (s.merge k run policy d).disk =
      (s.load k' d).map fun b => Change.step k' b (.merge k run policy) := by
  rw [← merge_resolved hs k t] at ok ⊢
  rw [← load_resolved hs k', ← load_resolved hs k']
  exact hs.resolved.load_merge_of_ok t k k' (jsonPath_undotted hs k' ▸ fit.undotted) ok

end Store

end Conformance
