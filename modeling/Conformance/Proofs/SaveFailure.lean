import Conformance.Proofs.ResolvedRoot

/-!
# A save that fails

A save writes the baseline file last, after the lists, so a save that fails at any step
leaves every baseline file as it was: every load reads as before, where the components of
its path fit (`Store.failed_save_keeps_loads`). The directories it made on the way to the
family's directory can only turn a load that found nothing into one refused for a name
too long. The key's own lists are not kept: stale ones are removed and new ones written
before the baseline file, so a failure after that leaves them changed
(`Store.failed_save_drops_a_list`).
-/

namespace Conformance

open Disk

namespace Store

variable {s : Store} {k : Key}

/-! ## Loads read one file each -/

theorem readText_congr {d d' : Disk} {p : Place} (h : d.read p = d'.read p) :
    d.readText p = d'.readText p := by
  simp only [readText, h]

theorem load_congr {d d' : Disk} (h : d.read (s.jsonPath k) = d'.read (s.jsonPath k)) :
    s.load k d = s.load k d' := by
  simp only [load, loadNoted, readText_congr h]

theorem loadSubset_congr {d d' : Disk} {kind : Outcome}
    (h : kind.isFileSuffix = true → d.read (s.subsetPath k kind) = d'.read (s.subsetPath k kind)) :
    s.loadSubset k kind d = s.loadSubset k kind d' := by
  unfold loadSubset
  cases hkind : kind.isFileSuffix with
  | false => rfl
  | true => simp only [Bool.not_true, readText_congr (h hkind)]

/-! ## A failed save -/

theorem SaveChanges.read_congr {d d' : Disk} (t : d.Tree) (t' : d'.Tree)
    (h : s.SaveChanges k d d') {p : Place} {g n : String} (hp : p.parts = s.root.parts ++ [g, n])
    (plain : ∀ x ∈ s.root.parts ++ [g, n], Plain x) (fit : NamesFit p)
    (notList : ∀ name, isListName k name = true → g = k.gpu → n ≠ name) : d.read p = d'.read p := by
  have hp' : p.parts = (s.root.parts ++ [g]) ++ [n] := by simp [hp]
  refine Tree.read_congr t t' hp' (hp ▸ plain) fit (fun q b hq => ?_) ?_
  · -- on the way to the family's directory a save only makes directories
    rcases h q with same | ⟨none, made, -⟩ | ⟨name, -, rfl⟩
    · rw [same]
    · simp [none, made]
    · simpa using hq.length_le
  · rcases h p.parts with same | ⟨-, -, hq⟩ | ⟨name, list, at'⟩
    · exact same.symm
    · rw [hp] at hq
      simpa using hq.length_le
    · rw [hp] at at'
      simp only [List.append_cancel_left_eq, List.cons.injEq, and_true] at at'
      exact absurd at'.2 (notList name list at'.1)

theorem keeps_loads_of_failed_save {d : Disk} (t : d.Tree) (hs : s.PlainRoot) (k : Key)
    (b : Baseline) {e : SaveError} (h : (s.save k b d).answer = .error e) :
    (∀ k', NamesFit (s.jsonPath k') →
      s.load k' (s.save k b d).disk = s.load k' d) ∧
    ∀ k', k' ≠ k → ∀ kind, NamesFit (s.subsetPath k' kind) →
      s.loadSubset k' kind (s.save k b d).disk = s.loadSubset k' kind d := by
  obtain ⟨t', d', changes, same | ⟨ok, -⟩⟩ := save_frame t hs k b
  · rw [same] at t' ⊢
    refine ⟨fun k' fit => (load_congr ?_).symm, fun k' ne kind fit =>
      (loadSubset_congr fun hkind => ?_).symm⟩
    · exact changes.read_congr t t' (jsonPath_parts hs k')
        (plain_of_names hs k' (isName_json k'.names.2)) fit
        (fun name list _ => (list_ne_json list k'.filter).symm)
    · refine changes.read_congr t t' (subsetPath_parts hs k' hkind)
        (plain_of_names hs k' (isName_list k'.names.2 hkind)) fit (fun name list same at' => ?_)
      -- a list of the key's named as another key's of its family is that key's
      have filter := filter_eq_of_isListName hkind (at' ▸ list)
      exact ne (by cases k; cases k'; simp_all)
  · rw [h] at ok
    cases ok

/-- A save that fails changes no load of a baseline, nor a load of another key's list,
where the components of the path fit, under a root that does not lead up. -/
theorem failed_save_keeps_loads {d : Disk} (t : d.Tree) (hs : s.NamedRoot) (k : Key)
    (b : Baseline) {e : SaveError} (h : (s.save k b d).answer = .error e) :
    (∀ k', NamesFit (s.jsonPath k') →
      s.load k' (s.save k b d).disk = s.load k' d) ∧
    ∀ k', k' ≠ k → ∀ kind, NamesFit (s.subsetPath k' kind) →
      s.loadSubset k' kind (s.save k b d).disk = s.loadSubset k' kind d := by
  rw [← save_resolved hs k t b] at h ⊢
  obtain ⟨loads, lists⟩ := keeps_loads_of_failed_save t hs.resolved k b h
  refine ⟨fun k' fit => ?_, fun k' ne kind fit => ?_⟩
  · rw [← load_resolved hs k', ← load_resolved hs k']
    exact loads k' (jsonPath_undotted hs k' ▸ fit.undotted)
  · rw [← loadSubset_resolved hs k', ← loadSubset_resolved hs k']
    cases listed : kind.isFileSuffix with
    | false => simp [loadSubset, listed]
    | true => exact lists k' ne kind (subsetPath_undotted hs k' listed ▸ fit.undotted)

/-- A list in the way of a save: a directory made where the crashes' list goes, after a
first save. The second save fails there, and every load of a baseline reads as before. -/
theorem blocked_list_save_keeps_loads :
    let s : Store := ⟨⟨"store", ["store"]⟩⟩
    let k : Key := .mk "gpu" "f"
    let d : Disk := ((s.save k ⟨[(Outcome.pass, [.mk "a", .mk "b"])]⟩ Disk.empty).disk.createDirAll
      ⟨"store/gpu/f.Crash", ["store", "gpu", "f.Crash"]⟩).1
    let b : Baseline := ⟨[(Outcome.crash, [.mk "b"]), (Outcome.pass, [.mk "a"])]⟩
    (s.save k b d).answer = .error (.write "store/gpu/f.Crash") ∧
      ∀ k', NamesFit (s.jsonPath k') → s.load k' (s.save k b d).disk = s.load k' d := by
  intro s k d b
  have hs : s.NamedRoot := ⟨by decide, [], ["store"], by decide, .inl rfl, by decide⟩
  have saved := tree_save hs k tree_empty ⟨[(Outcome.pass, [.mk "a", .mk "b"])]⟩
  have t := (saved.createDirAll (show Resolved (Place.parts ⟨"store/gpu/f.Crash",
    ["store", "gpu", "f.Crash"]⟩) from ⟨[], _, rfl, .inl rfl, by decide⟩)).2
  have failed : (s.save k b d).answer = .error (.write "store/gpu/f.Crash") := by decide +kernel
  exact ⟨failed, (failed_save_keeps_loads t hs k b failed).1⟩

/-- The same save changes what the key's list of passes reads: the list was removed as
stale before the write that failed. -/
theorem failed_save_drops_a_list :
    let s : Store := ⟨⟨"store", ["store"]⟩⟩
    let k : Key := .mk "gpu" "f"
    let d : Disk := ((s.save k ⟨[(Outcome.pass, [.mk "a", .mk "b"])]⟩ Disk.empty).disk.createDirAll
      ⟨"store/gpu/f.Crash", ["store", "gpu", "f.Crash"]⟩).1
    let b : Baseline := ⟨[(Outcome.crash, [.mk "b"]), (Outcome.pass, [.mk "a"])]⟩
    s.loadSubset k Outcome.pass d = .ok (some [.mk "a", .mk "b"]) ∧
      (s.save k b d).answer = .error (.write "store/gpu/f.Crash") ∧
      s.loadSubset k Outcome.pass (s.save k b d).disk = .ok none := by
  decide +kernel

end Store

end Conformance
