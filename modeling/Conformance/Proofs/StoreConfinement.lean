import Conformance.Proofs.StoreHistory

/-!
# What a store call reaches

A call of the store on a key keeps to that key's files on a disk shaped as a file system,
under a root that does not lead up and with paths taken under the directory it resolves to
(`Store.store_keeps_to_its_key`). A save, whether it succeeds or not, changes nothing but the
directories it makes where nothing stood on the way to the key's family directory and the
key's own files there, removing lists of the key only and never its baseline file
(`Store.Confined`); a reset only removes files, and only the key's own (`Store.Clears`); a load
reads nothing but the directories on the way to the key's file and that file. So no file of
another key changes, also where one filter is a dotted prefix of another, while a save that
succeeds leaves none of the key's old lists but those of the kinds it writes, and a reset that
succeeds leaves none of its files. The directories made on the way include every missing one
above the root (`Store.save_makes_a_missing_root_parent`).
-/

namespace Conformance

open Disk

/-! ## Reads look only along their path -/

namespace Disk

theorem walk_congr {d d' : Disk} {xs : List String} {n : String} (plain : ∀ x ∈ xs ++ [n], Plain x)
    (dir : List String) (same : ∀ q, q <+: xs → d'.get? (dir ++ q) = d.get? (dir ++ q)) :
    d'.walk dir (xs ++ [n]) = d.walk dir (xs ++ [n]) := by
  induction xs generalizing dir with
  | nil => rfl
  | cons x xs ih =>
    have hx := plain x (by simp)
    have here : d'.get? (dir ++ [x]) = d.get? (dir ++ [x]) :=
      same [x] (List.cons_prefix_cons.mpr ⟨rfl, List.nil_prefix⟩)
    have rest := ih (fun y hy => plain y (by simp_all)) (dir ++ [x]) fun q hq => by
      simpa using same (x :: q) (List.cons_prefix_cons.mpr ⟨rfl, hq⟩)
    obtain ⟨y, ys, split⟩ := List.exists_cons_of_ne_nil (show xs ++ [n] ≠ [] by simp)
    rw [List.cons_append, split, walk_cons_cons, walk_cons_cons, step_plain dir hx, ← split, here,
      rest]

theorem read_congr_way {d d' : Disk} {p : Place} {xs : List String} {n : String}
    (hp : p.parts = xs ++ [n]) (plain : ∀ x ∈ p.parts, Plain x)
    (same : ∀ q, q <+: p.parts → d'.get? q = d.get? q) : d'.read p = d.read p := by
  have walked : d'.walk [] p.parts = d.walk [] p.parts := by
    rw [hp]
    exact walk_congr (hp ▸ plain) [] fun q hq => by
      simpa using same q (hp ▸ hq.trans (List.prefix_append _ _))
  have located : d'.locate p = d.locate p := by simp only [locate, walked]
  rw [read_eq, read_eq, located]
  cases hl : d.locate p with
  | error e => rfl
  | ok r =>
    -- a look-up that succeeds ends at the place itself
    have hw := walk_of_locate hl (by simp) (by simp)
    rw [hp] at hw
    obtain ⟨rfl, -⟩ := walk_eq_ok (hp ▸ plain) (get?_nil d) hw
    have here : d'.get? (xs ++ [n]) = d.get? (xs ++ [n]) := same _ (hp ▸ List.prefix_refl _)
    simp only [Except.bind, found, List.nil_append, here]

end Disk

namespace Store

variable {s : Store} {k : Key}

theorem load_congr_way (hs : s.PlainRoot) (k : Key) {d d' : Disk}
    (same : ∀ q, q <+: s.root.parts ++ [k.gpu, k.filter ++ ".json"] → d'.get? q = d.get? q) :
    s.load k d' = s.load k d :=
  load_congr (read_congr_way (jsonPath_snoc hs k) (jsonPath_plain hs k)
    (jsonPath_parts hs k ▸ same))

theorem loadSubset_congr_way (hs : s.PlainRoot) (k : Key) {kind : Outcome} {d d' : Disk}
    (same : kind.isFileSuffix = true →
      ∀ q, q <+: s.root.parts ++ [k.gpu, k.filter ++ "." ++ kind.name] → d'.get? q = d.get? q) :
    s.loadSubset k kind d' = s.loadSubset k kind d :=
  loadSubset_congr fun hkind =>
    read_congr_way (subsetPath_snoc hs k hkind) (subsetPath_plain hs k hkind)
      (subsetPath_parts hs k hkind ▸ same hkind)

/-! ## Where a call may change a disk -/

section Confinement

variable {dir : List String}


/-- The places of a key's own files: its baseline file and its lists, in its family's
directory. -/
def KeyPlace (dir : List String) (k : Key) (q : List String) : Prop :=
  ∃ name, KeyFile k name ∧ q = dir ++ [k.gpu, name]

theorem not_way_of_keyPlace {q : List String} (h : KeyPlace dir k q) :
    ¬ q <+: dir ++ [k.gpu] := by
  obtain ⟨name, -, rfl⟩ := h
  intro way
  simpa using way.length_le

/-- `d'` differs from `d` only where a save of the key may change a disk: directories made
where nothing stood, on the way to the key's family directory, and the key's own files, with
no directory there before or after. -/
def Confined (dir : List String) (k : Key) (d d' : Disk) : Prop :=
  ∀ q, d'.get? q ≠ d.get? q →
    (d.get? q = none ∧ d'.get? q = some .dir ∧ q <+: dir ++ [k.gpu]) ∨
    (KeyPlace dir k q ∧ d.get? q ≠ some .dir ∧ d'.get? q ≠ some .dir)

/-- `d'` is `d` with some of the key's own files removed, and nothing else changed. -/
def Clears (dir : List String) (k : Key) (d d' : Disk) : Prop :=
  ∀ q, d'.get? q ≠ d.get? q → KeyPlace dir k q ∧ (∃ b, d.get? q = some (.file b)) ∧ d'.get? q = none

theorem Confined.refl (d : Disk) : Confined dir k d d := fun _ changed => absurd rfl changed

theorem Clears.refl (d : Disk) : Clears dir k d d := fun _ changed => absurd rfl changed

theorem Confined.trans {d d1 d2 : Disk} (h : Confined dir k d d1) (h' : Confined dir k d1 d2) :
    Confined dir k d d2 := by
  intro q changed
  by_cases first : d1.get? q = d.get? q
  · rw [← first] at changed ⊢
    exact h' q changed
  · by_cases second : d2.get? q = d1.get? q
    · rw [second]
      exact h q first
    · -- changed twice: a directory made stays, so both changes are at a key's file
      rcases h q first with ⟨-, made, way⟩ | ⟨key, before, -⟩ <;>
        rcases h' q second with ⟨none, -, way'⟩ | ⟨key', -, after⟩
      · simp_all
      · exact absurd way (not_way_of_keyPlace key')
      · exact absurd way' (not_way_of_keyPlace key)
      · exact .inr ⟨key, before, after⟩

theorem Clears.trans {d d1 d2 : Disk} (h : Clears dir k d d1) (h' : Clears dir k d1 d2) :
    Clears dir k d d2 := by
  intro q changed
  by_cases first : d1.get? q = d.get? q
  · rw [← first] at changed ⊢
    exact h' q changed
  · -- a file removed is not removed again
    obtain ⟨key, before, gone⟩ := h q first
    refine ⟨key, before, ?_⟩
    by_cases second : d2.get? q = d1.get? q
    · rw [second, gone]
    · obtain ⟨-, ⟨b, file⟩, -⟩ := h' q second
      simp_all

theorem Clears.confined {d d' : Disk} (h : Clears dir k d d') : Confined dir k d d' := by
  intro q changed
  obtain ⟨key, ⟨b, file⟩, gone⟩ := h q changed
  exact .inr ⟨key, by simp [file], by simp [gone]⟩

theorem Confined.of_grown {d d' : Disk} (h : Grown d d' (dir ++ [k.gpu])) :
    Confined dir k d d' := fun q changed => .inl ((h q).resolve_left changed)

theorem confined_put (k : Key) {d : Disk} {name : String} (key : KeyFile k name)
    (notDir : d.get? (dir ++ [k.gpu, name]) ≠ some .dir) (bytes : List UInt8) :
    Confined dir k d (d.put (dir ++ [k.gpu, name]) (.file bytes)) := by
  intro q changed
  by_cases here : q = dir ++ [k.gpu, name]
  · subst here
    rw [get?_put_self d _ _ (fixed_family k.names.1 _ _)]
    exact .inr ⟨⟨name, key, rfl⟩, notDir, by simp⟩
  · exact absurd (get?_put_of_ne d _ here) changed

theorem Confined.others {d d' : Disk} (h : Confined dir k d d') {k' : Key} (ne : k' ≠ k)
    {name : String} (key : KeyFile k' name) :
    d'.get? (dir ++ [k'.gpu, name]) = d.get? (dir ++ [k'.gpu, name]) := by
  by_contra changed
  rcases h _ changed with ⟨-, -, way⟩ | ⟨⟨name', key', at'⟩, -, -⟩
  · simpa using way.length_le
  · exact place_ne ne key key' _ at'

end Confinement

theorem confined_writeAtomic (hs : s.PlainRoot) (k : Key) {d d' : Disk} {name : String}
    (key : KeyFile k name) (hn : IsName name) {p : Place}
    (hp : p.parts = s.root.parts ++ [k.gpu, name]) {bytes : List UInt8}
    (h : d.writeAtomic p bytes = .ok d') : Confined s.root.parts k d d' := by
  have hp' : p.parts = (s.root.parts ++ [k.gpu]) ++ [name] := by simp [hp]
  obtain ⟨rfl, notDir, -⟩ := writeAtomic_eq_ok hp' (hp ▸ plain_of_names hs k hn) h
  rw [hp] at notDir ⊢
  exact confined_put k key notDir bytes

theorem confined_writeLists (hs : s.PlainRoot) (k : Key) (notes : List Note) (d : Disk)
    (kinds : List (Outcome × List CaseId)) :
    Confined s.root.parts k d (s.writeLists k notes d kinds).disk := by
  induction kinds generalizing d notes with
  | nil => exact Confined.refl d
  | cons entry rest ih =>
    obtain ⟨kind, cases⟩ := entry
    unfold Store.writeLists
    by_cases listed : kind.isFileSuffix
    · simp only [listed, if_true]
      cases wrote : d.writeAtomic (s.subsetPath k kind) (Text.Utf8.encode (listText cases)) with
      | error e => exact Confined.refl d
      | ok d1 =>
        exact (confined_writeAtomic hs k (.inr (isListName_subset k listed))
          (isName_list k.names.2 listed) (subsetPath_parts hs k listed) wrote).trans (ih _ d1)
    · simp only [listed, Bool.false_eq_true, if_false]
      exact ih _ d

theorem clears_removeAll {d : Disk} (t : d.Tree) (hs : s.PlainRoot) (k : Key)
    {stale : List Place} (listed : s.listFiles k d = .ok stale) :
    Clears s.root.parts k d (removeAll d stale).2 ∧ (removeAll d stale).2.Tree := by
  obtain ⟨-, staleLists⟩ := listFiles_spec t hs k listed
  obtain ⟨t', frame, -⟩ := removeAll_spec t (listFiles_shape t hs k listed)
  refine ⟨fun q changed => ?_, t'⟩
  rcases frame q with same | ⟨mem, gone⟩
  · exact absurd same changed
  · obtain ⟨name, b, list, rfl, found⟩ := (staleLists _).mp mem
    exact ⟨⟨name, .inr list, rfl⟩, ⟨b, found⟩, gone⟩

theorem clears_removeFile (hs : s.PlainRoot) (k : Key) {d d' : Disk}
    (h : d.removeFile (s.jsonPath k) = .ok d') : Clears s.root.parts k d d' := by
  obtain ⟨rfl, b, file⟩ := removeFile_eq_ok (jsonPath_snoc hs k) (jsonPath_plain hs k) h
  rw [jsonPath_parts hs k] at file ⊢
  intro q changed
  by_cases here : q = s.root.parts ++ [k.gpu, k.filter ++ ".json"]
  · subst here
    exact ⟨⟨_, .inl rfl, rfl⟩, ⟨b, file⟩, get?_erase_self d _ (fixed_family k.names.1 _ _)⟩
  · exact absurd (get?_erase_of_ne d here) changed

/-! ## Saves and resets -/

theorem save_confined {d : Disk} (t : d.Tree) (hs : s.PlainRoot) (k : Key) (b : Baseline) :
    Confined s.root.parts k d (s.save k b d).disk := by
  have family := familyDir_parts hs k
  have created := t.createDirAll
    (show Resolved (s.familyDir k).parts by rw [family]; exact hs.2.snoc k.names.1)
  unfold Store.save
  cases made : d.createDirAll (s.familyDir k) with
  | mk d1 result =>
    rw [made, family] at created
    obtain ⟨grown, t1⟩ := created
    have step1 : Confined s.root.parts k d d1 := Confined.of_grown grown
    simp only [made]
    cases result with
    | error e => exact step1
    | ok u =>
      cases u
      dsimp only
      cases listed : s.listFiles k d1 with
      | error e => exact step1
      | ok stale =>
        dsimp only
        have step2 := step1.trans (clears_removeAll t1 hs k listed).1.confined
        cases removed : removeAll d1 stale with
        | mk r d2 =>
          rw [removed] at step2
          cases r with
          | error p => exact step2
          | ok more =>
            dsimp only
            have step3 := step2.trans (confined_writeLists hs k [] d2 b.kinds)
            cases (s.writeLists k [] d2 b.kinds).answer with
            | error e => exact step3
            | ok u =>
              cases u
              dsimp only
              cases json : (s.writeLists k [] d2 b.kinds).disk.writeAtomic (s.jsonPath k)
                  (Text.Utf8.encode b.toJson) with
              | error e => exact step3
              | ok d4 =>
                exact step3.trans (confined_writeAtomic hs k (.inl rfl) (isName_json k.names.2)
                  (jsonPath_parts hs k) json)

theorem save_keeps_or_writes_json {d : Disk} (t : d.Tree) (hs : s.PlainRoot) (k : Key)
    (b : Baseline) :
    (s.save k b d).disk.get? (s.root.parts ++ [k.gpu, k.filter ++ ".json"]) =
        d.get? (s.root.parts ++ [k.gpu, k.filter ++ ".json"]) ∨
      ∃ bytes, (s.save k b d).disk.get? (s.root.parts ++ [k.gpu, k.filter ++ ".json"]) =
        some (.file bytes) := by
  obtain ⟨-, d', changes, same | ⟨-, bytes, wrote⟩⟩ := save_frame t hs k b
  · -- before the baseline file is written, a save changes only the way and the lists
    refine .inl ?_
    rw [same]
    rcases changes (s.root.parts ++ [k.gpu, k.filter ++ ".json"]) with
      kept | ⟨-, -, way⟩ | ⟨name, list, at'⟩
    · exact kept
    · simpa using way.length_le
    · exact absurd (by simpa using at'.symm) (list_ne_json list k.filter)
  · refine .inr ⟨bytes, ?_⟩
    rw [wrote]
    simpa using get?_put_self d' (s.root.parts ++ [k.gpu] ++ [k.filter ++ ".json"]) (.file bytes)
      (fixed_snoc_name (isName_json k.names.2))

theorem reset_clears {d : Disk} (t : d.Tree) (hs : s.PlainRoot) (k : Key) :
    Clears s.root.parts k d (s.reset k d).2 := by
  unfold Store.reset
  dsimp only
  split
  · exact Clears.refl d
  · rename_i removed d1 first
    -- the first step removes the baseline file or finds it missing
    have ⟨step1, t1⟩ : Clears s.root.parts k d d1 ∧ d1.Tree := by
      split at first
      · rename_i d' removedFile
        cases first
        obtain ⟨rfl, b, file⟩ :=
          removeFile_eq_ok (jsonPath_snoc hs k) (jsonPath_plain hs k) removedFile
        exact ⟨clears_removeFile hs k removedFile, t.erase (by simp [file])⟩
      · cases first
        exact ⟨Clears.refl d, t⟩
      · cases first
    split
    · exact step1
    · rename_i lists listed
      obtain ⟨step2, -⟩ := clears_removeAll t1 hs k listed
      split <;> rename_i removedAll <;> rw [removedAll] at step2 <;> exact step1.trans step2

theorem save_ok_lists {d : Disk} (t : d.Tree) (hs : s.PlainRoot) (k : Key) {b : Baseline}
    (noDir : ∀ name, isListName k name = true →
      d.get? (s.root.parts ++ [k.gpu, name]) ≠ some .dir)
    (ok : (s.save k b d).answer = .ok ()) (nodup : (b.kinds.map (·.1)).Nodup) {name : String}
    (list : isListName k name = true) :
    (s.save k b d).disk.get? (s.root.parts ++ [k.gpu, name]) = listEntry k b name :=
  (save_ok t hs k nodup noDir ok).2.2.2.1 name list

theorem reset_ok_files {d : Disk} (t : d.Tree) (hs : s.PlainRoot) (k : Key)
    (noDir : ∀ name, isListName k name = true →
      d.get? (s.root.parts ++ [k.gpu, name]) ≠ some .dir)
    {r : Bool} (ok : (s.reset k d).1 = .ok r) {name : String} (key : KeyFile k name) :
    (s.reset k d).2.get? (s.root.parts ++ [k.gpu, name]) = none := by
  obtain ⟨-, json, lists, -⟩ := reset_ok t hs k noDir (Prod.ext ok rfl)
  rcases key with rfl | list
  · exact json
  · exact lists name list

/-! ## The store keeps to the key -/

/-- What the calls of the store on a key `k` do on a disk `d`, `b` being the baseline saved, with
the paths under the directory the root resolves to (`Store.dir`). -/
structure KeepsTo (s : Store) (k : Key) (b : Baseline) (d : Disk) : Prop where
  /-- A save, whether it succeeds or not, makes directories only on the way to the family
  directory and changes no file but the key's. -/
  save : Confined s.dir k d (s.save k b d).disk
  /-- A save leaves the key's baseline file as it was or writes it: the files it removes are
  lists. -/
  saveJson : (s.save k b d).disk.get? (s.dir ++ [k.gpu, k.filter ++ ".json"]) =
      d.get? (s.dir ++ [k.gpu, k.filter ++ ".json"]) ∨
    ∃ bytes, (s.save k b d).disk.get? (s.dir ++ [k.gpu, k.filter ++ ".json"]) =
      some (.file bytes)
  /-- A reset, whether it succeeds or not, only removes the key's files. -/
  reset : Clears s.dir k d (s.reset k d).2
  /-- A load reads only the way to the key's baseline file and that file. -/
  load : ∀ d', (∀ q, q <+: s.dir ++ [k.gpu, k.filter ++ ".json"] → d'.get? q = d.get? q) →
    s.load k d' = s.load k d
  /-- A load of a list reads only the way to the list and the list, and nothing for a kind
  that names no list. -/
  loadSubset : ∀ kind d', (kind.isFileSuffix = true →
      ∀ q, q <+: s.dir ++ [k.gpu, k.filter ++ "." ++ kind.name] → d'.get? q = d.get? q) →
    s.loadSubset k kind d' = s.loadSubset k kind d
  /-- No file of another key changes, also where one filter is a dotted prefix of another. -/
  others : ∀ k', k' ≠ k → ∀ name, KeyFile k' name →
    (s.save k b d).disk.get? (s.dir ++ [k'.gpu, name]) = d.get? (s.dir ++ [k'.gpu, name]) ∧
      (s.reset k d).2.get? (s.dir ++ [k'.gpu, name]) = d.get? (s.dir ++ [k'.gpu, name])
  /-- Where no directory stands at one of the key's lists, a save that succeeds leaves at each
  list only what the baseline gives, and a reset that succeeds none of the key's files. -/
  cleared : (∀ name, isListName k name = true → d.get? (s.dir ++ [k.gpu, name]) ≠ some .dir) →
    ((s.save k b d).answer = .ok () → (b.kinds.map (·.1)).Nodup → ∀ name, isListName k name = true →
      (s.save k b d).disk.get? (s.dir ++ [k.gpu, name]) = listEntry k b name) ∧
    (∀ r, (s.reset k d).1 = .ok r → ∀ name, KeyFile k name →
      (s.reset k d).2.get? (s.dir ++ [k.gpu, name]) = none)

/-- On a disk shaped as a file system, under a root that does not lead up, the calls of the
store on a key keep to the key's files and the way to its family directory. -/
theorem store_keeps_to_its_key {d : Disk} (t : d.Tree) (hs : s.NamedRoot) (k : Key)
    (b : Baseline) : s.KeepsTo k b d where
  -- each call is the call under the root without its `.` components, whose path is `s.dir`
  save := by
    rw [← save_resolved hs k t b]
    exact save_confined t hs.resolved k b
  saveJson := by
    rw [← save_resolved hs k t b]
    exact save_keeps_or_writes_json t hs.resolved k b
  reset := by
    rw [← reset_resolved hs k t]
    exact reset_clears t hs.resolved k
  load _ same := by
    rw [← load_resolved hs k, ← load_resolved hs k]
    exact load_congr_way hs.resolved k same
  loadSubset _ _ same := by
    rw [← loadSubset_resolved hs k, ← loadSubset_resolved hs k]
    exact loadSubset_congr_way hs.resolved k same
  others _ ne _ key := by
    rw [← save_resolved hs k t b, ← reset_resolved hs k t]
    exact ⟨(save_confined t hs.resolved k b).others ne key,
      (reset_clears t hs.resolved k).confined.others ne key⟩
  cleared noDir := by
    rw [← save_resolved hs k t b, ← reset_resolved hs k t]
    exact ⟨fun ok nodup _ list => save_ok_lists t hs.resolved k noDir ok nodup list,
      fun _ ok _ key => reset_ok_files t hs.resolved k noDir ok key⟩

/-- A save of `f` beside the filter `f.x`, which extends it by a dot, leaves the baseline file
of `f.x` alone, here under a root written `./s/`. -/
theorem save_spares_a_dotted_neighbour :
    let s : Store := ⟨⟨"./s/", [".", "s", "."]⟩⟩
    let d := (s.save (.mk "g" "f.x") ⟨[(Outcome.pass, [.mk "a"])]⟩ Disk.empty).disk
    d.Tree ∧ s.NamedRoot ∧
      (s.save (.mk "g" "f") ⟨[(Outcome.fail, [.mk "b"])]⟩ d).disk.get? ["s", "g", "f.x.json"] =
        d.get? ["s", "g", "f.x.json"] := by
  intro s d
  have hs : s.NamedRoot := ⟨by decide, [], ["s"], by decide, .inl rfl, by decide⟩
  have t : d.Tree := tree_save hs (.mk "g" "f.x") tree_empty _
  have kept := ((store_keeps_to_its_key t hs (.mk "g" "f") ⟨[(Outcome.fail, [.mk "b"])]⟩).others (.mk "g" "f.x")
    (by decide) "f.x.json" (.inl rfl)).1
  have dir : s.dir = ["s"] := by decide
  rw [dir] at kept
  exact ⟨t, hs, kept⟩

/-- A save makes every missing directory on the way to the family directory, those above the
root included: under the root `a/s`, on a disk with nothing on it, it makes `a`, which is
neither the root nor the family directory. -/
theorem save_makes_a_missing_root_parent :
    Disk.empty.get? ["a"] = none ∧
      ((Store.mk (Place.ofText "a/s")).save (.mk "g" "f") .empty Disk.empty).disk.get? ["a"] =
        some .dir ∧
      ["a"] ≠ (Place.ofText "a/s").parts ∧ ["a"] ≠ (Place.ofText "a/s").parts ++ ["g"] := by
  decide +kernel

end Store

end Conformance
