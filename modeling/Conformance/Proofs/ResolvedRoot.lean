import Conformance.Proofs.StoreFiles

/-!
# Roots written with `.`

A root may be written with `.` components or a trailing slash, as `./store` or `store/`, and the
file system resolves them where they stand, so a store under such a root works as the store under
the same text without them (`Store.resolved`). Dropping the `.` components of a place changes
nothing the file system does with it unless its last component is one, which asks for a
directory (`Disk.walk_filter_dot`): looking up, reading, removing, listing and writing resolve the
same path (`Disk.locate_undotted`), and making directories makes the same ones
(`Disk.createDirAll_undotted`). So on a tree and under a root that does not lead up
(`Store.NamedRoot`), each call of the store is the call of the resolved store
(`Store.save_resolved`, `Store.reset_resolved`, `Store.load_resolved`,
`Store.loadSubset_resolved`), and what holds under roots written with names only holds here.
-/

namespace Conformance

open Disk

namespace Place

/-- A place without its `.` components, shown as written. -/
def undotted (p : Place) : Place := ⟨p.shown, p.parts.filter (· ≠ ".")⟩

@[simp] theorem undotted_shown (p : Place) : p.undotted.shown = p.shown := rfl

end Place

namespace Disk

theorem checkNames_filter_dot (xs : List String) :
    checkNames (xs.filter (· ≠ ".")) = checkNames xs := by
  have same : ∀ x : String,
      (decide (x ≠ ".") && x.toList.contains (Char.ofNat 0)) = x.toList.contains (Char.ofNat 0) := by
    intro x
    by_cases dot : x = "."
    · subst dot
      decide
    · simp [dot]
  simp only [checkNames, List.any_filter, same]

theorem dot_short : ¬ ".".utf8ByteSize > nameLimit := by decide

theorem walk_dot_cons {d : Disk} {dir : List String} (hdir : d.get? dir = some .dir)
    (xs : List String) : d.walk dir ("." :: xs) = d.walk dir xs := by
  cases xs with
  | nil => simp [walk, step, dot_short]
  | cons y ys =>
    rw [walk_cons_cons, if_neg dot_short]
    simp [step, hdir]

theorem filter_dot_eq_nil {xs : List String} (h : xs.filter (· ≠ ".") = []) (ne : xs ≠ []) :
    xs.getLast? = some "." := by
  obtain ⟨init, x, rfl⟩ := List.eq_nil_or_concat xs |>.resolve_left ne
  have : x = "." := by simpa using List.filter_eq_nil_iff.mp h x (by simp)
  simp [this]

/-- From a directory, components without their `.` lead where the components lead, unless the
last is a `.`, which asks for a directory. -/
theorem walk_filter_dot {d : Disk} {dir : List String} (hdir : d.get? dir = some .dir)
    {xs : List String} (last : xs.getLast? ≠ some ".") :
    d.walk dir (xs.filter (· ≠ ".")) = d.walk dir xs := by
  induction xs generalizing dir with
  | nil => rfl
  | cons x rest ih =>
    cases rest with
    | nil =>
      have : x ≠ "." := fun dot => last (by simp [dot])
      simp [this]
    | cons y ys =>
      have restLast : (y :: ys).getLast? ≠ some "." := by simpa [List.getLast?_cons] using last
      by_cases dot : x = "."
      · subst dot
        rw [List.filter_cons_of_neg (by simp), walk_dot_cons hdir, ih hdir restLast]
      · rw [List.filter_cons_of_pos (by simpa using dot)]
        cases kept : (y :: ys).filter (· ≠ ".") with
        | nil => exact absurd (filter_dot_eq_nil kept (by simp)) restLast
        | cons z zs =>
          rw [walk_cons_cons, walk_cons_cons]
          split
          · rfl
          · cases next : d.get? (step dir x) with
            | none => rfl
            | some e =>
              cases e with
              | file b => rfl
              | dir =>
                dsimp only
                rw [← kept, ih next restLast]

section Undotted

variable (d : Disk) {p : Place} (last : p.parts.getLast? ≠ some ".")
include last

/-- A place whose last component is no `.` resolves where it resolves without its `.`
components. -/
theorem locate_undotted : d.locate p.undotted = d.locate p := by
  have names : checkNames p.undotted.parts = checkNames p.parts := checkNames_filter_dot p.parts
  have walked : d.walk [] p.undotted.parts = d.walk [] p.parts := walk_filter_dot (get?_nil d) last
  simp only [locate, names, walked]
  rfl

theorem read_undotted : d.read p.undotted = d.read p := by
  simp only [read, locate_undotted d last]

theorem readText_undotted : d.readText p.undotted = d.readText p := by
  simp only [readText, read_undotted d last]

theorem removeFile_undotted : d.removeFile p.undotted = d.removeFile p := by
  simp only [removeFile, locate_undotted d last]

theorem listDir_undotted : d.listDir p.undotted = d.listDir p := by
  simp only [listDir, locate_undotted d last]

theorem writeAtomic_undotted (bytes : List UInt8) :
    d.writeAtomic p.undotted bytes = d.writeAtomic p bytes := by
  have names : checkNames p.undotted.parts = checkNames p.parts := checkNames_filter_dot p.parts
  simp only [writeAtomic, locate_undotted d last, names]
  rfl

end Undotted

theorem resolve_dot_cons (d : Disk) (xs : List String) : d.resolve ("." :: xs) = d.resolve xs := by
  have names : checkNames ("." :: xs) = checkNames xs := by
    rw [← checkNames_filter_dot ("." :: xs), ← checkNames_filter_dot xs,
      List.filter_cons_of_neg (by simp)]
  simp only [resolve, names, walk_dot_cons (get?_nil d)]

theorem mkdir_dot_cons (d : Disk) (xs : List String) : d.mkdir ("." :: xs) = d.mkdir xs := by
  simp only [mkdir, resolve_dot_cons]

theorem isDir_dot_cons (d : Disk) (xs : List String) : d.isDir ("." :: xs) = d.isDir xs := by
  simp only [isDir, resolve_dot_cons]

/-- A directory made through a leading `.` is made where it is made without it. -/
theorem buildDirs_append_dot (d : Disk) (rs : List String) :
    d.buildDirs (rs ++ ["."]) = d.buildDirs rs := by
  induction rs generalizing d with
  | nil =>
    have made : d.mkdir ["."] = .error .alreadyExists := by
      rw [mkdir_dot_cons]
      simp [mkdir, resolve, checkNames, walk, bind, Except.bind, throw, throwThe,
        MonadExceptOf.throw]
    have isDir : d.isDir ["."] = true := by
      rw [isDir_dot_cons]
      simp [isDir, resolve, checkNames, walk, bind, Except.bind]
    simp [buildDirs, made, isDir]
  | cons name above ih =>
    have path : (name :: (above ++ ["."])).reverse = "." :: (name :: above).reverse := by simp
    simp only [List.cons_append, buildDirs, path, mkdir_dot_cons, isDir_dot_cons, ih]

theorem lexical_filter_dot (xs : List String) :
    lexical xs = lexical (xs.filter (· ≠ ".")) ∨
      lexical xs = "." :: lexical (xs.filter (· ≠ ".")) := by
  -- without its `.` components the path no longer starts with one, so all that can differ is a
  -- leading `.`
  have blanks :
      (xs.filter (· ≠ ".")).filter (· ≠ "") = (xs.filter (· ≠ "")).filter (· ≠ ".") := by
    simp only [List.filter_filter, Bool.and_comm]
  have dropped : lexical (xs.filter (· ≠ ".")) = (xs.filter (· ≠ "")).filter (· ≠ ".") := by
    unfold lexical
    rw [blanks]
    split
    · rename_i rest start
      have := List.mem_filter.mp (start ▸ List.mem_cons_self : "." ∈ _)
      simp at this
    · simp only [List.filter_filter, ← Bool.and_assoc, Bool.and_self]
  unfold lexical
  split
  · rename_i rest start
    refine .inr ?_
    rw [← lexical, dropped, start, List.filter_cons_of_neg (by simp)]
  · exact .inl (dropped.symm ▸ rfl)

/-- Making directories does not see a place's `.` components. -/
theorem createDirAll_undotted (d : Disk) (p : Place) :
    d.createDirAll p.undotted = d.createDirAll p := by
  have names : checkNames p.undotted.parts = checkNames p.parts := checkNames_filter_dot p.parts
  have built :
      d.buildDirs (lexical p.undotted.parts).reverse = d.buildDirs (lexical p.parts).reverse := by
    rcases lexical_filter_dot p.parts with same | dotted
    · rw [same]
      rfl
    · rw [dotted, List.reverse_cons, buildDirs_append_dot]
      rfl
  simp only [createDirAll, names, built]
  rfl

theorem accepted_undotted {p : Place} (h : Accepted p) : Accepted p.undotted :=
  ⟨(checkNames_filter_dot p.parts).trans h.1, h.2⟩

theorem NamesFit.undotted {p : Place} (h : NamesFit p) : NamesFit p.undotted :=
  fun x hx => h x (List.mem_filter.mp hx).1

theorem Fits.undotted {p : Place} (h : Fits p) : Fits p.undotted :=
  ⟨accepted_undotted h.1, NamesFit.undotted h.2⟩

end Disk

namespace Place

/-- A name joined to a place without an empty component, dots and all, is joined to the place
without its dots. -/
theorem join_undotted {p : Place} (blank : "" ∉ p.parts) {x : String} (hx : IsName x) :
    (p.join x).undotted = p.undotted.join x := by
  have nonempty : x.isEmpty = false := by simpa using hx.1
  have whole : p.parts ≠ [""] := fun h => blank (by simp [h])
  have kept : p.parts.filter (· ≠ ".") ≠ [""] := fun h =>
    blank (List.mem_filter.mp (h ▸ List.mem_singleton_self "")).1
  unfold join undotted
  simp only [hx.startsWith_slash, nonempty, partsOf_name hx, whole, kept, Bool.false_eq_true,
    if_false]
  split <;> simp [List.filter_append, hx.2.1]

/-- Joining a name to a shown place without an empty component gives another, ending in that
name. -/
theorem join_blank {p : Place} (shown : p.shown ≠ "") (blank : "" ∉ p.parts) {x : String}
    (hx : IsName x) :
    (p.join x).shown ≠ "" ∧ "" ∉ (p.join x).parts ∧ (p.join x).parts.getLast? ≠ some "." := by
  obtain ⟨parts, shown'⟩ := join_name shown (fun h => blank (by simp [h])) hx
  refine ⟨shown', ?_, ?_⟩ <;> rw [parts]
  · simpa [Ne.symm hx.1] using blank
  · simpa using hx.2.1

end Place

namespace Store

/-- The path the store's root leads to: its components without `.`. -/
def dir (s : Store) : List String := s.root.parts.filter (· ≠ ".")

/-- The store under its root written without `.`, shown as written. -/
def resolved (s : Store) : Store := ⟨s.root.undotted⟩

/-- A store whose root is not empty and, its `.` components aside, is written with names only,
perhaps from the file system's root: a root that does not lead up. -/
def NamedRoot (s : Store) : Prop := s.root.shown ≠ "" ∧ Resolved s.dir

section Paths

variable {s : Store} {k : Key}

theorem NamedRoot.resolved (hs : s.NamedRoot) : s.resolved.PlainRoot := hs

theorem NamedRoot.blank (hs : s.NamedRoot) : "" ∉ s.root.parts := fun mem =>
  (hs.2.plain "" (List.mem_filter.mpr ⟨mem, by decide⟩)).2 rfl

theorem familyDir_blank (hs : s.NamedRoot) (k : Key) :
    (s.familyDir k).shown ≠ "" ∧ "" ∉ (s.familyDir k).parts ∧
      (s.familyDir k).parts.getLast? ≠ some "." :=
  Place.join_blank hs.1 hs.blank k.names.1

theorem familyDir_undotted (hs : s.NamedRoot) (k : Key) :
    (s.familyDir k).undotted = s.resolved.familyDir k :=
  Place.join_undotted hs.blank k.names.1

theorem join_family_undotted (hs : s.NamedRoot) (k : Key) {name : String}
    (hn : IsName name) :
    ((s.familyDir k).join name).undotted = (s.resolved.familyDir k).join name := by
  rw [Place.join_undotted (familyDir_blank hs k).2.1 hn, familyDir_undotted hs k]

theorem join_family_last (hs : s.NamedRoot) (k : Key) {name : String} (hn : IsName name) :
    ((s.familyDir k).join name).parts.getLast? ≠ some "." :=
  (Place.join_blank (familyDir_blank hs k).1 (familyDir_blank hs k).2.1 hn).2.2

/-- Removing a key's baseline file from a tree leaves a tree. -/
theorem tree_removeFile_json (hs : s.PlainRoot) (k : Key) {d d' : Disk} (t : d.Tree)
    (h : d.removeFile (s.jsonPath k) = .ok d') : d'.Tree := by
  obtain ⟨rfl, b, file⟩ := removeFile_eq_ok (jsonPath_snoc hs k) (jsonPath_plain hs k) h
  exact t.erase (by simp [file])

/-- Removing places one after another does not see their `.` components, but for the place a
failure names. -/
theorem removeAll_undotted (d : Disk) {ps : List Place}
    (last : ∀ p ∈ ps, p.parts.getLast? ≠ some ".") :
    removeAll d (ps.map Place.undotted) =
      ((removeAll d ps).1.mapError Place.undotted, (removeAll d ps).2) := by
  induction ps generalizing d with
  | nil => rfl
  | cons p rest ih =>
    have restLast : ∀ q ∈ rest, q.parts.getLast? ≠ some "." := fun q mem =>
      last q (List.mem_cons_of_mem p mem)
    simp only [List.map_cons, removeAll, removeFile_undotted d (last p List.mem_cons_self)]
    cases removed : d.removeFile p with
    | ok d' =>
      simp only [ih d' restLast]
      cases (removeAll d' rest).1 <;> rfl
    | error e =>
      cases e <;> first | rfl | exact ih d restLast

end Paths

section Operations

variable {s : Store} (hs : s.NamedRoot) (k : Key)
include hs k

theorem jsonPath_undotted : (s.jsonPath k).undotted = s.resolved.jsonPath k :=
  join_family_undotted hs k (isName_json k.names.2)

theorem jsonPath_last : (s.jsonPath k).parts.getLast? ≠ some "." :=
  join_family_last hs k (isName_json k.names.2)

theorem subsetPath_undotted {kind : Outcome} (listed : kind.isFileSuffix) :
    (s.subsetPath k kind).undotted = s.resolved.subsetPath k kind :=
  join_family_undotted hs k (isName_list k.names.2 listed)

theorem subsetPath_last {kind : Outcome} (listed : kind.isFileSuffix) :
    (s.subsetPath k kind).parts.getLast? ≠ some "." :=
  join_family_last hs k (isName_list k.names.2 listed)

theorem loadNoted_resolved (d : Disk) : s.resolved.loadNoted k d = s.loadNoted k d := by
  unfold loadNoted
  rw [← jsonPath_undotted hs k]
  dsimp only
  rw [readText_undotted d (jsonPath_last hs k)]
  rfl

theorem load_resolved (d : Disk) : s.resolved.load k d = s.load k d := by
  simp only [load, loadNoted_resolved hs k]

theorem loadSubset_resolved (kind : Outcome) (d : Disk) :
    s.resolved.loadSubset k kind d = s.loadSubset k kind d := by
  unfold loadSubset
  cases listed : kind.isFileSuffix with
  | false => rfl
  | true =>
    simp only [Bool.not_true, Bool.false_eq_true, if_false]
    rw [← subsetPath_undotted hs k listed, readText_undotted d (subsetPath_last hs k listed)]
    rfl

theorem listDir_resolved (d : Disk) :
    d.listDir (s.resolved.familyDir k) = d.listDir (s.familyDir k) := by
  rw [← familyDir_undotted hs k, listDir_undotted d (familyDir_blank hs k).2.2]

/-- On a tree, the lists a listing of the family directory picks are named by names. -/
theorem isName_of_listed {d : Disk} (t : d.Tree) {entries : List (String × Entry)}
    (h : d.listDir (s.familyDir k) = .ok entries) {name : String}
    (mem : name ∈ Sorted.ofList (entries.filterMap fun (name, e) =>
      match e with
      | .file _ => if isListName k name then some name else none
      | .dir => none)) : IsName name := by
  have family := familyDir_parts hs.resolved k
  have plain : ∀ x ∈ (s.resolved.familyDir k).parts, Plain x := fun x hx =>
    ((hs.resolved.2.snoc k.names.1).plain x (family ▸ hx)).1
  obtain ⟨⟨n, e⟩, inEntries, picked⟩ := List.mem_filterMap.mp (Sorted.mem_ofList.mp mem)
  have same : n = name := by
    cases e with
    | file b =>
      simp only at picked
      split at picked <;> simp_all
    | dir => cases picked
  subst same
  exact ((t.mem_listDir family plain ((listDir_resolved hs k d).trans h) n e).mp inEntries).1

theorem listFiles_resolved {d : Disk} (t : d.Tree) :
    s.resolved.listFiles k d = (s.listFiles k d).map (·.map Place.undotted) := by
  unfold listFiles
  rw [listDir_resolved hs k d]
  cases h : d.listDir (s.familyDir k) with
  | error e => cases e <;> rfl
  | ok entries =>
    simp only [Except.map, List.map_map]
    congr 1
    refine List.map_congr_left fun name mem => ?_
    exact (join_family_undotted hs k (isName_of_listed hs k t h mem)).symm

theorem listFiles_last {d : Disk} (t : d.Tree) {places : List Place}
    (h : s.listFiles k d = .ok places) : ∀ p ∈ places, p.parts.getLast? ≠ some "." := by
  unfold listFiles at h
  split at h
  · rename_i entries listed
    cases h
    intro p mem
    obtain ⟨name, picked, rfl⟩ := List.mem_map.mp mem
    exact join_family_last hs k (isName_of_listed hs k t listed picked)
  · cases h
    simp
  · cases h

theorem writeLists_resolved (notes : List Note) (d : Disk)
    (kinds : List (Outcome × List CaseId)) :
    s.resolved.writeLists k notes d kinds = s.writeLists k notes d kinds := by
  induction kinds generalizing notes d with
  | nil => rfl
  | cons entry rest ih =>
    obtain ⟨kind, cases⟩ := entry
    unfold writeLists
    by_cases listed : kind.isFileSuffix
    · simp only [listed, if_true]
      rw [← subsetPath_undotted hs k listed, writeAtomic_undotted d (subsetPath_last hs k listed)]
      cases d.writeAtomic (s.subsetPath k kind) (Text.Utf8.encode (listText cases)) with
      | ok d' => exact ih notes d'
      | error e => rfl
    · simp only [listed, Bool.false_eq_true, if_false]
      exact ih _ d

/-- On a tree, a save under a root with `.` in it does what it does under the root without
them. -/
theorem save_resolved {d : Disk} (t : d.Tree) (b : Baseline) :
    s.resolved.save k b d = s.save k b d := by
  have made : d.createDirAll (s.resolved.familyDir k) = d.createDirAll (s.familyDir k) := by
    rw [← familyDir_undotted hs k, createDirAll_undotted]
  -- the directories made are made on a tree, so what the listing finds is named by names
  have created := (t.createDirAll (show Resolved (s.resolved.familyDir k).parts by
    rw [familyDir_parts hs.resolved k]
    exact hs.resolved.2.snoc k.names.1)).2
  rw [made] at created
  unfold save
  dsimp only
  rw [← familyDir_undotted hs k, createDirAll_undotted]
  cases c : d.createDirAll (s.familyDir k) with
  | mk d1 result =>
    rw [c] at created
    cases result with
    | error e => rfl
    | ok u =>
      dsimp only
      rw [listFiles_resolved hs k created]
      cases listed : s.listFiles k d1 with
      | error e => rfl
      | ok stale =>
        dsimp only [Except.map]
        rw [removeAll_undotted d1 (listFiles_last hs k created listed)]
        cases (removeAll d1 stale) with
        | mk r d2 =>
          cases r with
          | error p => rfl
          | ok more =>
            dsimp only [Except.mapError]
            simp only [writeLists_resolved hs k, ← jsonPath_undotted hs k,
              writeAtomic_undotted _ (jsonPath_last hs k), Place.undotted_shown]

/-- On a tree, a reset under a root with `.` in it does what it does under the root without
them. -/
theorem reset_resolved {d : Disk} (t : d.Tree) : s.resolved.reset k d = s.reset k d := by
  unfold reset
  dsimp only
  rw [← jsonPath_undotted hs k, removeFile_undotted d (jsonPath_last hs k),
    ← familyDir_undotted hs k]
  simp only [Place.undotted_shown]
  split
  · rfl
  · rename_i removed d1 first
    -- the first step removes the baseline file or finds none, and leaves a tree
    have t1 : d1.Tree := by
      split at first
      · rename_i d' gone
        cases first
        rw [← removeFile_undotted d (jsonPath_last hs k), jsonPath_undotted hs k] at gone
        exact tree_removeFile_json hs.resolved k t gone
      · cases first
        exact t
      · cases first
    rw [listFiles_resolved hs k t1]
    cases listed : s.listFiles k d1 with
    | error e => rfl
    | ok lists =>
      dsimp only [Except.map]
      rw [removeAll_undotted d1 (listFiles_last hs k t1 listed)]
      cases removeAll d1 lists with
      | mk r d2 => cases r <;> rfl

/-- A save keeps a disk a tree, whether it succeeds or not. -/
theorem tree_save {d : Disk} (t : d.Tree) (b : Baseline) : (s.save k b d).disk.Tree := by
  rw [← save_resolved hs k t b]
  exact (save_frame t hs.resolved k b).1

/-- A reset keeps a disk a tree, whether it succeeds or not. -/
theorem tree_reset {d : Disk} (t : d.Tree) : (s.reset k d).2.Tree := by
  rw [← reset_resolved hs k t]
  unfold reset
  dsimp only
  split
  · exact t
  · rename_i removed d1 first
    have t1 : d1.Tree := by
      split at first
      · rename_i d' gone
        cases first
        exact tree_removeFile_json hs.resolved k t gone
      · cases first
        exact t
      · cases first
    split
    · exact t1
    · rename_i lists listed
      have cleared := (removeAll_spec t1 (listFiles_shape t1 hs.resolved k listed)).1
      split <;> rename_i removedAll <;> rw [removedAll] at cleared <;> exact cleared

end Operations

end Store

end Conformance
