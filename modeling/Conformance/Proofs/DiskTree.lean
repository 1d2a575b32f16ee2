import Conformance.Disk
import Mathlib.Data.List.Infix
import Mathlib.Data.List.Nodup

/-!
# Disks as file systems have them

A file system is a tree (`Disk.Tree`): each path holds one entry at most, each inside a
directory that exists, and putting an entry in an existing directory or erasing what is no
directory keeps a tree (`Tree.put`, `Tree.erase`). Paths made of names resolve as written
(`walk_of_way`), and on a tree a resolution that fails met a file on its way
(`Tree.walk_of_file`) or a missing directory, below which nothing is (`Tree.walk_of_clear`). So
a place reads what its path holds unless a file stands on its way (`Tree.read_of_clear`,
`Tree.read_of_file`), two trees read a place alike where they agree on its way
(`Tree.read_congr`), each operation that succeeds does what its name says (`removeFile_eq_ok`,
`writeAtomic_eq_ok`, `mkdir_eq_ok`, `Tree.mem_listDir`), and creating directories only makes
directories where nothing stood (`Tree.createDirAll`).
-/

namespace Conformance

namespace Disk

/-- A component that names an entry inside a directory: not empty, not `.` or `..`, and
without a slash. -/
def IsName (x : String) : Prop := x ≠ "" ∧ x ≠ "." ∧ x ≠ ".." ∧ '/' ∉ x.toList

instance (x : String) : Decidable (IsName x) := inferInstanceAs (Decidable (_ ∧ _ ∧ _ ∧ _))

theorem IsName.startsWith_slash {x : String} (h : IsName x) : x.startsWith "/" = false := by
  rw [String.startsWith_string_eq_false_iff]
  intro pre
  exact h.2.2.2 (pre.subset (by simp))

end Disk

open Disk

namespace Place

theorem partsOf_name {x : String} (h : IsName x) : partsOf x = [x] := by
  have start := h.startsWith_slash
  obtain ⟨nonempty, -, -, noSlash⟩ := h
  have stop : x.endsWith "/" = false := by
    rw [String.endsWith_eq_endsWith_toSlice, String.Slice.endsWith_string_eq_false_iff]
    intro suf
    exact noSlash (by simpa using suf.subset (by simp))
  have split : (x.toList.splitOn '/').map String.ofList = [x] := by
    rw [List.splitOn_eq_singleton noSlash]
    simp
  simp [partsOf, nonempty, start, stop, split]

theorem join_name {p : Place} {x : String} (shown : p.shown ≠ "") (parts : p.parts ≠ [""])
    (h : IsName x) : (p.join x).parts = p.parts ++ [x] ∧ (p.join x).shown ≠ "" := by
  have nonempty : x.isEmpty = false := by simpa using h.1
  have shownNonempty : p.shown.isEmpty = false := by simpa using shown
  unfold join
  simp only [h.startsWith_slash, shownNonempty, nonempty, parts, partsOf_name h, Bool.false_eq_true,
    if_false]
  refine ⟨trivial, ?_⟩
  split <;> simp [shown]

end Place

namespace Disk

/-- The disk of a file system: each path holds one entry at most, none stands where a
directory always is, and each is named by its last component inside a directory that
exists. -/
structure Tree (d : Disk) : Prop where
  nodup : (d.entries.map (·.1)).Nodup
  unfixed : ∀ e ∈ d.entries, fixed e.1 = false
  inDir : ∀ e ∈ d.entries, ∃ dir name,
    e.1 = dir ++ [name] ∧ IsName name ∧ d.get? dir = some .dir

theorem tree_empty : empty.Tree := ⟨List.nodup_nil, by simp [empty], by simp [empty]⟩

theorem get?_of_fixed (d : Disk) {p : List String} (h : fixed p = true) : d.get? p = some .dir := by
  simp [get?, h]

/-- The working directory is always a directory. -/
@[simp] theorem get?_nil (d : Disk) : d.get? [] = some .dir := d.get?_of_fixed rfl

theorem fixed_snoc_name {xs : List String} {n : String} (h : IsName n) :
    fixed (xs ++ [n]) = false := by
  have notUp : ¬ (xs ++ [n]).all (· == "..") = true := by simp [h.2.2.1]
  have notRoot : xs ++ [n] ≠ ["/"] := by
    intro root
    obtain ⟨-, last⟩ | ⟨-, last⟩ := List.append_eq_singleton_iff.mp root
    · exact h.2.2.2 (by simp [List.singleton_inj.mp last])
    · simp at last
  simp [fixed, notUp, notRoot]

theorem mem_of_get? {d : Disk} {p : List String} {e : Entry} (hf : fixed p = false)
    (h : d.get? p = some e) : (p, e) ∈ d.entries := by
  simp only [get?, hf, Bool.false_eq_true, if_false, Option.map_eq_some_iff] at h
  obtain ⟨x, found, rfl⟩ := h
  have key : x.1 = p := by simpa using List.find?_some found
  rw [← key]
  exact List.mem_of_find?_eq_some found

theorem Tree.get?_of_mem {d : Disk} (t : d.Tree) {p : List String} {e : Entry}
    (h : (p, e) ∈ d.entries) : d.get? p = some e := by
  have hf := t.unfixed _ h
  simp only at hf
  simp only [get?, hf, Bool.false_eq_true, if_false, Option.map_eq_some_iff]
  obtain ⟨x, found⟩ : ∃ x, d.entries.find? (·.1 = p) = some x := by
    cases hx : d.entries.find? (·.1 = p) with
    | some x => exact ⟨x, rfl⟩
    | none => exact absurd h (by simpa using List.find?_eq_none.mp hx (p, e))
  refine ⟨x, found, ?_⟩
  have key : x.1 = p := by simpa using List.find?_some found
  have same := List.inj_on_of_nodup_map t.nodup (List.mem_of_find?_eq_some found) h key
  rw [same]

theorem Tree.get?_eq_some_iff {d : Disk} (t : d.Tree) {p : List String} {e : Entry}
    (hf : fixed p = false) : d.get? p = some e ↔ (p, e) ∈ d.entries :=
  ⟨mem_of_get? hf, t.get?_of_mem⟩

theorem Tree.get?_dropLast {d : Disk} (t : d.Tree) {xs : List String} {n : String} {e : Entry}
    (h : d.get? (xs ++ [n]) = some e) : d.get? xs = some .dir := by
  cases hf : fixed (xs ++ [n]) with
  | true =>
    apply get?_of_fixed
    simp only [fixed, Bool.or_eq_true, List.all_eq_true, beq_iff_eq] at hf ⊢
    rcases hf with up | root
    · exact .inl (fun x hx => up x (List.mem_append_left _ hx))
    · obtain ⟨rfl, -⟩ | ⟨-, h'⟩ := List.append_eq_singleton_iff.mp root
      · exact .inl (by simp)
      · simp at h'
  | false =>
    obtain ⟨dir, name, split, -, isDir⟩ := t.inDir _ (mem_of_get? hf h)
    have := List.append_inj_left' split rfl
    rw [this]
    exact isDir

theorem Tree.dir_of_prefix {d : Disk} (t : d.Tree) {p : List String} {e : Entry}
    (h : d.get? p = some e) {q : List String} (hq : q <+: p) (ne : q ≠ p) :
    d.get? q = some .dir := by
  induction p using List.reverseRecOn generalizing e with
  | nil => exact absurd (List.prefix_nil.mp hq) ne
  | append_singleton l a ih =>
    have parent := t.get?_dropLast h
    rcases List.prefix_concat_iff.mp hq with same | shorter
    · exact absurd same ne
    · by_cases atParent : q = l
      · rw [atParent]
        exact parent
      · exact ih parent shorter atParent

theorem Tree.isName_of_file {d : Disk} (t : d.Tree) {xs : List String} {n : String}
    {b : List UInt8} (h : d.get? (xs ++ [n]) = some (.file b)) : IsName n := by
  have hf : fixed (xs ++ [n]) = false := by
    cases fixedHere : fixed (xs ++ [n]) with
    | false => rfl
    | true => simp [get?_of_fixed d fixedHere] at h
  obtain ⟨dir, name, split, hname, -⟩ := t.inDir _ (mem_of_get? hf h)
  obtain ⟨-, same⟩ := List.append_inj' split rfl
  rw [List.singleton_inj.mp same]
  exact hname

theorem Tree.get?_eq_none_of_prefix {d : Disk} (t : d.Tree) {p q : List String}
    (h : d.get? q = none) (hq : q <+: p) : d.get? p = none := by
  cases found : d.get? p with
  | none => rfl
  | some e =>
    by_cases same : q = p
    · rw [same] at h
      simp_all
    · have := t.dir_of_prefix found hq same
      simp_all

/-! ### Resolving components that are looked up as written -/

/-- A component the file system looks up as written: neither `.` nor `..`. -/
def Plain (x : String) : Prop := x ≠ "." ∧ x ≠ ".."

theorem IsName.plain {x : String} (h : IsName x) : Plain x := ⟨h.2.1, h.2.2.1⟩

theorem step_plain (dir : List String) {x : String} (h : Plain x) : step dir x = dir ++ [x] := by
  simp [step, h.1, h.2]

/-- Every directory met on the way from `dir` through the components `xs` exists, `dir`
itself included. -/
def Way (d : Disk) (dir xs : List String) : Prop :=
  ∀ q, q <+: xs → d.get? (dir ++ q) = some .dir

theorem way_cons {d : Disk} {dir : List String} {x : String} {xs : List String} :
    Way d dir (x :: xs) ↔ d.get? dir = some .dir ∧ Way d (dir ++ [x]) xs := by
  constructor
  · intro way
    refine ⟨by simpa using way [] List.nil_prefix, fun q hq => ?_⟩
    simpa using way (x :: q) (List.cons_prefix_cons.mpr ⟨rfl, hq⟩)
  · rintro ⟨here, rest⟩ q hq
    rcases List.prefix_cons_iff.mp hq with rfl | ⟨r, rfl, hr⟩
    · simpa using here
    · simpa using rest r hr

theorem walk_cons_cons (d : Disk) (dir : List String) (part next : String) (rest : List String) :
    d.walk dir (part :: next :: rest) =
      if part.utf8ByteSize > nameLimit then .error .nameTooLong
      else match d.get? (step dir part) with
        | some .dir => d.walk (step dir part) (next :: rest)
        | some (.file _) => .error .notDirectory
        | none => .error .notFound := rfl

theorem walk_cons_plain (d : Disk) (dir : List String) {x : String} (hx : Plain x)
    (fit : x.utf8ByteSize ≤ nameLimit) {rest : List String} (hr : rest ≠ []) :
    d.walk dir (x :: rest) =
      match d.get? (dir ++ [x]) with
      | some .dir => d.walk (dir ++ [x]) rest
      | some (.file _) => .error .notDirectory
      | none => .error .notFound := by
  obtain ⟨y, ys, rfl⟩ := List.exists_cons_of_ne_nil hr
  rw [walk_cons_cons, if_neg (by omega), step_plain dir hx]

/-- Through existing directories, components looked up as written lead where they say. -/
theorem walk_of_way {d : Disk} {xs : List String} {n : String}
    (names : ∀ x ∈ xs ++ [n], Plain x ∧ x.utf8ByteSize ≤ nameLimit) (dir : List String)
    (way : Way d dir xs) : d.walk dir (xs ++ [n]) = .ok (dir ++ xs ++ [n]) := by
  induction xs generalizing dir with
  | nil =>
    have hn := names n (by simp)
    simp [walk, show ¬ n.utf8ByteSize > nameLimit by omega, step_plain dir hn.1]
  | cons x xs ih =>
    have hx := names x (by simp)
    have next := (way_cons.mp way).2
    have isDir : d.get? (dir ++ [x]) = some .dir := by simpa using next [] List.nil_prefix
    rw [List.cons_append, walk_cons_plain d dir hx.1 hx.2 (by simp), isDir]
    simp only
    rw [ih (fun y hy => names y (by simp_all)) _ next]
    simp

theorem walk_eq_ok {d : Disk} {xs : List String} {n : String} (plain : ∀ x ∈ xs ++ [n], Plain x)
    {dir t : List String} (hdir : d.get? dir = some .dir)
    (h : d.walk dir (xs ++ [n]) = .ok t) : t = dir ++ xs ++ [n] ∧ Way d dir xs := by
  induction xs generalizing dir with
  | nil =>
    have hn := plain n (by simp)
    simp only [List.nil_append, walk] at h
    split at h
    · cases h
    · cases h
      exact ⟨by simp [step_plain dir hn], fun q hq => by simp_all [List.prefix_nil.mp hq]⟩
  | cons x xs ih =>
    have hx := plain x (by simp)
    obtain ⟨y, ys, split⟩ := List.exists_cons_of_ne_nil (show xs ++ [n] ≠ [] by simp)
    rw [List.cons_append, split, walk_cons_cons, step_plain dir hx] at h
    split at h
    · cases h
    · split at h
      · rename_i isDir
        rw [← split] at h
        obtain ⟨rfl, way⟩ := ih (fun y hy => plain y (by simp_all)) isDir h
        exact ⟨by simp, way_cons.mpr ⟨hdir, way⟩⟩
      · cases h
      · cases h

theorem walk_eq_notFound {d : Disk} {xs : List String} {n : String}
    (plain : ∀ x ∈ xs ++ [n], Plain x) {dir : List String}
    (h : d.walk dir (xs ++ [n]) = .error .notFound) :
    ∃ q, q <+: xs ∧ d.get? (dir ++ q) = none := by
  induction xs generalizing dir with
  | nil =>
    simp only [List.nil_append, walk] at h
    split at h <;> cases h
  | cons x xs ih =>
    have hx := plain x (by simp)
    obtain ⟨y, ys, split⟩ := List.exists_cons_of_ne_nil (show xs ++ [n] ≠ [] by simp)
    rw [List.cons_append, split, walk_cons_cons, step_plain dir hx] at h
    split at h
    · cases h
    · split at h
      · rw [← split] at h
        obtain ⟨q, hq, missing⟩ := ih (fun y hy => plain y (by simp_all)) h
        exact ⟨x :: q, List.cons_prefix_cons.mpr ⟨rfl, hq⟩, by simpa using missing⟩
      · cases h
      · rename_i missing
        exact ⟨[x], List.cons_prefix_cons.mpr ⟨rfl, List.nil_prefix⟩, missing⟩

/-- On a tree, a file on the way stops the resolution: it is not a directory. -/
theorem Tree.walk_of_file {d : Disk} (t : d.Tree) {xs : List String} {n : String}
    (names : ∀ x ∈ xs ++ [n], Plain x ∧ x.utf8ByteSize ≤ nameLimit) (dir : List String)
    {q : List String} {b : List UInt8} (hdir : d.get? dir = some .dir) (hq : q <+: xs)
    (hf : d.get? (dir ++ q) = some (.file b)) : d.walk dir (xs ++ [n]) = .error .notDirectory := by
  induction xs generalizing dir q with
  | nil => simp_all [List.prefix_nil.mp hq]
  | cons x xs ih =>
    have hx := names x (by simp)
    rcases List.prefix_cons_iff.mp hq with rfl | ⟨r, rfl, hr⟩
    · simp_all
    rw [List.cons_append, walk_cons_plain d dir hx.1 hx.2 (by simp)]
    by_cases atX : r = []
    · subst atX
      simp_all
    -- the file stands below the next directory looked up
    have above : d.get? (dir ++ [x]) = some .dir :=
      t.dir_of_prefix hf ⟨r, by simp⟩ (by simp [atX])
    rw [above]
    exact ih (fun y hy => names y (by simp_all)) _ above hr (by simpa using hf)

/-- On a tree, a resolution with no file on its way either succeeds or finds nothing, and
then nothing is at the path either. -/
theorem Tree.walk_of_clear {d : Disk} (t : d.Tree) {xs : List String} {n : String}
    (names : ∀ x ∈ xs ++ [n], Plain x ∧ x.utf8ByteSize ≤ nameLimit) (dir : List String)
    (clear : ∀ q b, q <+: xs → d.get? (dir ++ q) ≠ some (.file b)) :
    d.walk dir (xs ++ [n]) = .ok (dir ++ xs ++ [n]) ∨
      (d.walk dir (xs ++ [n]) = .error .notFound ∧ d.get? (dir ++ xs ++ [n]) = none) := by
  induction xs generalizing dir with
  | nil =>
    have hn := names n (by simp)
    left
    simp [walk, show ¬ n.utf8ByteSize > nameLimit by omega, step_plain dir hn.1]
  | cons x xs ih =>
    have hx := names x (by simp)
    rw [List.cons_append, walk_cons_plain d dir hx.1 hx.2 (by simp)]
    have here := fun b => clear [x] b (List.cons_prefix_cons.mpr ⟨rfl, List.nil_prefix⟩)
    cases found : d.get? (dir ++ [x]) with
    | none =>
      refine .inr ⟨rfl, ?_⟩
      cases whole : d.get? (dir ++ (x :: xs) ++ [n]) with
      | none => rfl
      | some e =>
        -- something at the path would need the next directory to exist
        have parent : d.get? (dir ++ [x]) = some .dir :=
          t.dir_of_prefix whole ⟨xs ++ [n], by simp⟩ (by simp)
        simp_all
    | some e =>
      cases e with
      | file b => exact absurd found (here b)
      | dir =>
        simp only
        have rest := ih (fun y hy => names y (by simp_all)) (dir ++ [x])
          (fun q b hq => by simpa using clear (x :: q) b (List.cons_prefix_cons.mpr ⟨rfl, hq⟩))
        simpa using rest

/-! ### Paths made of names -/

/-- The components of a resolved path made of names: the root `/` maybe, then names. -/
def Resolved (path : List String) : Prop :=
  ∃ top names, path = top ++ names ∧ (top = [] ∨ top = ["/"]) ∧ ∀ x ∈ names, IsName x

theorem Resolved.snoc {xs : List String} {n : String} (h : Resolved xs) (hn : IsName n) :
    Resolved (xs ++ [n]) := by
  obtain ⟨top, names, rfl, htop, hnames⟩ := h
  refine ⟨top, names ++ [n], by simp, htop, fun x hx => ?_⟩
  rcases List.mem_append.mp hx with old | new
  · exact hnames x old
  · rw [List.mem_singleton.mp new]
    exact hn

theorem Resolved.plain {path : List String} (h : Resolved path) :
    ∀ x ∈ path, Plain x ∧ x ≠ "" := by
  obtain ⟨top, names, rfl, htop, hnames⟩ := h
  intro x hx
  rcases List.mem_append.mp hx with inTop | inNames
  · rcases htop with rfl | rfl
    · simp at inTop
    · simp only [List.mem_singleton] at inTop
      subst inTop
      exact ⟨⟨by decide, by decide⟩, by decide⟩
  · exact ⟨(hnames x inNames).plain, (hnames x inNames).1⟩

theorem Resolved.of_prefix {path q : List String} (h : Resolved path) (hq : q <+: path) :
    Resolved q := by
  obtain ⟨top, names, rfl, htop, hnames⟩ := h
  obtain ⟨rest, hrest⟩ := hq
  rcases htop with rfl | rfl
  · refine ⟨[], q, rfl, .inl rfl, fun x hx => hnames x ?_⟩
    rw [List.nil_append] at hrest
    rw [← hrest]
    simp [hx]
  · cases q with
    | nil => exact ⟨[], [], rfl, .inl rfl, by simp⟩
    | cons y ys =>
      simp only [List.cons_append, List.cons.injEq] at hrest
      obtain ⟨rfl, hys⟩ := hrest
      refine ⟨["/"], ys, rfl, .inr rfl, fun x hx => hnames x ?_⟩
      rw [List.nil_append] at hys
      rw [← hys]
      simp [hx]

theorem Resolved.last {xs : List String} {n : String} (h : Resolved (xs ++ [n])) :
    IsName n ∨ xs ++ [n] = ["/"] := by
  obtain ⟨top, names, split, htop, hnames⟩ := h
  rcases List.eq_nil_or_concat names with rfl | ⟨init, last, rfl⟩
  · rcases htop with rfl | rfl
    · simp at split
    · exact .inr (by simpa using split)
  · rw [List.concat_eq_append, ← List.append_assoc] at split
    obtain ⟨-, same⟩ := List.append_inj' split rfl
    rw [List.singleton_inj.mp same]
    exact .inl (hnames _ (by simp))

/-! ### What each operation keeps of a tree -/

/-- Putting an entry in an existing directory under a name keeps a tree, unless it puts a
file over a directory. -/
theorem Tree.put {d : Disk} (t : d.Tree) {xs : List String} {n : String} {e : Entry}
    (hd : d.get? xs = some .dir) (hn : IsName n)
    (keep : d.get? (xs ++ [n]) = some .dir → e = .dir) :
    (d.put (xs ++ [n]) e).Tree := by
  have ne : xs ≠ xs ++ [n] := by simp
  refine ⟨?_, ?_, ?_⟩
  · have kept : ((d.entries.filter (·.1 ≠ xs ++ [n])).map (·.1)).Nodup :=
      t.nodup.sublist ((List.filter_sublist).map _)
    simp only [Disk.put, List.map_append, List.map_cons, List.map_nil]
    refine List.nodup_append.mpr ⟨kept, List.nodup_singleton _, ?_⟩
    simp
  · intro x hx
    rcases List.mem_append.mp hx with old | new
    · exact t.unfixed x (List.mem_filter.mp old).1
    · rw [List.mem_singleton.mp new]
      exact fixed_snoc_name hn
  · intro x hx
    rcases List.mem_append.mp hx with old | new
    · obtain ⟨dir, name, split, hname, isDir⟩ := t.inDir x (List.mem_filter.mp old).1
      refine ⟨dir, name, split, hname, ?_⟩
      by_cases here : dir = xs ++ [n]
      · subst here
        rw [keep isDir]
        exact get?_put_self d _ _ (fixed_snoc_name hn)
      · rw [get?_put_of_ne d _ here]
        exact isDir
    · rw [List.mem_singleton.mp new]
      exact ⟨xs, n, rfl, hn, by rw [get?_put_of_ne d _ ne]; exact hd⟩

/-- Erasing what is no directory keeps a tree: nothing stood inside it. -/
theorem Tree.erase {d : Disk} (t : d.Tree) {p : List String} (notDir : d.get? p ≠ some .dir) :
    (d.erase p).Tree := by
  refine ⟨t.nodup.sublist ((List.filter_sublist).map _), fun x hx =>
    t.unfixed x (List.mem_filter.mp hx).1, fun x hx => ?_⟩
  obtain ⟨dir, name, split, hname, isDir⟩ := t.inDir x (List.mem_filter.mp hx).1
  have ne : dir ≠ p := fun same => notDir (same ▸ isDir)
  exact ⟨dir, name, split, hname, by rw [get?_erase_of_ne d ne]; exact isDir⟩

/-! ### Operations on a place -/

/-- A place's text and components are taken by the file system: no NUL in it and its text
short enough; only then is anything looked up. -/
def Accepted (p : Place) : Prop := checkNames p.parts = .ok () ∧ p.tooLong = false

/-- Each component of a place is within the length of a file name. -/
def NamesFit (p : Place) : Prop := ∀ x ∈ p.parts, x.utf8ByteSize ≤ nameLimit

/-- A place the file system takes whole: accepted, and each component within the length of a
file name. -/
def Fits (p : Place) : Prop := Accepted p ∧ ∀ x ∈ p.parts, x.utf8ByteSize ≤ nameLimit

theorem locate_of_accepted (d : Disk) {p : Place} (h : Accepted p) :
    d.locate p = d.walk [] p.parts := by
  simp [locate, h.1, h.2, bind, Except.bind]

theorem locate_of_refused {p : Place} (h : ¬ Accepted p) :
    ∃ e, ∀ d : Disk, d.locate p = .error e := by
  unfold locate
  unfold Accepted at h
  cases hc : checkNames p.parts with
  | error e => exact ⟨e, fun d => by simp [bind, Except.bind]⟩
  | ok u =>
    have long : p.tooLong = true := by simpa [hc] using h
    exact ⟨.nameTooLong, fun d => by
      simp [bind, Except.bind, long, throw, throwThe, MonadExceptOf.throw]⟩

theorem walk_of_locate {d : Disk} {p : Place} {r : Except IoError (List String)}
    (h : d.locate p = r) (named : r ≠ .error .invalidName) (short : r ≠ .error .nameTooLong) :
    d.walk [] p.parts = r := by
  unfold locate at h
  cases hc : checkNames p.parts with
  | error e =>
    have invalid : e = .invalidName := by
      unfold checkNames at hc
      split at hc <;> cases hc
      rfl
    simp [hc, bind, Except.bind, invalid] at h
    exact absurd h.symm named
  | ok u =>
    cases long : p.tooLong with
    | true =>
      simp [hc, long, bind, Except.bind, throw, throwThe, MonadExceptOf.throw] at h
      exact absurd h.symm short
    | false => simpa [hc, long, bind, Except.bind] using h

/-- What a look-up of a resolved path finds as a file's octets. -/
def found (d : Disk) (path : List String) : Except IoError (List UInt8) :=
  match d.get? path with
  | some (.file b) => .ok b
  | some .dir => .error .isDirectory
  | none => .error .notFound

theorem read_eq (d : Disk) (p : Place) : d.read p = (d.locate p).bind d.found := rfl

/-- On a tree, a place the file system takes reads what its path holds, when no file stands
on its way. -/
theorem Tree.read_of_clear {d : Disk} (t : d.Tree) {p : Place} (fits : Fits p) {xs : List String}
    {n : String} (hp : p.parts = xs ++ [n]) (plain : ∀ x ∈ p.parts, Plain x)
    (clear : ∀ q b, q <+: xs → d.get? q ≠ some (.file b)) : d.read p = d.found p.parts := by
  have names : ∀ x ∈ xs ++ [n], Plain x ∧ x.utf8ByteSize ≤ nameLimit :=
    fun x hx => ⟨plain x (hp ▸ hx), fits.2 x (hp ▸ hx)⟩
  rw [read_eq, locate_of_accepted d fits.1, hp]
  rcases t.walk_of_clear names [] (fun q b hq => by simpa using clear q b hq) with
    ok | ⟨none, nothing⟩
  · rw [ok]
    rfl
  · rw [none]
    simp only [List.nil_append] at nothing
    simp [Except.bind, found, nothing]

/-- On a tree, a place the file system takes with a file on its way is not a directory. -/
theorem Tree.read_of_file {d : Disk} (t : d.Tree) {p : Place} (fits : Fits p) {xs : List String}
    {n : String} (hp : p.parts = xs ++ [n]) (plain : ∀ x ∈ p.parts, Plain x) {q : List String}
    {b : List UInt8} (hq : q <+: xs) (hf : d.get? q = some (.file b)) :
    d.read p = .error .notDirectory := by
  have names : ∀ x ∈ xs ++ [n], Plain x ∧ x.utf8ByteSize ≤ nameLimit :=
    fun x hx => ⟨plain x (hp ▸ hx), fits.2 x (hp ▸ hx)⟩
  rw [read_eq, locate_of_accepted d fits.1, hp,
    t.walk_of_file names [] (get?_nil d) hq (by simpa using hf)]
  rfl

/-- On trees, a place whose components fit reads alike where the files on its way and the
entry at its path are alike. -/
theorem Tree.read_congr {d d' : Disk} (t : d.Tree) (t' : d'.Tree) {p : Place} {xs : List String}
    {n : String} (hp : p.parts = xs ++ [n]) (plain : ∀ x ∈ p.parts, Plain x)
    (fit : ∀ x ∈ p.parts, x.utf8ByteSize ≤ nameLimit)
    (files : ∀ q b, q <+: xs → (d.get? q = some (.file b) ↔ d'.get? q = some (.file b)))
    (here : d.get? p.parts = d'.get? p.parts) : d.read p = d'.read p := by
  by_cases accepted : Accepted p
  · have fits : Fits p := ⟨accepted, fit⟩
    by_cases blocked : ∃ q b, q <+: xs ∧ d.get? q = some (.file b)
    · obtain ⟨q, b, hq, hf⟩ := blocked
      rw [t.read_of_file fits hp plain hq hf,
        t'.read_of_file fits hp plain hq ((files q b hq).mp hf)]
    · have clear : ∀ q b, q <+: xs → d.get? q ≠ some (.file b) :=
        fun q b hq hf => blocked ⟨q, b, hq, hf⟩
      have clear' : ∀ q b, q <+: xs → d'.get? q ≠ some (.file b) :=
        fun q b hq hf => clear q b hq ((files q b hq).mpr hf)
      rw [t.read_of_clear fits hp plain clear, t'.read_of_clear fits hp plain clear', found, found,
        here]
  · obtain ⟨e, refused⟩ := locate_of_refused accepted
    rw [read_eq, read_eq, refused d, refused d']
    rfl

theorem read_eq_ok {d : Disk} {p : Place} {xs : List String} {n : String}
    (hp : p.parts = xs ++ [n]) (plain : ∀ x ∈ p.parts, Plain x) {b : List UInt8}
    (h : d.read p = .ok b) : d.get? p.parts = some (.file b) := by
  rw [read_eq] at h
  cases hl : d.locate p with
  | error e => simp [hl, Except.bind] at h
  | ok target =>
    have hw := walk_of_locate hl (by simp) (by simp)
    rw [hp] at hw
    obtain ⟨rfl, -⟩ := walk_eq_ok (hp ▸ plain) (get?_nil d) hw
    simp only [hl, Except.bind, found] at h
    rw [hp]
    split at h <;> simp_all

theorem read_eq_notFound {d : Disk} {p : Place} {xs : List String} {n : String}
    (hp : p.parts = xs ++ [n]) (plain : ∀ x ∈ p.parts, Plain x)
    (h : d.read p = .error .notFound) :
    d.get? p.parts = none ∨ ∃ q, q <+: xs ∧ d.get? q = none := by
  rw [read_eq] at h
  cases hl : d.locate p with
  | error e =>
    simp only [hl, Except.bind, Except.error.injEq] at h
    subst h
    have hw := walk_of_locate hl (by simp) (by simp)
    rw [hp] at hw
    obtain ⟨q, hq, missing⟩ := walk_eq_notFound (hp ▸ plain) hw
    exact .inr ⟨q, hq, by simpa using missing⟩
  | ok target =>
    have hw := walk_of_locate hl (by simp) (by simp)
    rw [hp] at hw
    obtain ⟨rfl, -⟩ := walk_eq_ok (hp ▸ plain) (get?_nil d) hw
    simp only [hl, Except.bind, found] at h
    rw [hp]
    split at h <;> simp_all

/-- A removal that succeeds erased the file at the path. -/
theorem removeFile_eq_ok {d d' : Disk} {p : Place} {xs : List String} {n : String}
    (hp : p.parts = xs ++ [n]) (plain : ∀ x ∈ p.parts, Plain x) (h : d.removeFile p = .ok d') :
    d' = d.erase p.parts ∧ ∃ b, d.get? p.parts = some (.file b) := by
  unfold removeFile at h
  cases hl : d.locate p with
  | error e => simp [hl, bind, Except.bind] at h
  | ok target =>
    have hw := walk_of_locate hl (by simp) (by simp)
    rw [hp] at hw
    obtain ⟨rfl, -⟩ := walk_eq_ok (hp ▸ plain) (get?_nil d) hw
    simp only [hl, bind, Except.bind] at h
    rw [hp]
    split at h
    · rename_i b isFile
      exact ⟨(Except.ok.inj h).symm, b, isFile⟩
    · cases h
    · cases h

theorem removeFile_eq_notFound {d : Disk} {p : Place} {xs : List String} {n : String}
    (hp : p.parts = xs ++ [n]) (plain : ∀ x ∈ p.parts, Plain x)
    (h : d.removeFile p = .error .notFound) :
    d.get? p.parts = none ∨ ∃ q, q <+: xs ∧ d.get? q = none := by
  unfold removeFile at h
  cases hl : d.locate p with
  | error e =>
    simp only [hl, bind, Except.bind, Except.error.injEq] at h
    subst h
    have hw := walk_of_locate hl (by simp) (by simp)
    rw [hp] at hw
    obtain ⟨q, hq, missing⟩ := walk_eq_notFound (hp ▸ plain) hw
    exact .inr ⟨q, hq, by simpa using missing⟩
  | ok target =>
    have hw := walk_of_locate hl (by simp) (by simp)
    rw [hp] at hw
    obtain ⟨rfl, -⟩ := walk_eq_ok (hp ▸ plain) (get?_nil d) hw
    simp only [hl, bind, Except.bind] at h
    rw [hp]
    split at h <;> simp_all [throw, throwThe, MonadExceptOf.throw, pure, Except.pure]

theorem Tree.get?_of_removeFile_notFound {d : Disk} (t : d.Tree) {p : Place} {xs : List String}
    {n : String} (hp : p.parts = xs ++ [n]) (plain : ∀ x ∈ p.parts, Plain x)
    (h : d.removeFile p = .error .notFound) : d.get? p.parts = none := by
  rcases removeFile_eq_notFound hp plain h with none | ⟨q, hq, none⟩
  · exact none
  · rw [hp]
    exact t.get?_eq_none_of_prefix none (hq.trans (List.prefix_append _ _))

theorem walk_fits {d : Disk} {dir xs r : List String} (h : d.walk dir xs = .ok r) :
    ∀ x ∈ xs, x.utf8ByteSize ≤ nameLimit := by
  induction xs generalizing dir with
  | nil => simp
  | cons part rest ih =>
    cases rest with
    | nil =>
      simp only [walk] at h
      split at h
      · cases h
      · rename_i short
        simpa using Nat.le_of_not_gt short
    | cons next more =>
      rw [walk_cons_cons] at h
      split at h
      · cases h
      · rename_i short
        split at h
        · intro x hx
          rcases List.mem_cons.mp hx with rfl | mem
          · exact Nat.le_of_not_gt short
          · exact ih h x mem
        · cases h
        · cases h

theorem fits_of_locate {d : Disk} {p : Place} {r : List String} (h : d.locate p = .ok r) :
    Fits p := by
  by_cases accepted : Accepted p
  · rw [locate_of_accepted d accepted] at h
    exact ⟨accepted, walk_fits h⟩
  · obtain ⟨e, refused⟩ := locate_of_refused accepted
    rw [refused d] at h
    cases h

theorem fits_of_writeAtomic {d d' : Disk} {p : Place} {bytes : List UInt8}
    (h : d.writeAtomic p bytes = .ok d') : Fits p := by
  unfold writeAtomic at h
  split at h
  · simp [bind, Except.bind, throw, throwThe, MonadExceptOf.throw] at h
    split at h <;> cases h
  cases hl : d.locate p with
  | error e => simp [hl, bind, Except.bind] at h
  | ok target => exact fits_of_locate hl

/-- A write that succeeds put the file at the path, in an existing directory and over no
directory. -/
theorem writeAtomic_eq_ok {d d' : Disk} {p : Place} {bytes : List UInt8} {xs : List String}
    {n : String} (hp : p.parts = xs ++ [n]) (plain : ∀ x ∈ p.parts, Plain x)
    (h : d.writeAtomic p bytes = .ok d') :
    d' = d.put p.parts (.file bytes) ∧ d.get? p.parts ≠ some .dir ∧ Way d [] xs := by
  unfold writeAtomic at h
  split at h
  · simp [bind, Except.bind, throw, throwThe, MonadExceptOf.throw] at h
    split at h <;> cases h
  cases hl : d.locate p with
  | error e => simp [hl, bind, Except.bind] at h
  | ok target =>
    have hw := walk_of_locate hl (by simp) (by simp)
    rw [hp] at hw
    obtain ⟨rfl, way⟩ := walk_eq_ok (hp ▸ plain) (get?_nil d) hw
    simp only [hl, bind, Except.bind, pure, Except.pure] at h
    rw [hp]
    split at h
    · cases h
    · rename_i notDir
      exact ⟨(Except.ok.inj h).symm, fun isDir => notDir isDir, way⟩

/-- Making a directory that succeeds put it where nothing stood, in an existing directory. -/
theorem mkdir_eq_ok {d d' : Disk} {xs : List String} {n : String}
    (plain : ∀ x ∈ xs ++ [n], Plain x) (h : d.mkdir (xs ++ [n]) = .ok d') :
    d' = d.put (xs ++ [n]) .dir ∧ d.get? (xs ++ [n]) = none ∧ Way d [] xs := by
  unfold mkdir resolve at h
  cases hc : checkNames (xs ++ [n]) with
  | error e => simp [hc, bind, Except.bind] at h
  | ok u =>
    cases hw : d.walk [] (xs ++ [n]) with
    | error e => simp [hc, hw, bind, Except.bind] at h
    | ok target =>
      obtain ⟨rfl, way⟩ := walk_eq_ok plain (get?_nil d) hw
      simp only [hc, hw, bind, Except.bind, pure, Except.pure] at h
      split at h
      · simp [throw, throwThe, MonadExceptOf.throw] at h
      · rename_i nothing
        exact ⟨(Except.ok.inj h).symm, by simpa using nothing, way⟩

theorem listDir_eq_ok {d : Disk} {p : Place} {xs : List String} {n : String}
    (hp : p.parts = xs ++ [n]) (plain : ∀ x ∈ p.parts, Plain x) {es : List (String × Entry)}
    (h : d.listDir p = .ok es) :
    d.get? p.parts = some .dir ∧ es = d.entries.filterMap fun (q, e) =>
      match q.drop p.parts.length with
      | [name] => if q.take p.parts.length = p.parts then some (name, e) else none
      | _ => none := by
  unfold listDir at h
  cases hl : d.locate p with
  | error e => simp [hl, bind, Except.bind] at h
  | ok target =>
    have hw := walk_of_locate hl (by simp) (by simp)
    rw [hp] at hw
    obtain ⟨rfl, -⟩ := walk_eq_ok (hp ▸ plain) (get?_nil d) hw
    simp only [hl, bind, Except.bind, pure, Except.pure] at h
    rw [hp]
    split at h
    · exact ⟨by assumption, (Except.ok.inj h).symm⟩
    · cases h
    · cases h

theorem listDir_eq_notFound {d : Disk} {p : Place} {xs : List String} {n : String}
    (hp : p.parts = xs ++ [n]) (plain : ∀ x ∈ p.parts, Plain x)
    (h : d.listDir p = .error .notFound) :
    d.get? p.parts = none ∨ ∃ q, q <+: xs ∧ d.get? q = none := by
  unfold listDir at h
  cases hl : d.locate p with
  | error e =>
    simp only [hl, bind, Except.bind, Except.error.injEq] at h
    subst h
    have hw := walk_of_locate hl (by simp) (by simp)
    rw [hp] at hw
    obtain ⟨q, hq, missing⟩ := walk_eq_notFound (hp ▸ plain) hw
    exact .inr ⟨q, hq, by simpa using missing⟩
  | ok target =>
    have hw := walk_of_locate hl (by simp) (by simp)
    rw [hp] at hw
    obtain ⟨rfl, -⟩ := walk_eq_ok (hp ▸ plain) (get?_nil d) hw
    simp only [hl, bind, Except.bind] at h
    rw [hp]
    split at h <;> simp_all [throw, throwThe, MonadExceptOf.throw, pure, Except.pure]

theorem child_eq_some_iff (dir q : List String) (e e' : Entry) (name : String) :
    (match q.drop dir.length with
      | [x] => if q.take dir.length = dir then some (x, e) else none
      | _ => none) = some (name, e') ↔ q = dir ++ [name] ∧ e = e' := by
  constructor
  · intro h
    split at h
    · rename_i x below
      split at h
      · rename_i above
        simp only [Option.some.injEq, Prod.mk.injEq] at h
        obtain ⟨rfl, rfl⟩ := h
        refine ⟨?_, rfl⟩
        rw [← List.take_append_drop dir.length q, above, below]
      · cases h
    · cases h
  · rintro ⟨rfl, rfl⟩
    simp

/-- On a tree, a listing that succeeds gives each entry directly inside the directory, under
its name. -/
theorem Tree.mem_listDir {d : Disk} (t : d.Tree) {p : Place} {xs : List String} {n : String}
    (hp : p.parts = xs ++ [n]) (plain : ∀ x ∈ p.parts, Plain x) {es : List (String × Entry)}
    (h : d.listDir p = .ok es) (name : String) (e : Entry) :
    (name, e) ∈ es ↔ IsName name ∧ d.get? (p.parts ++ [name]) = some e := by
  obtain ⟨-, rfl⟩ := listDir_eq_ok hp plain h
  rw [List.mem_filterMap]
  constructor
  · rintro ⟨⟨q, e'⟩, mem, child⟩
    obtain ⟨rfl, rfl⟩ := (child_eq_some_iff _ _ _ _ _).mp child
    obtain ⟨dir, name', split, hname, -⟩ := t.inDir _ mem
    obtain ⟨-, same⟩ := List.append_inj' split rfl
    obtain rfl := List.singleton_inj.mp same
    exact ⟨hname, t.get?_of_mem mem⟩
  · rintro ⟨hname, found⟩
    exact ⟨(p.parts ++ [name], e), mem_of_get? (fixed_snoc_name hname) found,
      (child_eq_some_iff _ _ _ _ _).mpr ⟨rfl, rfl⟩⟩

/-! ### Making directories -/

/-- `d'` is `d` with directories made where nothing stood, each on a prefix of `path`. -/
def Grown (d d' : Disk) (path : List String) : Prop :=
  ∀ q, d'.get? q = d.get? q ∨ (d.get? q = none ∧ d'.get? q = some .dir ∧ q <+: path)

theorem Grown.refl (d : Disk) (path : List String) : Grown d d path := fun _ => .inl rfl

theorem Grown.trans {d d' d'' : Disk} {path : List String} (h : Grown d d' path)
    (h' : Grown d' d'' path) : Grown d d'' path := by
  intro q
  rcases h' q with same' | ⟨none', made', hq'⟩ <;> rcases h q with same | ⟨none, made, hq⟩
  · exact .inl (same'.trans same)
  · exact .inr ⟨none, same'.trans made, hq⟩
  · exact .inr ⟨same ▸ none', made', hq'⟩
  · simp_all

theorem Grown.mono {d d' : Disk} {path path' : List String} (h : Grown d d' path)
    (sub : path <+: path') : Grown d d' path' := by
  intro q
  rcases h q with same | ⟨none, made, hq⟩
  · exact .inl same
  · exact .inr ⟨none, made, hq.trans sub⟩

theorem Tree.mkdir {d d' : Disk} (t : d.Tree) {xs : List String} {n : String}
    (hr : Resolved (xs ++ [n])) (h : d.mkdir (xs ++ [n]) = .ok d') :
    Grown d d' (xs ++ [n]) ∧ d'.Tree := by
  obtain ⟨rfl, nothing, way⟩ := mkdir_eq_ok (fun x hx => (hr.plain x hx).1) h
  have hn : IsName n := by
    rcases hr.last with name | root
    · exact name
    · rw [root] at nothing
      simp [get?_of_fixed d (show fixed ["/"] = true from rfl)] at nothing
  have parent : d.get? xs = some .dir := by simpa using way xs (List.prefix_refl xs)
  refine ⟨fun q => ?_, t.put parent hn (by simp [nothing])⟩
  by_cases here : q = xs ++ [n]
  · subst here
    exact .inr ⟨nothing, get?_put_self d _ _ (fixed_snoc_name hn), List.prefix_refl _⟩
  · exact .inl (get?_put_of_ne d _ here)

theorem Tree.buildDirs {d : Disk} (t : d.Tree) {rs : List String} (hr : Resolved rs.reverse) :
    Grown d (d.buildDirs rs).1 rs.reverse ∧ (d.buildDirs rs).1.Tree := by
  induction rs generalizing d with
  | nil => exact ⟨Grown.refl d _, t⟩
  | cons name above ih =>
    rw [List.reverse_cons] at hr ⊢
    have hr' : Resolved above.reverse := hr.of_prefix (List.prefix_append _ _)
    have sub : above.reverse <+: above.reverse ++ [name] := List.prefix_append _ _
    unfold Disk.buildDirs
    simp only [List.reverse_cons]
    cases made : d.mkdir (above.reverse ++ [name]) with
    | ok d' => exact t.mkdir hr made
    | error e =>
      cases e with
      | notFound =>
        -- the way is missing: the directories above are made first, then this one again
        have first := ih t hr'
        dsimp only
        cases built : d.buildDirs above with
        | mk d' r =>
          rw [built] at first
          cases r with
          | error e' => exact ⟨first.1.mono sub, first.2⟩
          | ok u =>
            cases u
            dsimp only
            cases made' : d'.mkdir (above.reverse ++ [name]) with
            | ok d'' =>
              have second := first.2.mkdir hr made'
              exact ⟨(first.1.mono sub).trans second.1, second.2⟩
            | error e'' => exact ⟨first.1.mono sub, first.2⟩
      | _ => exact ⟨Grown.refl d _, t⟩

theorem lexical_of_plain {parts : List String} (h : ∀ x ∈ parts, Plain x ∧ x ≠ "") :
    lexical parts = parts := by
  have noEmpty : parts.filter (· ≠ "") = parts := List.filter_eq_self.mpr (by simp_all)
  unfold lexical
  rw [noEmpty]
  split
  · rename_i rest
    exact absurd rfl (h "." (by simp)).1.1
  · exact List.filter_eq_self.mpr (fun x hx => by simpa using (h x hx).1.1)

/-- On a tree, creating a directory whose path is made of names only makes directories on
its prefixes where nothing stood, whether it succeeds or not, and keeps a tree. -/
theorem Tree.createDirAll {d : Disk} (t : d.Tree) {p : Place} (hr : Resolved p.parts) :
    Grown d (d.createDirAll p).1 p.parts ∧ (d.createDirAll p).1.Tree := by
  unfold Disk.createDirAll
  split
  · exact ⟨Grown.refl d _, t⟩
  · split
    · exact ⟨Grown.refl d _, t⟩
    · rw [lexical_of_plain hr.plain]
      have built := t.buildDirs (show Resolved p.parts.reverse.reverse by simpa using hr)
      simpa using built

end Disk
end Conformance
