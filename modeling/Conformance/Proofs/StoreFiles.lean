import Conformance.Store
import Conformance.Proofs.DiskTree
import Conformance.Proofs.Sorted

/-!
# What the store does to the files under its root

A store keeps the baseline of a key in its GPU family's directory, in a file named by the
filter with `.json` after it, and the cases of each kind whose name can end a file name in a
list named by the filter, a dot and the kind; since a filter may hold dots, a list is told from
another filter's files by its last dot (`isListName`). On a disk that is a tree (`Disk.Tree`)
and under a root of names (`Store.PlainRoot`), a save that succeeds (`Store.save_ok`) leaves
the baseline file and the key's lists holding the baseline and nothing else changed but
directories made on the way to the family's, a reset that succeeds (`Store.reset_ok`) takes
them all away and answers whether one was there, and a save that fails changes nothing but
directories made and the key's lists (`Store.save_frame`).
-/

namespace Conformance

open Disk

namespace Key

theorem isName_of_checkPart {part : KeyPart} {raw value : String}
    (h : checkPart part raw = .ok value) : IsName value := by
  unfold checkPart at h
  dsimp only at h
  split at h
  · cases h
  split at h
  · cases h
  split at h
  · cases h
  rename_i nonempty separator reserved
  cases h
  refine ⟨nonempty, fun dot => reserved (.inl dot), fun dots => reserved (.inr dots), fun slash => ?_⟩
  apply separator
  simp only [List.any_eq_true, Bool.or_eq_true, beq_iff_eq]
  exact ⟨'/', slash, .inl rfl⟩

theorem names (k : Key) : IsName k.gpu ∧ IsName k.filter :=
  ⟨isName_of_checkPart k.gpuChecked, isName_of_checkPart k.filterChecked⟩

end Key

theorem Outcome.suffix_name {o : Outcome} (h : o.isFileSuffix) :
    o.name ≠ "" ∧ o.name ≠ "json" ∧ '.' ∉ o.name.toList ∧ '/' ∉ o.name.toList := by
  simp only [Outcome.isFileSuffix, Bool.and_eq_true, Bool.not_eq_eq_eq_not, Bool.not_true,
    String.isEmpty_eq_false_iff, bne_iff_ne, ne_eq, List.any_eq_false] at h
  obtain ⟨⟨nonempty, notJson⟩, breakers⟩ := h
  refine ⟨nonempty, notJson, fun dot => ?_, fun slash => ?_⟩
  · exact breakers '.' dot (by decide)
  · exact breakers '/' slash (by decide)

theorem first_dot_unique : ∀ {b e a c : List Char}, '.' ∉ b → '.' ∉ e →
    b ++ '.' :: a = e ++ '.' :: c → b = e ∧ a = c
  | [], [], _, _, _, _, h => ⟨rfl, by simpa using h⟩
  | [], y :: ys, _, _, _, he, h => by
    simp only [List.nil_append, List.cons_append, List.cons.injEq] at h
    exact absurd (h.1 ▸ List.mem_cons_self) he
  | x :: xs, [], _, _, hb, _, h => by
    simp only [List.nil_append, List.cons_append, List.cons.injEq] at h
    exact absurd (h.1 ▸ List.mem_cons_self) hb
  | x :: xs, y :: ys, _, _, hb, he, h => by
    simp only [List.cons_append, List.cons.injEq] at h
    obtain ⟨rfl, rest⟩ := h
    obtain ⟨rfl, rfl⟩ := first_dot_unique (fun m => hb (List.mem_cons_of_mem _ m))
      (fun m => he (List.mem_cons_of_mem _ m)) rest
    exact ⟨rfl, rfl⟩

theorem last_dot_unique {a b c e : List Char} (hb : '.' ∉ b) (he : '.' ∉ e)
    (h : a ++ '.' :: b = c ++ '.' :: e) : a = c ∧ b = e := by
  have back : b.reverse ++ '.' :: a.reverse = e.reverse ++ '.' :: c.reverse := by
    simpa using congrArg List.reverse h
  obtain ⟨same, rest⟩ := first_dot_unique (by simpa using hb) (by simpa using he) back
  exact ⟨List.reverse_inj.mp rest, List.reverse_inj.mp same⟩

namespace Store

/-- A store whose root is not empty and is written with names only, perhaps from the file
system's root. -/
def PlainRoot (s : Store) : Prop := s.root.shown ≠ "" ∧ Resolved s.root.parts

variable {s : Store} {k : Key}

theorem isName_json {f : String} (hf : IsName f) : IsName (f ++ ".json") := by
  have long : (f ++ ".json").length = f.length + 5 := by
    rw [String.length_append]
    rfl
  refine ⟨fun h => ?_, fun h => ?_, fun h => ?_, ?_⟩
  · rw [h] at long
    have : "".length = 0 := rfl
    omega
  · rw [h] at long
    have : ".".length = 1 := rfl
    omega
  · rw [h] at long
    have : "..".length = 2 := rfl
    omega
  · simpa using hf.2.2.2

theorem isName_list {f : String} (hf : IsName f) {kind : Outcome} (hsuffix : kind.isFileSuffix) :
    IsName (f ++ "." ++ kind.name) := by
  obtain ⟨nonempty, -, -, slash⟩ := Outcome.suffix_name hsuffix
  have fLong : 0 < f.length := by
    have := hf.1
    rw [ne_eq, ← String.length_eq_zero_iff] at this
    omega
  have kindLong : 0 < kind.name.length := by
    rw [ne_eq, ← String.length_eq_zero_iff] at nonempty
    omega
  have long : (f ++ "." ++ kind.name).length = f.length + 1 + kind.name.length := by
    rw [String.length_append, String.length_append]
    rfl
  refine ⟨fun h => ?_, fun h => ?_, fun h => ?_, ?_⟩
  · rw [h] at long
    have : "".length = 0 := rfl
    omega
  · rw [h] at long
    have : ".".length = 1 := rfl
    omega
  · rw [h] at long
    have : "..".length = 2 := rfl
    omega
  · simpa using ⟨hf.2.2.2, slash⟩

theorem familyDir_join (hs : s.PlainRoot) (k : Key) {name : String} (hn : IsName name) :
    ((s.familyDir k).join name).parts = s.root.parts ++ [k.gpu, name] := by
  have rootParts : s.root.parts ≠ [""] := fun h => by
    have := (hs.2.plain "" (by simp [h])).2
    exact this rfl
  obtain ⟨family, shown⟩ := Place.join_name hs.1 rootParts k.names.1
  have familyParts : (s.familyDir k).parts ≠ [""] := by
    unfold familyDir
    rw [family]
    intro h
    obtain ⟨-, last⟩ | ⟨-, last⟩ := List.append_eq_singleton_iff.mp h
    · exact k.names.1.1 (List.singleton_inj.mp last)
    · simp at last
  unfold familyDir at familyParts ⊢
  rw [(Place.join_name shown familyParts hn).1, family]
  simp

theorem familyDir_parts (hs : s.PlainRoot) (k : Key) :
    (s.familyDir k).parts = s.root.parts ++ [k.gpu] := by
  have rootParts : s.root.parts ≠ [""] := fun h => (hs.2.plain "" (by simp [h])).2 rfl
  exact (Place.join_name hs.1 rootParts k.names.1).1

theorem isListName_iff (k : Key) (name : String) :
    isListName k name = true ↔ ∃ suffix, name.toList = k.filter.toList ++ '.' :: suffix ∧
      suffix ≠ [] ∧ suffix ≠ "json".toList ∧ '.' ∉ suffix := by
  have pre : (k.filter ++ ".").toList = k.filter.toList ++ ['.'] := by simp
  unfold isListName
  simp only [pre, Bool.and_eq_true, List.isPrefixOf_iff_prefix, Bool.not_eq_eq_eq_not,
    Bool.not_true, List.isEmpty_eq_false_iff, bne_iff_ne, ne_eq, List.contains_eq_mem,
    decide_eq_false_iff_not]
  constructor
  · rintro ⟨⟨suffix, whole⟩, ⟨nonempty, notJson⟩, noDot⟩
    have rest : name.toList.drop (k.filter.toList ++ ['.']).length = suffix := by
      rw [← whole, List.drop_left]
    rw [rest] at nonempty notJson noDot
    exact ⟨suffix, by rw [← whole]; simp, nonempty, notJson, noDot⟩
  · rintro ⟨suffix, whole, nonempty, notJson, noDot⟩
    have rest : name.toList.drop (k.filter.toList ++ ['.']).length = suffix := by
      rw [whole, show k.filter.toList ++ '.' :: suffix = (k.filter.toList ++ ['.']) ++ suffix by simp,
        List.drop_left]
    rw [rest]
    exact ⟨⟨suffix, by rw [whole]; simp⟩, ⟨nonempty, notJson⟩, noDot⟩

theorem isListName_json (k : Key) (f : String) : isListName k (f ++ ".json") = false := by
  rw [Bool.eq_false_iff]
  intro h
  obtain ⟨suffix, whole, -, notJson, noDot⟩ := (isListName_iff k _).mp h
  have split : f.toList ++ '.' :: "json".toList = k.filter.toList ++ '.' :: suffix := by
    rw [← whole]
    simp
  exact notJson (last_dot_unique (by decide) noDot split).2.symm

theorem list_ne_json {k : Key} {name : String} (h : isListName k name = true) (f : String) :
    name ≠ f ++ ".json" := by
  rintro rfl
  simp [isListName_json] at h

theorem isListName_subset (k : Key) {kind : Outcome} (hsuffix : kind.isFileSuffix) :
    isListName k (k.filter ++ "." ++ kind.name) = true := by
  obtain ⟨nonempty, notJson, noDot, -⟩ := Outcome.suffix_name hsuffix
  refine (isListName_iff k _).mpr ⟨kind.name.toList, by simp, ?_, ?_, noDot⟩
  · simpa using nonempty
  · intro same
    exact notJson (String.toList_inj.mp (by simpa using same))

theorem filter_eq_of_isListName {k : Key} {f : String} {kind : Outcome} (hsuffix : kind.isFileSuffix)
    (h : isListName k (f ++ "." ++ kind.name) = true) : f = k.filter := by
  obtain ⟨suffix, whole, -, -, noDot⟩ := (isListName_iff k _).mp h
  have split : f.toList ++ '.' :: kind.name.toList = k.filter.toList ++ '.' :: suffix := by
    rw [← whole]
    simp
  exact String.toList_inj.mp (last_dot_unique (Outcome.suffix_name hsuffix).2.2.1 noDot split).1

theorem picked_spec {d : Disk} (t : d.Tree) (hs : s.PlainRoot) (k : Key)
    {entries : List (String × Entry)} (listed : d.listDir (s.familyDir k) = .ok entries)
    {pick : String × Entry → Option String}
    (file : ∀ name b, pick (name, .file b) = if isListName k name then some name else none)
    (dir : ∀ name, pick (name, .dir) = none) :
    let places := (Sorted.ofList (entries.filterMap pick)).map (s.familyDir k).join
    (places.map (·.parts)).Nodup ∧ ∀ q, q ∈ places.map (·.parts) ↔
      ∃ name b, isListName k name = true ∧ q = s.root.parts ++ [k.gpu, name] ∧
        d.get? q = some (.file b) := by
  have family := familyDir_parts hs k
  have plain : ∀ x ∈ (s.familyDir k).parts, Plain x := fun x hx =>
    ((hs.2.snoc k.names.1).plain x (family ▸ hx)).1
  have named : ∀ name, name ∈ Sorted.ofList (entries.filterMap pick) ↔
      isListName k name = true ∧ IsName name ∧
        ∃ b, d.get? (s.root.parts ++ [k.gpu, name]) = some (.file b) := by
    intro name
    rw [Sorted.mem_ofList, List.mem_filterMap]
    constructor
    · rintro ⟨⟨name', e⟩, mem, kept⟩
      obtain ⟨hname, found⟩ := (t.mem_listDir family plain listed name' e).mp mem
      cases e with
      | dir => simp [dir] at kept
      | file b =>
        rw [file] at kept
        split at kept
        · cases kept
          rw [family] at found
          exact ⟨by assumption, hname, b, by simpa using found⟩
        · cases kept
    · rintro ⟨list, hname, b, found⟩
      refine ⟨(name, .file b), (t.mem_listDir family plain listed name _).mpr
        ⟨hname, by rw [family]; simpa using found⟩, by simp [file, list]⟩
  refine ⟨?_, fun q => ?_⟩
  · rw [List.map_map]
    refine List.Nodup.map_on (fun x hx y hy same => ?_) (Sorted.ascending_ofList _).nodup
    simp only [Function.comp_apply, familyDir_join hs k ((named x).mp hx).2.1,
      familyDir_join hs k ((named y).mp hy).2.1] at same
    simpa using same
  · simp only [List.map_map, List.mem_map, Function.comp_apply]
    constructor
    · rintro ⟨name, mem, rfl⟩
      obtain ⟨list, hname, b, found⟩ := (named name).mp mem
      exact ⟨name, b, list, familyDir_join hs k hname, by rw [familyDir_join hs k hname]; exact found⟩
    · rintro ⟨name, b, list, rfl, found⟩
      have hname : IsName name := t.isName_of_file
        (show d.get? ((s.root.parts ++ [k.gpu]) ++ [name]) = some (.file b) by simpa using found)
      exact ⟨name, (named name).mpr ⟨list, hname, b, found⟩, familyDir_join hs k hname⟩

theorem listFiles_spec {d : Disk} (t : d.Tree) (hs : s.PlainRoot) (k : Key)
    {places : List Place} (h : s.listFiles k d = .ok places) :
    (places.map (·.parts)).Nodup ∧ ∀ q, q ∈ places.map (·.parts) ↔
      ∃ name b, isListName k name = true ∧ q = s.root.parts ++ [k.gpu, name] ∧
        d.get? q = some (.file b) := by
  have family := familyDir_parts hs k
  have plain : ∀ x ∈ (s.familyDir k).parts, Plain x := fun x hx =>
    ((hs.2.snoc k.names.1).plain x (family ▸ hx)).1
  unfold Store.listFiles at h
  split at h
  · rename_i entries listed
    cases h
    exact picked_spec t hs k listed (fun _ _ => rfl) (fun _ => rfl)
  · rename_i missing
    cases h
    refine ⟨List.nodup_nil, fun q => ⟨fun mem => by simp at mem, ?_⟩⟩
    rintro ⟨name, b, -, rfl, found⟩
    -- nothing is below a family directory that cannot be found
    have gone : d.get? (s.root.parts ++ [k.gpu]) = none := by
      rcases listDir_eq_notFound family plain missing with none | ⟨q, hq, none⟩
      · rwa [family] at none
      · exact t.get?_eq_none_of_prefix none (hq.trans (List.prefix_append _ _))
    have below := t.get?_eq_none_of_prefix gone
      (show s.root.parts ++ [k.gpu] <+: s.root.parts ++ [k.gpu, name] from ⟨[name], by simp⟩)
    simp_all
  · cases h

theorem removeAll_spec {d : Disk} (t : d.Tree) {places : List Place}
    (shape : ∀ p ∈ places, (∃ xs n, p.parts = xs ++ [n]) ∧ ∀ x ∈ p.parts, Plain x) :
    (removeAll d places).2.Tree ∧
      (∀ q, (removeAll d places).2.get? q = d.get? q ∨
        (q ∈ places.map (·.parts) ∧ (removeAll d places).2.get? q = none)) ∧
      ∀ r, (removeAll d places).1 = .ok r →
        (∀ p ∈ places, (removeAll d places).2.get? p.parts = none) ∧
        (r = true ↔ ∃ p ∈ places, ∃ b, d.get? p.parts = some (.file b)) := by
  induction places generalizing d with
  | nil => exact ⟨t, fun q => .inl rfl, fun r h => ⟨by simp, by simp_all [Store.removeAll]⟩⟩
  | cons p rest ih =>
    obtain ⟨⟨xs, n, hp⟩, plain⟩ := shape p List.mem_cons_self
    have shape' := fun p' (hp' : p' ∈ rest) => shape p' (List.mem_cons_of_mem _ hp')
    unfold Store.removeAll
    cases removed : d.removeFile p with
    | ok d1 =>
      obtain ⟨rfl, b, isFile⟩ := removeFile_eq_ok hp plain removed
      have unfixed : fixed p.parts = false := by
        cases fixedHere : fixed p.parts with
        | false => rfl
        | true => simp [get?_of_fixed d fixedHere] at isFile
      have erased : (d.erase p.parts).get? p.parts = none := get?_erase_self d _ unfixed
      have t1 : (d.erase p.parts).Tree := t.erase (by simp [isFile])
      obtain ⟨t', frame, done⟩ := ih t1 shape'
      dsimp only
      refine ⟨t', fun q => ?_, fun r ok => ?_⟩
      · rcases frame q with same | ⟨mem, none⟩
        · by_cases here : q = p.parts
          · subst here
            exact .inr ⟨List.mem_cons_self, by simpa [same] using erased⟩
          · exact .inl (by simpa [same] using get?_erase_of_ne d here)
        · exact .inr ⟨List.mem_cons_of_mem _ mem, none⟩
      · cases rested : (Store.removeAll (d.erase p.parts) rest).1 with
        | error e => simp [rested, Except.map] at ok
        | ok r' =>
          simp only [rested, Except.map, Except.ok.injEq] at ok
          subst ok
          refine ⟨fun p' hp' => ?_, iff_of_true rfl ⟨p, List.mem_cons_self, b, isFile⟩⟩
          rcases List.mem_cons.mp hp' with rfl | mem
          · rcases frame p'.parts with same | ⟨-, none⟩
            · simpa [same] using erased
            · exact none
          · exact (done r' rested).1 p' mem
    | error e =>
      cases e with
      | notFound =>
        have nothing := t.get?_of_removeFile_notFound hp plain removed
        obtain ⟨t', frame, done⟩ := ih t shape'
        refine ⟨t', fun q => ?_, fun r ok => ?_⟩
        · rcases frame q with same | ⟨mem, none⟩
          · exact .inl same
          · exact .inr ⟨List.mem_cons_of_mem _ mem, none⟩
        · obtain ⟨gone, told⟩ := done r ok
          refine ⟨?_, ?_⟩
          · intro p' hp'
            rcases List.mem_cons.mp hp' with rfl | mem
            · rcases frame p'.parts with same | ⟨-, none⟩
              · rw [same, nothing]
              · exact none
            · exact gone p' mem
          · rw [told]
            constructor
            · rintro ⟨p', mem, b, found⟩
              exact ⟨p', List.mem_cons_of_mem _ mem, b, found⟩
            · rintro ⟨p', mem, b, found⟩
              rcases List.mem_cons.mp mem with rfl | mem
              · simp_all
              · exact ⟨p', mem, b, found⟩
      | _ => exact ⟨t, fun q => .inl rfl, fun r h => by cases h⟩

theorem subsetPath_parts (hs : s.PlainRoot) (k : Key) {kind : Outcome}
    (hkind : kind.isFileSuffix) :
    (s.subsetPath k kind).parts = s.root.parts ++ [k.gpu, k.filter ++ "." ++ kind.name] :=
  familyDir_join hs k (isName_list k.names.2 hkind)

theorem jsonPath_parts (hs : s.PlainRoot) (k : Key) :
    (s.jsonPath k).parts = s.root.parts ++ [k.gpu, k.filter ++ ".json"] :=
  familyDir_join hs k (isName_json k.names.2)

theorem plain_of_names (hs : s.PlainRoot) (k : Key) {name : String} (hn : IsName name) :
    ∀ x ∈ s.root.parts ++ [k.gpu, name], Plain x := fun x hx =>
  ((((hs.2.snoc k.names.1).snoc hn).plain x) (by simpa using hx)).1

theorem jsonPath_snoc (hs : s.PlainRoot) (k : Key) :
    (s.jsonPath k).parts = (s.root.parts ++ [k.gpu]) ++ [k.filter ++ ".json"] := by
  simp [jsonPath_parts hs k]

theorem jsonPath_plain (hs : s.PlainRoot) (k : Key) : ∀ x ∈ (s.jsonPath k).parts, Plain x :=
  jsonPath_parts hs k ▸ plain_of_names hs k (isName_json k.names.2)

theorem subsetPath_snoc (hs : s.PlainRoot) (k : Key) {kind : Outcome}
    (hkind : kind.isFileSuffix) :
    (s.subsetPath k kind).parts = (s.root.parts ++ [k.gpu]) ++ [k.filter ++ "." ++ kind.name] := by
  simp [subsetPath_parts hs k hkind]

theorem subsetPath_plain (hs : s.PlainRoot) (k : Key) {kind : Outcome}
    (hkind : kind.isFileSuffix) : ∀ x ∈ (s.subsetPath k kind).parts, Plain x :=
  subsetPath_parts hs k hkind ▸ plain_of_names hs k (isName_list k.names.2 hkind)

theorem listFiles_shape {d : Disk} (t : d.Tree) (hs : s.PlainRoot) (k : Key)
    {places : List Place} (h : s.listFiles k d = .ok places) :
    ∀ p ∈ places, (∃ xs n, p.parts = xs ++ [n]) ∧ ∀ x ∈ p.parts, Plain x := by
  intro p hp
  obtain ⟨name, b, -, at', found⟩ := ((listFiles_spec t hs k h).2 p.parts).mp
    (List.mem_map_of_mem hp)
  have hname : IsName name := t.isName_of_file
    (show d.get? ((s.root.parts ++ [k.gpu]) ++ [name]) = some (.file b) by simpa [at'] using found)
  exact ⟨⟨s.root.parts ++ [k.gpu], name, by simp [at']⟩, at' ▸ plain_of_names hs k hname⟩

theorem writeLists_spec {d : Disk} (t : d.Tree) (hs : s.PlainRoot) (k : Key)
    (notes : List Note) (kinds : List (Outcome × List CaseId)) :
    (s.writeLists k notes d kinds).disk.Tree ∧
      (∀ q, (s.writeLists k notes d kinds).disk.get? q = d.get? q ∨
        ∃ kind, kind.isFileSuffix ∧ kind ∈ kinds.map (·.1) ∧
          q = s.root.parts ++ [k.gpu, k.filter ++ "." ++ kind.name] ∧
          (s.writeLists k notes d kinds).disk.get? q ≠ some .dir) ∧
      ((s.writeLists k notes d kinds).answer = .ok () → (kinds.map (·.1)).Nodup →
        ∀ kind cases, (kind, cases) ∈ kinds → kind.isFileSuffix →
          (s.writeLists k notes d kinds).disk.get?
            (s.root.parts ++ [k.gpu, k.filter ++ "." ++ kind.name]) =
            some (.file (Text.Utf8.encode (listText cases)))) := by
  induction kinds generalizing d notes with
  | nil => exact ⟨t, fun q => .inl rfl, fun _ _ kind cases mem => by simp at mem⟩
  | cons entry rest ih =>
    obtain ⟨kind, cases⟩ := entry
    unfold Store.writeLists
    by_cases listed : kind.isFileSuffix
    · simp only [listed, if_true]
      cases wrote : d.writeAtomic (s.subsetPath k kind) (Text.Utf8.encode (listText cases)) with
      | error e => exact ⟨t, fun q => .inl rfl, fun failed => by cases failed⟩
      | ok d1 =>
        obtain ⟨rfl, notDir, way⟩ :=
          writeAtomic_eq_ok (subsetPath_snoc hs k listed) (subsetPath_plain hs k listed) wrote
        rw [subsetPath_snoc hs k listed] at notDir ⊢
        have t1 : (d.put ((s.root.parts ++ [k.gpu]) ++ [k.filter ++ "." ++ kind.name])
            (.file (Text.Utf8.encode (listText cases)))).Tree :=
          t.put (by simpa using way _ (List.prefix_refl _)) (isName_list k.names.2 listed)
            (fun isDir => absurd isDir notDir)
        obtain ⟨t', frame, written⟩ := ih t1 notes
        have here : (d.put ((s.root.parts ++ [k.gpu]) ++ [k.filter ++ "." ++ kind.name])
            (.file (Text.Utf8.encode (listText cases)))).get?
              (s.root.parts ++ [k.gpu, k.filter ++ "." ++ kind.name]) =
            some (.file (Text.Utf8.encode (listText cases))) := by
          simpa using get?_put_self d ((s.root.parts ++ [k.gpu]) ++ [k.filter ++ "." ++ kind.name])
            (.file (Text.Utf8.encode (listText cases))) (fixed_snoc_name (isName_list k.names.2 listed))
        refine ⟨t', fun q => ?_, fun ok nodup kind' cases' mem listed' => ?_⟩
        · rcases frame q with same | ⟨kind', hkind', mem, rfl, notDir'⟩
          · by_cases atList : q = s.root.parts ++ [k.gpu, k.filter ++ "." ++ kind.name]
            · subst atList
              exact .inr ⟨kind, listed, List.mem_cons_self, rfl, by rw [same, here]; simp⟩
            · exact .inl (by rw [same, get?_put_of_ne d _ (by simpa using atList)])
          · exact .inr ⟨kind', hkind', List.mem_cons_of_mem _ mem, rfl, notDir'⟩
        · have fresh := (List.nodup_cons.mp nodup).1
          rcases List.mem_cons.mp mem with same | mem
          · obtain ⟨rfl, rfl⟩ := Prod.mk.inj same
            rcases frame (s.root.parts ++ [k.gpu, k.filter ++ "." ++ kind'.name]) with
              same | ⟨kind'', -, mem'', at'', -⟩
            · rw [same, here]
            · -- a later list at the same place would be the same kind again
              have names : kind''.name = kind'.name := by simpa using at''.symm
              have : kind'' = kind' := by cases kind''; cases kind'; simp_all
              exact absurd (this ▸ mem'') fresh
          · exact written ok (List.nodup_cons.mp nodup).2 kind' cases' mem listed'

    · simp only [listed, Bool.false_eq_true, if_false]
      obtain ⟨t', frame, written⟩ := ih t (unlistedWarning k kind cases.length :: notes)
      refine ⟨t', fun q => ?_, fun ok nodup kind' cases' mem listed' => ?_⟩
      · rcases frame q with same | ⟨kind', hkind', mem, rfl, notDir⟩
        · exact .inl same
        · exact .inr ⟨kind', hkind', List.mem_cons_of_mem _ mem, rfl, notDir⟩
      · rcases List.mem_cons.mp mem with same | mem
        · cases same
          exact absurd listed' listed
        · exact written ok (List.nodup_cons.mp nodup).2 kind' cases' mem listed'

/-- How a save of a key may change a disk before it writes the baseline file: directories
made where nothing stood on the way to the family's directory, and the key's lists. -/
def SaveChanges (s : Store) (k : Key) (d d' : Disk) : Prop :=
  ∀ q, d'.get? q = d.get? q ∨
    (d.get? q = none ∧ d'.get? q = some .dir ∧ q <+: s.root.parts ++ [k.gpu]) ∨
    ∃ name, isListName k name = true ∧ q = s.root.parts ++ [k.gpu, name]

theorem SaveChanges.refl (s : Store) (k : Key) (d : Disk) : s.SaveChanges k d d :=
  fun _ => .inl rfl

theorem SaveChanges.trans {d d1 d2 : Disk} (h : s.SaveChanges k d d1) (h' : s.SaveChanges k d1 d2) :
    s.SaveChanges k d d2 := by
  intro q
  rcases h' q with same' | ⟨none', made', pre'⟩ | list'
  · rcases h q with same | ⟨none, made, pre⟩ | list
    · exact .inl (same'.trans same)
    · exact .inr (.inl ⟨none, same'.trans made, pre⟩)
    · exact .inr (.inr list)
  · rcases h q with same | ⟨none, made, pre⟩ | list
    · exact .inr (.inl ⟨same ▸ none', made', pre'⟩)
    · simp_all
    · exact .inr (.inr list)
  · exact .inr (.inr list')

theorem SaveChanges.of_grown {d d' : Disk} (h : Grown d d' (s.root.parts ++ [k.gpu])) :
    s.SaveChanges k d d' := fun q => (h q).imp_right .inl

theorem SaveChanges.of_lists {d d' : Disk} (h : ∀ q, d'.get? q = d.get? q ∨
    ∃ name, isListName k name = true ∧ q = s.root.parts ++ [k.gpu, name]) :
    s.SaveChanges k d d' := fun q => (h q).imp_right .inr

/-- On a tree, a save keeps a tree; whether it succeeds or not, it changes nothing but what a
save may change before writing the baseline file, and writes that file only when it
succeeds. -/
theorem save_frame {d : Disk} (t : d.Tree) (hs : s.PlainRoot) (k : Key) (b : Baseline) :
    (s.save k b d).disk.Tree ∧ ∃ d', s.SaveChanges k d d' ∧
      ((s.save k b d).disk = d' ∨ ((s.save k b d).answer = .ok () ∧
        ∃ bytes, (s.save k b d).disk = d'.put (s.root.parts ++ [k.gpu, k.filter ++ ".json"]) (.file bytes))) := by
  have family := familyDir_parts hs k
  have created := t.createDirAll
    (show Resolved (s.familyDir k).parts by rw [family]; exact hs.2.snoc k.names.1)
  unfold Store.save
  cases made : d.createDirAll (s.familyDir k) with
  | mk d1 result =>
    rw [made, family] at created
    obtain ⟨grown, t1⟩ := created
    have step1 : s.SaveChanges k d d1 := SaveChanges.of_grown grown
    simp only [made]
    cases result with
    | error e => exact ⟨t1, d1, step1, .inl rfl⟩
    | ok u =>
      cases u
      dsimp only
      cases listed : s.listFiles k d1 with
      | error e => exact ⟨t1, d1, step1, .inl rfl⟩
      | ok stale =>
        dsimp only
        obtain ⟨-, staleLists⟩ := listFiles_spec t1 hs k listed
        obtain ⟨t2, removedFrame, -⟩ := removeAll_spec t1 (listFiles_shape t1 hs k listed)
        have step2 : s.SaveChanges k d1 (removeAll d1 stale).2 := SaveChanges.of_lists fun q => by
          rcases removedFrame q with same | ⟨mem, -⟩
          · exact .inl same
          · obtain ⟨name, b', list, rfl, -⟩ := (staleLists q).mp mem
            exact .inr ⟨name, list, rfl⟩
        cases removed : removeAll d1 stale with
        | mk r d2 =>
          rw [removed] at t2 step2
          cases r with
          | error p => exact ⟨t2, d2, step1.trans step2, .inl rfl⟩
          | ok more =>
            dsimp only
            obtain ⟨t3, listsFrame, -⟩ := writeLists_spec t2 hs k [] b.kinds
            have step3 : s.SaveChanges k d2 (s.writeLists k [] d2 b.kinds).disk :=
              SaveChanges.of_lists fun q => by
                rcases listsFrame q with same | ⟨kind, listedKind, -, rfl, -⟩
                · exact .inl same
                · exact .inr ⟨_, isListName_subset k listedKind, rfl⟩
            have steps := (step1.trans step2).trans step3
            cases wrote : (s.writeLists k [] d2 b.kinds).answer with
            | error e => exact ⟨t3, _, steps, .inl rfl⟩
            | ok u =>
              cases u
              dsimp only
              cases json : (s.writeLists k [] d2 b.kinds).disk.writeAtomic (s.jsonPath k)
                  (Text.Utf8.encode b.toJson) with
              | error e => exact ⟨t3, _, steps, .inl rfl⟩
              | ok d4 =>
                obtain ⟨rfl, notDir, way⟩ :=
                  writeAtomic_eq_ok (jsonPath_snoc hs k) (jsonPath_plain hs k) json
                rw [jsonPath_snoc hs k] at notDir ⊢
                refine ⟨t3.put (by simpa using way _ (List.prefix_refl _)) (isName_json k.names.2)
                  (fun isDir => absurd isDir notDir), _, steps,
                  .inr ⟨rfl, Text.Utf8.encode b.toJson, by simp⟩⟩

theorem save_eq_ok {d : Disk} {b : Baseline} (h : (s.save k b d).answer = .ok ()) :
    ∃ d1 stale more d2, d.createDirAll (s.familyDir k) = (d1, .ok ()) ∧
      s.listFiles k d1 = .ok stale ∧ removeAll d1 stale = (.ok more, d2) ∧
      (s.writeLists k [] d2 b.kinds).answer = .ok () ∧
      (s.writeLists k [] d2 b.kinds).disk.writeAtomic (s.jsonPath k) (Text.Utf8.encode b.toJson) =
        .ok (s.save k b d).disk := by
  unfold Store.save at h ⊢
  rcases made : d.createDirAll (s.familyDir k) with ⟨d1, result⟩
  simp only [made] at h ⊢
  cases result with
  | error e => cases h
  | ok u =>
    cases u
    cases listed : s.listFiles k d1 with
    | error e => simp [listed] at h
    | ok stale =>
      simp only [listed] at h ⊢
      rcases removed : removeAll d1 stale with ⟨r, d2⟩
      simp only [removed] at h ⊢
      cases r with
      | error p => cases h
      | ok more =>
        cases wrote : (s.writeLists k [] d2 b.kinds).answer with
        | error e => simp [wrote] at h
        | ok u =>
          cases u
          simp only [wrote] at h ⊢
          cases json : (s.writeLists k [] d2 b.kinds).disk.writeAtomic (s.jsonPath k)
              (Text.Utf8.encode b.toJson) with
          | error e => simp [json] at h
          | ok d4 => exact ⟨d1, stale, more, d2, rfl, listed, removed, wrote, json⟩

/-- What a key's list `name` holds once a baseline is saved: the cases of the kind it names,
one per line, when that kind names a list and the baseline has it; nothing otherwise. -/
def listEntry (k : Key) (b : Baseline) (name : String) : Option Entry :=
  (b.kinds.find? fun e => e.1.isFileSuffix && k.filter ++ "." ++ e.1.name == name).map
    fun e => .file (Text.Utf8.encode (listText e.2))

theorem kind_eq_of_list_name {f : String} {kind kind' : Outcome}
    (h : f ++ "." ++ kind.name = f ++ "." ++ kind'.name) : kind = kind' := by
  cases kind
  cases kind'
  simpa using h

theorem listEntry_of_mem {b : Baseline} (nodup : (b.kinds.map (·.1)).Nodup) {kind : Outcome}
    {cases : List CaseId} (mem : (kind, cases) ∈ b.kinds) (hkind : kind.isFileSuffix) :
    listEntry k b (k.filter ++ "." ++ kind.name) =
      some (.file (Text.Utf8.encode (listText cases))) := by
  unfold listEntry
  obtain ⟨e, found⟩ : ∃ e, (b.kinds.find? fun e => e.1.isFileSuffix &&
      k.filter ++ "." ++ e.1.name == k.filter ++ "." ++ kind.name) = some e := by
    cases h : b.kinds.find? _ with
    | some e => exact ⟨e, rfl⟩
    | none => exact absurd (List.find?_eq_none.mp h (kind, cases) mem) (by simp [hkind])
  have sameKind : e.1 = kind := by
    have := List.find?_some found
    simp only [Bool.and_eq_true, beq_iff_eq] at this
    exact kind_eq_of_list_name this.2
  have same : e = (kind, cases) :=
    List.inj_on_of_nodup_map nodup (List.mem_of_find?_eq_some found) mem sameKind
  rw [found, same]
  rfl

theorem listEntry_eq_none {b : Baseline} {name : String}
    (h : ∀ e ∈ b.kinds, e.1.isFileSuffix → name ≠ k.filter ++ "." ++ e.1.name) :
    listEntry k b name = none := by
  unfold listEntry
  rw [Option.map_eq_none_iff, List.find?_eq_none]
  intro e mem
  simp only [Bool.and_eq_true, beq_iff_eq, not_and]
  exact fun hkind same => h e mem hkind same.symm

theorem clearLists_spec {d : Disk} (t : d.Tree) (hs : s.PlainRoot) (k : Key)
    (noDir : ∀ name, isListName k name = true →
      d.get? (s.root.parts ++ [k.gpu, name]) ≠ some .dir)
    {lists : List Place} (listed : s.listFiles k d = .ok lists) {more : Bool} {d' : Disk}
    (removed : removeAll d lists = (.ok more, d')) :
    d'.Tree ∧
      (∀ name, isListName k name = true → d'.get? (s.root.parts ++ [k.gpu, name]) = none) ∧
      (∀ q, (∀ name, isListName k name = true → q ≠ s.root.parts ++ [k.gpu, name]) →
        d'.get? q = d.get? q) ∧
      (more = true ↔ ∃ name b, isListName k name = true ∧
        d.get? (s.root.parts ++ [k.gpu, name]) = some (.file b)) := by
  obtain ⟨-, listedAt⟩ := listFiles_spec t hs k listed
  obtain ⟨t', frame, all⟩ := removeAll_spec t (listFiles_shape t hs k listed)
  rw [removed] at t' frame all
  dsimp only at t' frame all
  obtain ⟨gone, hmore⟩ := all more rfl
  refine ⟨t', fun name list => ?_, fun q notList => ?_, ?_⟩
  · cases found : d.get? (s.root.parts ++ [k.gpu, name]) with
    | none =>
      rcases frame (s.root.parts ++ [k.gpu, name]) with same | ⟨-, gone'⟩
      · exact same.trans found
      · exact gone'
    | some e =>
      cases e with
      | file b =>
        obtain ⟨p, hp, at'⟩ := List.mem_map.mp ((listedAt _).mpr ⟨name, b, list, rfl, found⟩)
        exact at' ▸ gone p hp
      | dir => exact absurd found (noDir name list)
  · rcases frame q with same | ⟨mem, -⟩
    · exact same
    · obtain ⟨name, b, list, rfl, -⟩ := (listedAt q).mp mem
      exact absurd rfl (notList name list)
  · rw [hmore]
    constructor
    · rintro ⟨p, hp, b, found⟩
      obtain ⟨name, -, list, at', -⟩ := (listedAt p.parts).mp (List.mem_map_of_mem hp)
      exact ⟨name, b, list, at' ▸ found⟩
    · rintro ⟨name, b, list, found⟩
      obtain ⟨p, hp, at'⟩ := List.mem_map.mp ((listedAt _).mpr ⟨name, b, list, rfl, found⟩)
      exact ⟨p, hp, b, at' ▸ found⟩

/-- A save that succeeds on a tree, where no directory stands at one of the key's lists,
leaves a tree with the family's directory on an existing way, the baseline file holding the
baseline's text, each of the key's lists holding what `listEntry` says, and everything else
as it was but for directories made where nothing stood on the way to the family's
directory. -/
theorem save_ok {d : Disk} (t : d.Tree) (hs : s.PlainRoot) (k : Key) {b : Baseline}
    (nodup : (b.kinds.map (·.1)).Nodup)
    (noDir : ∀ name, isListName k name = true →
      d.get? (s.root.parts ++ [k.gpu, name]) ≠ some .dir)
    (h : (s.save k b d).answer = .ok ()) :
    (s.save k b d).disk.Tree ∧ Way (s.save k b d).disk [] (s.root.parts ++ [k.gpu]) ∧
      (s.save k b d).disk.get? (s.root.parts ++ [k.gpu, k.filter ++ ".json"]) =
        some (.file (Text.Utf8.encode b.toJson)) ∧
      (∀ name, isListName k name = true →
        (s.save k b d).disk.get? (s.root.parts ++ [k.gpu, name]) = listEntry k b name) ∧
      ∀ q, q ≠ s.root.parts ++ [k.gpu, k.filter ++ ".json"] →
        (∀ name, isListName k name = true → q ≠ s.root.parts ++ [k.gpu, name]) →
        (s.save k b d).disk.get? q = d.get? q ∨
          (d.get? q = none ∧ (s.save k b d).disk.get? q = some .dir ∧
            q <+: s.root.parts ++ [k.gpu]) := by
  obtain ⟨d1, stale, more, d2, made, listed, removed, wrote, json⟩ := save_eq_ok h
  have family := familyDir_parts hs k
  have created := t.createDirAll
    (show Resolved (s.familyDir k).parts by rw [family]; exact hs.2.snoc k.names.1)
  rw [made, family] at created
  obtain ⟨grown, t1⟩ : Grown d d1 (s.root.parts ++ [k.gpu]) ∧ d1.Tree := created
  have shortNe : ∀ q, q <+: s.root.parts ++ [k.gpu] → ∀ name,
      q ≠ s.root.parts ++ [k.gpu, name] := by
    rintro q hq name rfl
    simpa using hq.length_le
  -- the directories made lie on the way to the family's, so none stands at a list
  have noDir1 : ∀ name, isListName k name = true →
      d1.get? (s.root.parts ++ [k.gpu, name]) ≠ some .dir := fun name list => by
    rcases grown (s.root.parts ++ [k.gpu, name]) with same | ⟨-, -, hq⟩
    · exact same ▸ noDir name list
    · exact absurd rfl (shortNe _ hq name)
  obtain ⟨t2, cleared, kept, -⟩ := clearLists_spec t1 hs k noDir1 listed removed
  obtain ⟨t3, listsFrame, written⟩ := writeLists_spec t2 hs k [] b.kinds
  obtain ⟨saved, notDir, way⟩ := writeAtomic_eq_ok (jsonPath_snoc hs k) (jsonPath_plain hs k) json
  rw [jsonPath_snoc hs k] at notDir saved
  set d3 := (s.writeLists k [] d2 b.kinds).disk
  -- the baseline file is the last thing written, away from every other place looked at
  have atJson : ∀ q, q ≠ s.root.parts ++ [k.gpu, k.filter ++ ".json"] →
      (s.save k b d).disk.get? q = d3.get? q := fun q ne => by
    rw [saved, get?_put_of_ne d3 _ (by simpa using ne)]
  refine ⟨saved ▸ t3.put (by simpa using way _ (List.prefix_refl _)) (isName_json k.names.2)
      (fun h => absurd h notDir), fun q hq => ?_, ?_, fun name list => ?_, fun q notJson notList => ?_⟩
  · rw [List.nil_append, atJson _ (shortNe _ hq _)]
    simpa using way q hq
  · rw [saved]
    simpa using get?_put_self d3 (s.root.parts ++ [k.gpu] ++ [k.filter ++ ".json"]) (.file _)
      (fixed_snoc_name (isName_json k.names.2))
  · rw [atJson _ (by simpa using list_ne_json list k.filter)]
    by_cases kept : ∃ e ∈ b.kinds, e.1.isFileSuffix ∧ name = k.filter ++ "." ++ e.1.name
    · obtain ⟨⟨kind, cases⟩, mem, hkind, rfl⟩ := kept
      rw [written wrote nodup kind cases mem hkind, listEntry_of_mem nodup mem hkind]
    · simp only [not_exists, not_and] at kept
      rw [listEntry_eq_none kept]
      rcases listsFrame (s.root.parts ++ [k.gpu, name]) with same | ⟨kind, hkind, mem, at', -⟩
      · exact same.trans (cleared name list)
      · obtain ⟨e, he, rfl⟩ := List.mem_map.mp mem
        exact absurd (by simpa using at') (kept e he hkind)
  · rw [atJson q notJson]
    rcases listsFrame q with same | ⟨kind, hkind, -, rfl, -⟩
    · rw [same, kept q notList]
      exact grown q
    · exact absurd rfl (notList _ (isListName_subset k hkind))

theorem reset_eq_ok {d d' : Disk} {r : Bool} (h : s.reset k d = (.ok r, d')) :
    ∃ removed d1 lists more,
      ((d.removeFile (s.jsonPath k) = .ok d1 ∧ removed = true) ∨
        (d.removeFile (s.jsonPath k) = .error .notFound ∧ d1 = d ∧ removed = false)) ∧
      s.listFiles k d1 = .ok lists ∧ removeAll d1 lists = (.ok more, d') ∧
      r = (removed || more) := by
  unfold reset at h
  dsimp only at h
  split at h
  · simp at h
  · rename_i removed d1 first
    split at h
    · simp at h
    · rename_i lists listed
      split at h
      · rename_i more d2 removedAll
        simp only [Prod.mk.injEq, Except.ok.injEq] at h
        obtain ⟨rfl, rfl⟩ := h
        refine ⟨removed, d1, lists, more, ?_, listed, removedAll, rfl⟩
        split at first
        · rename_i removedFile
          simp only [Except.ok.injEq, Prod.mk.injEq] at first
          obtain ⟨rfl, rfl⟩ := first
          exact .inl ⟨removedFile, rfl⟩
        · rename_i missing
          simp only [Except.ok.injEq, Prod.mk.injEq] at first
          obtain ⟨rfl, rfl⟩ := first
          exact .inr ⟨missing, rfl, rfl⟩
        · simp at first
      · simp at h

/-- A reset that succeeds on a tree, where no directory stands at one of the key's lists,
leaves a tree without the key's baseline file and lists and with everything else as it was,
and answers whether any of them was there. -/
theorem reset_ok {d d' : Disk} (t : d.Tree) (hs : s.PlainRoot) (k : Key) {r : Bool}
    (noDir : ∀ name, isListName k name = true →
      d.get? (s.root.parts ++ [k.gpu, name]) ≠ some .dir)
    (h : s.reset k d = (.ok r, d')) :
    d'.Tree ∧ d'.get? (s.root.parts ++ [k.gpu, k.filter ++ ".json"]) = none ∧
      (∀ name, isListName k name = true → d'.get? (s.root.parts ++ [k.gpu, name]) = none) ∧
      (∀ q, q ≠ s.root.parts ++ [k.gpu, k.filter ++ ".json"] →
        (∀ name, isListName k name = true → q ≠ s.root.parts ++ [k.gpu, name]) →
        d'.get? q = d.get? q) ∧
      (r = true ↔ (∃ b, d.get? (s.root.parts ++ [k.gpu, k.filter ++ ".json"]) = some (.file b)) ∨
        ∃ name b, isListName k name = true ∧
          d.get? (s.root.parts ++ [k.gpu, name]) = some (.file b)) := by
  have hp := jsonPath_parts hs k
  have hp' := jsonPath_snoc hs k
  have plain := jsonPath_plain hs k
  obtain ⟨removed, d1, lists, more, first, listed, cleared, rfl⟩ := reset_eq_ok h
  have notList : ∀ name, isListName k name = true →
      s.root.parts ++ [k.gpu, k.filter ++ ".json"] ≠ s.root.parts ++ [k.gpu, name] :=
    fun name list same => list_ne_json list k.filter (by simpa using same.symm)
  -- the first step takes the baseline file away if it is there, and nothing else
  obtain ⟨t1, gone, others, hremoved⟩ : d1.Tree ∧ d1.get? (s.jsonPath k).parts = none ∧
      (∀ q, q ≠ (s.jsonPath k).parts → d1.get? q = d.get? q) ∧
      (removed = true ↔ ∃ b, d.get? (s.jsonPath k).parts = some (.file b)) := by
    rcases first with ⟨removedFile, rfl⟩ | ⟨missing, rfl, rfl⟩
    · obtain ⟨rfl, b, found⟩ := removeFile_eq_ok hp' plain removedFile
      refine ⟨t.erase (by simp [found]), ?_, fun q ne => get?_erase_of_ne d ne, by simp [found]⟩
      rw [hp']
      exact get?_erase_self d _ (fixed_snoc_name (isName_json k.names.2))
    · have none := t.get?_of_removeFile_notFound hp' plain missing
      exact ⟨t, none, fun q _ => rfl, by simp [none]⟩
  rw [hp] at gone others hremoved
  have atLists : ∀ name, isListName k name = true →
      d1.get? (s.root.parts ++ [k.gpu, name]) = d.get? (s.root.parts ++ [k.gpu, name]) :=
    fun name list => others _ (notList name list).symm
  obtain ⟨t', listsGone, kept, hmore⟩ := clearLists_spec t1 hs k
    (fun name list => atLists name list ▸ noDir name list) listed cleared
  refine ⟨t', (kept _ notList).trans gone, listsGone, fun q notJson notList' =>
    (kept q notList').trans (others q notJson), ?_⟩
  rw [Bool.or_eq_true, hremoved, hmore]
  refine or_congr Iff.rfl (exists_congr fun name => exists_congr fun b => ?_)
  exact and_congr_right fun list => by rw [atLists name list]

end Store

end Conformance
