import Conformance.Proofs.SaveFailure
import Conformance.Proofs.BaselineFile
import Conformance.Proofs.LogBlocks
import Conformance.Proofs.Utf8

/-!
# A store is a map from keys to baselines

Calls made on a store one after another from a disk with nothing on it, where no save or reset
fails, are answered as a map from keys to baselines answers them
(`Store.replies_as_baseline_map`): a load gives the baseline of the key's latest save that no
reset followed, or the empty one, a load of a list gives the cases of its kind in that
baseline, a reset says whether the key had one, and a call on one key leaves every other key's
answers alone, also where one filter is a dotted prefix of another (`Store.keyFile_unique`).
This holds for loads of paths the file system takes whole, and for baselines as the program
keeps them with no line feed in a case id (`Baseline.Storable`), since a list
keeps each case on a line of its own and an id with a line feed comes back as two
(`Store.line_feed_splits_a_case`). The invariant carried from call to call is `Store.Holds`:
the disk is a tree whose files all lie in a family's directory, and each key's baseline file
and lists hold what its baseline gives.
-/

namespace Conformance

open Disk

/-! ## A list reads back as its cases -/

/-- A case id holds no line feed at its end, nor a carriage return: it has no blank there. -/
theorem CaseId.isLine (id : CaseId) (feed : '\n' ∉ id.text.toList) : Log.IsLine id.text.toList := by
  have chars : id.text.toList = Text.trimEndChars (Text.trimStartChars id.text.toList) := by
    conv_lhs => rw [← id.trimmed]
    simp [Text.trim, Text.trimChars]
  refine ⟨feed, fun last => ?_⟩
  rw [chars] at last
  exact absurd (Text.getLast_trimEndChars _ '\r' last) (by decide)

namespace Store

theorem toList_listText (cases : List CaseId) :
    (listText cases).toList = List.intercalate ['\n'] (cases.map (·.text.toList) ++ [[]]) := by
  induction cases with
  | nil => rfl
  | cons c cs ih =>
    have more : cs.map (·.text.toList) ++ [[]] ≠ [] := by simp
    rw [List.map_cons, List.cons_append, List.intercalate_cons_of_ne_nil more, ← ih]
    simp [listText]

theorem linesOf_listText {cases : List CaseId} (h : ∀ c ∈ cases, Log.IsLine c.text.toList) :
    Text.linesOf (listText cases) = cases.map (·.text) := by
  have lines : ∀ l ∈ cases.map (·.text.toList) ++ [[]], Log.IsLine l := by
    simp only [List.mem_append, List.mem_map, List.mem_singleton]
    rintro l (⟨c, mem, rfl⟩ | rfl)
    · exact h c mem
    · exact ⟨by simp, by simp⟩
  rw [Text.linesOf, toList_listText, Log.lines_intercalate lines]
  simp [Function.comp_def]

theorem ofStrings_texts (cases : List CaseId) : CaseId.ofStrings (cases.map (·.text)) = cases := by
  induction cases with
  | nil => rfl
  | cons c cs ih =>
    have self : CaseId.ofString? c.text = some c := by
      rw [CaseId.ofString?, CaseId.make_text]
      rfl
    simp [CaseId.ofStrings, self] at ih ⊢
    exact ih

end Store

namespace Baseline

/-- A baseline the store gives back as it was saved: as the program keeps it, and no line
feed in a case id, since a list holds each case on a line of its own. -/
structure Storable (b : Baseline) : Prop extends b.Valid where
  unbroken : ∀ e ∈ b.kinds, ∀ id ∈ e.2, '\n' ∉ id.text.toList

end Baseline

namespace Store

variable {s : Store} {k : Key}

theorem filter_eq_of_lists {k k' : Key} {name : String} (h : isListName k name = true)
    (h' : isListName k' name = true) : k.filter = k'.filter := by
  obtain ⟨suffix, whole, -, -, noDot⟩ := (isListName_iff k name).mp h
  obtain ⟨suffix', whole', -, -, noDot'⟩ := (isListName_iff k' name).mp h'
  exact String.toList_inj.mp (last_dot_unique noDot noDot' (whole.symm.trans whole')).1

theorem fixed_family {g : String} (hg : IsName g) (xs : List String) (n : String) :
    fixed (xs ++ [g, n]) = false := by
  have notUp : ¬ (xs ++ [g, n]).all (· == "..") = true := by simp [hg.2.2.1]
  have notRoot : xs ++ [g, n] ≠ ["/"] := by
    intro root
    simpa using congrArg List.length root
  simp [fixed, notUp, notRoot]

theorem listEntry_of_kind {b : Baseline} (hb : b.Valid) {kind : Outcome}
    (hkind : kind.isFileSuffix) :
    listEntry k b (k.filter ++ "." ++ kind.name) =
      (b.get? kind).map fun cases => .file (Text.Utf8.encode (listText cases)) := by
  cases found : b.get? kind with
  | some cases =>
    exact listEntry_of_mem (Sorted.Ascending.nodup hb.kindsAscending)
      ((Sorted.find?_eq_some_iff hb.kindsAscending).mp found) hkind
  | none =>
    refine listEntry_eq_none fun e mem _ same => ?_
    apply (Sorted.find?_eq_none_iff hb.kindsAscending).mp found
    rw [kind_eq_of_list_name same]
    exact List.mem_map_of_mem mem

/-- The files of a key in its family's directory: its baseline file and its lists. -/
def KeyFile (k : Key) (name : String) : Prop := name = k.filter ++ ".json" ∨ isListName k name = true

/-- A file in a family's directory belongs to one key only, also where one filter is a dotted
prefix of another. -/
theorem keyFile_unique {k k' : Key} {name : String} (h : KeyFile k name) (h' : KeyFile k' name)
    (gpu : k.gpu = k'.gpu) : k = k' := by
  refine Key.ext gpu ?_
  rcases h with rfl | list <;> rcases h' with json' | list'
  · exact String.toList_inj.mp (by simpa using congrArg String.toList json')
  · exact absurd rfl (list_ne_json list' k.filter)
  · exact absurd json' (list_ne_json list k'.filter)
  · exact filter_eq_of_lists list list'

theorem place_ne {k k' : Key} (ne : k' ≠ k) {name name' : String} (h' : KeyFile k' name')
    (h : KeyFile k name) (root : List String) :
    root ++ [k'.gpu, name'] ≠ root ++ [k.gpu, name] := by
  intro same
  simp only [List.append_cancel_left_eq, List.cons.injEq, and_true] at same
  obtain ⟨gpu, rfl⟩ := same
  exact ne (keyFile_unique h' h gpu)

/-! ## The invariant: the disk holds the baselines -/

/-- The disk holds the baselines `a` under the store's root: a tree whose files all lie in a
family's directory and whose directories all lie on the way to one, with each key's baseline
file and lists holding what its baseline gives, and nothing where it has none. -/
structure Holds (s : Store) (a : Key → Option Baseline) (d : Disk) : Prop where
  tree : d.Tree
  files : ∀ q b, d.get? q = some (.file b) → ∃ g n, q = s.root.parts ++ [g, n]
  dirs : ∀ q, d.get? q = some .dir → fixed q = true ∨ ∃ g, q <+: s.root.parts ++ [g]
  json : ∀ k, d.get? (s.root.parts ++ [k.gpu, k.filter ++ ".json"]) =
    (a k).map fun b => .file (Text.Utf8.encode b.toJson)
  lists : ∀ k, ∀ name, isListName k name = true →
    d.get? (s.root.parts ++ [k.gpu, name]) = (a k).bind fun b => listEntry k b name
  valid : ∀ k b, a k = some b → b.Valid

theorem holds_empty (s : Store) : s.Holds (fun _ => none) Disk.empty := by
  have nothing : ∀ q, fixed q = false → Disk.empty.get? q = none := fun q hq => by
    simp [get?, hq, Disk.empty]
  refine ⟨tree_empty, fun q b h => ?_, fun q h => ?_, fun k => ?_, fun k name _ => ?_,
    fun _ _ h => by cases h⟩
  · cases hq : fixed q
    · rw [nothing q hq] at h
      cases h
    · rw [get?_of_fixed _ hq] at h
      cases h
  · cases hq : fixed q
    · rw [nothing q hq] at h
      cases h
    · exact .inl rfl
  · exact nothing _ (fixed_family k.names.1 _ _)
  · exact nothing _ (fixed_family k.names.1 _ _)

variable {a : Key → Option Baseline} {d : Disk}

theorem Holds.noDir (h : s.Holds a d) (k : Key) (name : String) :
    d.get? (s.root.parts ++ [k.gpu, name]) ≠ some .dir := by
  intro dir
  rcases h.dirs _ dir with fixed | ⟨g, hq⟩
  · rw [fixed_family k.names.1] at fixed
    cases fixed
  · simpa using hq.length_le

theorem Holds.clear (h : s.Holds a d) (g : String) :
    ∀ q b, q <+: s.root.parts ++ [g] → d.get? q ≠ some (.file b) := by
  intro q b hq file
  obtain ⟨g', n, rfl⟩ := h.files q b file
  simpa using hq.length_le

theorem Holds.update (h : s.Holds a d) {d' : Disk} (t' : d'.Tree) {o : Option Baseline}
    (valid : ∀ b, o = some b → b.Valid)
    (json : d'.get? (s.root.parts ++ [k.gpu, k.filter ++ ".json"]) =
      o.map fun b => .file (Text.Utf8.encode b.toJson))
    (lists : ∀ name, isListName k name = true →
      d'.get? (s.root.parts ++ [k.gpu, name]) = o.bind fun b => listEntry k b name)
    (rest : ∀ q, (∀ name, KeyFile k name → q ≠ s.root.parts ++ [k.gpu, name]) →
      d'.get? q = d.get? q ∨
        (d.get? q = none ∧ d'.get? q = some .dir ∧ q <+: s.root.parts ++ [k.gpu])) :
    s.Holds (Function.update a k o) d' := by
  -- another key's files lie off the key's, and off the way to a family directory
  have kept : ∀ k', k' ≠ k → ∀ name, KeyFile k' name →
      d'.get? (s.root.parts ++ [k'.gpu, name]) = d.get? (s.root.parts ++ [k'.gpu, name]) := by
    intro k' ne name key
    rcases rest _ fun name' key' => place_ne ne key key' _ with same | ⟨-, -, hq⟩
    · exact same
    · simpa using hq.length_le
  refine ⟨t', fun q c file => ?_, fun q dir => ?_, fun k' => ?_, fun k' name list => ?_,
    fun k' c stored => ?_⟩
  · by_cases mine : ∃ name, KeyFile k name ∧ q = s.root.parts ++ [k.gpu, name]
    · obtain ⟨name, -, rfl⟩ := mine
      exact ⟨k.gpu, name, rfl⟩
    · push Not at mine
      rcases rest q fun name key same => mine name key same with same | ⟨-, made, -⟩
      · exact h.files q c (same ▸ file)
      · cases made.symm.trans file
  · by_cases mine : ∃ name, KeyFile k name ∧ q = s.root.parts ++ [k.gpu, name]
    · -- the key's files hold files or nothing
      obtain ⟨name, json' | list, rfl⟩ := mine
      · rw [json', json] at dir
        obtain ⟨b, -, found⟩ := Option.map_eq_some_iff.mp dir
        cases found
      · rw [lists name list] at dir
        obtain ⟨b, -, held⟩ := Option.bind_eq_some_iff.mp dir
        obtain ⟨e, -, found⟩ := Option.map_eq_some_iff.mp held
        cases found
    · push Not at mine
      rcases rest q fun name key same => mine name key same with same | ⟨-, -, hq⟩
      · exact h.dirs q (same ▸ dir)
      · exact .inr ⟨k.gpu, hq⟩
  · by_cases same : k' = k
    · subst same
      rw [json, Function.update_self]
    · rw [kept k' same _ (.inl rfl), h.json k', Function.update_of_ne same]
  · by_cases same : k' = k
    · subst same
      rw [lists name list, Function.update_self]
    · rw [kept k' same _ (.inr list), h.lists k' name list, Function.update_of_ne same]
  · by_cases same : k' = k
    · subst same
      rw [Function.update_self] at stored
      exact valid c stored
    · rw [Function.update_of_ne same] at stored
      exact h.valid k' c stored

theorem Holds.save (h : s.Holds a d) (hs : s.PlainRoot) (k : Key) {b : Baseline}
    (hb : b.Valid) (ok : (s.save k b d).answer = .ok ()) :
    s.Holds (Function.update a k (some b)) (s.save k b d).disk := by
  obtain ⟨t', -, json, lists, others⟩ :=
    save_ok h.tree hs k (Sorted.Ascending.nodup hb.kindsAscending) (fun name _ => h.noDir k name) ok
  exact h.update t' (fun _ same => Option.some.inj same ▸ hb) json lists
    fun q notKey => others q (notKey _ (.inl rfl)) fun name list => notKey name (.inr list)

theorem Holds.reset (h : s.Holds a d) (hs : s.PlainRoot) (k : Key) {r : Bool} {d' : Disk}
    (ok : s.reset k d = (.ok r, d')) :
    s.Holds (Function.update a k none) d' ∧ r = (a k).isSome := by
  obtain ⟨t', json, lists, others, answer⟩ := reset_ok h.tree hs k (fun name _ => h.noDir k name) ok
  refine ⟨h.update t' (fun _ none => by cases none) json lists fun q notKey =>
    .inl (others q (notKey _ (.inl rfl)) fun name list => notKey name (.inr list)), ?_⟩
  · -- the baseline file is there exactly when the key has a baseline, and no list is there
    -- without it
    rw [h.json k] at answer
    cases stored : a k with
    | none =>
      simp only [stored, Option.map_none, reduceCtorEq, exists_false, false_or] at answer
      rw [Option.isSome_none, Bool.eq_false_iff]
      intro yes
      obtain ⟨name, c, list, file⟩ := answer.mp yes
      rw [h.lists k name list, stored] at file
      cases file
    | some b => simpa [stored] using answer

theorem Holds.read (h : s.Holds a d) (hs : s.PlainRoot) (k : Key) {name : String}
    (hn : IsName name) {p : Place} (hp : p.parts = s.root.parts ++ [k.gpu, name]) (fits : Fits p) :
    d.read p = d.found (s.root.parts ++ [k.gpu, name]) := by
  have hp' : p.parts = (s.root.parts ++ [k.gpu]) ++ [name] := by simp [hp]
  rw [h.tree.read_of_clear fits hp' (hp ▸ plain_of_names hs k hn) (h.clear k.gpu), hp]

theorem Holds.load (h : s.Holds a d) (hs : s.PlainRoot) (k : Key) (fits : Fits (s.jsonPath k)) :
    s.load k d = .ok ((a k).getD .empty) := by
  have read := h.read hs k (isName_json k.names.2) (jsonPath_parts hs k) fits
  rw [found, h.json k] at read
  unfold Store.load loadNoted
  cases stored : a k with
  | none => simp [stored, readText, read, bind, Except.bind]
  | some b =>
    simp [stored, readText, read, bind, Except.bind, pure, Except.pure, Text.Utf8.decode?_encode,
      Baseline.fromJson_toJson (h.valid k b stored)]

theorem Holds.loadSubset (h : s.Holds a d) (hs : s.PlainRoot) (k : Key) {kind : Outcome}
    (storable : ∀ b, a k = some b → b.Storable)
    (fits : kind.isFileSuffix = true → Fits (s.subsetPath k kind)) :
    s.loadSubset k kind d = .ok (if kind.isFileSuffix then (a k).bind (·.get? kind) else none) := by
  unfold Store.loadSubset
  cases hkind : kind.isFileSuffix with
  | false => rfl
  | true =>
    have read := h.read hs k (isName_list k.names.2 hkind) (subsetPath_parts hs k hkind)
      (fits hkind)
    rw [found, h.lists k _ (isListName_subset k hkind)] at read
    cases stored : a k with
    | none => simp [stored, readText, read, bind, Except.bind]
    | some b =>
      have hb := storable b stored
      rw [stored, Option.bind_some, listEntry_of_kind hb.toValid hkind] at read
      cases held : b.get? kind with
      | none => simp [held, readText, read, bind, Except.bind]
      | some cases =>
        -- the list holds the cases a line each, and each reads back as itself
        have mem := (Sorted.find?_eq_some_iff hb.kindsAscending).mp held
        have lines := linesOf_listText fun c hc => c.isLine (hb.unbroken _ mem c hc)
        simp [held, readText, read, bind, Except.bind, pure, Except.pure, Text.Utf8.decode?_encode,
          lines, ofStrings_texts]

end Store

/-! ## Calls one after another -/

/-- A call a program makes on a store. -/
inductive Call where
  | save (k : Key) (b : Baseline)
  | reset (k : Key)
  | load (k : Key)
  | loadSubset (k : Key) (kind : Outcome)
  deriving DecidableEq, Repr

/-- What a call answers. -/
inductive Reply where
  | saved (r : Except SaveError Unit)
  | reset (r : Except ResetError Bool)
  | loaded (r : Except LoadError Baseline)
  | subset (r : Except LoadError (Option (List CaseId)))
  deriving DecidableEq, Repr

/-- Whether a reply is a save or a reset that failed. -/
def Reply.failedChange : Reply → Bool
  | .saved (.error _) | .reset (.error _) => true
  | _ => false

namespace Store

/-- One call on a disk: its reply and the disk it leaves. -/
def call (s : Store) (d : Disk) : Call → Reply × Disk
  | .save k b => ((s.save k b d).answer |> .saved, (s.save k b d).disk)
  | .reset k => (.reset (s.reset k d).1, (s.reset k d).2)
  | .load k => (.loaded (s.load k d), d)
  | .loadSubset k kind => (.subset (s.loadSubset k kind d), d)

/-- The replies to calls made one after another from a disk. -/
def replies (s : Store) (d : Disk) : List Call → List Reply
  | [] => []
  | c :: cs => (s.call d c).1 :: s.replies (s.call d c).2 cs

end Store

namespace Call

/-- What a call does to the baselines held. -/
def apply (a : Key → Option Baseline) : Call → Key → Option Baseline
  | .save k b => Function.update a k (some b)
  | .reset k => Function.update a k none
  | .load _ | .loadSubset _ _ => a

/-- What a call answers where the baselines held are `a`: a load gives the key's baseline or
the empty one, a load of a list gives the kind's cases in that baseline where the kind names
a list, and a reset says whether the key had a baseline. -/
def expected (a : Key → Option Baseline) : Call → Reply
  | .save _ _ => .saved (.ok ())
  | .reset k => .reset (.ok (a k).isSome)
  | .load k => .loaded (.ok ((a k).getD .empty))
  | .loadSubset k kind =>
    .subset (.ok (if kind.isFileSuffix then (a k).bind (·.get? kind) else none))

/-- The answers to calls made one after another from the baselines `a`. -/
def answers (a : Key → Option Baseline) : List Call → List Reply
  | [] => []
  | c :: cs => c.expected a :: answers (c.apply a) cs

/-- A call within what the store answers as a map of baselines: a baseline the store gives
back, and a read of a path the file system takes whole. -/
def Fair (s : Store) : Call → Prop
  | .save _ b => b.Storable
  | .reset _ => True
  | .load k => Fits (s.jsonPath k)
  | .loadSubset k kind => kind.isFileSuffix = true → Fits (s.subsetPath k kind)

end Call

namespace Store

variable {s : Store} {a : Key → Option Baseline} {d : Disk}

theorem Call.storable_apply (storable : ∀ k b, a k = some b → b.Storable) {c : Call}
    (fair : c.Fair s) : ∀ k b, c.apply a k = some b → b.Storable := by
  intro k b held
  cases c with
  | save k' b' =>
    by_cases same : k = k'
    · subst same
      rw [Call.apply, Function.update_self, Option.some.injEq] at held
      exact held ▸ fair
    · rw [Call.apply, Function.update_of_ne same] at held
      exact storable k b held
  | reset k' =>
    by_cases same : k = k'
    · subst same
      rw [Call.apply, Function.update_self] at held
      cases held
    · rw [Call.apply, Function.update_of_ne same] at held
      exact storable k b held
  | load k' => exact storable k b held
  | loadSubset k' kind => exact storable k b held

theorem Holds.call (h : s.Holds a d) (hs : s.PlainRoot)
    (storable : ∀ k b, a k = some b → b.Storable) {c : Call} (fair : c.Fair s)
    (ok : (s.call d c).1.failedChange = false) :
    (s.call d c).1 = c.expected a ∧ s.Holds (c.apply a) (s.call d c).2 := by
  cases c with
  | save k b =>
    cases saved : (s.save k b d).answer with
    | error e => simp [Store.call, saved, Reply.failedChange] at ok
    | ok u => exact ⟨by simp [Store.call, saved, Call.expected], h.save hs k fair.toValid saved⟩
  | reset k =>
    cases reset : s.reset k d with
    | mk r d' =>
      cases r with
      | error e => simp [Store.call, reset, Reply.failedChange] at ok
      | ok r =>
        obtain ⟨holds, answer⟩ := h.reset hs k reset
        exact ⟨by simp [Store.call, reset, Call.expected, answer], by simpa [Store.call, reset, Call.apply] using holds⟩
  | load k => exact ⟨by simp [Store.call, Call.expected, h.load hs k fair], h⟩
  | loadSubset k kind =>
    exact ⟨by simp [Store.call, Call.expected, h.loadSubset hs k (storable k) fair], h⟩

theorem Holds.replies (h : s.Holds a d) (hs : s.PlainRoot)
    (storable : ∀ k b, a k = some b → b.Storable) {cs : List Call}
    (fair : ∀ c ∈ cs, c.Fair s) (ok : ∀ r ∈ s.replies d cs, r.failedChange = false) :
    s.replies d cs = Call.answers a cs := by
  induction cs generalizing a d with
  | nil => rfl
  | cons c cs ih =>
    have first := ok _ List.mem_cons_self
    have fairFirst := fair c List.mem_cons_self
    obtain ⟨reply, holds⟩ := h.call hs storable fairFirst first
    rw [Store.replies, Call.answers, reply,
      ih holds (Call.storable_apply storable fairFirst) (fun c' mem => fair c' (List.mem_cons_of_mem c mem))
        (fun r mem => ok r (List.mem_cons_of_mem _ mem))]

/-! ## Roots written with `.` -/

theorem Call.Fair.resolved (hs : s.NamedRoot) {c : Call} (fair : c.Fair s) :
    c.Fair s.resolved := by
  cases c with
  | save k b => exact fair
  | reset k => exact fair
  | load k =>
    show Fits (s.resolved.jsonPath k)
    exact jsonPath_undotted hs k ▸ fair.undotted
  | loadSubset k kind =>
    show kind.isFileSuffix = true → Fits (s.resolved.subsetPath k kind)
    exact fun listed => subsetPath_undotted hs k listed ▸ (fair listed).undotted

theorem call_resolved (hs : s.NamedRoot) (t : d.Tree) (c : Call) :
    s.resolved.call d c = s.call d c := by
  cases c with
  | save k b => simp only [Store.call, save_resolved hs k t b]
  | reset k => simp only [Store.call, reset_resolved hs k t]
  | load k => simp only [Store.call, load_resolved hs k]
  | loadSubset k kind => simp only [Store.call, loadSubset_resolved hs k]

/-- Every call keeps a disk a tree, whether it succeeds or not. -/
theorem tree_call (hs : s.NamedRoot) (t : d.Tree) (c : Call) : (s.call d c).2.Tree := by
  cases c with
  | save k b => exact tree_save hs k t b
  | reset k => exact tree_reset hs k t
  | load k => exact t
  | loadSubset k kind => exact t

/-- Calls one after another under a root with `.` in it are answered as under the root
without them. -/
theorem replies_resolved (hs : s.NamedRoot) (t : d.Tree) (cs : List Call) :
    s.resolved.replies d cs = s.replies d cs := by
  induction cs generalizing d with
  | nil => rfl
  | cons c cs ih =>
    rw [Store.replies, Store.replies, call_resolved hs t c, ih (tree_call hs t c)]

/-- A store refines a map from keys to baselines: under a root that does not lead up, calls
made one after another from a disk with nothing on it, where no save or reset fails, are
answered as the map answers them. -/
theorem replies_as_baseline_map (hs : s.NamedRoot) (cs : List Call) (fair : ∀ c ∈ cs, c.Fair s)
    (ok : ∀ r ∈ s.replies Disk.empty cs, r.failedChange = false) :
    s.replies Disk.empty cs = Call.answers (fun _ => none) cs := by
  rw [← replies_resolved hs tree_empty cs] at ok ⊢
  exact (holds_empty s.resolved).replies hs.resolved (fun _ _ held => by cases held)
    (fun c mem => Call.Fair.resolved hs (fair c mem)) ok

/-- Two keys of one family, one filter a dotted prefix of the other: saves, a load of a list,
a reset of one key and loads of both are answered as by the map of baselines. -/
theorem prefix_filters_answer_as_map :
    let s : Store := ⟨⟨"store", ["store"]⟩⟩
    let k : Key := .mk "gpu" "dEQP-GLES2"
    let k' : Key := .mk "gpu" "dEQP-GLES2.info"
    let b : Baseline := ⟨[(Outcome.fail, [.mk "dEQP-GLES2.a"]), (Outcome.pass, [.mk "dEQP-GLES2.b"])]⟩
    let b' : Baseline := ⟨[(Outcome.pass, [.mk "dEQP-GLES2.info.vendor"])]⟩
    let cs := [Call.save k b, .save k' b', .loadSubset k .pass, .reset k', .load k,
      .loadSubset k' .pass, .load k']
    s.replies Disk.empty cs = Call.answers (fun _ => none) cs := by
  intro s k k' b b' cs
  have hs : s.NamedRoot := ⟨by decide, [], ["store"], by decide, .inl rfl, by decide⟩
  have storable : ∀ c : Baseline, Baseline.fromKinds c.kinds = .ok c →
      (∀ e ∈ c.kinds, ∀ id ∈ e.2, '\n' ∉ id.text.toList) → c.Storable :=
    fun c built unbroken => ⟨((Baseline.fromKinds_spec c.kinds).2 c built).1, unbroken⟩
  have fair : ∀ c ∈ cs, c.Fair s := by
    simp only [cs, List.mem_cons, List.mem_nil_iff, or_false]
    rintro c (rfl | rfl | rfl | rfl | rfl | rfl | rfl)
    · exact storable b (by decide +kernel) (by decide)
    · exact storable b' (by decide +kernel) (by decide)
    · exact fun _ => ⟨⟨by decide +kernel, by decide +kernel⟩, by decide +kernel⟩
    · trivial
    · exact ⟨⟨by decide +kernel, by decide +kernel⟩, by decide +kernel⟩
    · exact fun _ => ⟨⟨by decide +kernel, by decide +kernel⟩, by decide +kernel⟩
    · exact ⟨⟨by decide +kernel, by decide +kernel⟩, by decide +kernel⟩
  exact replies_as_baseline_map hs cs fair (by decide +kernel)

/-- A case whose id holds a line feed breaks the map: its list gives it back as two cases. -/
theorem line_feed_splits_a_case :
    let s : Store := ⟨⟨"store", ["store"]⟩⟩
    let k : Key := .mk "g" "f"
    let cs := [Call.save k ⟨[(Outcome.pass, [.mk "a\nb"])]⟩, .loadSubset k .pass]
    s.replies Disk.empty cs ≠ Call.answers (fun _ => none) cs ∧
      s.replies Disk.empty cs = [.saved (.ok ()), .subset (.ok (some [.mk "a", .mk "b"]))] := by
  decide +kernel

end Store

end Conformance
