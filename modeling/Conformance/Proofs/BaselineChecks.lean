import Conformance.Proofs.BaselineFile

/-!
What building and reading a baseline accept, and which fault they report. Building from
entries succeeds exactly when no case is under two kinds, and then lists under each kind
the union of its entries; otherwise it reports the conflict its scan meets first, entries in
the order given and the cases of each in order (`FirstConflict`). Reading a file takes its
JSON object as raw kinds in byte order, the last of repeated keys winning. It refuses the
first raw kind whose name or one of whose cases is blank, merges the spellings of each
outcome and builds the baseline from the merged kinds, so a case under two outcomes is
reported as the first conflict in the order of outcome names (`SortedConflict`). Main
statement: `baseline_checks_report_first_fault`.
-/

namespace Conformance.Baseline
open Sorted

theorem records_cons {e : Outcome × List CaseId} {entries : List (Outcome × List CaseId)}
    {k : Outcome} {c : CaseId} :
    Records (e :: entries) k c ↔ (k = e.1 ∧ c ∈ e.2) ∨ Records entries k c := by
  obtain ⟨kind, cases⟩ := e
  simp only [Records, List.mem_cons, Prod.mk.injEq]
  constructor
  · rintro ⟨cs, ⟨rfl, rfl⟩ | mem, hc⟩
    · exact .inl ⟨rfl, hc⟩
    · exact .inr ⟨cs, mem, hc⟩
  · rintro (⟨rfl, hc⟩ | ⟨cs, mem, hc⟩)
    · exact ⟨cases, .inl ⟨rfl, rfl⟩, hc⟩
    · exact ⟨cs, .inr mem, hc⟩

/-! ## Building from entries -/

/-- The cases of every entry of a kind, united. -/
def united (entries : List (Outcome × List CaseId)) (kind : Outcome) : List CaseId :=
  ofList ((entries.filter (·.1 == kind)).flatMap (·.2))

theorem mem_united {entries : List (Outcome × List CaseId)} {kind : Outcome} {c : CaseId} :
    c ∈ united entries kind ↔ Records entries kind c := by
  simp only [united, mem_ofList, List.mem_flatMap, List.mem_filter, beq_iff_eq, Records]
  constructor
  · rintro ⟨⟨k, cs⟩, ⟨mem, rfl⟩, hc⟩
    exact ⟨cs, mem, hc⟩
  · rintro ⟨cs, mem, hc⟩
    exact ⟨(kind, cs), ⟨mem, rfl⟩, hc⟩

theorem get?_fromKinds {entries : List (Outcome × List CaseId)} {b : Baseline}
    (h : fromKinds entries = .ok b) (kind : Outcome) :
    b.get? kind = if united entries kind = [] then none else some (united entries kind) := by
  obtain ⟨valid, records⟩ := (fromKinds_spec entries).2 b h
  split
  · next empty =>
    cases hk : b.get? kind with
    | none => rfl
    | some cs =>
      obtain ⟨ne, -, members⟩ := valid.get?_eq_some_iff.mp hk
      obtain ⟨c, hc⟩ := List.exists_mem_of_ne_nil cs ne
      have held := mem_united.mpr ((records kind c).mp ((members c).mp hc))
      rw [empty] at held
      cases held
  · next nonempty =>
    exact valid.get?_eq_some_iff.mpr
      ⟨nonempty, ascending_ofList _, fun c => by rw [mem_united, records]⟩

/-- The conflict that a scan of the entries meets first. The entries before its own put no
case under two kinds; its case comes after the cases of its entry, in order, that no earlier
entry put under another kind; an earlier entry put it under `first`, not its entry's kind
`second`. -/
def FirstConflict (entries : List (Outcome × List CaseId)) (d : DuplicateCase) : Prop :=
  ∃ done cases rest before after, entries = done ++ (d.second, cases) :: rest ∧
    Consistent done ∧ ofList cases = before ++ d.caseId :: after ∧
    (∀ c ∈ before, ∀ k, Records done k c → k = d.second) ∧
    Records done d.first d.caseId ∧ d.first ≠ d.second

theorem checkCases_eq_error {kind : Outcome} {seen : List (CaseId × Outcome)} {xs : List CaseId}
    {d : DuplicateCase} (h : KeysAscending seen) (nodup : xs.Nodup)
    (run : checkCases kind seen xs = .error d) :
    ∃ before after, xs = before ++ d.caseId :: after ∧
      (∀ c ∈ before, ∀ k, find? c seen = some k → k = kind) ∧
      find? d.caseId seen = some d.first ∧ d.first ≠ kind ∧ d.second = kind := by
  induction xs generalizing seen with
  | nil => cases run
  | cons x xs ih =>
    obtain ⟨fresh, nodup⟩ := List.nodup_cons.mp nodup
    cases hx : find? x seen with
    | some first =>
      by_cases same : first = kind
      · simp only [checkCases, hx, same, if_true] at run
        obtain ⟨before, after, rfl, clear, found, ne, second⟩ := ih h nodup run
        refine ⟨x :: before, after, rfl, fun c hc k hk => ?_, found, ne, second⟩
        rcases List.mem_cons.mp hc with rfl | hc
        · rw [hx, same] at hk
          exact (Option.some_inj.mp hk).symm
        · exact clear c hc k hk
      · simp only [checkCases, hx, same, if_false] at run
        cases run
        exact ⟨[], xs, rfl, by simp, hx, same, rfl⟩
    | none =>
      simp only [checkCases, hx] at run
      -- the case is put under the entry's kind; the cases after it are other cases
      have put : ∀ c ∈ xs, find? c (Sorted.put x kind seen) = find? c seen := fun c hc => by
        have other : c ≠ x := fun e => fresh (e ▸ hc)
        unfold Sorted.put
        rw [find?_alter_of_ne h other]
      obtain ⟨before, after, rfl, clear, found, ne, second⟩ := ih (keysAscending_alter h) nodup run
      refine ⟨x :: before, after, rfl, fun c hc k hk => ?_, ?_, ne, second⟩
      · rcases List.mem_cons.mp hc with rfl | hc
        · rw [hx] at hk
          cases hk
        · exact clear c hc k ((put c (List.mem_append_left _ hc)) ▸ hk)
      · rw [← put _ (by simp)]
        exact found

theorem Scanned.consistent {done : List (Outcome × List CaseId)} {seen : List (CaseId × Outcome)}
    {out : List (Outcome × List CaseId)} (inv : Scanned done seen out) : Consistent done :=
  fun c k₁ k₂ h₁ h₂ =>
    Option.some_inj.mp (((inv.firstKind c k₁).mpr h₁).symm.trans ((inv.firstKind c k₂).mpr h₂))

theorem go_eq_error {done rest : List (Outcome × List CaseId)} {seen : List (CaseId × Outcome)}
    {out : List (Outcome × List CaseId)} {d : DuplicateCase} (inv : Scanned done seen out)
    (h : fromKinds.go seen out rest = .error d) : FirstConflict (done ++ rest) d := by
  induction rest generalizing done seen out with
  | nil => simp [fromKinds.go] at h
  | cons e rest ih =>
    obtain ⟨kind, cases⟩ := e
    cases run : checkCases kind seen (ofList cases) with
    | error d' =>
      simp only [fromKinds.go, run, bind, Except.bind, Except.error.injEq] at h
      subst h
      obtain ⟨before, after, split, clear, found, ne, rfl⟩ :=
        checkCases_eq_error inv.seenAscending (ascending_ofList cases).nodup run
      exact ⟨done, cases, rest, before, after, rfl, inv.consistent, split,
        fun c hc k hk => clear c hc k ((inv.firstKind c k).mpr hk), (inv.firstKind _ _).mp found, ne⟩
    | ok seen' =>
      simp only [fromKinds.go, run, bind, Except.bind] at h
      simpa using ih (inv.step run) h

theorem fromKinds_eq_error {entries : List (Outcome × List CaseId)} {d : DuplicateCase}
    (h : fromKinds entries = .error d) : FirstConflict entries d := by
  simpa using go_eq_error scanned_nil h

theorem conflict_breaks_consistency {done done' : List (Outcome × List CaseId)} {first second : Outcome}
    {cases : List CaseId} {x : CaseId} (pre : done ++ [(second, cases)] <+: done')
    (consistent : Consistent done') (earlier : Records done first x) (here : x ∈ cases)
    (ne : first ≠ second) : False := by
  obtain ⟨cs, mem, hx⟩ := earlier
  have inDone : (first, cs) ∈ done' := pre.subset (List.mem_append_left _ mem)
  have inEntry : (second, cases) ∈ done' := pre.subset (by simp)
  exact ne (consistent x first second ⟨cs, inDone, hx⟩ ⟨cases, inEntry, here⟩)

theorem FirstConflict.unique {entries : List (Outcome × List CaseId)} {d d' : DuplicateCase}
    (h : FirstConflict entries d) (h' : FirstConflict entries d') : d = d' := by
  obtain ⟨done, cases, rest, before, after, split, consistent, hcases, clear, firstRec, ne⟩ := h
  obtain ⟨done', cases', rest', before', after', split', consistent', hcases', clear', firstRec',
    ne'⟩ := h'
  have inCases : d.caseId ∈ cases := mem_ofList.mp (hcases ▸ by simp)
  have inCases' : d'.caseId ∈ cases' := mem_ofList.mp (hcases' ▸ by simp)
  -- the two conflicts stand in the same entry: an earlier one would make the entries before
  -- the later one disagree
  have prefix₁ : done ++ [(d.second, cases)] <+: entries := ⟨rest, by simp [split]⟩
  have prefix₂ : done' ++ [(d'.second, cases')] <+: entries := ⟨rest', by simp [split']⟩
  have sameLength : done.length = done'.length := by
    rcases Nat.lt_trichotomy done.length done'.length with lt | eq | gt
    · exact (conflict_breaks_consistency (List.prefix_of_prefix_length_le prefix₁
        ⟨_, split'.symm⟩ (by simp; omega)) consistent' firstRec inCases ne).elim
    · exact eq
    · exact (conflict_breaks_consistency (List.prefix_of_prefix_length_le prefix₂
        ⟨_, split.symm⟩ (by simp; omega)) consistent firstRec' inCases' ne').elim
  obtain ⟨rfl, entry⟩ := List.append_inj (split.symm.trans split') sameLength
  obtain ⟨⟨second, rfl⟩, -⟩ := List.cons.inj entry |>.imp_left Prod.mk.inj
  -- within the entry, a case before the first conflicting one was put nowhere else
  have sameCase : before.length = before'.length := by
    rcases Nat.lt_trichotomy before.length before'.length with lt | eq | gt
    · have mem : d.caseId ∈ before' := (List.prefix_of_prefix_length_le
        (⟨after, by simp⟩ : before ++ [d.caseId] <+: before ++ d.caseId :: after)
        ⟨_, (hcases.symm.trans hcases').symm⟩ (by simp; omega)).subset (by simp)
      exact (ne (second ▸ clear' _ mem _ firstRec)).elim
    · exact eq
    · have mem : d'.caseId ∈ before := (List.prefix_of_prefix_length_le
        (⟨after', by simp⟩ : before' ++ [d'.caseId] <+: before' ++ d'.caseId :: after')
        ⟨_, hcases.symm.trans hcases'⟩ (by simp; omega)).subset (by simp)
      exact (ne' (second.symm ▸ clear _ mem _ firstRec')).elim
  obtain ⟨-, caseEq⟩ := List.append_inj (hcases.symm.trans hcases') sameCase
  obtain ⟨caseEq, -⟩ := List.cons.inj caseEq
  have firstEq : d.first = d'.first := consistent _ _ _ firstRec (caseEq ▸ firstRec')
  cases d
  cases d'
  simp_all

theorem fromKinds_eq_error_iff {entries : List (Outcome × List CaseId)} {d : DuplicateCase} :
    fromKinds entries = .error d ↔ FirstConflict entries d := by
  refine ⟨fromKinds_eq_error, fun conflict => ?_⟩
  cases h : fromKinds entries with
  | error d' => rw [FirstConflict.unique (fromKinds_eq_error h) conflict]
  | ok b =>
    -- a conflict makes the entries disagree, so building them cannot succeed
    obtain ⟨done, cases, rest, before, after, split, -, hcases, -, ⟨cs, mem, hx⟩, ne⟩ := conflict
    have consistent := (fromKinds_spec entries).1.mp ⟨b, h⟩
    exact (ne (consistent d.caseId d.first d.second ⟨cs, split ▸ List.mem_append_left _ mem, hx⟩
      ⟨cases, split ▸ by simp, mem_ofList.mp (hcases ▸ by simp)⟩)).elim

/-! ## Reading a file -/

/-- A raw kind that reading takes: neither its name nor any of its cases is blank. -/
def RawFits (e : String × List String) : Prop := Text.trim e.1 ≠ "" ∧ ∀ x ∈ e.2, Text.trim x ≠ ""

/-- The raw kinds of a file as entries: each name read as an outcome, each case trimmed. -/
def rawEntries (table : List (String × List String)) : List (Outcome × List CaseId) :=
  table.map fun e => (Outcome.parse e.1, CaseId.ofStrings e.2)

theorem records_rawEntries_cons {e : String × List String} {table : List (String × List String)}
    {k : Outcome} {c : CaseId} :
    Records (rawEntries (e :: table)) k c ↔
      (k = Outcome.parse e.1 ∧ c ∈ CaseId.ofStrings e.2) ∨ Records (rawEntries table) k c := by
  rw [rawEntries, List.map_cons, records_cons]
  rfl

theorem find?_foldl_put {key : String} {acc : List (String × List String)} (asc : KeysAscending acc)
    (members : List (String × List String)) :
    find? key (members.foldl (fun m (e : String × List String) => Sorted.put e.1 e.2 m) acc) =
      ((members.reverse.find? (·.1 == key)).map (·.2)).or (find? key acc) := by
  induction members generalizing acc with
  | nil => simp
  | cons e members ih =>
    rw [List.foldl_cons, ih (show KeysAscending (Sorted.put e.1 e.2 acc) from keysAscending_alter asc),
      List.reverse_cons, List.find?_append,
      Option.map_or, Option.or_assoc]
    congr 1
    by_cases same : e.1 = key
    · subst same
      simp [Sorted.put, find?_alter_self asc]
    · have other : key ≠ e.1 := Ne.symm same
      simp [Sorted.put, find?_alter_of_ne asc other, same]

theorem keysAscending_foldl_put {acc : List (String × List String)} (asc : KeysAscending acc)
    (members : List (String × List String)) :
    KeysAscending (members.foldl (fun m (e : String × List String) => Sorted.put e.1 e.2 m) acc) := by
  induction members generalizing acc with
  | nil => exact asc
  | cons e members ih => exact ih (keysAscending_alter asc)

theorem readCases_eq_ok (path : String) (kind : Outcome) {raws : List String}
    (fits : ∀ x ∈ raws, Text.trim x ≠ "") :
    readCases path kind raws = .ok (CaseId.ofStrings raws) := by
  induction raws with
  | nil => rfl
  | cons x xs ih =>
    have first : Text.trim x ≠ "" := fits x List.mem_cons_self
    have made := CaseId.make_of_nonblank first
    have rest := ih fun y hy => fits y (List.mem_cons_of_mem _ hy)
    unfold readCases at rest ⊢
    simp [List.mapM_cons, made, rest, CaseId.ofStrings, CaseId.ofString?, bind, Except.bind, pure,
      Except.pure, Except.toOption]

theorem readCases_eq_error (path : String) (kind : Outcome) {raws : List String}
    (blank : ∃ x ∈ raws, Text.trim x = "") :
    readCases path kind raws = .error (.invalidCaseId path kind) := by
  induction raws with
  | nil => simp at blank
  | cons x xs ih =>
    unfold readCases at ih ⊢
    by_cases hx : Text.trim x = ""
    · have made : CaseId.make x = .error .blank := by simp [CaseId.make, hx]
      simp [List.mapM_cons, made, bind, Except.bind]
    · have made := CaseId.make_of_nonblank hx
      have later : ∃ y ∈ xs, Text.trim y = "" := by
        obtain ⟨y, hy, hb⟩ := blank
        rcases List.mem_cons.mp hy with rfl | hy
        · exact absurd hb hx
        · exact ⟨y, hy, hb⟩
      simp [List.mapM_cons, made, ih later, bind, Except.bind]

theorem addRawKind_eq_ok (path : String) (acc : List (Outcome × List CaseId))
    {e : String × List String} (fits : RawFits e) :
    addRawKind path acc e =
      .ok (modify (Outcome.parse e.1) [] (union · (ofList (CaseId.ofStrings e.2))) acc) := by
  simp [addRawKind, fits.1, readCases_eq_ok path _ fits.2, bind, Except.bind, pure, Except.pure]

theorem addRawKind_eq_error (path : String) (acc : List (Outcome × List CaseId))
    {e : String × List String} (bad : ¬ RawFits e) :
    addRawKind path acc e =
      .error (if Text.trim e.1 = "" then .emptyKind path else .invalidCaseId path (Outcome.parse e.1)) := by
  by_cases blank : Text.trim e.1 = ""
  · simp [addRawKind, blank, throw, throwThe, MonadExceptOf.throw, bind, Except.bind]
  · have someBlank : ∃ x ∈ e.2, Text.trim x = "" := by
      by_contra none
      exact bad ⟨blank, fun x hx hb => none ⟨x, hx, hb⟩⟩
    simp [addRawKind, blank, readCases_eq_error path _ someBlank, bind, Except.bind]

theorem under_modify_union {m : List (Outcome × List CaseId)} (h : KeysAscending m) {k o : Outcome}
    {s : List CaseId} {c : CaseId} :
    Sorted.Under (modify k [] (union · s) m) o c ↔ (o = k ∧ c ∈ s) ∨ Sorted.Under m o c := by
  by_cases same : o = k
  · subst same
    simp [Sorted.Under, Sorted.modify, find?_alter_self h, or_comm]
  · simp [Sorted.Under, Sorted.modify, find?_alter_of_ne h same, same]

theorem casesAscending_modify_union {m : List (Outcome × List CaseId)} (h : KeysAscending m)
    (hc : ∀ e ∈ m, Ascending e.2) (k : Outcome) (s : List CaseId) :
    ∀ e ∈ modify k [] (union · s) m, Ascending e.2 := by
  rintro ⟨k', cs⟩ mem
  rcases (mem_alter h).mp mem with ⟨rfl, filed⟩ | ⟨_, mem⟩
  · obtain rfl := Option.some_inj.mp filed
    exact ascending_union _ (ascending_getD h hc k')
  · exact hc _ mem

theorem foldlM_addRawKind_fits (path : String) {table : List (String × List String)}
    (acc : List (Outcome × List CaseId)) (fits : ∀ e ∈ table, RawFits e) (asc : KeysAscending acc)
    (casesAsc : ∀ e ∈ acc, Ascending e.2) :
    ∃ kinds, table.foldlM (addRawKind path) acc = .ok kinds ∧ KeysAscending kinds ∧
      (∀ e ∈ kinds, Ascending e.2) ∧
      ∀ k c, Sorted.Under kinds k c ↔ Sorted.Under acc k c ∨ Records (rawEntries table) k c := by
  induction table generalizing acc with
  | nil => exact ⟨acc, rfl, asc, casesAsc, fun k c => by simp [Records, rawEntries]⟩
  | cons e table ih =>
    obtain ⟨kinds, run, asc', casesAsc', under⟩ :=
      ih (modify (Outcome.parse e.1) [] (union · (ofList (CaseId.ofStrings e.2))) acc)
        (fun e' he => fits e' (List.mem_cons_of_mem _ he)) (keysAscending_alter asc)
        (casesAscending_modify_union asc casesAsc _ _)
    refine ⟨kinds, ?_, asc', casesAsc', fun k c => ?_⟩
    · rw [List.foldlM_cons, addRawKind_eq_ok path acc (fits e List.mem_cons_self)]
      exact run
    · rw [under, under_modify_union asc, records_rawEntries_cons, mem_ofList]
      constructor
      · rintro ((first | old) | later)
        · exact .inr (.inl first)
        · exact .inl old
        · exact .inr (.inr later)
      · rintro (old | first | later)
        · exact .inl (.inr old)
        · exact .inl (.inl first)
        · exact .inr later

theorem foldlM_addRawKind_bad (path : String) {pre post : List (String × List String)}
    {e : String × List String} (fits : ∀ e' ∈ pre, RawFits e') (bad : ¬ RawFits e) :
    (pre ++ e :: post).foldlM (addRawKind path) [] =
      .error (if Text.trim e.1 = "" then .emptyKind path else .invalidCaseId path (Outcome.parse e.1)) := by
  obtain ⟨kinds, run, -, -, -⟩ := foldlM_addRawKind_fits path [] fits
    List.Pairwise.nil (by simp)
  rw [List.foldlM_append, run]
  simp only [bind, Except.bind]
  rw [List.foldlM_cons, addRawKind_eq_error path kinds bad]
  rfl

theorem foldlM_addRawKind_error (path : String) {table : List (String × List String)}
    (acc : List (Outcome × List CaseId)) (notAll : ¬ ∀ e ∈ table, RawFits e) :
    ∃ err, table.foldlM (addRawKind path) acc = .error err := by
  induction table generalizing acc with
  | nil => simp at notAll
  | cons e table ih =>
    by_cases fits : RawFits e
    · have rest : ¬ ∀ e' ∈ table, RawFits e' := fun all =>
        notAll fun e' he => (List.mem_cons.mp he).elim (fun same => same ▸ fits) (all e')
      rw [List.foldlM_cons, addRawKind_eq_ok path acc fits]
      exact ih _ rest
    · rw [List.foldlM_cons, addRawKind_eq_error path acc fits]
      exact ⟨_, rfl⟩

theorem fromJson_of_none {text : String} (path : String) (h : Json.readStringTable text = none) :
    fromJson text path = .error (.deserialize path) := by
  simp [fromJson, h, throw, throwThe, MonadExceptOf.throw, bind, Except.bind]

theorem fromJson_of_fold_error {text path : String} {members : List (String × List String)}
    {err : LoadError} (h : Json.readStringTable text = some members)
    (run : (rawTable members).foldlM (addRawKind path) [] = .error err) :
    fromJson text path = .error err := by
  simp [fromJson, h, run, bind, Except.bind, pure, Except.pure]

theorem fromJson_of_fold_ok {text path : String} {members : List (String × List String)}
    {kinds : List (Outcome × List CaseId)} (h : Json.readStringTable text = some members)
    (run : (rawTable members).foldlM (addRawKind path) [] = .ok kinds) :
    fromJson text path =
      (fromKinds kinds).mapError fun d => .duplicateCase path d.caseId.text d.first d.second := by
  simp only [fromJson, h, run, bind, Except.bind, pure, Except.pure]
  cases fromKinds kinds <;> rfl

theorem fromJson_of_fits {text : String} (path : String) {members : List (String × List String)}
    (h : Json.readStringTable text = some members) (fits : ∀ e ∈ rawTable members, RawFits e) :
    ∃ kinds, KeysAscending kinds ∧ (∀ e ∈ kinds, Ascending e.2) ∧
      (∀ k c, Records kinds k c ↔ Records (rawEntries (rawTable members)) k c) ∧
      fromJson text path =
        (fromKinds kinds).mapError fun d => .duplicateCase path d.caseId.text d.first d.second := by
  obtain ⟨kinds, run, asc, casesAsc, under⟩ := foldlM_addRawKind_fits path [] fits
    List.Pairwise.nil (by simp)
  refine ⟨kinds, asc, casesAsc, fun k c => ?_, fromJson_of_fold_ok h run⟩
  have records := (under_iff asc (k := k) (x := c)).symm.trans (under k c)
  simp only [Sorted.Under, find?, Option.getD_none, List.not_mem_nil, false_or] at records
  exact records

theorem consistent_congr {m m' : List (Outcome × List CaseId)}
    (same : ∀ k c, Records m k c ↔ Records m' k c) : Consistent m ↔ Consistent m' := by
  simp only [Consistent, same]

/-- The conflict met first when the kinds are taken in the order of their names and the
cases of each kind in order: `second` is the first kind that holds a case a kind before it
holds, `caseId` the first such case of `second`, and `first` the kind before it that holds
the case. -/
def SortedConflict (records : Outcome → CaseId → Prop) (d : DuplicateCase) : Prop :=
  records d.first d.caseId ∧ records d.second d.caseId ∧ compare d.first d.second = .lt ∧
    (∀ k₁ k₂ c, records k₁ c → records k₂ c → compare k₁ k₂ = .lt → compare k₂ d.second ≠ .lt) ∧
    ∀ k c, records k c → records d.second c → compare k d.second = .lt → compare c d.caseId ≠ .lt

theorem SortedConflict.unique {records : Outcome → CaseId → Prop} {d d' : DuplicateCase}
    (h : SortedConflict records d) (h' : SortedConflict records d') : d = d' := by
  obtain ⟨first, second, lt, noEarlier, least⟩ := h
  obtain ⟨first', second', lt', noEarlier', least'⟩ := h'
  have sameKind : d.second = d'.second :=
    eq_of_compare_ne_lt (noEarlier' _ _ _ first second lt) (noEarlier _ _ _ first' second' lt')
  rw [← sameKind] at second' lt' least'
  have sameCase : d.caseId = d'.caseId :=
    eq_of_compare_ne_lt (least' _ _ first second lt) (least _ _ first' second' lt')
  rw [← sameCase] at first'
  have sameFirst : d.first = d'.first :=
    eq_of_compare_ne_lt (fun below => noEarlier _ _ _ first first' below lt')
      (fun below => noEarlier' _ _ _ first' first below (sameKind ▸ lt))
  cases d
  cases d'
  simp_all

theorem sortedConflict_of_firstConflict {m : List (Outcome × List CaseId)} {d : DuplicateCase}
    (asc : KeysAscending m) (casesAsc : ∀ e ∈ m, Ascending e.2) (h : FirstConflict m d) :
    SortedConflict (Records m) d := by
  obtain ⟨done, cases, rest, before, after, rfl, consistent, split, clear, firstRec, ne⟩ := h
  have order := asc
  simp only [KeysAscending, Ascending, List.map_append, List.map_cons, List.pairwise_append,
    List.pairwise_cons] at order
  -- the kinds of the entries before the conflict's come before it, those after it after it
  have below : ∀ k cs, (k, cs) ∈ done → compare k d.second = .lt := fun k cs mem =>
    order.2.2 k (List.mem_map_of_mem (f := (·.1)) mem) d.second List.mem_cons_self
  have above : ∀ k cs, (k, cs) ∈ rest → compare d.second k = .lt := fun k cs mem =>
    order.2.1.1 k (List.mem_map_of_mem (f := (·.1)) mem)
  have early : ∀ k c, Records (done ++ (d.second, cases) :: rest) k c →
      compare k d.second = .lt → Records done k c := by
    rintro k c ⟨cs, mem, hc⟩ lt
    rcases List.mem_append.mp mem with mem | mem
    · exact ⟨cs, mem, hc⟩
    · rcases List.mem_cons.mp mem with same | mem
      · obtain ⟨rfl, -⟩ := Prod.mk.inj same
        exact absurd rfl (compare_ne_of_lt lt)
      · exact absurd (compare_lt_trans lt (above k cs mem)) (compare_ne_of_lt · rfl)
  have atSecond : ∀ c, Records (done ++ (d.second, cases) :: rest) d.second c → c ∈ cases := by
    rintro c ⟨cs, mem, hc⟩
    rcases List.mem_append.mp mem with mem | mem
    · exact absurd rfl (compare_ne_of_lt (below _ _ mem))
    · rcases List.mem_cons.mp mem with same | mem
      · rw [(Prod.mk.inj same).2] at hc
        exact hc
      · exact absurd rfl (compare_ne_of_lt (above _ _ mem))
  have caseIn : d.caseId ∈ cases := mem_ofList.mp (split ▸ by simp)
  refine ⟨records_of_done firstRec, ⟨cases, by simp, caseIn⟩, ?_, ?_, ?_⟩
  · obtain ⟨cs, mem, -⟩ := firstRec
    exact below _ _ mem
  · -- two kinds before the conflict's holding one case would be a conflict among the entries
    -- before it
    intro k₁ k₂ c h₁ h₂ lt lt₂
    have same := consistent c k₁ k₂ (early k₁ c h₁ (compare_lt_trans lt lt₂)) (early k₂ c h₂ lt₂)
    exact compare_ne_of_lt lt same
  · -- a case of the conflict's kind before its case was put under that kind only
    intro k c hk hs lt cLess
    have sorted : Ascending (before ++ d.caseId :: after) := split ▸ ascending_ofList cases
    have inBefore : c ∈ before := by
      have mem : c ∈ before ++ d.caseId :: after := split ▸ mem_ofList.mpr (atSecond c hs)
      rcases List.mem_append.mp mem with hb | ha
      · exact hb
      · simp only [Ascending, List.pairwise_append, List.pairwise_cons] at sorted
        rcases List.mem_cons.mp ha with rfl | ha
        · exact absurd rfl (compare_ne_of_lt cLess)
        · exact absurd cLess (compare_lt_asymm (sorted.2.1.1 c ha))
    exact compare_ne_of_lt lt (clear c inBefore k (early k c hk lt))

/-! ## What the checks report -/

/-- What building and reading baselines accept, and which fault they report.

Building from entries succeeds exactly when no case is under two kinds; it then lists under
each kind the union of its entries' cases, a kind without cases left out; otherwise it
reports the first conflict of its scan.

Reading a file takes its JSON object, keys in byte order with the value of the last member
of each key. A text that is no such object is refused as not a baseline file. The first raw
kind whose name is blank, or else one of whose cases is blank, is reported as such. When no
raw kind is refused, reading succeeds exactly when no trimmed case lies under two raw kinds
that spell different outcomes; it then records each case under the outcomes its raw kinds
spell, merging spellings; otherwise it reports the first conflict in the order of outcome
names. -/
structure ChecksBaselines : Prop where
  build : ∀ entries : List (Outcome × List CaseId),
    ((∃ b, fromKinds entries = .ok b) ↔ Consistent entries) ∧
    (∀ b, fromKinds entries = .ok b →
      ∀ kind, b.get? kind = if united entries kind = [] then none else some (united entries kind)) ∧
    ∀ d, fromKinds entries = .error d ↔ FirstConflict entries d
  table : ∀ members : List (String × List String), KeysAscending (rawTable members) ∧
    ∀ key, find? key (rawTable members) = (members.reverse.find? (·.1 == key)).map (·.2)
  notTable : ∀ text path : String, Json.readStringTable text = none →
    fromJson text path = .error (.deserialize path)
  refused : ∀ (text path : String) members pre e post, Json.readStringTable text = some members →
    rawTable members = pre ++ e :: post → (∀ e' ∈ pre, RawFits e') → ¬ RawFits e →
      fromJson text path =
        .error (if Text.trim e.1 = "" then .emptyKind path else .invalidCaseId path (Outcome.parse e.1))
  accepts : ∀ text path : String, (∃ b, fromJson text path = .ok b) ↔
    ∃ members, Json.readStringTable text = some members ∧ (∀ e ∈ rawTable members, RawFits e) ∧
      Consistent (rawEntries (rawTable members))
  merges : ∀ (text path : String) members b, Json.readStringTable text = some members →
    fromJson text path = .ok b →
      b.Valid ∧ ∀ k c, b.Under k c ↔ Records (rawEntries (rawTable members)) k c
  conflict : ∀ (text path : String) members, Json.readStringTable text = some members →
    (∀ e ∈ rawTable members, RawFits e) → ¬ Consistent (rawEntries (rawTable members)) →
      (∃ d, SortedConflict (Records (rawEntries (rawTable members))) d) ∧
      ∀ d, SortedConflict (Records (rawEntries (rawTable members))) d →
        fromJson text path = .error (.duplicateCase path d.caseId.text d.first d.second)

theorem baseline_checks_report_first_fault : ChecksBaselines where
  build entries := ⟨(fromKinds_spec entries).1, fun _ h => get?_fromKinds h,
    fun _ => fromKinds_eq_error_iff⟩
  table members := ⟨@keysAscending_foldl_put [] List.Pairwise.nil members, fun key => by
    have found := @find?_foldl_put key [] List.Pairwise.nil members
    simp only [find?, Option.or_none] at found
    exact found⟩
  notTable _ path h := fromJson_of_none path h
  refused _ path _ _ _ _ h split fits bad := by
    exact fromJson_of_fold_error h (by rw [split]; exact foldlM_addRawKind_bad path fits bad)
  accepts text path := by
    constructor
    · rintro ⟨b, ok⟩
      cases h : Json.readStringTable text with
      | none => rw [fromJson_of_none path h] at ok; cases ok
      | some members =>
        by_cases fits : ∀ e ∈ rawTable members, RawFits e
        · obtain ⟨kinds, -, -, records, built⟩ := fromJson_of_fits path h fits
          rw [built] at ok
          cases hk : fromKinds kinds with
          | error d => rw [hk] at ok; cases ok
          | ok b' =>
            exact ⟨members, rfl, fits, (consistent_congr records).mp
              ((fromKinds_spec kinds).1.mp ⟨b', hk⟩)⟩
        · obtain ⟨err, run⟩ := foldlM_addRawKind_error path [] fits
          rw [fromJson_of_fold_error h run] at ok
          cases ok
    · rintro ⟨members, h, fits, consistent⟩
      obtain ⟨kinds, -, -, records, built⟩ := fromJson_of_fits path h fits
      obtain ⟨b, hk⟩ := (fromKinds_spec kinds).1.mpr ((consistent_congr records).mpr consistent)
      exact ⟨b, by rw [built, hk]; rfl⟩
  merges text path members b h ok := by
    by_cases fits : ∀ e ∈ rawTable members, RawFits e
    · obtain ⟨kinds, -, -, records, built⟩ := fromJson_of_fits path h fits
      rw [built] at ok
      cases hk : fromKinds kinds with
      | error d => rw [hk] at ok; cases ok
      | ok b' =>
        rw [hk] at ok
        obtain rfl : b' = b := Except.ok.inj ok
        obtain ⟨valid, under⟩ := (fromKinds_spec kinds).2 b' hk
        exact ⟨valid, fun k c => (under k c).trans (records k c)⟩
    · obtain ⟨err, run⟩ := foldlM_addRawKind_error path [] fits
      rw [fromJson_of_fold_error h run] at ok
      cases ok
  conflict text path members h fits inconsistent := by
    obtain ⟨kinds, asc, casesAsc, records, built⟩ := fromJson_of_fits path h fits
    cases hk : fromKinds kinds with
    | ok b =>
      exact absurd ((consistent_congr records).mp ((fromKinds_spec kinds).1.mp ⟨b, hk⟩)) inconsistent
    | error d =>
      have same : Records kinds = Records (rawEntries (rawTable members)) :=
        funext fun k => funext fun c => propext (records k c)
      have sorted := sortedConflict_of_firstConflict asc casesAsc (fromKinds_eq_error hk)
      rw [same] at sorted
      refine ⟨⟨d, sorted⟩, fun d' sorted' => ?_⟩
      rw [← sorted.unique sorted', built, hk]
      rfl

end Conformance.Baseline
