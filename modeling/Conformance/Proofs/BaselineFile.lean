import Conformance.Baseline.File
import Conformance.Proofs.Fold
import Conformance.Proofs.JsonTable

/-!
A baseline file reads back as the baseline written to it (`baseline_file_round_trips`). Reading
is not the plain inverse of writing: it trims kind names and case ids, reads kind names as
outcomes, merges two spellings of one outcome and checks again that no case is under two
kinds. Outcomes and case ids are kept in the form reading gives, so each reads back as itself
(`Outcome.parse_name_self`, `CaseId.make_text`); the round trip then holds for every valid
baseline, and every baseline read from any text is valid.

Building a baseline from entries is described once (`fromKinds_spec`): it succeeds exactly
when no case is under two kinds, and then records every case under its kind.
-/

namespace Conformance

namespace Baseline
open Sorted

/-! ## Building a baseline from entries -/

/-- The entries record a case under a kind. -/
def Records (entries : List (Outcome × List CaseId)) (kind : Outcome) (c : CaseId) : Prop :=
  ∃ cases, (kind, cases) ∈ entries ∧ c ∈ cases

/-- No case is recorded under two kinds. -/
def Consistent (entries : List (Outcome × List CaseId)) : Prop :=
  ∀ c k₁ k₂, Records entries k₁ c → Records entries k₂ c → k₁ = k₂

theorem records_append_single {done : List (Outcome × List CaseId)} {kind k : Outcome}
    {cases : List CaseId} {c : CaseId} :
    Records (done ++ [(kind, cases)]) k c ↔ Records done k c ∨ (k = kind ∧ c ∈ cases) := by
  simp only [Records, List.mem_append, List.mem_singleton, Prod.mk.injEq]
  constructor
  · rintro ⟨cs, mem | ⟨rfl, rfl⟩, hc⟩
    · exact .inl ⟨cs, mem, hc⟩
    · exact .inr ⟨rfl, hc⟩
  · rintro (⟨cs, mem, hc⟩ | ⟨rfl, hc⟩)
    · exact ⟨cs, .inl mem, hc⟩
    · exact ⟨cases, .inr ⟨rfl, rfl⟩, hc⟩

theorem checkCases_ok {kind : Outcome} {seen : List (CaseId × Outcome)} {xs : List CaseId}
    (h : KeysAscending seen) (fits : ∀ c ∈ xs, ∀ k, find? c seen = some k → k = kind) :
    ∃ seen', checkCases kind seen xs = .ok seen' ∧ KeysAscending seen' ∧
      ∀ c, find? c seen' = if c ∈ xs then some kind else find? c seen := by
  induction xs generalizing seen with
  | nil => exact ⟨seen, rfl, h, by simp⟩
  | cons x xs ih =>
    have restFits : ∀ c ∈ xs, ∀ k, find? c seen = some k → k = kind :=
      fun c hc => fits c (List.mem_cons_of_mem _ hc)
    cases hx : find? x seen with
    | some first =>
      obtain rfl := fits x List.mem_cons_self first hx
      obtain ⟨seen', run, asc, found⟩ := ih h restFits
      refine ⟨seen', by simp [checkCases, hx, run], asc, fun c => ?_⟩
      by_cases same : c = x
      · subst same
        simp [found, hx]
      · simp [found, same]
    | none =>
      -- a case met for the first time is put under the entry's kind
      have put : ∀ c, find? c (Sorted.put x kind seen) = if c = x then some kind else find? c seen := by
        intro c
        by_cases same : c = x
        · subst same
          simp [Sorted.put, find?_alter_self h]
        · simp [Sorted.put, find?_alter_of_ne h same, same]
      have putFits : ∀ c ∈ xs, ∀ k, find? c (Sorted.put x kind seen) = some k → k = kind := by
        intro c hc k hk
        rw [put] at hk
        split at hk
        · exact (Option.some_inj.mp hk).symm
        · exact restFits c hc k hk
      have putAscending : KeysAscending (Sorted.put x kind seen) := keysAscending_alter h
      obtain ⟨seen', run, asc, found⟩ := ih putAscending putFits
      refine ⟨seen', by simp [checkCases, hx, run], asc, fun c => ?_⟩
      rw [found, put]
      by_cases same : c = x
      · simp [same]
      · simp [same]

theorem fits_of_checkCases {kind : Outcome} {seen seen' : List (CaseId × Outcome)}
    {xs : List CaseId} (h : KeysAscending seen) (run : checkCases kind seen xs = .ok seen') :
    ∀ c ∈ xs, ∀ k, find? c seen = some k → k = kind := by
  induction xs generalizing seen with
  | nil => simp
  | cons x xs ih =>
    intro c hc k hk
    cases hx : find? x seen with
    | some first =>
      have keep : first = kind := by
        by_contra differ
        simp [checkCases, hx, differ] at run
      simp only [checkCases, hx, keep, if_true] at run
      rcases List.mem_cons.mp hc with rfl | hc
      · exact (Option.some_inj.mp (hx.symm.trans hk)).symm.trans keep
      · exact ih h run c hc k hk
    | none =>
      simp only [checkCases, hx] at run
      rcases List.mem_cons.mp hc with rfl | hc
      · simp [hx] at hk
      · have other : c ≠ x := by
          rintro rfl
          simp [hx] at hk
        have putAscending : KeysAscending (Sorted.put x kind seen) := keysAscending_alter h
        refine ih putAscending run c hc k ?_
        unfold Sorted.put
        rw [find?_alter_of_ne h other, hk]

/-- Where the scan of `fromKinds` stands after some entries: the kinds built so far are a
valid baseline recording exactly those entries, and the first kind of each case is known. -/
structure Scanned (done : List (Outcome × List CaseId)) (seen : List (CaseId × Outcome))
    (out : List (Outcome × List CaseId)) : Prop where
  seenAscending : KeysAscending seen
  outAscending : KeysAscending out
  casesAscending : ∀ e ∈ out, Ascending e.2
  nonempty : ∀ e ∈ out, e.2 ≠ []
  firstKind : ∀ c k, find? c seen = some k ↔ Records done k c
  filed : ∀ k c, Sorted.Under out k c ↔ Records done k c

theorem scanned_nil : Scanned [] [] [] where
  seenAscending := List.Pairwise.nil
  outAscending := List.Pairwise.nil
  casesAscending := by simp
  nonempty := by simp
  firstKind := by simp [find?, Records]
  filed := by simp [Sorted.Under, find?, Records]

theorem Scanned.step {done : List (Outcome × List CaseId)} {seen seen' : List (CaseId × Outcome)}
    {out : List (Outcome × List CaseId)} {kind : Outcome} {cases : List CaseId}
    (inv : Scanned done seen out) (run : checkCases kind seen (ofList cases) = .ok seen') :
    Scanned (done ++ [(kind, cases)]) seen'
      (if (ofList cases).isEmpty then out else modify kind [] (union · (ofList cases)) out) := by
  have fits := fits_of_checkCases inv.seenAscending run
  obtain ⟨seen'', run', asc, found⟩ := checkCases_ok inv.seenAscending fits
  obtain rfl : seen' = seen'' := Except.ok.inj (run.symm.trans run')
  have firstKind : ∀ c k, find? c seen' = some k ↔ Records (done ++ [(kind, cases)]) k c := by
    intro c k
    rw [found, records_append_single, ← inv.firstKind]
    by_cases hc : c ∈ cases
    · have inSet : c ∈ ofList cases := mem_ofList.mpr hc
      -- a case of this entry seen before was seen under this same kind
      have same : find? c seen = some k → k = kind := fits c inSet k
      simp only [inSet, if_true, Option.some_inj, hc, and_true]
      constructor
      · rintro rfl
        exact .inr rfl
      · rintro (earlier | rfl)
        · exact (same earlier).symm
        · rfl
    · simp [mem_ofList, hc]
  refine ⟨asc, ?_, ?_, ?_, firstKind, ?_⟩
  · split
    · exact inv.outAscending
    · exact keysAscending_alter inv.outAscending
  · split
    · exact inv.casesAscending
    · rintro ⟨k, cs⟩ mem
      rcases (mem_alter inv.outAscending).mp mem with ⟨rfl, filed⟩ | ⟨_, mem⟩
      · obtain rfl := Option.some_inj.mp filed
        exact ascending_union _ (ascending_getD inv.outAscending inv.casesAscending k)
      · exact inv.casesAscending _ mem
  · split
    · exact inv.nonempty
    · next nonempty =>
      rintro ⟨k, cs⟩ mem
      rcases (mem_alter inv.outAscending).mp mem with ⟨rfl, filed⟩ | ⟨_, mem⟩
      · obtain rfl := Option.some_inj.mp filed
        obtain ⟨c, hc⟩ := List.exists_mem_of_ne_nil _ (by simpa using nonempty)
        exact List.ne_nil_of_mem (mem_union.mpr (.inr hc))
      · exact inv.nonempty _ mem
  · intro k c
    rw [records_append_single, ← inv.filed]
    split
    · next empty =>
      have absent : c ∉ cases := fun hc => by
        have kept := mem_ofList.mpr hc
        rw [List.isEmpty_iff.mp empty] at kept
        simp at kept
      simp [absent]
    · by_cases same : k = kind
      · subst same
        simp [Sorted.Under, Sorted.modify, find?_alter_self inv.outAscending]
      · simp [Sorted.Under, Sorted.modify, find?_alter_of_ne inv.outAscending same, same]

theorem records_of_done {done rest : List (Outcome × List CaseId)} {k : Outcome} {c : CaseId}
    (h : Records done k c) : Records (done ++ rest) k c := by
  obtain ⟨cs, mem, hc⟩ := h
  exact ⟨cs, List.mem_append_left _ mem, hc⟩

theorem go_spec {done rest : List (Outcome × List CaseId)} {seen : List (CaseId × Outcome)}
    {out : List (Outcome × List CaseId)} {b : Baseline} (inv : Scanned done seen out)
    (h : fromKinds.go seen out rest = .ok b) :
    b.Valid ∧ ∀ k c, b.Under k c ↔ Records (done ++ rest) k c := by
  induction rest generalizing done seen out with
  | nil =>
    simp only [fromKinds.go, Except.ok.injEq] at h
    subst h
    refine ⟨⟨inv.outAscending, inv.casesAscending, inv.nonempty, ?_⟩, ?_⟩
    · -- the kind a case is filed under is the one it was first seen under
      intro c k₁ k₂ h₁ h₂
      have first₁ := (inv.firstKind c k₁).mpr ((inv.filed k₁ c).mp h₁)
      have first₂ := (inv.firstKind c k₂).mpr ((inv.filed k₂ c).mp h₂)
      exact Option.some_inj.mp (first₁.symm.trans first₂)
    · simpa [Baseline.Under] using inv.filed
  | cons e rest ih =>
    obtain ⟨kind, cases⟩ := e
    cases run : checkCases kind seen (ofList cases) with
    | error d => simp [fromKinds.go, run, bind, Except.bind] at h
    | ok seen' =>
      simp only [fromKinds.go, run, bind, Except.bind] at h
      simpa using ih (inv.step run) h

theorem go_ok {done rest : List (Outcome × List CaseId)} {seen : List (CaseId × Outcome)}
    {out : List (Outcome × List CaseId)} (inv : Scanned done seen out)
    (consistent : Consistent (done ++ rest)) : ∃ b, fromKinds.go seen out rest = .ok b := by
  induction rest generalizing done seen out with
  | nil => exact ⟨_, rfl⟩
  | cons e rest ih =>
    obtain ⟨kind, cases⟩ := e
    have fits : ∀ c ∈ ofList cases, ∀ k, find? c seen = some k → k = kind := by
      intro c hc k hk
      refine consistent c k kind (records_of_done ((inv.firstKind c k).mp hk)) ?_
      exact ⟨cases, List.mem_append_right _ List.mem_cons_self, mem_ofList.mp hc⟩
    obtain ⟨seen', run, -, -⟩ := checkCases_ok inv.seenAscending fits
    obtain ⟨b, hb⟩ := ih (inv.step run) (by simpa using consistent)
    exact ⟨b, by simpa [fromKinds.go, run, bind, Except.bind] using hb⟩

/-- Building a baseline from entries succeeds exactly when no case is under two kinds, and
what it builds is a valid baseline recording every case of the entries under its kind. -/
theorem fromKinds_spec (entries : List (Outcome × List CaseId)) :
    ((∃ b, fromKinds entries = .ok b) ↔ Consistent entries) ∧
      ∀ b, fromKinds entries = .ok b → b.Valid ∧ ∀ k c, b.Under k c ↔ Records entries k c := by
  have built : ∀ b, fromKinds entries = .ok b →
      b.Valid ∧ ∀ k c, b.Under k c ↔ Records entries k c := fun b h =>
    by simpa using go_spec scanned_nil h
  refine ⟨⟨?_, fun consistent => go_ok scanned_nil (by simpa using consistent)⟩, built⟩
  rintro ⟨b, h⟩ c k₁ k₂ h₁ h₂
  obtain ⟨valid, records⟩ := built b h
  exact valid.oneKind c k₁ k₂ ((records k₁ c).mpr h₁) ((records k₂ c).mpr h₂)

theorem fromKinds_kinds {b : Baseline} (hb : b.Valid) : fromKinds b.kinds = .ok b := by
  have records : ∀ k c, Records b.kinds k c ↔ b.Under k c := fun k c => hb.under_iff.symm
  obtain ⟨b', h⟩ := (fromKinds_spec b.kinds).1.mpr fun c k₁ k₂ h₁ h₂ =>
    hb.oneKind c k₁ k₂ ((records k₁ c).mp h₁) ((records k₂ c).mp h₂)
  obtain ⟨valid, under⟩ := (fromKinds_spec b.kinds).2 b' h
  have same : b' = b := valid.ext hb fun c => Option.ext fun k => by
    rw [valid.kindOf_eq_some_iff, hb.kindOf_eq_some_iff, under, records]
  rw [h, same]

/-! ## Baseline files -/

/-- What a baseline file holds: each kind's name with its case ids. -/
def fileMembers (b : Baseline) : List (String × List String) :=
  b.kinds.map fun e => (e.1.name, e.2.map CaseId.text)

theorem readStringTable_toJson (b : Baseline) :
    Json.readStringTable b.toJson = some b.fileMembers := by
  have value : b.toJsonValue = .obj (b.fileMembers.map fun e => (e.1, Json.strs e.2)) := by
    simp [toJsonValue, fileMembers]
  rw [toJson, value, Json.readStringTable_pretty]

theorem keysAscending_fileMembers {b : Baseline} (hb : b.Valid) :
    KeysAscending b.fileMembers := by
  have names : b.fileMembers.map (·.1) = (b.kinds.map (·.1)).map Outcome.name := by
    simp [fileMembers]
  unfold KeysAscending Ascending
  rw [names, List.pairwise_map]
  exact hb.kindsAscending

theorem rawTable_of_ascending {ms : List (String × List String)} (h : KeysAscending ms) :
    rawTable ms = ms := by
  suffices ∀ acc, KeysAscending (acc ++ ms) →
      ms.foldl (fun m (e : String × List String) => Sorted.put e.1 e.2 m) acc = acc ++ ms from
    this [] h
  clear h
  induction ms with
  | nil => simp
  | cons e ms ih =>
    intro acc asc
    have above : ∀ a ∈ acc, compare a.1 e.1 = .lt := by
      unfold KeysAscending Ascending at asc
      rw [List.map_append, List.pairwise_append] at asc
      exact fun a ha => asc.2.2 _ (List.mem_map_of_mem ha) _ (by simp)
    rw [List.foldl_cons, Sorted.put, alter_of_above above]
    simpa using ih (acc ++ [e]) (by simpa using asc)

theorem readCases_texts (path : String) (kind : Outcome) (ids : List CaseId) :
    readCases path kind (ids.map CaseId.text) = .ok ids := by
  induction ids with
  | nil => rfl
  | cons id ids ih =>
    unfold readCases at ih ⊢
    simp [List.mapM_cons, CaseId.make_text, ih, bind, Except.bind, pure, Except.pure]

theorem foldlM_addRawKind (path : String) {acc ks : List (Outcome × List CaseId)}
    (asc : KeysAscending (acc ++ ks)) (casesAsc : ∀ e ∈ ks, Ascending e.2) :
    (ks.map fun e => (e.1.name, e.2.map CaseId.text)).foldlM (addRawKind path) acc =
      .ok (acc ++ ks) := by
  induction ks generalizing acc with
  | nil => simp [pure, Except.pure]
  | cons e ks ih =>
    obtain ⟨kind, cases⟩ := e
    have named : Text.trim kind.name ≠ "" := by
      rw [kind.trimmed]
      exact kind.nonblank
    have above : ∀ a ∈ acc, compare a.1 kind = .lt := by
      unfold KeysAscending Ascending at asc
      rw [List.map_append, List.pairwise_append] at asc
      exact fun a ha => asc.2.2 _ (List.mem_map_of_mem ha) _ (by simp)
    have filed : addRawKind path acc (kind.name, cases.map CaseId.text) = .ok (acc ++ [(kind, cases)]) := by
      have union : Sorted.union [] (ofList cases) = cases := by
        rw [show Sorted.union [] (ofList cases) = ofList (ofList cases) from rfl,
          ofList_of_ascending (ascending_ofList cases),
          ofList_of_ascending (casesAsc _ List.mem_cons_self)]
      simp [addRawKind, named, Outcome.parse_name_self, readCases_texts, bind, Except.bind, pure,
        Except.pure, Sorted.modify, alter_of_above above, union]
    rw [List.map_cons, List.foldlM_cons, filed]
    simpa [bind, Except.bind] using @ih (acc ++ [(kind, cases)]) (by simpa using asc)
      (fun e he => casesAsc e (List.mem_cons_of_mem _ he))

theorem fromJson_toJson {b : Baseline} (hb : b.Valid) (path : String) :
    fromJson b.toJson path = .ok b := by
  have raw : rawTable b.fileMembers = b.fileMembers :=
    rawTable_of_ascending (keysAscending_fileMembers hb)
  have filed : b.fileMembers.foldlM (addRawKind path) [] = .ok b.kinds := by
    simpa [fileMembers] using @foldlM_addRawKind path [] b.kinds (by simpa using hb.kindsAscending)
      hb.casesAscending
  simp [fromJson, readStringTable_toJson, raw, filed, fromKinds_kinds hb, bind, Except.bind,
    pure, Except.pure]

theorem valid_of_fromJson {text path : String} {b : Baseline} (h : fromJson text path = .ok b) :
    b.Valid := by
  cases hread : Json.readStringTable text with
  | none => simp [fromJson, hread, throw, throwThe, MonadExceptOf.throw, bind, Except.bind] at h
  | some members =>
    cases hfold : (rawTable members).foldlM (addRawKind path) [] with
    | error e => simp [fromJson, hread, hfold, bind, Except.bind, pure, Except.pure] at h
    | ok kinds =>
      cases hkinds : fromKinds kinds with
      | error d =>
        simp [fromJson, hread, hfold, hkinds, bind, Except.bind, pure, Except.pure, throw,
          throwThe, MonadExceptOf.throw] at h
      | ok b' =>
        simp only [fromJson, hread, hfold, hkinds, bind, Except.bind, pure, Except.pure,
          Except.ok.injEq] at h
        exact h ▸ ((fromKinds_spec kinds).2 b' hkinds).1

/-- The baseline file codec round-trips. Every valid baseline reads back from its file; and
every baseline read from any text is valid, so writing what was read gives a file that reads
back as the same baseline: the canonical file, kinds and cases ascending. -/
theorem baseline_file_round_trips :
    (∀ (b : Baseline) (path : String), b.Valid → fromJson b.toJson path = .ok b) ∧
      ∀ (text path path' : String) (b : Baseline), fromJson text path = .ok b →
        b.Valid ∧ fromJson b.toJson path' = .ok b :=
  ⟨fun _ path hb => fromJson_toJson hb path, fun _ _ path' _ h =>
    ⟨valid_of_fromJson h, fromJson_toJson (valid_of_fromJson h) path'⟩⟩

end Baseline

end Conformance
