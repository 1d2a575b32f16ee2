import Conformance.Proofs.LogBlocks

/-!
# The states of the reader of logs

The reader of logs has three phases, but only two read differently: a reader just past a
terminate marker reads every line as an idle one does, with the same events and in the end
the same state once the two phases are taken as one (`terminated_reads_as_idle`); only the
remark on a stray end marker, made in the idle phase alone, tells them apart. A case named by
a `TestCase:` line outside a block waits for the next block or terminate marker, which uses it
up: no block is ever open with a case still pending, and the case reaches at most the first
event after its line, and that one only when it names no case of its own
(`pending_case_used_once`).
-/

namespace Conformance.Log

/-- The reader as it starts. -/
def Scan.start : Scan := ⟨.idle, none⟩

/-- The reader after some lines. -/
def Scan.after (s : Scan) (lines : List (List Char)) : Scan :=
  lines.foldl (fun s line => (s.step line).1) s

/-- A phase with `terminated` taken as `idle`. -/
def Phase.idled : Phase → Phase
  | .terminated => .idle
  | ph => ph

/-- A state with `terminated` taken as `idle`. -/
def Scan.idled (s : Scan) : Scan := ⟨s.phase.idled, s.pending⟩

/-- An event given a case for when it names none. -/
def OutcomeEvent.orCase (c : CaseId) (ev : OutcomeEvent) : OutcomeEvent :=
  { ev with explicit := ev.explicit <|> some c }

/-! ## The reader follows the reading by lines along a whole run -/

theorem Track.Matches.after {t : Track} {s : Scan} (h : t.Matches s) (lines : List (List Char)) :
    (t.after lines).Matches (s.after lines) := by
  induction lines generalizing t s with
  | nil => exact h
  | cons line rest ih => exact ih (h.step line).1

theorem Track.matches_scanStart : Track.start.Matches Scan.start :=
  Track.matches_start

theorem Track.matches_outside {ph : Phase} (outside : ph = .idle ∨ ph = .terminated)
    (p : Option CaseId) : (Track.idle p).Matches ⟨ph, p⟩ :=
  ⟨outside, rfl⟩

theorem Track.Matches.idled_eq {t : Track} {s₁ s₂ : Scan} (h₁ : t.Matches s₁)
    (h₂ : t.Matches s₂) : s₁.idled = s₂.idled := by
  obtain ⟨ph₁, p₁⟩ := s₁
  obtain ⟨ph₂, p₂⟩ := s₂
  cases t with
  | idle p =>
    obtain ⟨outside₁, rfl⟩ := h₁
    obtain ⟨outside₂, rfl⟩ := h₂
    rcases outside₁ with rfl | rfl <;> rcases outside₂ with rfl | rfl <;> rfl
  | inBlock c ls =>
    obtain ⟨rfl, rfl⟩ := h₁
    obtain ⟨rfl, rfl⟩ := h₂
    rfl

theorem Track.Matches.pending_of_inBlock {t : Track} {s : Scan} (h : t.Matches s)
    {c : Option CaseId} {payload : String} (opened : s.phase = .inBlock c payload) :
    s.pending = none := by
  cases t with
  | idle p =>
    obtain ⟨outside, -⟩ := h
    rcases outside with outside | outside <;> rw [opened] at outside <;> cases outside
  | inBlock c' ls => exact h.2

theorem Track.Matches.eventsFrom_nil {t : Track} {s : Scan} (h : t.Matches s)
    (lines : List (List Char)) : s.eventsFrom [] lines = t.run lines :=
  h.eventsFrom [] lines

theorem Track.Matches.eq_idle {t : Track} {s : Scan} (h : t.Matches s)
    (outside : s.phase = .idle ∨ s.phase = .terminated) : t = .idle s.pending := by
  cases t with
  | idle p => rw [h.2]
  | inBlock c ls =>
    rcases outside with outside | outside <;> rw [h.1] at outside <;> cases outside

/-! ## A pending case goes to one event -/

theorem Track.run_inBlock_orCase (x : Option CaseId) (c : CaseId) (ls : List (List Char))
    (lines : List (List Char)) :
    (Track.inBlock (x <|> some c) ls).run lines =
      ((Track.inBlock x ls).run lines).modifyHead (OutcomeEvent.orCase c) := by
  induction lines generalizing ls with
  | nil => rfl
  | cons line rest ih =>
    -- payload lines keep the block open; every marker closes it with an event
    cases kind : LineKind.classify line with
    | caseName r => simpa [Track.run, Track.next, Track.event, kind] using ih (ls ++ [line])
    | text => simpa [Track.run, Track.next, Track.event, kind] using ih (ls ++ [line])
    | _ =>
      simp [Track.run, Track.next, Track.event, Track.named, Track.pending, kind,
        OutcomeEvent.orCase]

theorem Track.run_idle_orCase (p : Option CaseId) (c : CaseId) (lines : List (List Char)) :
    (Track.idle (p <|> some c)).run lines =
      ((Track.idle p).run lines).modifyHead (OutcomeEvent.orCase c) := by
  induction lines generalizing p with
  | nil => rfl
  | cons line rest ih =>
    cases kind : LineKind.classify line with
    | begin r =>
      simpa [Track.run, Track.next, Track.event, Track.pending, kind] using
        Track.run_inBlock_orCase ((firstWord r).bind CaseId.ofString? <|> p) c [] rest
    | terminate r =>
      simp [Track.run, Track.next, Track.event, Track.named, kind, OutcomeEvent.orCase]
    | caseName r =>
      simpa [Track.run, Track.next, Track.event, kind] using
        ih (CaseId.ofString? (String.ofList r) <|> p)
    | finish => simpa [Track.run, Track.next, Track.event, kind] using ih p
    | text => simpa [Track.run, Track.next, Track.event, kind] using ih p

theorem Track.run_caseName {line rest : List Char} {c : CaseId}
    (kind : LineKind.classify line = .caseName rest)
    (named : CaseId.ofString? (String.ofList rest) = some c) (p : Option CaseId)
    (lines : List (List Char)) :
    (Track.idle p).run (line :: lines) =
      ((Track.idle none).run lines).modifyHead (OutcomeEvent.orCase c) := by
  have read : (Track.idle p).run (line :: lines) = (Track.idle (none <|> some c)).run lines := by
    simp [Track.run, Track.event, Track.next, kind, named]
  rw [read, Track.run_idle_orCase]

/-- A `TestCase:` line names its case for one event at most. While a block is open no case
is pending. Read outside a block, the line leaves the rest of the log to read as it reads
on its own, but for the first event after the line, which takes the line's case when it
names none of its own. -/
theorem pending_case_used_once :
    (∀ (lines : List (List Char)) (c : Option CaseId) (payload : String),
      (Scan.start.after lines).phase = .inBlock c payload →
        (Scan.start.after lines).pending = none) ∧
    ∀ (pre post : List (List Char)) (line rest : List Char) (c : CaseId),
      ((Scan.start.after pre).phase = .idle ∨ (Scan.start.after pre).phase = .terminated) →
      LineKind.classify line = .caseName rest → CaseId.ofString? (String.ofList rest) = some c →
      Scan.start.eventsFrom [] (pre ++ line :: post) =
        Scan.start.eventsFrom [] pre ++
          (Scan.start.eventsFrom [] post).modifyHead (OutcomeEvent.orCase c) := by
  constructor
  · intro lines c payload opened
    exact (Track.matches_scanStart.after lines).pending_of_inBlock opened
  · intro pre post line rest c outside kind named
    -- after `pre` the reader stands for the idle reading, with whatever case is pending
    have atLine := (Track.matches_scanStart.after pre).eq_idle outside
    calc Scan.start.eventsFrom [] (pre ++ line :: post)
        = Track.start.run pre ++ (Track.start.after pre).run (line :: post) := by
          rw [Track.matches_scanStart.eventsFrom_nil, Track.run_append]
      _ = Track.start.run pre ++
            ((Track.idle none).run post).modifyHead (OutcomeEvent.orCase c) := by
          rw [atLine, Track.run_caseName kind named]
      _ = Scan.start.eventsFrom [] pre ++
            (Scan.start.eventsFrom [] post).modifyHead (OutcomeEvent.orCase c) := by
          rw [Track.matches_scanStart.eventsFrom_nil, Track.matches_scanStart.eventsFrom_nil]
          rfl

/-- A case named after a terminate marker goes to the block that follows, which names none,
and not to the terminate marker after that block. -/
theorem case_named_after_terminate_goes_to_next_block :
    ((Scan.start.after ["#terminateTestCaseResult Crash".toList]).phase = .idle ∨
      (Scan.start.after ["#terminateTestCaseResult Crash".toList]).phase = .terminated) ∧
    LineKind.classify "TestCase: a".toList = .caseName " a".toList ∧
    CaseId.ofString? (String.ofList " a".toList) = some (.mk "a") ∧
    Scan.start.eventsFrom [] (["#terminateTestCaseResult Crash".toList] ++ "TestCase: a".toList ::
        ["#beginTestCaseResult".toList, "#terminateTestCaseResult Fail".toList,
          "#terminateTestCaseResult Pass".toList]) =
      Scan.start.eventsFrom [] ["#terminateTestCaseResult Crash".toList] ++
        (Scan.start.eventsFrom [] ["#beginTestCaseResult".toList,
          "#terminateTestCaseResult Fail".toList,
          "#terminateTestCaseResult Pass".toList]).modifyHead (OutcomeEvent.orCase (.mk "a")) := by
  have outside : (Scan.start.after ["#terminateTestCaseResult Crash".toList]).phase = .idle ∨
      (Scan.start.after ["#terminateTestCaseResult Crash".toList]).phase = .terminated := by
    decide
  have kind : LineKind.classify "TestCase: a".toList = .caseName " a".toList := by decide
  have named : CaseId.ofString? (String.ofList " a".toList) = some (.mk "a") := by decide
  exact ⟨outside, kind, named, pending_case_used_once.2 _ _ _ _ _ outside kind named⟩

/-! ## Terminated reads as idle -/

/-- From a terminate marker on, the reader reads every line as an idle reader with the
same pending case: it gives the same events, so the same emissions and the same place in
any caselist, and ends with the same pending case and, once `terminated` is taken as `idle`,
in the same phase. -/
theorem terminated_reads_as_idle (p : Option CaseId) (lines : List (List Char))
    (cl : List CaseId) :
    let terminated : Scan := ⟨.terminated, p⟩
    let idle : Scan := ⟨.idle, p⟩
    terminated.eventsFrom [] lines = idle.eventsFrom [] lines ∧
      associate cl (terminated.eventsFrom [] lines) = associate cl (idle.eventsFrom [] lines) ∧
      cl.drop (terminated.eventsFrom [] lines).length =
        cl.drop (idle.eventsFrom [] lines).length ∧
      (terminated.after lines).idled = (idle.after lines).idled := by
  intro terminated idle
  have fromTerminated := Track.matches_outside (.inr rfl) p
  have fromIdle := Track.matches_outside (.inl rfl) p
  have sameEvents : terminated.eventsFrom [] lines = idle.eventsFrom [] lines := by
    rw [fromTerminated.eventsFrom_nil, fromIdle.eventsFrom_nil]
  refine ⟨sameEvents, by rw [sameEvents], by rw [sameEvents], ?_⟩
  exact (fromTerminated.after lines).idled_eq (fromIdle.after lines)

end Conformance.Log
