import Conformance.Log.Reader

/-!
# The events of a log, line by line

Reading a log gives one outcome event for each marker line that closes something: every
terminate marker, and each end or begin marker that arrives inside a block. That rule is
stated on its own as a reading whose open block keeps its lines (`Track`), the payload being
the lines from the first nonempty one on joined by line feeds, and the reader of logs gives
its events on every text (`events_eq_run`). Event `k` then takes the `k`-th case of the
caselist, whatever became of the events before it (`emissions_getElem?`).
-/

namespace Conformance.Log

/-- A block's payload: its lines from the first nonempty one on, joined by line feeds. -/
def payloadText (ls : List (List Char)) : String :=
  Text.joinWith "\n" ((ls.dropWhile List.isEmpty).map String.ofList)

/-- Where a reading line by line stands: outside any block, with the case named by the last
`TestCase:` line, or inside a block, with its explicit case and its lines so far. -/
inductive Track where
  | idle (pending : Option CaseId)
  | inBlock (caseId : Option CaseId) (lines : List (List Char))
  deriving DecidableEq, Repr

namespace Track

/-- Nothing read yet. -/
def start : Track := .idle none

/-- The case a block opened here takes when its begin line names none. -/
def pending : Track → Option CaseId
  | .idle p => p
  | .inBlock _ _ => none

/-- The case a terminate marker read here is reported under. -/
def named : Track → Option CaseId
  | .idle p => p
  | .inBlock c _ => c

/-- The event of a line read in a state. A terminate marker gives one in every state, with
the outcome its first word names (a parse failure if it has none); inside a block, an end
marker gives the outcome the payload reads as, and a begin marker an internal error. No
other line gives one. -/
def event (t : Track) (line : List Char) : Option OutcomeEvent :=
  match t, LineKind.classify line with
  | t, .terminate rest =>
    some ⟨t.named, none, match firstWord rest with
      | some w => Outcome.parse w
      | none => .parseFailure⟩
  | .inBlock c ls, .finish =>
    let report := readPayload (payloadText ls)
    some ⟨c, report.casePath, report.outcome⟩
  | .inBlock c _, .begin _ => some ⟨c, none, .internalError⟩
  | _, _ => none

/-- The state after a line. A begin marker opens a block named by its first word, else by
the pending case; an end marker leaves a block, and a terminate marker leaves any state
with no pending case; a `TestCase:` line outside a block names the pending case; inside a
block every other line is payload. -/
def next (t : Track) (line : List Char) : Track :=
  match t, LineKind.classify line with
  | t, .begin rest => .inBlock ((firstWord rest).bind CaseId.ofString? <|> t.pending) []
  | .idle p, .finish => .idle p
  | .inBlock _ _, .finish => .idle none
  | _, .terminate _ => .idle none
  | .idle p, .caseName rest => .idle (CaseId.ofString? (String.ofList rest) <|> p)
  | .idle p, .text => .idle p
  | .inBlock c ls, _ => .inBlock c (ls ++ [line])

/-- The events of the remaining lines, in order; a block still open at the end gives none. -/
def run : Track → List (List Char) → List OutcomeEvent
  | _, [] => []
  | t, line :: rest => (t.event line).toList ++ (t.next line).run rest

/-- A state of the reader of logs stands for a state of the reading by lines: the same
pending case outside a block and, inside one, the same explicit case, no pending case and
the block's lines joined as its payload. -/
def Matches : Track → Scan → Prop
  | .idle p, s => (s.phase = .idle ∨ s.phase = .terminated) ∧ s.pending = p
  | .inBlock c ls, s => s.phase = .inBlock c (payloadText ls) ∧ s.pending = none

end Track

/-! ## Payloads -/

theorem payloadText_nil : payloadText [] = "" := rfl

theorem joinWith_append_single (sep s : String) {xs : List String} (h : xs ≠ []) :
    Text.joinWith sep (xs ++ [s]) = Text.joinWith sep xs ++ sep ++ s := by
  induction xs with
  | nil => contradiction
  | cons x rest ih =>
    cases rest with
    | nil => rfl
    | cons y rest =>
      have later := ih (List.cons_ne_nil y rest)
      rw [List.cons_append] at later
      show x ++ sep ++ Text.joinWith sep (y :: (rest ++ [s])) =
        x ++ sep ++ Text.joinWith sep (y :: rest) ++ sep ++ s
      rw [later]
      simp only [String.append_assoc]

theorem joinWith_cons_ne_empty (sep : String) {s : String} (rest : List String) (h : s ≠ "") :
    Text.joinWith sep (s :: rest) ≠ "" := by
  have front : ∃ t, Text.joinWith sep (s :: rest) = s ++ t := by
    cases rest with
    | nil => exact ⟨"", String.append_empty.symm⟩
    | cons y rest => exact ⟨sep ++ Text.joinWith sep (y :: rest), String.append_assoc⟩
  obtain ⟨t, joined⟩ := front
  rw [joined]
  intro empty
  have chars := congrArg String.toList empty
  simp only [String.toList_append, String.toList_empty, List.append_eq_nil_iff] at chars
  exact h (String.toList_eq_nil_iff.mp chars.1)

theorem payloadText_append_line (ls : List (List Char)) (line : List Char) :
    payloadText (ls ++ [line]) =
      if (payloadText ls).isEmpty then String.ofList line
      else payloadText ls ++ "\n" ++ String.ofList line := by
  unfold payloadText
  rw [List.dropWhile_append]
  cases kept : ls.dropWhile List.isEmpty with
  | nil =>
    -- every line so far is empty, so the new one is dropped too when it is empty
    cases line with
    | nil => rfl
    | cons c cs => rfl
  | cons first rest =>
    -- the first kept line is nonempty, so the payload so far is nonempty as well
    have firstNonempty : first ≠ [] := by
      have := List.head_dropWhile_not List.isEmpty (l := ls) (by simp [kept])
      simp only [kept, List.head_cons, List.isEmpty_eq_false_iff] at this
      exact this
    have payload : Text.joinWith "\n" ((first :: rest).map String.ofList) ≠ "" :=
      joinWith_cons_ne_empty "\n" _ (mt String.ofList_eq_empty_iff.mp firstNonempty)
    rw [if_neg (by simp), if_neg (by simpa [String.isEmpty_iff] using payload), List.map_append,
      List.map_singleton]
    exact joinWith_append_single _ _ (by simp)

/-! ## The reader follows the reading by lines -/

theorem terminateOutcome_eq (rest : List Char) :
    terminateOutcome rest = match firstWord rest with
      | some w => Outcome.parse w
      | none => .parseFailure := by
  unfold terminateOutcome
  cases firstWord rest <;> rfl

theorem Track.matches_start : Track.start.Matches ⟨.idle, none⟩ :=
  ⟨.inl rfl, rfl⟩

theorem Track.Matches.step {t : Track} {s : Scan} (h : t.Matches s) (line : List Char) :
    (t.next line).Matches (s.step line).1 ∧ (s.step line).2 = t.event line := by
  obtain ⟨phase, waiting⟩ := s
  cases t with
  | idle p =>
    -- outside a block the reader is idle or just past a terminate marker, alike for events
    obtain ⟨outside, rfl⟩ := h
    rcases outside with rfl | rfl <;> cases kind : LineKind.classify line <;>
      simp [Scan.step, Scan.openBlock, Track.next, Track.event, Track.Matches, Track.pending,
        Track.named, kind, terminateOutcome_eq, payloadText_nil]
  | inBlock c ls =>
    obtain ⟨rfl, rfl⟩ := h
    cases kind : LineKind.classify line <;>
      simp [Scan.step, Scan.openBlock, Track.next, Track.event, Track.Matches, Track.pending,
        Track.named, kind, terminateOutcome_eq, payloadText_append_line, payloadText_nil]

theorem Track.Matches.eventsFrom {t : Track} {s : Scan} (h : t.Matches s)
    (done : List OutcomeEvent) (lines : List (List Char)) :
    s.eventsFrom done lines = done.reverse ++ t.run lines := by
  induction lines generalizing t s done with
  | nil => simp [Scan.eventsFrom, Track.run]
  | cons line rest ih =>
    obtain ⟨follows, same⟩ := h.step line
    simp only [Scan.eventsFrom, Track.run]
    rw [ih follows, same]
    cases t.event line <;> simp

/-- The events of a log are those its lines give one at a time. -/
theorem events_eq_run (text : String) :
    events text = Track.start.run (Text.lines text.toList) := by
  rw [events, Track.matches_start.eventsFrom]
  rfl

example : events ("#beginTestCaseResult a\n#terminateTestCaseResult Crash\n#endTestCaseResult\n" ++
    "TestCase: b\n#beginTestCaseResult\n#beginTestCaseResult c\nlost") =
    [⟨some (.mk "a"), none, .crash⟩, ⟨some (.mk "b"), none, .internalError⟩] := by
  decide +kernel

/-! ## Events and the caselist -/

theorem associate_getElem? (cl : List CaseId) (evs : List OutcomeEvent) (k : Nat) :
    (associate cl evs)[k]? = evs[k]?.map (emissionOf (cl.drop k)) := by
  induction evs generalizing cl k with
  | nil => rfl
  | cons ev rest ih =>
    cases k with
    | zero => rfl
    | succ k => rw [associate, List.getElem?_cons_succ, List.getElem?_cons_succ, ih, List.drop_tail]

/-- Event `k` is reported under its explicit case, else the `k`-th case of the caselist,
else the case its payload names, and dropped when there is none of these. -/
theorem emissions_getElem? (text : String) (cl : List CaseId) (k : Nat) :
    (emissions text cl)[k]? = (events text)[k]?.map fun ev =>
      match ev.explicit <|> cl[k]? <|> ev.fromPayload with
      | some id => .reported id ev.outcome
      | none => .dropped ev.outcome := by
  rw [emissions, associate_getElem?]
  congr 1
  funext ev
  exact congrArg (fun listed => match ev.explicit <|> listed <|> ev.fromPayload with
    | some id => Emission.reported id ev.outcome
    | none => Emission.dropped ev.outcome) List.head?_drop

/-- How a log is read, line by line and case by case: its events are those its lines give
one at a time, whatever caselist it is read with, and event `k` takes the `k`-th case of
the caselist: it is reported under its explicit case, else that case, else the case its
payload names, and dropped when there is none of these. -/
structure ReadsByLine (text : String) (cl : List CaseId) : Prop where
  byLine : events text = Track.start.run (Text.lines text.toList)
  byCase : ∀ k : Nat, (emissions text cl)[k]? = (events text)[k]?.map fun (ev : OutcomeEvent) =>
    match ev.explicit <|> cl[k]? <|> ev.fromPayload with
    | some id => Emission.reported id ev.outcome
    | none => Emission.dropped ev.outcome

theorem log_reads_by_line (text : String) (cl : List CaseId) : ReadsByLine text cl where
  byLine := events_eq_run text
  byCase := emissions_getElem? text cl

end Conformance.Log
