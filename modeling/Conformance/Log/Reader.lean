import Conformance.Log.Line
import Conformance.Log.Payload
import Conformance.Text.Lines

/-!
# Reading logs

A log is read line by line. A begin marker opens a block named by its first word, or else by
the case of the last `TestCase:` line read outside a block, which opening a block always uses
up; the lines of a block are its payload. The end marker closes the block with the outcome its
payload reads as, a terminate marker closes it (or stands alone) with the outcome its first
word names, a begin marker inside a block closes it as an internal error and opens a new one,
and a block still open at the end is dropped. Each closed block and each terminate marker is
one outcome event, whatever the caselist; event `k` is reported under its explicit case, else
the `k`-th case of the caselist, else the payload's case path, and dropped when there is none.
Reading also remarks in place on an odd shape: a begin marker inside a block, an end marker
outside any block (not right after a terminate marker), an empty `TestCase:` line outside a
block, and a block still open at the end.
-/

namespace Conformance.Log

/-- Where the reader stands. -/
inductive Phase where
  /-- Outside any block. -/
  | idle
  /-- Inside a block, with its explicit case, if any, and its payload so far. -/
  | inBlock (caseId : Option CaseId) (payload : String)
  /-- Right after a terminate marker; behaves as `idle`. -/
  | terminated
  deriving DecidableEq, Repr

/-- The reader's state: its phase and the case named by the last `TestCase:` line. -/
structure Scan where
  phase : Phase
  pending : Option CaseId
  deriving DecidableEq, Repr

/-- An outcome event: the case named in the log, the case the payload names, and the
outcome. -/
structure OutcomeEvent where
  explicit : Option CaseId
  fromPayload : Option CaseId
  outcome : Outcome
  deriving DecidableEq, Repr

/-- The first word of a marker's rest. -/
def firstWord (rest : List Char) : Option String :=
  (Text.firstWord rest).map String.ofList

/-- The outcome named by a terminate marker's first word, a parse failure if none. -/
def terminateOutcome (rest : List Char) : Outcome :=
  Outcome.parse ((firstWord rest).getD "")

/-- Opens a block: the case is the begin line's first word, else the pending one, which is
used up either way. -/
def Scan.openBlock (s : Scan) (rest : List Char) : Scan :=
  let named := (firstWord rest).bind CaseId.ofString?
  ⟨.inBlock (named <|> s.pending) "", none⟩

/-- Reads one line. -/
def Scan.step (s : Scan) (line : List Char) : Scan × Option OutcomeEvent :=
  match s.phase, LineKind.classify line with
  | .inBlock caseId _, .begin rest =>
    (s.openBlock rest, some ⟨caseId, none, .internalError⟩)
  | .inBlock caseId payload, .finish =>
    let report := readPayload payload
    (⟨.idle, s.pending⟩, some ⟨caseId, report.casePath, report.outcome⟩)
  | .inBlock caseId _, .terminate rest =>
    (⟨.terminated, s.pending⟩, some ⟨caseId, none, terminateOutcome rest⟩)
  | .inBlock caseId payload, _ =>
    let payload' := if payload.isEmpty then String.ofList line else
      payload ++ "\n" ++ String.ofList line
    (⟨.inBlock caseId payload', s.pending⟩, none)
  | _, .begin rest => (s.openBlock rest, none)
  | _, .terminate rest =>
    (⟨.terminated, none⟩, some ⟨s.pending, none, terminateOutcome rest⟩)
  | _, .finish => (⟨.idle, s.pending⟩, none)
  | phase, .caseName rest =>
    (⟨phase, (CaseId.ofString? (String.ofList rest)) <|> s.pending⟩, none)
  | _, .text => (s, none)

/-- What a line says of the log's shape, read in a state, before the line's event. -/
def Scan.remark (s : Scan) (line : List Char) : Option String :=
  match s.phase, LineKind.classify line with
  | .inBlock _ _, .begin _ => some "begin marker inside an open block, closing it as an internal error"
  | .inBlock _ _, _ => none
  | .idle, .finish => some "end marker outside of a block"
  | _, .caseName rest =>
    if (CaseId.ofString? (String.ofList rest)).isNone then some "empty `TestCase:` line" else none
  | _, _ => none

/-- The remark on a log that ends in a state: a block left open is ignored. -/
def Scan.finalRemark (s : Scan) : Option String :=
  match s.phase with
  | .inBlock _ _ => some "log ends inside an unterminated block, ignoring it"
  | _ => none

/-- What reading a log gives, in order: outcome events and remarks on the log's shape. -/
inductive Reading where
  | event (e : OutcomeEvent)
  | remark (text : String)
  deriving DecidableEq, Repr

/-- The readings of the remaining lines, after the readings `done` (kept reversed); a line's
remark comes before its event. -/
def Scan.readingsFrom (s : Scan) (done : List Reading) : List (List Char) → List Reading
  | [] => done.reverse ++ (s.finalRemark.map Reading.remark).toList
  | line :: rest =>
    let (s', ev) := s.step line
    s'.readingsFrom ((ev.map Reading.event).toList ++ ((s.remark line).map Reading.remark).toList ++
      done) rest

/-- The readings of a log. -/
def readings (text : String) : List Reading :=
  Scan.readingsFrom ⟨.idle, none⟩ [] (Text.lines text.toList)

/-- The events of the remaining lines, after the events `done` (kept reversed). -/
def Scan.eventsFrom (s : Scan) (done : List OutcomeEvent) : List (List Char) → List OutcomeEvent
  | [] => done.reverse
  | line :: rest =>
    let (s', ev) := s.step line
    s'.eventsFrom (ev.toList ++ done) rest

/-- The outcome events of a log. -/
def events (text : String) : List OutcomeEvent :=
  Scan.eventsFrom ⟨.idle, none⟩ [] (Text.lines text.toList)

/-- What becomes of one event: a pair for a case, or an outcome dropped for want of one. -/
inductive Emission where
  | reported (caseId : CaseId) (outcome : Outcome)
  | dropped (outcome : Outcome)
  deriving DecidableEq, Repr

/-- What becomes of an event, given the caselist cases not yet taken. -/
def emissionOf (cl : List CaseId) (ev : OutcomeEvent) : Emission :=
  match ev.explicit <|> cl.head? <|> ev.fromPayload with
  | some id => .reported id ev.outcome
  | none => .dropped ev.outcome

/-- Event `k` with the `k`-th caselist case, if any. -/
def associate : List CaseId → List OutcomeEvent → List Emission
  | _, [] => []
  | cl, ev :: rest => emissionOf cl ev :: associate cl.tail rest

/-- What a log's reading reports, in order: what became of each event, and the remarks on
the log's shape. -/
inductive Account where
  | emission (e : Emission)
  | remark (text : String)
  deriving DecidableEq, Repr

/-- Readings with event `k` turned into its emission with the `k`-th caselist case, if
any; remarks stay in place. -/
def accountFor : List CaseId → List Reading → List Account
  | _, [] => []
  | cl, .remark t :: rest => .remark t :: accountFor cl rest
  | cl, .event ev :: rest => .emission (emissionOf cl ev) :: accountFor cl.tail rest

/-- The pairs among emissions. -/
def pairsOf (es : List Emission) : List (CaseId × Outcome) :=
  es.filterMap fun
    | .reported id o => some (id, o)
    | .dropped _ => none

/-- The account of a log read with a caselist (empty for none). -/
def account (text : String) (caselist : List CaseId) : List Account :=
  accountFor caselist (readings text)

/-- The emissions of a log read with a caselist (empty for none). -/
def emissions (text : String) (caselist : List CaseId) : List Emission :=
  associate caselist (events text)

/-- The event of a reading, if it is one. -/
def Reading.event? : Reading → Option OutcomeEvent
  | .event e => some e
  | .remark _ => none

/-- The emission of an account entry, if it is one. -/
def Account.emission? : Account → Option Emission
  | .emission e => some e
  | .remark _ => none

theorem readingsFrom_events (s : Scan) (done : List Reading) (lines : List (List Char)) :
    (s.readingsFrom done lines).filterMap Reading.event? =
      s.eventsFrom (done.filterMap Reading.event?) lines := by
  induction lines generalizing s done with
  | nil =>
    cases h : s.finalRemark <;>
      simp [Scan.readingsFrom, Scan.eventsFrom, h, List.filterMap_reverse, Reading.event?]
  | cons line rest ih =>
    simp only [Scan.readingsFrom, Scan.eventsFrom]
    rw [ih]
    congr 1
    cases (s.step line).2 <;> cases s.remark line <;> simp [List.filterMap_cons, Reading.event?]

theorem readings_events (text : String) :
    (readings text).filterMap Reading.event? = events text := by
  simp [readings, events, readingsFrom_events]

theorem accountFor_emissions (cl : List CaseId) (rs : List Reading) :
    (accountFor cl rs).filterMap Account.emission? =
      associate cl (rs.filterMap Reading.event?) := by
  induction rs generalizing cl with
  | nil => rfl
  | cons r rest ih =>
    cases r <;> simp [accountFor, associate, List.filterMap_cons, Account.emission?, Reading.event?, ih]

theorem account_emissions (text : String) (caselist : List CaseId) :
    (account text caselist).filterMap Account.emission? = emissions text caselist := by
  simp [account, emissions, accountFor_emissions, readings_events]

/-- The pairs of a log read with a caselist (empty for none). -/
def pairs (text : String) (caselist : List CaseId) : List (CaseId × Outcome) :=
  pairsOf (emissions text caselist)

end Conformance.Log
