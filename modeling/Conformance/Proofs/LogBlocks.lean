import Conformance.Proofs.LogEvents

/-!
# Logs laid out in blocks

A log written the usual way is a run of blocks, each a begin line naming its case, payload
lines and an end line, with lines that are no markers before, between and after them, and
maybe a last block that the end of the log cuts off. Such a log reads back as its blocks:
one pair per complete block, its case with the outcome its payload reads as, whatever
caselist it is read with (`pairs_of_layout`). `TestCase:` lines and text around the blocks
change nothing, and the block cut off gives nothing.
-/

namespace Conformance.Log

/-! ## Lines joined by line feeds -/

/-- A line as a text is cut into lines: no line feed in it and no carriage return at its
end. -/
def IsLine (l : List Char) : Prop := '\n' ∉ l ∧ l.getLast? ≠ some '\r'

instance (l : List Char) : Decidable (IsLine l) := inferInstanceAs (Decidable (_ ∧ _))

theorem linesFrom_append_of_line (done : List (List Char)) {l : List Char} (h : '\n' ∉ l)
    (rest acc : List Char) :
    Text.linesFrom done (l ++ rest) acc = Text.linesFrom done rest (l.reverse ++ acc) := by
  induction l generalizing acc with
  | nil => rfl
  | cons c l ih =>
    have notFeed : c ≠ '\n' := fun feed => h (feed ▸ List.mem_cons_self)
    rw [List.cons_append, Text.linesFrom.eq_5 _ _ _ _ notFeed (fun _ _ feed => notFeed feed),
      ih (fun feed => h (List.mem_cons_of_mem c feed))]
    simp

theorem linesFrom_feed (done : List (List Char)) {l : List Char} (h : l.getLast? ≠ some '\r')
    (rest : List Char) :
    Text.linesFrom done ('\n' :: rest) l.reverse = Text.linesFrom (l :: done) rest [] := by
  cases back : l.reverse with
  | nil =>
    rw [List.reverse_eq_nil_iff.mp back]
    rfl
  | cons c cs =>
    -- the last character of the line is `c`, no carriage return
    have notReturn : c ≠ '\r' := by
      intro ret
      apply h
      rw [← List.reverse_reverse l, back, ret, List.getLast?_reverse, List.head?_cons]
    rw [Text.linesFrom.eq_4 _ _ _ (fun acc same => notReturn (List.cons.inj same).1), ← back,
      List.reverse_reverse]

theorem linesFrom_intercalate (done : List (List Char)) (l : List Char) (ls : List (List Char))
    (h : ∀ x ∈ l :: ls, IsLine x) :
    Text.linesFrom done (List.intercalate ['\n'] (l :: ls)) [] =
      done.reverse ++ if (l :: ls).getLast? = some [] then (l :: ls).dropLast else l :: ls := by
  induction ls generalizing l done with
  | nil =>
    have line := (h l List.mem_cons_self).1
    rw [List.intercalate_singleton, ← List.append_nil l, linesFrom_append_of_line _ line,
      List.append_nil]
    cases l with
    | nil => simp [Text.linesFrom]
    | cons c cs => simp [Text.linesFrom]
  | cons l' ls ih =>
    have line := h l List.mem_cons_self
    rw [List.intercalate_cons_cons, List.append_assoc, linesFrom_append_of_line _ line.1,
      List.append_nil, List.singleton_append, linesFrom_feed _ line.2,
      ih (l :: done) l' (fun x mem => h x (List.mem_cons_of_mem l mem))]
    simp only [List.reverse_cons, List.append_assoc, List.singleton_append, List.getLast?_cons_cons,
      List.dropLast_cons_cons]
    split <;> rfl

theorem lines_intercalate {ls : List (List Char)} (h : ∀ l ∈ ls, IsLine l) :
    Text.lines (List.intercalate ['\n'] ls) =
      if ls.getLast? = some [] then ls.dropLast else ls := by
  cases ls with
  | nil => rfl
  | cons l ls => exact linesFrom_intercalate [] l ls h

/-! ## The parts of a layout -/

/-- A begin, end or terminate marker. -/
def LineKind.isMarker : LineKind → Bool
  | .begin _ | .finish | .terminate _ => true
  | .caseName _ | .text => false

/-- A line of a log that is no marker line: a `TestCase:` line or any other text. -/
structure PlainLine where
  chars : List Char
  isLine : IsLine chars
  notMarker : (LineKind.classify chars).isMarker = false

/-- A complete block: the case its begin line names, a word with no blank in it, and its
payload lines. -/
structure Block where
  token : String
  payload : List PlainLine
  token_ne : token ≠ ""
  unbroken : ∀ c ∈ token.toList, Text.isBlank c = false

theorem dropWhile_isBlank_of_unbroken {cs : List Char} (h : ∀ c ∈ cs, Text.isBlank c = false) :
    cs.dropWhile Text.isBlank = cs :=
  Text.trimStartChars_of_head fun c hc => h c (List.mem_of_mem_head? hc)

theorem Block.token_trimmed (b : Block) : Text.trim b.token = b.token := by
  rw [Text.trim, Text.trimChars, Text.trimStartChars, dropWhile_isBlank_of_unbroken b.unbroken,
    Text.trimEndChars,
    dropWhile_isBlank_of_unbroken (fun c mem => b.unbroken c (List.mem_reverse.mp mem)),
    List.reverse_reverse, String.ofList_toList]

/-- The case a block's begin line names. -/
def Block.caseId (b : Block) : CaseId := ⟨b.token, b.token_trimmed, b.token_ne⟩

/-- The lines of a block: its begin line, its payload and its end line. -/
def Block.lines (b : Block) : List (List Char) :=
  ("#beginTestCaseResult " ++ b.token).toList :: b.payload.map (·.chars) ++
    ["#endTestCaseResult".toList]

/-- The event a block gives: its case, and what its payload reads as. -/
def Block.event (b : Block) : OutcomeEvent :=
  let report := readPayload (payloadText (b.payload.map (·.chars)))
  ⟨some b.caseId, report.casePath, report.outcome⟩

/-- The pair a block is read as: its case with the outcome its payload reads as. -/
def Block.pair (b : Block) : CaseId × Outcome :=
  (b.caseId, (readPayload (payloadText (b.payload.map (·.chars)))).outcome)

/-- A block the end of the log cuts off: a begin line and the plain lines after it. -/
structure CutOff where
  begin : List Char
  isLine : IsLine begin
  opens : ∃ rest, LineKind.classify begin = .begin rest
  rest : List PlainLine

/-- A log laid out in blocks: plain lines before the first block, each block with the plain
lines after it, and maybe a block cut off by the end of the log. -/
structure Layout where
  lead : List PlainLine
  blocks : List (Block × List PlainLine)
  cutOff : Option CutOff

/-- The lines of a layout, in order. -/
def Layout.lines (w : Layout) : List (List Char) :=
  w.lead.map (·.chars) ++ w.blocks.flatMap (fun e => e.1.lines ++ e.2.map (·.chars)) ++
    (w.cutOff.map fun c => c.begin :: c.rest.map (·.chars)).getD []

/-- The text of a layout: its lines joined by line feeds. -/
def Layout.text (w : Layout) : String :=
  String.ofList (List.intercalate ['\n'] w.lines)

/-! ## Each part is a run of lines -/

theorem Block.begin_chars (b : Block) :
    ("#beginTestCaseResult " ++ b.token).toList = "#beginTestCaseResult ".toList ++ b.token.toList :=
  String.toList_append

theorem classify_begin_line (t : List Char) :
    LineKind.classify ("#beginTestCaseResult ".toList ++ t) = .begin (' ' :: t) := by
  rfl

theorem classify_end_line : LineKind.classify "#endTestCaseResult".toList = .finish := by
  decide

theorem takeWhile_not_isBlank_of_unbroken {cs : List Char}
    (h : ∀ c ∈ cs, Text.isBlank c = false) :
    cs.takeWhile (fun c => !Text.isBlank c) = cs := by
  induction cs with
  | nil => rfl
  | cons c cs ih =>
    rw [List.takeWhile_cons_of_pos (by simp [h c List.mem_cons_self]),
      ih (fun x mem => h x (List.mem_cons_of_mem c mem))]

theorem Block.named (b : Block) :
    (firstWord (' ' :: b.token.toList)).bind CaseId.ofString? = some b.caseId := by
  have kept : Text.trimStartChars (' ' :: b.token.toList) = b.token.toList := by
    rw [Text.trimStartChars, List.dropWhile_cons_of_pos (by decide),
      dropWhile_isBlank_of_unbroken b.unbroken]
  have word : Text.firstWord (' ' :: b.token.toList) = some b.token.toList := by
    rw [Text.firstWord, kept, Text.splitWord, takeWhile_not_isBlank_of_unbroken b.unbroken]
    cases chars : b.token.toList with
    | nil => exact absurd (String.toList_eq_nil_iff.mp chars) b.token_ne
    | cons c cs => rfl
  simp [firstWord, word, CaseId.ofString?, CaseId.make, b.token_trimmed, b.token_ne, Except.toOption,
    Block.caseId]

theorem PlainLine.kind (l : PlainLine) :
    (∃ rest, LineKind.classify l.chars = .caseName rest) ∨ LineKind.classify l.chars = .text := by
  have plain := l.notMarker
  cases kind : LineKind.classify l.chars <;> simp_all [LineKind.isMarker]

theorem Track.event_of_plain (t : Track) (l : PlainLine) : t.event l.chars = none := by
  rcases l.kind with ⟨rest, kind⟩ | kind <;> cases t <;> simp [Track.event, kind]

theorem Track.next_plain_idle (p : Option CaseId) (l : PlainLine) :
    ∃ q, (Track.idle p).next l.chars = .idle q := by
  rcases l.kind with ⟨rest, kind⟩ | kind
  · exact ⟨CaseId.ofString? (String.ofList rest) <|> p, by simp only [Track.next, kind]⟩
  · exact ⟨p, by simp only [Track.next, kind]⟩

theorem Track.next_plain_inBlock (c : Option CaseId) (ls : List (List Char)) (l : PlainLine) :
    (Track.inBlock c ls).next l.chars = .inBlock c (ls ++ [l.chars]) := by
  rcases l.kind with ⟨rest, kind⟩ | kind <;> simp only [Track.next, kind]

/-- The state after some lines. -/
def Track.after (t : Track) (ls : List (List Char)) : Track := ls.foldl Track.next t

theorem Track.after_cons (t : Track) (l : List Char) (ls : List (List Char)) :
    t.after (l :: ls) = (t.next l).after ls := rfl

theorem Track.after_append (t : Track) (ls₁ ls₂ : List (List Char)) :
    t.after (ls₁ ++ ls₂) = (t.after ls₁).after ls₂ :=
  List.foldl_append

theorem Track.run_append (t : Track) (ls₁ ls₂ : List (List Char)) :
    t.run (ls₁ ++ ls₂) = t.run ls₁ ++ (t.after ls₁).run ls₂ := by
  induction ls₁ generalizing t with
  | nil => rfl
  | cons l ls₁ ih => rw [List.cons_append, Track.run, Track.run, ih, Track.after_cons, List.append_assoc]

theorem Track.run_plain (t : Track) (ls : List PlainLine) : t.run (ls.map (·.chars)) = [] := by
  induction ls generalizing t with
  | nil => rfl
  | cons l ls ih => simp [Track.run, Track.event_of_plain, ih]

theorem Track.after_plain_idle (p : Option CaseId) (ls : List PlainLine) :
    ∃ p', (Track.idle p).after (ls.map (·.chars)) = .idle p' := by
  induction ls generalizing p with
  | nil => exact ⟨p, rfl⟩
  | cons l ls ih =>
    obtain ⟨q, hq⟩ := Track.next_plain_idle p l
    obtain ⟨p', hp'⟩ := ih q
    exact ⟨p', by rw [List.map_cons, Track.after_cons, hq, hp']⟩

theorem Track.after_plain_inBlock (c : Option CaseId) (ls₀ : List (List Char))
    (ls : List PlainLine) :
    (Track.inBlock c ls₀).after (ls.map (·.chars)) = .inBlock c (ls₀ ++ ls.map (·.chars)) := by
  induction ls generalizing ls₀ with
  | nil => simp [Track.after]
  | cons l ls ih =>
    rw [List.map_cons, Track.after_cons, Track.next_plain_inBlock, ih, List.append_assoc,
      List.singleton_append]

theorem Track.run_block (p : Option CaseId) (b : Block) :
    (Track.idle p).run b.lines = [b.event] ∧ (Track.idle p).after b.lines = .idle none := by
  have opened : (Track.idle p).next ("#beginTestCaseResult " ++ b.token).toList =
      .inBlock (some b.caseId) [] := by
    simp only [Track.next, b.begin_chars, classify_begin_line, b.named]
    rfl
  have quiet : (Track.idle p).event ("#beginTestCaseResult " ++ b.token).toList = none := by
    simp only [Track.event, b.begin_chars, classify_begin_line]
  have payload : (Track.inBlock (some b.caseId) []).after (b.payload.map (·.chars)) =
      .inBlock (some b.caseId) (b.payload.map (·.chars)) :=
    Track.after_plain_inBlock (some b.caseId) [] b.payload
  have closed : (Track.inBlock (some b.caseId) (b.payload.map (·.chars))).event
      "#endTestCaseResult".toList = some b.event := by
    simp only [Track.event, classify_end_line, Block.event]
  have left : (Track.inBlock (some b.caseId) (b.payload.map (·.chars))).next
      "#endTestCaseResult".toList = .idle none := by
    simp only [Track.next, classify_end_line]
  constructor
  · rw [Block.lines, List.cons_append, Track.run, quiet, opened, Track.run_append,
      Track.run_plain, payload, Track.run, closed, Track.run]
    rfl
  · rw [Block.lines, List.cons_append, Track.after_cons, opened, Track.after_append, payload,
      Track.after_cons, left]
    rfl

theorem Track.run_blocks (p : Option CaseId) (bs : List (Block × List PlainLine)) :
    (Track.idle p).run (bs.flatMap fun e => e.1.lines ++ e.2.map (·.chars)) = bs.map (·.1.event) ∧
      ∃ p', (Track.idle p).after (bs.flatMap fun e => e.1.lines ++ e.2.map (·.chars)) = .idle p' := by
  induction bs generalizing p with
  | nil => exact ⟨rfl, p, rfl⟩
  | cons e bs ih =>
    obtain ⟨blockRun, blockAfter⟩ := Track.run_block p e.1
    obtain ⟨q, plainAfter⟩ := Track.after_plain_idle none e.2
    obtain ⟨restRun, p', restAfter⟩ := ih q
    rw [List.flatMap_cons, Track.run_append, Track.run_append, blockRun, Track.after_append,
      blockAfter, Track.run_plain, plainAfter, restRun, Track.after_append, Track.after_append,
      blockAfter, plainAfter]
    exact ⟨rfl, p', restAfter⟩

theorem Track.run_cutOff (p : Option CaseId) (c : CutOff) :
    (Track.idle p).run (c.begin :: c.rest.map (·.chars)) = [] := by
  obtain ⟨rest, opens⟩ := c.opens
  have quiet : (Track.idle p).event c.begin = none := by
    simp only [Track.event, opens]
  rw [Track.run, quiet, Track.run_plain]
  rfl

theorem Layout.run_lines (w : Layout) : Track.start.run w.lines = w.blocks.map (·.1.event) := by
  obtain ⟨p, leadAfter⟩ := Track.after_plain_idle none w.lead
  obtain ⟨blocksRun, p', blocksAfter⟩ := Track.run_blocks p w.blocks
  rw [Layout.lines, Track.run_append, Track.run_append, Track.start, Track.run_plain, leadAfter,
    blocksRun, Track.after_append, leadAfter, blocksAfter]
  cases w.cutOff with
  | none => simp [Track.run]
  | some c => simp [Track.run_cutOff]

/-! ## The text of a layout -/

theorem isLine_of_no_breaks {l : List Char} (feed : '\n' ∉ l) (ret : '\r' ∉ l) : IsLine l := by
  refine ⟨feed, fun last => ret ?_⟩
  obtain ⟨init, rfl⟩ := List.getLast?_eq_some_iff.mp last
  exact List.mem_append_right init (List.mem_singleton_self _)

theorem Block.isLine_begin (b : Block) : IsLine ("#beginTestCaseResult " ++ b.token).toList := by
  have marker : '\n' ∉ "#beginTestCaseResult ".toList ∧ '\r' ∉ "#beginTestCaseResult ".toList := by
    decide
  -- line feeds and carriage returns are blank, and the token has no blank
  have token : ∀ c, Text.isBlank c = true → c ∉ b.token.toList := by
    intro c blank mem
    rw [b.unbroken c mem] at blank
    cases blank
  rw [b.begin_chars]
  exact isLine_of_no_breaks (List.not_mem_append marker.1 (token '\n' rfl))
    (List.not_mem_append marker.2 (token '\r' rfl))

theorem Block.isLine (b : Block) : ∀ l ∈ b.lines, IsLine l := by
  intro l mem
  rw [Block.lines, List.cons_append, List.mem_cons, List.mem_append, List.mem_map,
    List.mem_singleton] at mem
  rcases mem with rfl | ⟨plain, _, rfl⟩ | rfl
  · exact b.isLine_begin
  · exact plain.isLine
  · decide

theorem Layout.isLine (w : Layout) : ∀ l ∈ w.lines, IsLine l := by
  intro l mem
  simp only [Layout.lines, List.mem_append, List.mem_map, List.mem_flatMap] at mem
  rcases mem with (⟨plain, _, rfl⟩ | ⟨e, _, inBlock | ⟨plain, _, rfl⟩⟩) | cut
  · exact plain.isLine
  · exact e.1.isLine l inBlock
  · exact plain.isLine
  · cases cutOff : w.cutOff with
    | none => simp [cutOff] at cut
    | some c =>
      simp only [cutOff, Option.map_some, Option.getD_some, List.mem_cons, List.mem_map] at cut
      rcases cut with rfl | ⟨plain, _, rfl⟩
      · exact c.isLine
      · exact plain.isLine

theorem Track.run_lines_intercalate (t : Track) {ls : List (List Char)} (h : ∀ l ∈ ls, IsLine l) :
    t.run (Text.lines (List.intercalate ['\n'] ls)) = t.run ls := by
  rw [lines_intercalate h]
  split
  · next last =>
    obtain ⟨init, rfl⟩ := List.getLast?_eq_some_iff.mp last
    have quiet : (t.after init).event [] = none := by
      cases t.after init <;> rfl
    rw [List.dropLast_concat, Track.run_append, Track.run, quiet]
    simp [Track.run]
  · rfl

theorem Layout.events_text (w : Layout) : events w.text = w.blocks.map (·.1.event) := by
  rw [events_eq_run, Layout.text, String.toList_ofList, Track.run_lines_intercalate _ w.isLine,
    w.run_lines]

theorem pairsOf_associate_blocks (cl : List CaseId) (bs : List Block) :
    pairsOf (associate cl (bs.map Block.event)) = bs.map Block.pair := by
  induction bs generalizing cl with
  | nil => rfl
  | cons b bs ih =>
    rw [List.map_cons, associate, List.map_cons, ← ih cl.tail]
    rfl

/-- A log laid out in blocks reads back as its complete blocks, in order: each is its case
with the outcome its payload reads as, whatever caselist the log is read with. -/
theorem layout_reads_as_blocks (w : Layout) (cl : List CaseId) :
    pairs w.text cl = w.blocks.map (·.1.pair) := by
  have blocks : w.blocks.map (·.1.event) = (w.blocks.map (·.1)).map Block.event := by
    rw [List.map_map]
    rfl
  rw [pairs, emissions, w.events_text, blocks, pairsOf_associate_blocks, List.map_map]
  rfl

end Conformance.Log
