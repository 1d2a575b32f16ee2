import Conformance.Autotest
import Mathlib.Data.List.DropRight

/-!
# The results of an autotest log, line by line

The results of an autotest log are found by one pattern searched through the text of its
marker lines. Read a line at a time (`Autotest.linePairs`), the search pairs a line that holds
`TestCase: ` with something after its first occurrence with a next line that holds `Result: `
with something after its first occurrence, both lines used up; any other line is passed over.
The case is the first rest trimmed, dropped when blank, and the outcome is read from the
second rest (`Autotest.results_pair_marker_lines`), so what a run prints between a case and its
result never matters. The search follows the lines (`Autotest.matchesFrom_line`): a match
starts only at the first `TestCase: ` of a line, never at a line break, and ends where its
result line ends.
-/

namespace Conformance

namespace Text

theorem newline_not_mem_linesFrom {done : List (List Char)} {cs acc : List Char}
    (hdone : ∀ l ∈ done, '\n' ∉ l) (hacc : '\n' ∉ acc) : ∀ l ∈ linesFrom done cs acc, '\n' ∉ l := by
  induction cs generalizing done acc with
  | nil =>
    cases acc with
    | nil => simpa [linesFrom] using hdone
    | cons c acc =>
      intro l mem
      simp only [linesFrom, List.reverse_cons, List.mem_append, List.mem_reverse, List.mem_singleton]
        at mem
      rcases mem with mem | rfl
      · exact hdone l mem
      · exact fun h => hacc (by simpa [or_comm] using h)
  | cons c cs ih =>
    by_cases feed : c = '\n'
    · subst feed
      -- a line feed closes the line, less a carriage return before it
      cases acc with
      | nil => exact ih (fun l mem => by simp at mem; rcases mem with rfl | mem <;> simp_all) (by simp)
      | cons d acc =>
        by_cases ret : d = '\r'
        · subst ret
          refine ih (fun l mem => ?_) (by simp)
          simp only [List.mem_cons] at mem
          rcases mem with rfl | mem
          · exact fun h => hacc (List.mem_cons_of_mem _ (List.mem_reverse.mp h))
          · exact hdone l mem
        · rw [linesFrom.eq_4 _ _ _ (fun acc' same => ret (List.cons.inj same).1)]
          refine ih (fun l mem => ?_) (by simp)
          simp only [List.mem_cons] at mem
          rcases mem with rfl | mem
          · exact fun h => hacc (List.mem_reverse.mp h)
          · exact hdone l mem
    · rw [linesFrom.eq_5 _ _ _ _ feed (fun _ _ h => feed h)]
      exact ih hdone (by simp [Ne.symm feed, hacc])

theorem newline_not_mem_lines {cs : List Char} : ∀ l ∈ lines cs, '\n' ∉ l :=
  newline_not_mem_linesFrom (by simp) (by simp)

theorem length_afterFirst {needle hay r : List Char} (h : afterFirst needle hay = some r) :
    r.length + needle.length ≤ hay.length := by
  induction hay with
  | nil =>
    unfold afterFirst at h
    split at h
    · obtain rfl := Option.some_inj.mp h
      simp_all
    · cases h
  | cons c rest ih =>
    unfold afterFirst at h
    split at h
    · obtain rfl := Option.some_inj.mp h
      have fits := (List.isPrefixOf_iff_prefix.mp ‹_›).length_le
      simp only [List.length_drop, List.length_cons] at fits ⊢
      omega
    · have := ih h
      simp only [List.length_cons]
      omega

end Text

namespace Autotest

/-! ## Lines and the text between them -/

/-- Where a line ends: at a line break, or at the end of the text. -/
def AtBreak (T : List Char) : Prop := T = [] ∨ ∃ U, T = '\n' :: U

theorem atBreak_flatMap (ls : List (List Char)) : AtBreak (ls.flatMap ('\n' :: ·)) := by
  cases ls with
  | nil => exact .inl rfl
  | cons l ls => exact .inr ⟨l ++ ls.flatMap ('\n' :: ·), by simp⟩

theorem isPrefixOf_line {p s T : List Char} (hp : '\n' ∉ p) (hT : AtBreak T) :
    p.isPrefixOf (s ++ T) = p.isPrefixOf s := by
  induction p generalizing s with
  | nil => simp [List.isPrefixOf]
  | cons x p ih =>
    cases s with
    | nil =>
      have notFeed : x ≠ '\n' := fun h => hp (h ▸ List.mem_cons_self)
      rcases hT with rfl | ⟨U, rfl⟩
      · rfl
      · simp [List.isPrefixOf, notFeed]
    | cons y s =>
      simp only [List.cons_append, List.isPrefixOf, ih fun h => hp (List.mem_cons_of_mem x h)]

theorem takeWhile_line {l T : List Char} (hl : '\n' ∉ l) (hT : AtBreak T) :
    (l ++ T).takeWhile (· != '\n') = l := by
  induction l with
  | nil => rcases hT with rfl | ⟨U, rfl⟩ <;> simp
  | cons c l ih =>
    have notFeed : c ≠ '\n' := fun h => hl (h ▸ List.mem_cons_self)
    simp [notFeed, ih fun h => hl (List.mem_cons_of_mem c h)]

theorem flatten_intersperse (l : List Char) (ls : List (List Char)) :
    ((l :: ls).intersperse ['\n']).flatten = l ++ ls.flatMap ('\n' :: ·) := by
  induction ls generalizing l with
  | nil => simp
  | cons l' ls ih =>
    rw [List.intersperse_cons_cons, List.flatten_cons, List.flatten_cons, ih]
    simp

/-! ## Reading a line for a marker -/

/-- What follows the first occurrence of a marker in a line, when something does. -/
def restAfter (marker : String) (line : List Char) : Option (List Char) :=
  match Text.afterFirst marker.toList line with
  | some r@(_ :: _) => some r
  | _ => none

theorem caseMarker_toList : caseMarker.toList = 'T' :: "estCase: ".toList := by
  decide

theorem caseMarker_length : caseMarker.toList.length = 10 := by
  decide

theorem restAfter_nil : restAfter caseMarker [] = none := by
  decide

theorem restAfter_short {s : List Char} (short : s.length < 10) : restAfter caseMarker s = none := by
  unfold restAfter
  cases found : Text.afterFirst caseMarker.toList s with
  | none => rfl
  | some r =>
    have fits := Text.length_afterFirst found
    have marker := caseMarker_length
    omega

theorem afterFirst_of_marked {s : List Char} (hp : caseMarker.toList.isPrefixOf s = true) :
    Text.afterFirst caseMarker.toList s = some (s.drop 10) := by
  cases s with
  | nil => simp [caseMarker_toList] at hp
  | cons c s => simp [Text.afterFirst, hp, caseMarker_length]

theorem restAfter_of_marked {s a : List Char} (hp : caseMarker.toList.isPrefixOf s = true)
    (rest : s.drop 10 = a) (nonempty : a ≠ []) : restAfter caseMarker s = some a := by
  obtain ⟨x, xs, rfl⟩ := List.exists_cons_of_ne_nil nonempty
  rw [restAfter, afterFirst_of_marked hp, rest]

theorem restAfter_of_marked_short {s : List Char} (hp : caseMarker.toList.isPrefixOf s = true)
    (rest : s.drop 10 = []) : restAfter caseMarker s = none := by
  rw [restAfter, afterFirst_of_marked hp, rest]

theorem restAfter_cons_of_unmarked {c : Char} {s : List Char}
    (hp : caseMarker.toList.isPrefixOf (c :: s) = false) :
    restAfter caseMarker (c :: s) = restAfter caseMarker s := by
  simp [restAfter, Text.afterFirst, hp]

/-! ## The pattern at one place -/

/-- What a result line right after a line break gives the pattern: the captured rest after
`Result: `, and the length of the line. -/
def resultAhead : List Char → Option (List Char × Nat)
  | '\n' :: next =>
    let line := next.takeWhile (· != '\n')
    (restAfter resultMarker line).map fun r => (capture r, line.length)
  | _ => none

theorem resultAhead_line {l U : List Char} (hl : '\n' ∉ l) (hU : AtBreak U) :
    resultAhead ('\n' :: (l ++ U)) = (restAfter resultMarker l).map fun r => (capture r, l.length) := by
  simp only [resultAhead, takeWhile_line hl hU]

theorem matchAt_of_unmarked {cs : List Char} (hp : caseMarker.toList.isPrefixOf cs = false) :
    matchAt cs = none := by
  simp [matchAt, hp]

theorem matchAt_line {s T : List Char} (hs : '\n' ∉ s) (hT : AtBreak T)
    (hp : caseMarker.toList.isPrefixOf s = true) :
    matchAt (s ++ T) = match s.drop 10 with
      | [] => none
      | a => (resultAhead T).map fun r => (capture a, r.1, 11 + a.length + r.2) := by
  have marker : '\n' ∉ caseMarker.toList := by decide
  have long : 10 ≤ s.length :=
    caseMarker_length ▸ (List.isPrefixOf_iff_prefix.mp hp).length_le
  have restLine : '\n' ∉ s.drop 10 := fun h => hs (List.mem_of_mem_drop h)
  unfold matchAt
  simp only [isPrefixOf_line marker hT, hp, if_true, List.drop_append_of_le_length long,
    takeWhile_line restLine hT, List.drop_left]
  rcases hT with rfl | ⟨U, rfl⟩
  · cases s.drop 10 <;> rfl
  · cases s.drop 10 with
    | nil => rfl
    | cons x xs =>
      simp only [resultAhead, restAfter]
      split <;> simp_all

/-! ## The search, one line at a time -/

theorem matchesFrom_nil (done : List (List Char × List Char)) : matchesFrom done [] = done.reverse := by
  rw [matchesFrom]

theorem matchesFrom_of_some {done : List (List Char × List Char)} {c : Char} {rest a b : List Char}
    {n : Nat} (h : matchAt (c :: rest) = some (a, b, n)) :
    matchesFrom done (c :: rest) = matchesFrom ((a, b) :: done) ((c :: rest).drop n) := by
  rw [matchesFrom]
  split <;> simp_all

theorem matchesFrom_of_none {done : List (List Char × List Char)} {c : Char} {rest : List Char}
    (h : matchAt (c :: rest) = none) : matchesFrom done (c :: rest) = matchesFrom done rest := by
  rw [matchesFrom]
  split <;> simp_all

theorem matchesFrom_newline (done : List (List Char × List Char)) (T : List Char) :
    matchesFrom done ('\n' :: T) = matchesFrom done T :=
  matchesFrom_of_none (matchAt_of_unmarked (by simp [caseMarker_toList, List.isPrefixOf]))

/-- The search through a line: it matches at the first `TestCase: ` of the line, when something
follows it there and a result line comes next, and takes both lines; otherwise it finds nothing
in the line. -/
theorem matchesFrom_line (done : List (List Char × List Char)) {s T : List Char} (hs : '\n' ∉ s)
    (hT : AtBreak T) :
    matchesFrom done (s ++ T) =
      match restAfter caseMarker s, resultAhead T with
      | some a, some (b, m) => matchesFrom ((capture a, b) :: done) (T.drop (m + 1))
      | _, _ => matchesFrom done T := by
  induction s with
  | nil => simp [restAfter_nil]
  | cons c s ih =>
    have hs' : '\n' ∉ s := fun h => hs (List.mem_cons_of_mem c h)
    rw [List.cons_append]
    cases hp : caseMarker.toList.isPrefixOf (c :: s) with
    | false =>
      -- no match starts here, and the line's first marker lies further on
      have none : matchAt (c :: (s ++ T)) = none := by
        rw [← List.cons_append]
        exact matchAt_of_unmarked (by rw [isPrefixOf_line (by decide) hT, hp])
      rw [matchesFrom_of_none none, ih hs', restAfter_cons_of_unmarked hp]
    | true =>
      have at_ := matchAt_line hs hT hp
      cases rest : (c :: s).drop 10 with
      | nil =>
        -- the marker ends the line: nothing follows it, and no later marker fits
        rw [rest, List.cons_append] at at_
        have short : s.length < 10 := by
          have := List.drop_eq_nil_iff.mp rest
          simp only [List.length_cons] at this
          omega
        rw [matchesFrom_of_none at_, ih hs', restAfter_short short, restAfter_of_marked_short hp rest]
      | cons x xs =>
        rw [restAfter_of_marked hp rest (List.cons_ne_nil x xs)]
        rw [rest, List.cons_append] at at_
        cases ahead : resultAhead T with
        | none =>
          rw [ahead] at at_
          rw [matchesFrom_of_none at_, ih hs', ahead]
          cases restAfter caseMarker s <;> rfl
        | some r =>
          obtain ⟨b, m⟩ := r
          rw [ahead] at at_
          rw [matchesFrom_of_some at_]
          have len : (c :: s).length = 10 + (x :: xs).length := by
            have := congrArg List.length rest
            simp only [List.length_drop] at this
            simp only [List.length_cons] at this ⊢
            omega
          have dropped : (c :: (s ++ T)).drop (11 + (x :: xs).length + m) = T.drop (m + 1) := by
            rw [← List.cons_append, show 11 + (x :: xs).length + m = (c :: s).length + (m + 1) by
              omega, ← List.drop_drop, List.drop_left]
          rw [dropped]

/-! ## Pairs of lines -/

/-- The case and result lines of a log, read a line at a time: a line holding `TestCase: ` with
something after its first occurrence, followed by a line holding `Result: ` with something after
its first occurrence, gives the two rests and both lines are used up; any other line is passed
over. -/
def linePairs : List (List Char) → List (List Char × List Char)
  | l₁ :: rest@(l₂ :: rest') =>
    match restAfter caseMarker l₁, restAfter resultMarker l₂ with
    | some a, some b => (a, b) :: linePairs rest'
    | _, _ => linePairs rest
  | _ => []

/-- The lines of a text that carry one of the markers. -/
def markerLines (text : String) : List (List Char) :=
  (Text.lines text.toList).filter fun line => relevantMarkers.any fun m => Text.occursIn m.toList line

theorem matchesFrom_breaks (done : List (List Char × List Char)) {ls : List (List Char)}
    (h : ∀ l ∈ ls, '\n' ∉ l) :
    matchesFrom done (ls.flatMap ('\n' :: ·)) =
      done.reverse ++ (linePairs ls).map fun p => (capture p.1, capture p.2) := by
  induction ls using linePairs.induct generalizing done with
  | case1 l₁ l₂ rest a b found₂ found₁ ih =>
    have h₁ : '\n' ∉ l₁ := h l₁ List.mem_cons_self
    have h₂ : '\n' ∉ l₂ := h l₂ (List.mem_cons_of_mem _ List.mem_cons_self)
    have ahead := resultAhead_line h₂ (atBreak_flatMap rest)
    rw [found₂, Option.map_some] at ahead
    rw [List.flatMap_cons, List.cons_append, matchesFrom_newline,
      matchesFrom_line done h₁ (atBreak_flatMap _), List.flatMap_cons, List.cons_append, ahead,
      found₁]
    simp only [List.drop_succ_cons, List.drop_left]
    rw [ih _ fun l mem => h l (List.mem_cons_of_mem _ (List.mem_cons_of_mem _ mem))]
    simp [linePairs, found₁, found₂]
  | case2 l₁ l₂ rest unpaired ih =>
    have h₁ : '\n' ∉ l₁ := h l₁ List.mem_cons_self
    have h₂ : '\n' ∉ l₂ := h l₂ (List.mem_cons_of_mem _ List.mem_cons_self)
    rw [List.flatMap_cons, List.cons_append, matchesFrom_newline,
      matchesFrom_line done h₁ (atBreak_flatMap _)]
    have ahead := resultAhead_line h₂ (atBreak_flatMap rest)
    rw [List.flatMap_cons, List.cons_append, ahead]
    -- a case line here has no result line after it
    have noResult : ∀ a, restAfter caseMarker l₁ = some a → restAfter resultMarker l₂ = none :=
      fun a found₁ => Option.eq_none_iff_forall_ne_some.mpr fun b found₂ =>
        unpaired a b found₁ found₂
    have skipped : linePairs (l₁ :: l₂ :: rest) = linePairs (l₂ :: rest) := by
      cases found₁ : restAfter caseMarker l₁ with
      | none => simp [linePairs, found₁]
      | some a => simp [linePairs, found₁, noResult a found₁]
    rw [skipped, ← ih done fun l mem => h l (List.mem_cons_of_mem _ mem), List.flatMap_cons,
      List.cons_append]
    cases found₁ : restAfter caseMarker l₁ with
    | none => rfl
    | some a => rw [noResult a found₁]; rfl
  | case3 ls short =>
    cases ls with
    | nil => simp [matchesFrom_nil, linePairs]
    | cons l ls =>
      cases ls with
      | nil =>
        have hl : '\n' ∉ l := h l List.mem_cons_self
        rw [List.flatMap_cons, List.flatMap_nil, List.append_nil, matchesFrom_newline,
          ← List.append_nil l, matchesFrom_line done hl (.inl rfl)]
        simp [resultAhead, matchesFrom_nil, linePairs]
      | cons l' ls => exact absurd rfl (short l l' ls)

theorem relevantText_eq (text : String) :
    relevantText text = ((markerLines text).intersperse ['\n']).flatten := rfl

theorem matchesFrom_joined (done : List (List Char × List Char)) (ls : List (List Char)) :
    matchesFrom done (ls.intersperse ['\n']).flatten = matchesFrom done (ls.flatMap ('\n' :: ·)) := by
  cases ls with
  | nil => rfl
  | cons l ls => rw [flatten_intersperse, List.flatMap_cons, List.cons_append, matchesFrom_newline]

/-! ## Captures -/

theorem trimChars_concat_blank {l : List Char} {c : Char} (blank : Text.isBlank c = true) :
    Text.trimChars (l ++ [c]) = Text.trimChars l := by
  unfold Text.trimChars Text.trimStartChars
  rw [List.dropWhile_append]
  split
  · rename_i allBlank
    rw [List.isEmpty_iff.mp allBlank]
    simp [blank, Text.trimEndChars]
  · rw [Text.trimEndChars, Text.trimEndChars, List.reverse_append]
    simp [blank]

theorem trim_capture (cs : List Char) :
    Text.trim (String.ofList (capture cs)) = Text.trim (String.ofList cs) := by
  unfold capture
  split
  · next y tail back =>
    have whole : cs = (y :: tail).reverse ++ ['\r'] := by
      rw [← List.reverse_reverse cs, back]
      simp
    conv_rhs => rw [whole]
    simp only [Text.trim, String.toList_ofList,
      trimChars_concat_blank (by decide : Text.isBlank '\r' = true)]
  · rfl

theorem ofString?_capture (cs : List Char) :
    CaseId.ofString? (String.ofList (capture cs)) = CaseId.ofString? (String.ofList cs) := by
  simp only [CaseId.ofString?, CaseId.make, trim_capture]

theorem parse_capture (cs : List Char) :
    Outcome.parse (String.ofList (capture cs)) = Outcome.parse (String.ofList cs) := by
  simp only [Outcome.parse, trim_capture]

/-! ## The results -/

/-- The results of an autotest log are the consecutive case and result lines among its marker
lines, read a line at a time: each pair gives the rest after `TestCase: `, trimmed and dropped
when blank, and the outcome read from the rest after `Result: `. -/
theorem results_pair_marker_lines (text : String) :
    (AutotestLog.parse text).results = (linePairs (markerLines text)).filterMap fun p =>
      (CaseId.ofString? (String.ofList p.1)).map fun id => (id, Outcome.parse (String.ofList p.2)) := by
  have lines : ∀ l ∈ markerLines text, '\n' ∉ l :=
    fun l mem => Text.newline_not_mem_lines l (List.mem_filter.mp mem).1
  have found : matchesFrom [] (relevantText text) =
      (linePairs (markerLines text)).map fun p => (capture p.1, capture p.2) := by
    rw [relevantText_eq, matchesFrom_joined, matchesFrom_breaks [] lines, List.reverse_nil,
      List.nil_append]
  rw [AutotestLog.parse, resultsOf, found, List.filterMap_map]
  refine List.filterMap_congr fun p _ => ?_
  simp only [Function.comp_apply, ofString?_capture, parse_capture]

end Autotest

end Conformance
