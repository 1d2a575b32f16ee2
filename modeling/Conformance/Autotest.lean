import Conformance.Text.Lines
import Conformance.Key
import Conformance.Outcome
import Conformance.CaseId

/-!
# Autotest logs

An autotest log wraps a conformance run in the test framework's own log. It names its
baseline on metadata lines (`ChromeOS GPU family = …`, `dEQP test filter = …`, with the
board and CPU family beside them), reports each case on a `TestCase: …` line followed by a
`Result: …` line, and ends with `Completed all tests.` when the run finished. Results are
found by one pattern searched over the lines that carry a marker, joined by line feeds:
`TestCase: ` with a nonempty rest of its line, a line break, then `Result: ` with a nonempty
rest on the next line. Matches are taken from the left and do not overlap, so lines without
any marker never come between a case and its result.
-/

namespace Conformance.Text

/-- What follows the first occurrence of `needle` in `hay`, if it occurs. -/
def afterFirst (needle : List Char) : List Char → Option (List Char)
  | [] => if needle.isEmpty then some [] else none
  | c :: rest =>
    if needle.isPrefixOf (c :: rest) then some ((c :: rest).drop needle.length)
    else afterFirst needle rest

/-- Whether `needle` occurs in `hay`. -/
def occursIn (needle hay : List Char) : Bool := (afterFirst needle hay).isSome

/-- Whether a text contains another. -/
def contains (hay needle : String) : Bool := occursIn needle.toList hay.toList

end Conformance.Text

namespace Conformance.Autotest

/-- `ChromeOS BOARD = ` -/
def boardMarker : String := "ChromeOS BOARD = "
/-- `ChromeOS CPU family = ` -/
def cpuMarker : String := "ChromeOS CPU family = "
/-- `ChromeOS GPU family = ` -/
def gpuMarker : String := "ChromeOS GPU family = "
/-- `dEQP test filter = ` -/
def filterMarker : String := "dEQP test filter = "
/-- `Completed all tests.` -/
def completedMarker : String := "Completed all tests."
/-- `TestCase: ` -/
def caseMarker : String := "TestCase: "
/-- `Result: ` -/
def resultMarker : String := "Result: "

/-- The markers that make a line relevant to the results. -/
def relevantMarkers : List String :=
  [boardMarker, cpuMarker, gpuMarker, filterMarker, caseMarker, resultMarker]

/-- Whether a text is an autotest log: it names a GPU family or a test filter. -/
def isAutotestLog (text : String) : Bool :=
  Text.contains text gpuMarker || Text.contains text filterMarker

/-- The lines that carry a marker, joined by line feeds. -/
def relevantText (text : String) : List Char :=
  let keep := (Text.lines text.toList).filter fun line =>
    relevantMarkers.any (fun m => Text.occursIn m.toList line)
  (keep.intersperse ['\n']).flatten

/-- A captured rest of a line, less one carriage return at its end when more is left. -/
def capture (rest : List Char) : List Char :=
  match rest.reverse with
  | '\r' :: r@(_ :: _) => r.reverse
  | _ => rest

/-- The pattern tried at the start of a text: the captured case and result, and how many
characters the match takes. -/
def matchAt (cs : List Char) : Option (List Char × List Char × Nat) :=
  if caseMarker.toList.isPrefixOf cs then
    let rest := cs.drop 10
    let line := rest.takeWhile (· != '\n')
    match rest.drop line.length, line with
    | '\n' :: next, _ :: _ =>
      let line2 := next.takeWhile (· != '\n')
      match Text.afterFirst resultMarker.toList line2 with
      | some r@(_ :: _) => some (capture line, capture r, 11 + line.length + line2.length)
      | _ => none
    | _, _ => none
  else none

theorem matchAt_taken {cs : List Char} {a b : List Char} {n : Nat}
    (h : matchAt cs = some (a, b, n)) : 0 < n := by
  unfold matchAt at h
  dsimp only at h
  split at h
  · split at h
    · split at h
      · simp only [Option.some.injEq, Prod.mk.injEq] at h
        omega
      · cases h
    · cases h
  · cases h

/-- All matches of the pattern, from the left, without overlap, after the captures `done`
(kept reversed). -/
def matchesFrom (done : List (List Char × List Char)) (cs : List Char) :
    List (List Char × List Char) :=
  match cs with
  | [] => done.reverse
  | c :: rest =>
    match h : matchAt (c :: rest) with
    | some (a, b, n) =>
      have := matchAt_taken h
      matchesFrom ((a, b) :: done) ((c :: rest).drop n)
    | none => matchesFrom done rest
termination_by cs.length
decreasing_by
  · simp only [List.length_drop, List.length_cons]; omega
  · simp only [List.length_cons]; omega

/-- The results of an autotest log: each match whose case is a valid id. -/
def resultsOf (text : String) : List (CaseId × Outcome) :=
  (matchesFrom [] (relevantText text)).filterMap fun (a, b) =>
    (CaseId.ofString? (String.ofList a)).map (fun id => (id, Outcome.parse (String.ofList b)))

/-- A metadata value: the trimmed rest after the marker on the first line where it is not
blank. -/
def metadata (text : String) (marker : String) : Option String :=
  (Text.lines text.toList).findSome? fun line =>
    match Text.afterFirst marker.toList line with
    | some rest =>
      let v := Text.trim (String.ofList rest)
      if v = "" then none else some v
    | none => none

/-- Why an autotest log names no baseline. -/
inductive LogKeyError where
  /-- A metadata line is missing; the marker is named without its trailing space. -/
  | missingMetadata (path : String) (marker : String)
  /-- The metadata names no valid key. -/
  | invalidKey (path : String) (cause : KeyError)
  deriving DecidableEq, Repr

/-- The text of an autotest key error. -/
def LogKeyError.message : LogKeyError → String
  | .missingMetadata path marker => "log `" ++ path ++ "` has no `" ++ marker ++ "` line"
  | .invalidKey path _ => "log `" ++ path ++ "` names an invalid baseline"

/-- What an autotest log holds. -/
structure AutotestLog where
  board : Option String
  cpuFamily : Option String
  gpuFamily : Option String
  filter : Option String
  results : List (CaseId × Outcome)
  completed : Bool
  deriving Repr

/-- Reads an autotest log. -/
def AutotestLog.parse (text : String) : AutotestLog where
  board := metadata text boardMarker
  cpuFamily := metadata text cpuMarker
  gpuFamily := metadata text gpuMarker
  filter := metadata text filterMarker
  results := resultsOf text
  completed := Text.contains text completedMarker

/-- The baseline key a log names, the GPU family looked for first. -/
def AutotestLog.key (log : AutotestLog) (path : String) : Except LogKeyError Key :=
  match log.gpuFamily, log.filter with
  | none, _ => .error (.missingMetadata path "ChromeOS GPU family =")
  | some _, none => .error (.missingMetadata path "dEQP test filter =")
  | some g, some f =>
    match Key.make g f with
    | .ok k => .ok k
    | .error e => .error (.invalidKey path e)

end Conformance.Autotest
