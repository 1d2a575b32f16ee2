import Conformance.Text.Blank

/-!
# Log lines

A log line is one of five kinds. The three markers `#terminateTestCaseResult`,
`#endTestCaseResult` and `#beginTestCaseResult` must start the line and be followed by the
end of the line or a blank; they are tried in that order. A line that starts with
`TestCase:` names the case about to run. Every other line is plain text.
-/

namespace Conformance.Log

/-- The kind of a log line, with what follows its marker. -/
inductive LineKind where
  /-- A block of results begins; the rest may name the case. -/
  | begin (rest : List Char)
  /-- The open block ends. -/
  | finish
  /-- The case was cut short; the rest names the outcome. -/
  | terminate (rest : List Char)
  /-- A case is about to run; the rest names it. -/
  | caseName (rest : List Char)
  /-- Any other line. -/
  | text
  deriving DecidableEq, Repr

/-- The rest of a line after a marker that stands alone as a word at its start. -/
def afterMarker (marker : String) (line : List Char) : Option (List Char) :=
  if marker.toList.isPrefixOf line then
    let rest := line.drop marker.length
    match rest with
    | [] => some rest
    | c :: _ => if Text.isBlank c then some rest else none
  else none

/-- The kind of a line. -/
def LineKind.classify (line : List Char) : LineKind :=
  match afterMarker "#terminateTestCaseResult" line with
  | some rest => .terminate rest
  | none =>
    match afterMarker "#endTestCaseResult" line with
    | some _ => .finish
    | none =>
      match afterMarker "#beginTestCaseResult" line with
      | some rest => .begin rest
      | none =>
        if "TestCase:".toList.isPrefixOf line then .caseName (line.drop 9) else .text

end Conformance.Log
