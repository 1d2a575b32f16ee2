import Conformance.Key
import Conformance.Baseline.Basic
import Conformance.Text.Lines

/-!
# Caselists

A suite caselist names its cases on `TEST: <case>` lines, maybe indented, among lines of other
forms that are skipped; a batch caselist holds one case id per line, in the order the cases
were submitted. A plan with no `Pass` list yet is bootstrapped from a suite caselist: its cases
under the key's filter, less every case the baseline records under a kind other than `Pass`.
-/

namespace Conformance.Caselist

/-- The case named by one line of a suite caselist, if it is a `TEST: ` line. -/
def entryOf (line : List Char) : Option CaseId :=
  let rest := Text.trimStartChars line
  if "TEST: ".toList.isPrefixOf rest then
    CaseId.ofString? (String.ofList (rest.drop 6))
  else none

/-- The cases of a suite caselist, in order, repeats kept. -/
def entries (text : String) : List CaseId :=
  (Text.lines text.toList).filterMap entryOf

/-- The cases of a batch caselist: every line that holds a case id, in order. -/
def submitted (text : String) : List CaseId :=
  CaseId.ofStrings (Text.linesOf text)

end Conformance.Caselist

namespace Conformance.Store

/-- The cases a baseline records under a kind other than `Pass`, sorted and without
repeats. -/
def notPassing (b : Baseline) : List CaseId :=
  Sorted.ofList ((b.kinds.filter (·.1 != .pass)).flatMap (·.2))

/-- The caselist's cases under the key's filter that the baseline does not record under a
kind other than `Pass`. -/
def bootstrap (k : Key) (b : Baseline) (caselist : String) : List CaseId :=
  let excluded := notPassing b
  Sorted.ofList ((Caselist.entries caselist).filter fun id =>
    id.matchesPrefix k.filter && !excluded.contains id)

end Conformance.Store
