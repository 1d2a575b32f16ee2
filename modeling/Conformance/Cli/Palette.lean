import Conformance.Outcome
import Conformance.Cli.Invocation

/-!
# Colour

Output may colour some spans: names of outcomes by health, keys and paths in bold, and the
headings of messages on the error stream. A palette holds the escape sequence that starts each
kind of span and a coloured span ends with the sequence that resets every attribute; the plain
palette holds none, and a span painted with nothing is left as it is. A stream is coloured as
the colour choice says: always, never, or, by default, only when it is a terminal that takes
colour.
-/

namespace Conformance.Cli

/-- The escape sequences that start each kind of coloured span. -/
structure Palette where
  strong : String := ""
  healthy : String := ""
  unhealthy : String := ""
  flaky : String := ""
  errorHeading : String := ""
  warningHeading : String := ""
  infoHeading : String := ""
  debugHeading : String := ""
  deriving DecidableEq, Repr

namespace Palette

/-- No colour at all. -/
def plain : Palette := {}

/-- Bold for emphasis and for the headings of information and details, green for health,
red for failure and errors, yellow for flakiness and warnings, each of the colours bold as
well. -/
def colored : Palette where
  strong := "\x1b[1m"
  healthy := "\x1b[32;1m"
  unhealthy := "\x1b[31;1m"
  flaky := "\x1b[33;1m"
  errorHeading := "\x1b[31;1m"
  warningHeading := "\x1b[33;1m"
  infoHeading := "\x1b[1m"
  debugHeading := "\x1b[1m"

/-- The sequence that ends a coloured span. -/
def reset : String := "\x1b[0m"

/-- A span in a colour; with no colour, the text as it is. -/
def paint (start text : String) : String :=
  if start.isEmpty then text else start ++ text ++ reset

/-- The colour of an outcome: flaky, healthy or not. -/
def outcome (p : Palette) (o : Outcome) : String :=
  if o = .flaky then p.flaky else if o.isHealthy then p.healthy else p.unhealthy

/-- The palette of a stream under a colour choice, given whether the stream is a terminal
that takes colour. -/
def choose (c : ColorChoice) (terminal : Bool) : Palette :=
  match c with
  | .always => colored
  | .never => plain
  | .auto => if terminal then colored else plain

end Palette

end Conformance.Cli
