import Conformance.Outcome
import Conformance.Policy

/-!
# Invocations

What a command line asks the tool to do: one of five commands, with the options every
command shares. Options a command does not name are absent here rather than defaulted, so
that the settings file can fill them in later.
-/

namespace Conformance.Cli

/-- When output is coloured. -/
inductive ColorChoice where
  | auto
  | always
  | never
  deriving DecidableEq, Repr

/-- How a command prints what it found. -/
inductive Format where
  /-- Lines for a person to read. -/
  | human
  /-- A JSON document. -/
  | json
  deriving DecidableEq, Repr

/-- The options every command takes. -/
structure Globals where
  verbose : Bool := false
  color : ColorChoice := .auto
  configFile : Option String := none
  expectationsDir : Option String := none
  deriving DecidableEq, Repr

/-- How a log is read: the baseline it belongs to, when the log does not say, and the
caselist of a batch run. -/
structure LogSource where
  gpu : Option String := none
  filter : Option String := none
  caselist : Option String := none
  deriving DecidableEq, Repr

/-- A command and its own options. -/
inductive Command where
  /-- Merge logs into their baselines. -/
  | merge (logs : List String) (source : LogSource) (policy : Option FlakyPolicy)
  /-- Print the results of one log. -/
  | parse (log : String) (source : LogSource) (format : Format)
  /-- Print a baseline. -/
  | display (gpu filter : String) (format : Format)
  /-- Remove a baseline. -/
  | reset (gpu filter : String)
  /-- Print the cases to run next. -/
  | plan (gpu filter : String) (subset : Outcome) (caselist : Option String)
  deriving DecidableEq, Repr

/-- A command with the shared options. -/
structure Invocation where
  globals : Globals
  command : Command
  deriving DecidableEq, Repr

end Conformance.Cli
