import Conformance.Cli.Invocation
import Conformance.Text.Similar

/-!
# The command-line grammar

The words of a command line are read left to right: `--name` names a long option, with its
value after `=` or in the next word, `-x` holds short flags, a lone `--` makes every later
word a plain value, and at the top level the first plain word names a command, with shared
options on either side of it and a value given after it winning. An option's value is taken
in, and judged, only when the option is settled: at the next known option, at a plain value
the level has room for, or when the level's words run out, a level's own options before the
shared ones given ahead of its command. The first fault met in that order is reported (an
unknown option, a missing or refused value, an option given twice, a missing required
option), with hints: the known names most like an unknown one, the values an option takes,
and how to pass a word that looks like an option as a plain value. Asking for help or the
version stops reading once the options before it are settled.
-/

namespace Conformance.Cli

/-- What an option says of a value given to it. -/
inductive Verdict where
  | accept
  /-- Refused; the option takes only the values listed. -/
  | refuse (names : List String)
  /-- Refused, for a reason. -/
  | refuseWith (reason : String)

/-- An option: its long name, its short letter, the placeholder of its value (a flag takes
no value), what it says of a value, whether a command needs it, and what help says of it:
a line, a longer text for the long help, the environment variable named beside it, the
value it takes when absent, and the values help lists. -/
structure Opt where
  long : String
  short : Option Char := none
  placeholder : Option String := none
  judge : String → Verdict := fun _ => .accept
  required : Bool := false
  help : String := ""
  longHelp : Option String := none
  env : Option String := none
  default : Option String := none
  listed : List String := []

/-- An option as usage messages show it. -/
def Opt.shown (o : Opt) : String :=
  match o.placeholder with
  | some p => "--" ++ o.long ++ " <" ++ p ++ ">"
  | none => "--" ++ o.long

/-- The plain values a level takes: their placeholder, whether more than one may come,
whether one must come, and what help says of them. -/
structure PlainValues where
  name : String
  many : Bool
  required : Bool
  help : String

/-- Plain values as usage and help show them: `<LOG>...` for one or more, `[COMMAND]...`
for any number. -/
def PlainValues.shown (v : PlainValues) : String :=
  (if v.required then "<" ++ v.name ++ ">" else "[" ++ v.name ++ "]") ++ if v.many then "..." else ""

/-- A level of the command line: the top, or one command. Its options are its own, those
shared by every level, and the built-in help and version flags. -/
structure Level where
  name : String
  about : String
  longAbout : Option String := none
  own : List Opt
  shared : List Opt := []
  builtins : List Opt
  values : Option PlainValues := none

/-- Every option of a level. -/
def Level.options (lvl : Level) : List Opt := lvl.own ++ lvl.shared ++ lvl.builtins

/-- The names of the commands, in the order help lists them. -/
def commandNames : List String := ["merge", "parse", "show", "reset", "plan", "help"]

/-- What a usage error ends with: the known names most like the word given, with what they
name, and tips. -/
structure Hints where
  similar : Option (String × List String) := none
  tips : List String := []

/-- Why a command line is refused. -/
inductive UsageError where
  | unexpectedArgument (word : String) (hints : Hints)
  | unrecognizedCommand (word : String) (hints : Hints)
  | missingValue (opt : String)
  /-- A refused value, with the reason or the values the option takes. -/
  | invalidValue (value opt : String) (reason : Option String) (names : List String)
  | repeated (opt : String)
  | unexpectedValue (value opt : String)
  | missingRequired (args : List String)
  | missingCommand

/-- The headline of a usage error. A value outside a list of names that is empty reads as
no value at all. -/
def UsageError.message : UsageError → String
  | .unexpectedArgument w _ => "unexpected argument '" ++ w ++ "' found"
  | .unrecognizedCommand w _ => "unrecognized subcommand '" ++ w ++ "'"
  | .missingValue o => "a value is required for '" ++ o ++ "' but none was supplied"
  | .invalidValue v o none _ =>
    if v.isEmpty then "a value is required for '" ++ o ++ "' but none was supplied"
    else "invalid value '" ++ v ++ "' for '" ++ o ++ "'"
  | .invalidValue v o (some r) _ => "invalid value '" ++ v ++ "' for '" ++ o ++ "': " ++ r
  | .repeated o => "the argument '" ++ o ++ "' cannot be used multiple times"
  | .unexpectedValue v o =>
    "unexpected value '" ++ v ++ "' for '" ++ o ++ "' found; no more were expected"
  | .missingRequired _ => "the following required arguments were not provided:"
  | .missingCommand => "'deqp-expect' requires a subcommand but one was not provided"

/-- A list of names under a label, on a line of its own. -/
def namesLine (label : String) (names : List String) : String :=
  if names.isEmpty then "" else "\n  [" ++ label ++ ": " ++ ", ".intercalate names ++ "]"

/-- Hints as they follow a headline: the similar names, then the tips, the first hint after
a blank line and each on a line of its own. -/
def Hints.text (h : Hints) : String :=
  let similar := match h.similar with
    | some (what, [name]) => "\n\n  tip: a similar " ++ what ++ " exists: '" ++ name ++ "'"
    | some (what, names) =>
      "\n\n  tip: some similar " ++ what ++ "s exist: " ++
        ", ".intercalate (names.map fun n => "'" ++ n ++ "'")
    | none => ""
  let tips := if h.tips.isEmpty then "" else
    (if h.similar.isNone then "\n" else "") ++ String.join (h.tips.map ("\n  tip: " ++ ·))
  similar ++ tips

/-- What follows the headline of a usage error: the arguments missing, the values or
commands that could have been given, and the hints. -/
def UsageError.details : UsageError → String
  | .unexpectedArgument _ h | .unrecognizedCommand _ h => h.text
  | .invalidValue v _ none names =>
    namesLine "possible values" names ++
      match Text.mostAlike? v names with
      | some n => ({ similar := some ("value", [n]) } : Hints).text
      | none => ""
  | .missingRequired args => String.join (args.map ("\n  " ++ ·))
  | .missingCommand => namesLine "subcommands" commandNames
  | _ => ""

/-- What a command line asks for. -/
inductive Request where
  /-- Run a command. -/
  | run (inv : Invocation)
  /-- Print the help of the top level, or of the command named, in full or in short. -/
  | help (command : Option String) (full : Bool)
  /-- Print the name and version. -/
  | version
  deriving Repr

/-! ## The levels -/

/-- Judges a value against a fixed list of names. -/
def oneOf (names : List String) (v : String) : Verdict :=
  if names.contains v then .accept else .refuse names

/-- The options every level takes. -/
def sharedOptions : List Opt :=
  [{ long := "verbose", short := some 'v', help := "Verbose output",
     env := some "DEQP_EXPECT_VERBOSE" },
   { long := "color", placeholder := some "WHEN", judge := oneOf ["auto", "always", "never"],
     help := "Produce color output: auto, always, never", env := some "DEQP_EXPECT_COLOR",
     default := some "auto" },
   { long := "config-file", placeholder := some "PATH",
     help := "Config file [default: .config/deqp-expect.toml]" },
   { long := "expectations-dir", placeholder := some "DIR",
     help := "Directory holding the baselines, one subdirectory per GPU family",
     env := some "DEQP_EXPECT_DIR" }]

/-- The help flag; its text tells of the other form when a level has a long help. -/
def helpOption : Opt := { long := "help", short := some 'h', help := "Print help" }

/-- The version flag, known at the top level only. -/
def versionOption : Opt := { long := "version", short := some 'V', help := "Print version" }

/-- The two options that name a baseline, which the commands on one baseline need. -/
def keyOptions : List Opt :=
  [{ long := "gpu", placeholder := some "GPU", required := true,
     help := "GPU family of the baseline" },
   { long := "filter", placeholder := some "FILTER", required := true,
     help := "Test filter of the baseline, for example dEQP-GLES2.info" }]

/-- The two options that name the baseline of a raw log. -/
def logKeyOptions : List Opt :=
  [{ long := "gpu", placeholder := some "GPU", help := "GPU family, required for raw dEQP logs" },
   { long := "filter", placeholder := some "FILTER",
     help := "Test filter, required for raw dEQP logs" }]

/-- The output format option. -/
def formatOption : Opt :=
  { long := "message-format", placeholder := some "FMT", judge := oneOf ["human", "json"],
    help := "Output format", default := some "human", listed := ["human", "json"] }

/-- The caselist option of the commands that read logs. -/
def caselistOption : Opt :=
  { long := "caselist", placeholder := some "PATH",
    help := "Cases submitted to a batch run, one per line, in submission order" }

/-- The flaky detection option of `merge`. -/
def policyOption : Opt :=
  { long := "flaky-detection", placeholder := some "POLICY",
    judge := fun v => match FlakyPolicy.parse v with
      | .ok _ => .accept
      | .error e => .refuseWith e.message
    help := "Which outcome changes mark a case as flaky [default: from config]"
    longHelp := some ("Which outcome changes mark a case as flaky [default: from config]\n\n" ++
      "Overrides the flaky-detection config key.") }

/-- The subset option of `plan`. -/
def subsetOption : Opt :=
  { long := "subset", placeholder := some "KIND", help := "Outcome kind to select",
    default := some "Pass" }

/-- The caselist option of `plan`. -/
def bootstrapOption : Opt :=
  { long := "caselist", placeholder := some "PATH",
    help := "dEQP caselist (`TEST: <case>` lines) to bootstrap from" }

/-- The top level. -/
def topLevel : Level where
  name := "deqp-expect"
  about := "Maintain per-GPU dEQP expectation baselines"
  longAbout := some ("Maintain per-GPU dEQP expectation baselines.\n\n" ++
    "Parses dEQP logs, folds their results into the expectation baseline of each " ++
    "(GPU family, test filter) pair, and detects flaky test cases across runs.")
  own := sharedOptions
  builtins := [helpOption, versionOption]

/-- The `help` command, which takes the names of commands and no options. -/
def helpLevel : Level where
  name := "help"
  about := "Print this message or the help of the given subcommand(s)"
  own := []
  builtins := []
  values := some ⟨"COMMAND", true, false, "Print help for the subcommand(s)"⟩

/-- A command that works on one baseline. -/
def keyedLevel (name about : String) (more : List Opt) : Level where
  name := name
  about := about
  own := keyOptions ++ more
  shared := sharedOptions
  builtins := [helpOption]

/-- The level of a command. -/
def commandLevel (name : String) : Level :=
  if name = "merge" then
    { name, about := "Merge logs into their baselines"
      longAbout := some ("Merge logs into their baselines\n\n" ++
        "Autotest INFO logs name their baseline themselves. Raw dEQP logs need --gpu and --filter.")
      own := logKeyOptions ++ [caselistOption, policyOption]
      shared := sharedOptions
      builtins := [helpOption]
      values := some ⟨"LOG", true, true, "Logs to merge, each as one complete run"⟩ }
  else if name = "parse" then
    { name, about := "Parse a log and print its results without touching any baseline"
      own := logKeyOptions ++ [caselistOption, formatOption]
      shared := sharedOptions
      builtins := [helpOption]
      values := some ⟨"LOG", false, true, "Log to parse"⟩ }
  else if name = "show" then keyedLevel name "Print a baseline" [formatOption]
  else if name = "reset" then keyedLevel name "Remove a baseline and its plain-text lists" []
  else if name = "plan" then
    { keyedLevel name "Print the test cases to run next" [subsetOption, bootstrapOption] with
      longAbout := some ("Print the test cases to run next\n\n" ++
        "Prints the cases recorded under the subset, one per line. Without a recorded Pass " ++
        "list, the cases are bootstrapped from a dEQP caselist minus every case known not " ++
        "to pass.") }
  else helpLevel

/-! ## Reading words -/

/-- How reading a level ends. -/
inductive Stop where
  /-- The words ran out. -/
  | finished
  /-- A command was named; the words after its name belong to it. -/
  | command (name : String) (rest : List String)
  /-- Help was asked for: in full by the long flag, in short by the short one. -/
  | help (full : Bool)
  | version

/-- A level read so far: the options given with their values, the plain values, whether a
`--` was met, and the option not yet settled, with its value once it has come. -/
structure Scan where
  given : List (String × Option String) := []
  plain : List String := []
  trailing : Bool := false
  pending : Option (Opt × Option String) := none

namespace Scan

/-- The value given to an option, if it was given. -/
def value? (s : Scan) (long : String) : Option (Option String) := s.given.lookup long

/-- Whether an option waits for its value: the next word is then that value. -/
def awaiting (s : Scan) : Bool :=
  match s.pending with
  | some (_, none) => true
  | _ => false

/-- Records an option given once more: a second time is refused before its value is
judged. -/
def record (s : Scan) (o : Opt) (v : Option String) : Except UsageError Scan :=
  if (s.value? o.long).isSome then .error (.repeated o.shown)
  else
    match v with
    | none => .ok { s with given := s.given ++ [(o.long, none)] }
    | some v =>
      match o.judge v with
      | .accept => .ok { s with given := s.given ++ [(o.long, some v)] }
      | .refuse names => .error (.invalidValue v o.shown none names)
      | .refuseWith r => .error (.invalidValue v o.shown (some r) [])

/-- Settles the option not yet settled: one still waiting for its value fails, and one with
its value is recorded. -/
def settle (s : Scan) : Except UsageError Scan :=
  match s.pending with
  | some (o, none) => .error (.missingValue o.shown)
  | some (o, some v) => { s with pending := none }.record o (some v)
  | none => .ok s

/-- Takes a plain value at a level. A value the level has room for first settles the option
not yet settled (after `--` an option may still wait for its value); a word with no room is
refused, and what is unsettled is never judged. At the top level such a word names an
unknown command, with the commands most like it; a command's name after `--` is refused,
with a tip to drop the `--`. -/
def takePlain (lvl : Level) (top : Bool) (s : Scan) (w : String) : Except UsageError Scan :=
  match lvl.values with
  | none =>
    if top then
      if s.trailing && commandNames.contains w then
        .error (.unexpectedArgument w
          { tips := ["subcommand '" ++ w ++ "' exists; to use it, remove the '--' before it"] })
      else
        match Text.alike w commandNames with
        | [] => .error (.unrecognizedCommand w {})
        | names => .error (.unrecognizedCommand w { similar := some ("subcommand", names) })
    else .error (.unexpectedArgument w {})
  | some v =>
    if v.many || s.plain.isEmpty then do
      let s ← s.settle
      pure { s with plain := s.plain ++ [w] }
    else .error (.unexpectedArgument w {})

end Scan

/-- The option of a level with a long name. -/
def Level.findLong (lvl : Level) (name : String) : Option Opt :=
  lvl.options.find? (·.long == name)

/-- The option of a level with a short letter. -/
def Level.findShort (lvl : Level) (c : Char) : Option Opt :=
  lvl.options.find? (·.short == some c)

/-- The tip for an unknown option word at a level that takes plain values: pass it after
`--`. -/
def asValueTip (lvl : Level) (word : String) : List String :=
  if lvl.values.isSome then ["to pass '" ++ word ++ "' as a value, use '-- " ++ word ++ "'"] else []

/-- The hints for an unknown long option: the level's option most like it; else, at the top
level, an option most like it of the first command named later on the line; else the tip
to pass it as a value. -/
def unknownLongHints (lvl : Level) (top : Bool) (name : String) (later : List String) : Hints :=
  match Text.mostAlike? name (lvl.options.map (·.long)) with
  | some n => { similar := some ("argument", ["--" ++ n]) }
  | none =>
    let inCommand : List (Nat × String) := if top then
        (commandNames.filter (· != "help")).filterMap fun c =>
          match Text.mostAlike? name ((commandLevel c).options.map (·.long)), later.idxOf? c with
          | some n, some i => some (i, "'" ++ c ++ " --" ++ n ++ "' exists")
          | _, _ => none
      else []
    match (inCommand.mergeSort fun x y => x.1 ≤ y.1).head? with
    | some (_, tip) => { tips := [tip] }
    | none => { tips := asValueTip lvl ("--" ++ name) }

/-- Reads a cluster of short flags; gives the scan, or where reading stops. -/
def readShorts (lvl : Level) (s : Scan) : List Char → Except UsageError (Scan ⊕ Stop)
  | [] => .ok (.inl s)
  | c :: rest =>
    match lvl.findShort c with
    | none =>
      let word := String.ofList ['-', c]
      .error (.unexpectedArgument word { tips := asValueTip lvl word })
    | some o => do
      let s ← s.settle
      if o.long = "help" then pure (.inr (.help false))
      else if o.long = "version" then pure (.inr .version)
      else
        match o.placeholder with
        | none => readShorts lvl (← s.record o none) rest
        | some _ =>
          if rest.isEmpty then pure (.inl { s with pending := some (o, none) })
          else pure (.inl (← s.record o (some (String.ofList rest))))

/-- Reads a long option word without its two hyphens, given the words after it. -/
def readLong (lvl : Level) (top : Bool) (s : Scan) (body : String) (later : List String) :
    Except UsageError (Scan ⊕ Stop) :=
  let name := String.ofList (body.toList.takeWhile (· != '='))
  let attached : Option String := match body.toList.dropWhile (· != '=') with
    | [] => none
    | _ :: v => some (String.ofList v)
  match lvl.findLong name with
  | none => .error (.unexpectedArgument ("--" ++ name) (unknownLongHints lvl top name later))
  | some o =>
    match o.placeholder, attached with
    | none, some v => .error (.unexpectedValue v o.shown)
    | _, _ => do
      let s ← s.settle
      if o.long = "help" then pure (.inr (.help true))
      else if o.long = "version" then pure (.inr .version)
      else
        match o.placeholder, attached with
        | none, _ => pure (.inl (← s.record o none))
        | some _, some v => pure (.inl (← s.record o (some v)))
        | some _, none => pure (.inl { s with pending := some (o, none) })

/-- Reads the words of a level, left to right. At the top level a command's name ends
reading, unless an option awaits its value: the name is then that value. A value an option
awaits is kept with it, unsettled. -/
def readLevel (lvl : Level) (top : Bool) (s : Scan) : List String → Except UsageError (Scan × Stop)
  | [] => .ok (s, .finished)
  | w :: rest =>
    if s.trailing then do
      readLevel lvl top (← s.takePlain lvl top w) rest
    else if top && !s.awaiting && commandNames.contains w then .ok (s, .command w rest)
    else if w = "--" then
      readLevel lvl top { s with trailing := true } rest
    else if w.startsWith "--" then do
      match ← readLong lvl top s (String.ofList (w.toList.drop 2)) rest with
      | .inl s => readLevel lvl top s rest
      | .inr stop => pure (s, stop)
    else if w.startsWith "-" && w.length > 1 then do
      match ← readShorts lvl s (w.toList.drop 1) with
      | .inl s => readLevel lvl top s rest
      | .inr stop => pure (s, stop)
    else
      match s.pending with
      | some (o, none) => readLevel lvl top { s with pending := some (o, some w) } rest
      | _ => do readLevel lvl top (← s.takePlain lvl top w) rest

/-! ## From words to a request -/

/-- The shared options of a command line: a value given after the command's name wins over
one given before it. -/
def globalsOf (top sub : Scan) : Globals :=
  let pick (long : String) : Option (Option String) := (sub.value? long).orElse fun _ => top.value? long
  { verbose := (pick "verbose").isSome
    color := match pick "color" with
      | some (some "always") => .always
      | some (some "never") => .never
      | _ => .auto
    configFile := (pick "config-file").join
    expectationsDir := (pick "expectations-dir").join }

/-- The value of an option of a command. -/
def valueOf (s : Scan) (long : String) : Option String := (s.value? long).join

/-- The format option of a command. -/
def formatOf (s : Scan) : Format :=
  if valueOf s "message-format" = some "json" then .json else .human

/-- The command a level's scan describes, or the arguments it lacks. -/
def commandOf (name : String) (s : Scan) : Except UsageError Command :=
  let gpu := valueOf s "gpu"
  let filter := valueOf s "filter"
  let source : LogSource := ⟨gpu, filter, valueOf s "caselist"⟩
  let pairMissing : List String :=
    match gpu, filter with
    | some _, none => ["--filter <FILTER>"]
    | none, some _ => ["--gpu <GPU>"]
    | _, _ => []
  let keyMissing : List String :=
    (if gpu.isNone then ["--gpu <GPU>"] else []) ++ (if filter.isNone then ["--filter <FILTER>"] else [])
  let need (missing : List String) (c : Command) : Except UsageError Command :=
    if missing.isEmpty then .ok c else .error (.missingRequired missing)
  if name = "merge" then
    need ((if s.plain.isEmpty then ["<LOG>..."] else []) ++ pairMissing)
      (.merge s.plain source ((valueOf s "flaky-detection").bind fun v => (FlakyPolicy.parse v).toOption))
  else if name = "parse" then
    match s.plain with
    | [log] => need pairMissing (.parse log source (formatOf s))
    | _ => .error (.missingRequired (["<LOG>"] ++ pairMissing))
  else
    match gpu, filter with
    | some g, some f =>
      if name = "show" then .ok (.display g f (formatOf s))
      else if name = "reset" then .ok (.reset g f)
      else .ok (.plan g f (Outcome.parse ((valueOf s "subset").getD "Pass")) (valueOf s "caselist"))
    | _, _ => .error (.missingRequired keyMissing)

/-- The help a `help` command asks for, in full: the top level's, or that of the command it
names. A command has no commands below it, so a second name is never one. -/
def helpOf : List String → Except UsageError Request
  | [] => .ok (.help none true)
  | [w] =>
    if commandNames.contains w then .ok (.help (some w) true) else .error (.unrecognizedCommand w {})
  | w :: w2 :: _ => .error (.unrecognizedCommand (if commandNames.contains w then w2 else w) {})

/-- Reads a command line, without the program's name. The shared options given ahead of a
command's name are settled only once the command's own words are read and checked. -/
def readArgs (args : List String) : Except UsageError Request := do
  let (top, stop) ← readLevel topLevel true {} args
  match stop with
  | .help full => pure (.help none full)
  | .version => pure .version
  | .finished =>
    let _ ← top.settle
    throw .missingCommand
  | .command name rest =>
    if name = "help" then helpOf rest
    else
      let lvl := commandLevel name
      let (sub, stop) ← readLevel lvl false {} rest
      match stop with
      | .help full => pure (.help (some name) full)
      | .version => pure .version
      | _ =>
        let sub ← sub.settle
        let cmd ← commandOf name sub
        let top ← top.settle
        pure (.run ⟨globalsOf top sub, cmd⟩)

end Conformance.Cli
