import Conformance.Cli.Grammar
import Conformance.Text.Wrap

/-!
# Help pages

The help page of a level gives what it does, its usage line, and sections listing its
commands, its plain values and its options. The short form gives each entry on one line, its
text in a column after the longest name; the full form, asked for with `--help` or the `help`
command, puts the long text on the lines below each name with a blank line between entries,
and a level with no long text anywhere shows the short form for both. Lines are broken to a
width of a hundred columns (`Text.wrapPieces`), and what help adds after an entry's text (the
environment variable, the default, the values it takes) is set in brackets and broken into
lines with the text.
-/

namespace Conformance.Cli

/-- The width help is broken to. -/
def helpWidth : Nat := 100

/-- A bracketed remark after an entry's text: `[default: auto]`. -/
def remark (label value : String) : String := "[" ++ label ++ ": " ++ value ++ "]"

/-- One entry of a section: how it starts its line, its short and long texts, and the
remarks after them. -/
structure HelpRow where
  lead : String
  help : String
  longHelp : Option String := none
  remarks : List String := []
  /-- Whether the entry is an argument, whose long text stands apart from its remarks. -/
  argument : Bool := true

/-- The remarks on an option: the environment variable that may set it, the value it takes
when absent, and the values it takes. A flag has no default to show. -/
def Opt.remarks (o : Opt) : List String :=
  (o.env.map fun e => remark "env" (e ++ "=")).toList ++
  (if o.placeholder.isSome then (o.default.map (remark "default")).toList else []) ++
  (if o.listed.isEmpty then [] else [remark "possible values" (", ".intercalate o.listed)])

/-- An option as its help entry: its short letter or room for one, then its long name. -/
def Opt.row (o : Opt) : HelpRow where
  lead := (match o.short with
    | some c => String.ofList ['-', c, ',', ' ']
    | none => "    ") ++ o.shown
  help := o.help
  longHelp := o.longHelp
  remarks := o.remarks

/-- The key options are sorted by within one rank: a short letter in lower case with `0`
after it for a lower-case letter and `1` for an upper-case one, else the long name. -/
def Opt.sortKey (o : Opt) : String :=
  match o.short with
  | some c => String.ofList [c.toLower, if c.isLower then '0' else '1']
  | none => o.long

/-- The rank of built-in flags, after every declared option. -/
def builtinRank : Nat := 999

/-- Whether a level has a long text anywhere, so that its full help differs from the short. -/
def Level.hasLongHelp (lvl : Level) : Bool :=
  lvl.longAbout.isSome || lvl.options.any (·.longHelp.isSome)

/-- The help flag of a level, whose text tells of the other form when there is one. -/
def helpFlag (longExists : Bool) : Opt :=
  if longExists then
    { helpOption with
      help := "Print help (see more with '--help')"
      longHelp := some "Print help (see a summary with '-h')" }
  else helpOption

/-- The options of a level in the order help lists them: by rank, the place of an option
among its level's own or among the shared ones, then by key. -/
def Level.listedOptions (lvl : Level) : List Opt :=
  let ranked := lvl.own.zipIdx ++ lvl.shared.zipIdx ++
    (lvl.builtins.map fun o => if o.long = "help" then helpFlag lvl.hasLongHelp else o).map
      (·, builtinRank)
  let sorted := ranked.mergeSort fun (a, i) (b, j) =>
    i < j || (i = j && !decide (b.sortKey < a.sortKey))
  sorted.map (·.1)

/-- The text of an entry and its remarks: in the full form the remarks stand on lines of
their own, apart from the text. -/
def HelpRow.body (r : HelpRow) (full : Bool) : String :=
  let text := if full then r.longHelp.getD r.help else r.help
  let remarks := (if full then "\n" else " ").intercalate r.remarks
  if r.remarks.isEmpty then text
  else if text.isEmpty then remarks
  else text ++ (if full && r.argument then "\n\n" else " ") ++ remarks

/-- Whether an entry's text is too long for the column after the names, where the names
take more than two fifths of the width; one such entry puts every text of its section on
the lines below. -/
def HelpRow.crowded (r : HelpRow) (taken : Nat) : Bool :=
  helpWidth ≥ taken && 5 * taken > 2 * helpWidth &&
    (r.help.length + (" ".intercalate r.remarks).length) > helpWidth - taken

/-- The spaces of an indentation. -/
def spaces (n : Nat) : String := String.ofList (List.replicate n ' ')

/-- A section's entries. Names take the width of the longest of them, at least two; `extra`
is the room an option's short letter takes. -/
def helpSection (rows : List HelpRow) (full : Bool) (extra : Nat) : String :=
  let longest := rows.foldl (fun m r => max m r.lead.length) 2
  let column := longest + 4
  let below := full || rows.any (·.crowded (column + extra))
  let rendered := rows.map fun r =>
    let pieces := [r.body full]
    if below then
      "  " ++ r.lead ++ "\n" ++ spaces 10 ++
        Text.indentRest (spaces 10) (Text.wrapPieces (helpWidth - 10) pieces)
    else
      "  " ++ r.lead ++ spaces (column - 2 - r.lead.length) ++
        Text.indentRest (spaces column) (Text.wrapPieces (helpWidth - column) pieces)
  (if below && full then "\n\n" else "\n").intercalate rendered

/-- The usage line of a level: its name, `[OPTIONS]` when it has an option it does not
need, the options it needs, its plain values, and at the top the command to come. -/
def Level.usage (lvl : Level) (top : Bool) : String :=
  let name := if top then lvl.name else topLevel.name ++ " " ++ lvl.name
  let declared := lvl.own ++ lvl.shared
  " ".intercalate ([name] ++
    (if declared.any (!·.required) then ["[OPTIONS]"] else []) ++
    (declared.filter (·.required)).map (·.shown) ++
    (lvl.values.map (·.shown)).toList ++
    (if top then ["<COMMAND>"] else []))

/-- The entries of the commands at the top. -/
def commandRows : List HelpRow :=
  commandNames.map fun n => { lead := n, help := (commandLevel n).about, argument := false }

/-- The help page of a level, in full or in short. -/
def Level.helpPage (lvl : Level) (top full : Bool) : String :=
  let full := full && lvl.hasLongHelp
  let about := if full then lvl.longAbout.getD lvl.about else lvl.about
  let valueRows := lvl.values.toList.map fun v => ({ lead := v.shown, help := v.help } : HelpRow)
  let sections :=
    (if top then ["Commands:\n" ++ helpSection commandRows false 0] else []) ++
    (if valueRows.isEmpty then [] else ["Arguments:\n" ++ helpSection valueRows full 0]) ++
    (if lvl.options.isEmpty then []
     else ["Options:\n" ++ helpSection (lvl.listedOptions.map Opt.row) full 4])
  Text.wrapPieces helpWidth [about] ++ "\n\nUsage: " ++ lvl.usage top ++ "\n\n" ++
    "\n\n".intercalate sections ++ "\n"

/-- The help page a request names: the top level's, or a command's. -/
def helpPage (command : Option String) (full : Bool) : String :=
  match command with
  | none => topLevel.helpPage true full
  | some n => (commandLevel n).helpPage false full

end Conformance.Cli
