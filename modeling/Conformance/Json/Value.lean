/-!
# JSON values and their text

The JSON documents this library writes: baseline files, run summaries and the answers of
the command line. Fields keep the order they are given in. The printer indents each nested
array element and object member on a line of its own, by a fixed number of spaces per level;
an empty array or object stays on one line. In strings, the quote, the backslash and the
control characters below space are escaped, the common ones by letter and the rest by a
four-digit lowercase hexadecimal code; every other character is written as it is.
-/

namespace Conformance

/-- A JSON value whose numbers are counts. -/
inductive Json where
  | null
  | bool (b : Bool)
  | num (n : Nat)
  | str (s : String)
  | arr (items : List Json)
  | obj (fields : List (String × Json))
  deriving Repr, Inhabited

namespace Json

/-- The lowercase hexadecimal digit of a number below sixteen. -/
def hexDigit (n : Nat) : Char :=
  if n < 10 then Char.ofNat (0x30 + n) else Char.ofNat (0x57 + n)

/-- How one character is written inside a string. -/
def escapeChar (c : Char) : List Char :=
  if c = '"' then ['\\', '"']
  else if c = '\\' then ['\\', '\\']
  else if c = '\n' then ['\\', 'n']
  else if c = '\r' then ['\\', 'r']
  else if c = '\t' then ['\\', 't']
  else if c.toNat = 0x08 then ['\\', 'b']
  else if c.toNat = 0x0C then ['\\', 'f']
  else if c.toNat < 0x20 then
    ['\\', 'u', '0', '0', hexDigit (c.toNat / 16), hexDigit (c.toNat % 16)]
  else [c]

/-- A string in quotes, escaped. -/
def quote (s : String) : String :=
  String.ofList ('"' :: s.toList.flatMap escapeChar ++ ['"'])

/-- Spaces for `n` levels of `step` spaces each. -/
def indent (step n : Nat) : String := String.ofList (List.replicate (step * n) ' ')

/-- Joins texts with a comma between each two. -/
def commaJoin : List String → String
  | [] => ""
  | [s] => s
  | s :: rest => s ++ "," ++ commaJoin rest

mutual
/-- The text of a value at nesting `level`, indenting by `step` spaces per level. -/
def render (step level : Nat) : Json → String
  | .null => "null"
  | .bool b => if b then "true" else "false"
  | .num n => toString n
  | .str s => quote s
  | .arr [] => "[]"
  | .arr items =>
    "[" ++ commaJoin (renderItems step (level + 1) items) ++ "\n" ++ indent step level ++ "]"
  | .obj [] => "\x7b\x7d"
  | .obj fields =>
    "\x7b" ++ commaJoin (renderFields step (level + 1) fields) ++ "\n" ++
      indent step level ++ "\x7d"

/-- Each array element on a line of its own. -/
def renderItems (step level : Nat) : List Json → List String
  | [] => []
  | v :: rest => ("\n" ++ indent step level ++ render step level v) :: renderItems step level rest

/-- Each object member on a line of its own. -/
def renderFields (step level : Nat) : List (String × Json) → List String
  | [] => []
  | (k, v) :: rest =>
    ("\n" ++ indent step level ++ quote k ++ ": " ++ render step level v) ::
      renderFields step level rest
end

/-- The text of a document, indented by `step` spaces per level. -/
def pretty (step : Nat) (v : Json) : String := render step 0 v

/-- An array of strings. -/
def strs (xs : List String) : Json := .arr (xs.map .str)

example : pretty 2 (.obj [("a", .arr [.num 1, .str "x\n"]), ("b", .obj [])]) =
    "\x7b\n  \"a\": [\n    1,\n    \"x\\n\"\n  ],\n  \"b\": \x7b\x7d\n\x7d" := by cbv

end Json

end Conformance
