import Conformance.Toml.Literal

/-!
# Reading TOML documents

A TOML 1.1 document is read line by line into its root table: a line holds nothing, a table
header, an array-of-tables header or a key with its value, and may end in a comment, and values
in brackets and braces may run over several lines, with comments between their items, a comma
after the last one, and between braces a break around a key's equals sign but not inside a
dotted key. Reading fails on anything the grammar refuses, on every key or table the document
defines twice (by the rules `Entries.within` checks), on arrays and inline tables nested more
than `nestingLimit` deep, and on keys of more than `nestingLimit` parts. Other recursion is
bounded by fuel taken from the length of the text, which no text can use up.
-/

namespace Conformance.Toml

/-- How deep arrays and tables in braces may nest within one value, and how many parts one
key may have. -/
def nestingLimit : Nat := 80

/-- Drops blanks, comments and line breaks; `inComment` holds inside a comment. -/
def skipFiller (inComment : Bool) : List Char → Option (List Char)
  | '\n' :: rest => skipFiller false rest
  | '\r' :: '\n' :: rest => skipFiller false rest
  | c :: rest =>
    if inComment then
      if isCommentChar c then skipFiller true rest else none
    else if isSpace c then skipFiller false rest
    else if c == '#' then skipFiller true rest
    else some (c :: rest)
  | [] => some []

/-- Drops a comment at the front, up to its line break. -/
def skipComment : List Char → Option (List Char)
  | '#' :: rest =>
    let body := rest.takeWhile (fun c => c != '\n' && c != '\r')
    if body.all isCommentChar then some (rest.drop body.length) else none
  | cs => some cs

/-- The end of a line: blanks, an optional comment, then a line break or the end of the
text. Gives the lines that follow. -/
def endLine (cs : List Char) : Option (List Char) := do
  match ← skipComment (skipSpace cs) with
  | [] => some []
  | '\n' :: rest => some rest
  | '\r' :: '\n' :: rest => some rest
  | _ => none

/-- A character of a bare key: an ASCII letter or digit, a hyphen or an underscore. -/
def isBareKeyChar (c : Char) : Bool := c.isAlphanum || c == '-' || c == '_'

/-- One part of a key: bare, or a basic or literal string on one line. -/
def simpleKey : List Char → Option (String × List Char)
  | '"' :: rest => basicFrom [] rest
  | '\'' :: rest => literalFrom [] rest
  | cs =>
    let k := cs.takeWhile isBareKeyChar
    if k.isEmpty then none else some (String.ofList k, cs.dropWhile isBareKeyChar)

/-- A key of one to `parts` parts joined by dots, as the path of tables before its last part
and that last part. -/
def dottedKey : (parts : Nat) → List Char → Option ((List String × String) × List Char)
  | 0, _ => none
  | parts + 1, cs => do
    let (k, rest) ← simpleKey cs
    match skipSpace rest with
    | '.' :: more => do
      let ((path, last), after) ← dottedKey parts (skipSpace more)
      pure ((k :: path, last), after)
    | _ => pure (([], k), rest)

mutual

/-- A value at the front, and what follows it. Within it, arrays and tables in braces may
nest `room` deep. -/
def readValue : Nat → (room : Nat) → List Char → Option (Node × List Char)
  | 0, _, _ => none
  | fuel + 1, room, cs =>
    match cs, room with
    | '[' :: _, 0 | '{' :: _, 0 => none
    | '[' :: rest, room + 1 => readArray fuel room [] rest
    | '{' :: rest, room + 1 => readInline fuel room [] rest
    | '"' :: _, _ | '\'' :: _, _ => (readString cs).map fun (s, r) => (.scalar (.str s), r)
    | _, _ => (readBare cs).map fun (s, r) => (.scalar s, r)

/-- The rest of an array after its opening bracket or a comma, with the items read so far
kept reversed; its items may nest `room` deep. -/
def readArray : Nat → (room : Nat) → List Node → List Char → Option (Node × List Char)
  | 0, _, _, _ => none
  | fuel + 1, room, items, cs => do
    match ← skipFiller false cs with
    | ']' :: rest => pure (.array items.reverse, rest)
    | cs => do
      let (v, rest) ← readValue fuel room cs
      match ← skipFiller false rest with
      | ',' :: more => readArray fuel room (v :: items) more
      | ']' :: more => pure (.array (v :: items).reverse, more)
      | _ => none

/-- The rest of a table in braces after its opening brace or a comma, with the entries
read so far; its values may nest `room` deep. Blanks, comments and line breaks may stand
before and after each key's equals sign as between the entries. -/
def readInline : Nat → (room : Nat) → Entries → List Char → Option (Node × List Char)
  | 0, _, _, _ => none
  | fuel + 1, room, es, cs => do
    match ← skipFiller false cs with
    | '}' :: rest => pure (.table .inline es, rest)
    | cs => do
      let ((path, k), rest) ← dottedKey nestingLimit cs
      match ← skipFiller false rest with
      | '=' :: more => do
        let (v, rest) ← readValue fuel room (← skipFiller false more)
        let es ← es.assign .inline path k v
        match ← skipFiller false rest with
        | ',' :: more => readInline fuel room es more
        | '}' :: more => pure (.table .inline es, more)
        | _ => none
      | _ => none

end

/-- A document as far as it has been read: its root table, and the path of the table that
keys now go into. -/
structure Progress where
  root : Entries
  current : List String

namespace Progress

/-- Sets a key, reached by a dotted path, in the table that keys now go into. -/
def assign (p : Progress) (path : List String) (k : String) (v : Node) : Option Progress := do
  let root ← p.root.within .header .header (fun _ es => es.assign .dotted path k v) p.current
  pure { p with root }

/-- Follows a header: keys now go into the table it names, or into a new element of the
array of tables it names. -/
def enter (p : Progress) (array : Bool) (path : List String) (k : String) : Option Progress := do
  let root ← if array then p.root.appendTable path k else p.root.defineTable path k
  pure ⟨root, path ++ [k]⟩

end Progress

/-- A header's key and closing brackets, after its opening brackets. -/
def readHeader (array : Bool) (cs : List Char) :
    Option ((List String × String) × List Char) := do
  let (key, rest) ← dottedKey nestingLimit (skipSpace cs)
  match array, skipSpace rest with
  | true, ']' :: ']' :: after => pure (key, after)
  | false, ']' :: after => pure (key, after)
  | _, _ => none

/-- One line's content after its leading blanks, up to its end. -/
def readExpression (fuel : Nat) (p : Progress) : List Char → Option (Progress × List Char)
  | '[' :: '[' :: rest => do
    let ((path, k), after) ← readHeader true rest
    pure (← p.enter true path k, after)
  | '[' :: rest => do
    let ((path, k), after) ← readHeader false rest
    pure (← p.enter false path k, after)
  | [] => some (p, [])
  | cs@('#' :: _) | cs@('\n' :: _) | cs@('\r' :: _) => some (p, cs)
  | cs => do
    let ((path, k), rest) ← dottedKey nestingLimit cs
    match skipSpace rest with
    | '=' :: more => do
      let (v, after) ← readValue fuel nestingLimit (skipSpace more)
      pure (← p.assign path k v, after)
    | _ => none

/-- Reads the lines of a document, one per step of `lines`. -/
def readLines (fuel : Nat) : Nat → Progress → List Char → Option Progress
  | 0, _, _ => none
  | lines + 1, p, cs => do
    let (p, rest) ← readExpression fuel p (skipSpace cs)
    let rest ← endLine rest
    if rest.isEmpty then pure p else readLines fuel lines p rest

/-- The root table of a TOML document, or nothing when the text is not one. A byte order
mark at the start is skipped. -/
def read (text : String) : Option Entries :=
  let cs := match text.toList with
    | '\uFEFF' :: rest => rest
    | cs => cs
  let fuel := 4 * cs.length + 4
  (readLines fuel (cs.length + 1) ⟨[], []⟩ cs).map (·.root)

end Conformance.Toml
