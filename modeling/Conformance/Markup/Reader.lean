import Conformance.Markup.Attribute

/-!
# Reading markup

A payload is read one character at a time into a stream of markup events. Text between
tags is skipped. A tag `<name attrs>` opens an element and `<name attrs/>` is a whole empty
element; quotes inside a tag may hold `>`. A closing tag `</name>` must name the element it
closes, less spaces at its end; one that closes nothing, or the wrong element, is an error.
Comments (`<!-- -->`), character data (`<![CDATA[ ]]>`), a document type (`<!DOCTYPE >`,
whose inner `<` and `>` must balance) and instructions (`<? ?>`) are read and passed over;
any other `<!` is an error. A tag, comment or similar left open at the end is an error, with
three exceptions: a lone `<` at the end is ignored, and an unclosed closing tag or
instruction at the end is read as if closed.
-/

namespace Conformance.Markup

/-- What the reader reports, in order. -/
inductive Event where
  /-- An element opens. -/
  | start (name attrs : List Char)
  /-- An empty element. -/
  | empty (name attrs : List Char)
  /-- An element closes. -/
  | close (name : List Char)
  /-- A comment. -/
  | comment
  /-- Character data. -/
  | cdata
  /-- A document type declaration. -/
  | doctype
  /-- A processing instruction or the XML declaration. -/
  | instruction
  deriving DecidableEq, Repr

/-- Why the reader stops early. -/
inductive ReadError where
  /-- A tag is not closed by `>`. -/
  | unclosedTag
  /-- A comment, character data or document type is not closed. -/
  | unclosedDeclaration
  /-- `<!` is followed by something that starts no declaration. -/
  | unknownDeclaration
  /-- A document type declaration names nothing. -/
  | emptyDoctype
  /-- An instruction does not end with `?>`. -/
  | unclosedInstruction
  /-- A closing tag closes no open element, or a different one. -/
  | mismatchedClose (expected found : List Char)
  deriving DecidableEq, Repr

/-- Where the reader stands. Collected characters are kept reversed. -/
inductive Mode where
  /-- Outside any tag. -/
  | text
  /-- Right after `<`. -/
  | angle
  /-- Inside a tag, with the quote it is in, if any. -/
  | tag (acc : List Char) (quote : Option Char)
  /-- Inside a closing tag, after `</`. -/
  | closing (acc : List Char)
  /-- Inside an instruction, after `<?`. -/
  | instruction (acc : List Char)
  /-- Right after `<!`. -/
  | bang
  /-- Inside a comment, after `<!`. -/
  | comment (acc : List Char)
  /-- Inside character data, after `<!`. -/
  | cdata (acc : List Char)
  /-- Inside a document type, after `<!`, with the count of `<` not yet balanced by `>`. -/
  | doctype (acc : List Char) (depth : Nat)
  deriving DecidableEq, Repr

/-- The reader's whole state: where it stands and the names of the open elements,
innermost first. -/
structure State where
  mode : Mode
  opened : List (List Char)
  deriving DecidableEq, Repr

/-- What one character does: the state after it and the event it completes, or an error. -/
abbrev Step := Except ReadError (State × Option Event)

/-- Whether two ASCII letters agree up to case. -/
def sameLetter (a b : Char) : Bool := a.toLower == b.toLower

/-- Whether `p` starts `cs`, with ASCII letters compared without case. -/
def startsWithNoCase (p cs : List Char) : Bool :=
  p.length ≤ cs.length && (List.zip p cs).all (fun (a, b) => sameLetter a b)

/-- The name a closing tag closes: its text less spaces at the end, unless nothing else is
left. -/
def closingName (body : List Char) : List Char :=
  match trimmed body with
  | [] => body
  | name => name
where
  /-- The text less spaces at the end. -/
  trimmed (cs : List Char) : List Char := ((cs.reverse).dropWhile isMarkupSpace).reverse

/-- A tag's content as an event and, for a start tag, the name it opens. -/
def tagEvent (content : List Char) : Event × Option (List Char) :=
  let name := content.takeWhile (fun c => !isMarkupSpace c)
  match content.reverse with
  | '/' :: inner =>
    let body := inner.reverse
    let name := body.takeWhile (fun c => !isMarkupSpace c)
    (.empty name (body.drop name.length), none)
  | _ => (.start name (content.drop name.length), some name)

/-- Closes the innermost open element with a closing tag's body. -/
def closeWith (st : State) (body : List Char) : Step :=
  let name := closingName body
  match st.opened with
  | expected :: outer =>
    if name == expected then .ok (⟨.text, outer⟩, some (.close name))
    else .error (.mismatchedClose expected name)
  | [] => .error (.mismatchedClose [] name)

/-- An instruction's body is well formed when it has at least two characters and ends
with `?`. -/
def instructionEnds (body : List Char) : Bool :=
  body.length ≥ 2 && body.getLast? == some '?'

/-- A document type's body names something after the keyword. -/
def doctypeNamed (body : List Char) : Bool :=
  (body.drop 7).any (fun c => !isMarkupSpace c)

/-- Reads one character. -/
def step (st : State) (c : Char) : Step :=
  match st.mode with
  | .text => .ok (if c == '<' then { st with mode := .angle } else st, none)
  | .angle =>
    if c == '!' then .ok ({ st with mode := .bang }, none)
    else if c == '/' then .ok ({ st with mode := .closing [] }, none)
    else if c == '?' then .ok ({ st with mode := .instruction [] }, none)
    else if c == '>' then
      let (ev, opened) := tagEvent []
      .ok (⟨.text, (opened.map (· :: st.opened)).getD st.opened⟩, some ev)
    else if c == '"' || c == '\'' then .ok ({ st with mode := .tag [c] (some c) }, none)
    else .ok ({ st with mode := .tag [c] none }, none)
  | .tag acc none =>
    if c == '>' then
      let (ev, opened) := tagEvent acc.reverse
      .ok (⟨.text, (opened.map (· :: st.opened)).getD st.opened⟩, some ev)
    else if c == '"' || c == '\'' then .ok ({ st with mode := .tag (c :: acc) (some c) }, none)
    else .ok ({ st with mode := .tag (c :: acc) none }, none)
  | .tag acc (some q) =>
    .ok ({ st with mode := .tag (c :: acc) (if c == q then none else some q) }, none)
  | .closing acc =>
    if c == '>' then closeWith st acc.reverse
    else .ok ({ st with mode := .closing (c :: acc) }, none)
  | .instruction acc =>
    if c == '>' then
      if instructionEnds acc.reverse then .ok ({ st with mode := .text }, some .instruction)
      else .error .unclosedInstruction
    else .ok ({ st with mode := .instruction (c :: acc) }, none)
  | .bang =>
    if c == '[' then .ok ({ st with mode := .cdata [c] }, none)
    else if c == '-' then .ok ({ st with mode := .comment [c] }, none)
    else if c == 'D' || c == 'd' then .ok ({ st with mode := .doctype [c] 0 }, none)
    else .error .unknownDeclaration
  | .comment acc =>
    match c, acc with
    | '>', '-' :: '-' :: rest =>
      -- closed once at least four characters follow `<!`
      if rest.length ≥ 2 then
        if (acc.reverse.take 2) == ['-', '-'] then .ok ({ st with mode := .text }, some .comment)
        else .error .unknownDeclaration
      else .ok ({ st with mode := .comment (c :: acc) }, none)
    | _, _ => .ok ({ st with mode := .comment (c :: acc) }, none)
  | .cdata acc =>
    match c, acc with
    | '>', ']' :: ']' :: _ =>
      if startsWithNoCase "[CDATA[".toList acc.reverse then
        .ok ({ st with mode := .text }, some .cdata)
      else .error .unknownDeclaration
    | _, _ => .ok ({ st with mode := .cdata (c :: acc) }, none)
  | .doctype acc depth =>
    if c == '>' then
      match depth with
      | 0 =>
        if startsWithNoCase "DOCTYPE".toList acc.reverse then
          if doctypeNamed acc.reverse then .ok ({ st with mode := .text }, some .doctype)
          else .error .emptyDoctype
        else .error .unknownDeclaration
      | d + 1 => .ok ({ st with mode := .doctype (c :: acc) d }, none)
    else if c == '<' then .ok ({ st with mode := .doctype (c :: acc) (depth + 1) }, none)
    else .ok ({ st with mode := .doctype (c :: acc) depth }, none)

/-- What the end of the text does in each state: the last event, if any, or an error. -/
def finish (st : State) : Except ReadError (Option Event) :=
  match st.mode with
  | .text | .angle => .ok none
  | .tag _ _ => .error .unclosedTag
  | .closing acc => (closeWith st acc.reverse).map (·.2)
  | .instruction acc =>
    if instructionEnds acc.reverse then .ok (some .instruction) else .error .unclosedInstruction
  | .bang | .comment _ | .cdata _ | .doctype _ _ => .error .unclosedDeclaration

/-- What reading a text gives: the events read, in order, and the error that stopped the
reader, if one did. -/
structure Reading where
  events : List Event
  error : Option ReadError
  deriving DecidableEq, Repr

/-- Reads the rest of a text from a state, after the events `done` (kept reversed). -/
def readFrom (st : State) (done : List Event) : List Char → Reading
  | [] =>
    match finish st with
    | .ok ev => ⟨done.reverse ++ ev.toList, none⟩
    | .error e => ⟨done.reverse, some e⟩
  | c :: rest =>
    match step st c with
    | .ok (st', ev) => readFrom st' (ev.toList ++ done) rest
    | .error e => ⟨done.reverse, some e⟩

/-- Reads a text from the start, outside any tag. -/
def read (cs : List Char) : Reading := readFrom ⟨.text, []⟩ [] cs

example : (read "<a x=\"1\"><b/></a>".toList).events =
    [.start ['a'] " x=\"1\"".toList, .empty ['b'] [], .close ['a']] := by decide
example : (read "<a></b>".toList).error = some (.mismatchedClose ['a'] ['b']) := by decide
example : (read "<!-- c --><a/><".toList) = ⟨[.comment, .empty ['a'] []], none⟩ := by decide

end Conformance.Markup
