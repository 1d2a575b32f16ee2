/-!
# Reading string tables

Baseline files are JSON objects whose members are arrays of strings, read strictly: only
spaces, tabs, line feeds and carriage returns between tokens, no trailing commas, no other
kind of value, no raw control characters in strings, only the standard escapes, and a `\u`
escape of a surrogate half only as a proper pair. The members are given back in the order
written, repeated keys included. The reader is a machine over the characters that keeps where
it stands in the grammar and what it has gathered so far.
-/

namespace Conformance.Json

/-- Where the reader of a string literal stands; the characters so far are kept reversed. -/
inductive Lit where
  /-- Plain characters. -/
  | plain (acc : List Char)
  /-- Right after a backslash. -/
  | escape (acc : List Char)
  /-- Inside `\u`, with the value and the count of hex digits read. -/
  | hex (acc : List Char) (value digits : Nat)
  /-- After a high surrogate escape, a backslash must follow. -/
  | pairSlash (acc : List Char) (high : Nat)
  /-- After a high surrogate escape and a backslash, `u` must follow. -/
  | pairU (acc : List Char) (high : Nat)
  /-- Inside the `\u` of a low surrogate. -/
  | pairHex (acc : List Char) (high value digits : Nat)
  deriving DecidableEq, Repr

/-- The value of a hexadecimal digit, in either case. -/
def hexValue? (d : Char) : Option Nat :=
  if '0' ≤ d ∧ d ≤ '9' then some (d.toNat - 48)
  else if 'a' ≤ d ∧ d ≤ 'f' then some (d.toNat - 87)
  else if 'A' ≤ d ∧ d ≤ 'F' then some (d.toNat - 55)
  else none

/-- What one character does to a string literal: the literal read on, the finished text
when the closing quote comes, or none when the character is not allowed. -/
def Lit.step (l : Lit) (c : Char) : Option (Lit ⊕ String) :=
  match l with
  | .plain acc =>
    if c = '"' then some (.inr (String.ofList acc.reverse))
    else if c = '\\' then some (.inl (.escape acc))
    else if c.toNat < 0x20 then none
    else some (.inl (.plain (c :: acc)))
  | .escape acc =>
    match c with
    | '"' => some (.inl (.plain ('"' :: acc)))
    | '\\' => some (.inl (.plain ('\\' :: acc)))
    | '/' => some (.inl (.plain ('/' :: acc)))
    | 'b' => some (.inl (.plain (Char.ofNat 8 :: acc)))
    | 'f' => some (.inl (.plain (Char.ofNat 12 :: acc)))
    | 'n' => some (.inl (.plain ('\n' :: acc)))
    | 'r' => some (.inl (.plain ('\r' :: acc)))
    | 't' => some (.inl (.plain ('\t' :: acc)))
    | 'u' => some (.inl (.hex acc 0 0))
    | _ => none
  | .hex acc value digits => do
    let d ← hexValue? c
    let v := value * 16 + d
    if digits < 3 then some (.inl (.hex acc v (digits + 1)))
    else if 0xD800 ≤ v ∧ v ≤ 0xDBFF then some (.inl (.pairSlash acc v))
    else if 0xDC00 ≤ v ∧ v ≤ 0xDFFF then none
    else some (.inl (.plain (Char.ofNat v :: acc)))
  | .pairSlash acc high => if c = '\\' then some (.inl (.pairU acc high)) else none
  | .pairU acc high => if c = 'u' then some (.inl (.pairHex acc high 0 0)) else none
  | .pairHex acc high value digits => do
    let d ← hexValue? c
    let v := value * 16 + d
    if digits < 3 then some (.inl (.pairHex acc high v (digits + 1)))
    else if 0xDC00 ≤ v ∧ v ≤ 0xDFFF then
      some (.inl (.plain (Char.ofNat (0x10000 + (high - 0xD800) * 0x400 + (v - 0xDC00)) :: acc)))
    else none

/-- Where the table reader stands; members and items so far are kept reversed. -/
inductive Place where
  /-- Before the opening brace. -/
  | start
  /-- After the opening brace: a key or the closing brace. -/
  | firstKey
  /-- After a comma between members: a key. -/
  | nextKey
  /-- Inside a key. -/
  | key (lit : Lit)
  /-- After a key: the colon. -/
  | colon (key : String)
  /-- After the colon: the opening bracket. -/
  | array (key : String)
  /-- After the opening bracket: an item or the closing bracket. -/
  | firstItem (key : String) (items : List String)
  /-- After a comma between items: an item. -/
  | nextItem (key : String) (items : List String)
  /-- Inside an item. -/
  | item (key : String) (items : List String) (lit : Lit)
  /-- After an item: a comma or the closing bracket. -/
  | afterItem (key : String) (items : List String)
  /-- After a member: a comma or the closing brace. -/
  | afterMember
  /-- After the closing brace: nothing but spaces. -/
  | finished
  deriving DecidableEq, Repr

/-- The space characters allowed between tokens. -/
def isSpace (c : Char) : Bool := c == ' ' || c == '\t' || c == '\n' || c == '\r'

/-- Goes on inside a string literal that ends in `next`. -/
def continueLit (l : Lit) (c : Char) (inLit : Lit → Place) (next : String → Place) :
    Option Place :=
  (l.step c).map fun
    | .inl l' => inLit l'
    | .inr s => next s

/-- What one character does: the new place and members, or none when it is not allowed. -/
def step (p : Place) (members : List (String × List String)) (c : Char) :
    Option (Place × List (String × List String)) :=
  let same (q : Place) : Option (Place × List (String × List String)) := some (q, members)
  match p with
  | .start => if isSpace c then same .start else if c = '{' then same .firstKey else none
  | .firstKey =>
    if isSpace c then same .firstKey
    else if c = '"' then same (.key (.plain []))
    else if c = '}' then same .finished
    else none
  | .nextKey =>
    if isSpace c then same .nextKey else if c = '"' then same (.key (.plain [])) else none
  | .key l => (continueLit l c .key .colon).map (·, members)
  | .colon k => if isSpace c then same (.colon k) else if c = ':' then same (.array k) else none
  | .array k => if isSpace c then same (.array k) else if c = '[' then same (.firstItem k []) else none
  | .firstItem k items =>
    if isSpace c then same (.firstItem k items)
    else if c = '"' then same (.item k items (.plain []))
    else if c = ']' then some (.afterMember, (k, items.reverse) :: members)
    else none
  | .nextItem k items =>
    if isSpace c then same (.nextItem k items)
    else if c = '"' then same (.item k items (.plain []))
    else none
  | .item k items l =>
    (continueLit l c (.item k items) (fun s => .afterItem k (s :: items))).map (·, members)
  | .afterItem k items =>
    if isSpace c then same (.afterItem k items)
    else if c = ',' then same (.nextItem k items)
    else if c = ']' then some (.afterMember, (k, items.reverse) :: members)
    else none
  | .afterMember =>
    if isSpace c then same .afterMember
    else if c = ',' then same .nextKey
    else if c = '}' then same .finished
    else none
  | .finished => if isSpace c then same .finished else none

/-- Reads the rest of a text from a place. -/
def readFrom (p : Place) (members : List (String × List String)) :
    List Char → Option (List (String × List String))
  | [] => if p = .finished then some members.reverse else none
  | c :: rest =>
    match step p members c with
    | some (p', members') => readFrom p' members' rest
    | none => none

/-- The members of a JSON object of string arrays, in the order written, or none when the
text is not one. -/
def readStringTable (text : String) : Option (List (String × List String)) :=
  readFrom .start [] text.toList

example : readStringTable " \x7b\"a\": [\"x\", \"y\\u00e9\"], \"b\":[]\x7d\n" =
    some [("a", ["x", "yé"]), ("b", [])] := by decide +kernel
example : readStringTable "\x7b\"a\": [\"x\",]\x7d" = none := by decide +kernel
example : readStringTable "" = none := by decide +kernel

end Conformance.Json
