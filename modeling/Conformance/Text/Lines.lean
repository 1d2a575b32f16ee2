/-!
# Lines and columns

A text is cut into lines at each line feed. A carriage return right before a line feed
belongs to the line break; one at the very end of a text without a final line feed stays in
the last line. A final line feed does not start an empty last line. Columns pad a text with
spaces to a width counted in characters, and never cut it.
-/

namespace Conformance.Text

/-- The lines of a text after the lines `done` (kept reversed), with the characters of the
current line kept reversed in `acc`. -/
def linesFrom (done : List (List Char)) : List Char → List Char → List (List Char)
  | [], [] => done.reverse
  | [], acc => (acc.reverse :: done).reverse
  | '\n' :: rest, '\r' :: acc => linesFrom (acc.reverse :: done) rest []
  | '\n' :: rest, acc => linesFrom (acc.reverse :: done) rest []
  | c :: rest, acc => linesFrom done rest (c :: acc)

/-- The lines of a text. -/
def lines (cs : List Char) : List (List Char) := linesFrom [] cs []

/-- The lines of a text, as texts. -/
def linesOf (s : String) : List String := (lines s.toList).map String.ofList

/-- Joins texts with a separator between each two. -/
def joinWith (sep : String) : List String → String
  | [] => ""
  | [s] => s
  | s :: rest => s ++ sep ++ joinWith sep rest

/-- Spaces before a text, up to `width` characters. -/
def padStart (width : Nat) (s : String) : String :=
  String.ofList (List.replicate (width - s.length) ' ') ++ s

/-- Spaces after a text, up to `width` characters. -/
def padEnd (width : Nat) (s : String) : String :=
  s ++ String.ofList (List.replicate (width - s.length) ' ')

example : lines "a\r\nb\n".toList = ["a".toList, "b".toList] := by decide
example : lines "a\nb\r".toList = ["a".toList, "b\r".toList] := by decide
example : lines "\n\n".toList = [[], []] := by decide

end Conformance.Text
