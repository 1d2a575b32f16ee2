import Conformance.Text.Blank

/-!
# Breaking text into lines

Help text is broken greedily at spaces. A line is cut into words, each a run of other
characters with the spaces after it, and a word moves to the next line when the line's width,
trailing spaces of earlier words included, plus the word's width without its trailing spaces
would pass the limit; the word before the break loses its trailing spaces, and the first word
of a piece never moves. Text arrives in pieces, the runs between changes of emphasis: a piece
is broken at its own line feeds, and the width of the current line goes on from one piece to
the next. Widths count characters, right for the ASCII text help is written in, and cutting a
line into words or text into lines loses nothing (`flatten_spaceWords`,
`flatten_splitAfterBreaks`).
-/

namespace Conformance.Text

/-- Splits a line before every character other than a space that follows a space. -/
def spaceWords : List Char → List (List Char)
  | [] => []
  | c :: rest =>
    match spaceWords rest with
    | [] => [[c]]
    | w :: ws => if c = ' ' ∧ w.head? ≠ some ' ' then [c] :: w :: ws else (c :: w) :: ws

example : spaceWords "ab  cd e".toList = ["ab  ".toList, "cd ".toList, "e".toList] := by decide

/-- Splits text after every line feed; the last part keeps no line feed, and empty text
has no parts. -/
def splitAfterBreaks : List Char → List (List Char)
  | [] => []
  | c :: rest =>
    if c = '\n' then [c] :: splitAfterBreaks rest
    else
      match splitAfterBreaks rest with
      | [] => [[c]]
      | p :: ps => (c :: p) :: ps

example : splitAfterBreaks "a\n\nb".toList = ["a\n".toList, "\n".toList, "b".toList] := by decide

/-- Cutting a line into words loses nothing. -/
theorem flatten_spaceWords (cs : List Char) : (spaceWords cs).flatten = cs := by
  induction cs with
  | nil => rfl
  | cons c rest ih =>
    unfold spaceWords
    split
    · rename_i h
      rw [h] at ih
      simp only [List.flatten_nil] at ih
      subst ih
      rfl
    · rename_i w ws h
      rw [h] at ih
      split <;> simp_all

/-- Splitting text after its line feeds loses nothing. -/
theorem flatten_splitAfterBreaks (cs : List Char) : (splitAfterBreaks cs).flatten = cs := by
  induction cs with
  | nil => rfl
  | cons c rest ih =>
    unfold splitAfterBreaks
    split
    · simp [ih]
    · split
      · rename_i h
        rw [h] at ih
        simp only [List.flatten_nil] at ih
        subst ih
        rfl
      · rename_i p ps h
        rw [h] at ih
        simp_all

/-- The state of a line breaker between pieces: the width of the current line, and the
indentation that continued lines take, fixed by the first words of the line. -/
structure LineState where
  width : Nat := 0
  carry : Option (List Char) := none

/-- Breaks the words of a piece of a line. The first word is never moved; a moved word goes
after a line feed and the indentation `carry`. Gives the words with the breaks put in,
reversed, and the width of the last line. -/
def breakWords (limit : Nat) (carry : List Char) :
    Bool → Nat → List (List Char) → List (List Char) → List (List Char) × Nat
  | _, width, acc, [] => (acc, width)
  | first, width, acc, w :: ws =>
    let trimmed := trimEndChars w
    let grown := width + trimmed.length
    let trailing := w.length - trimmed.length
    if !first && limit < grown then
      let acc := match acc with
        | p :: rest => trimEndChars p :: rest
        | [] => []
      breakWords limit carry false (carry.length + trimmed.length + trailing)
        (w :: carry :: ['\n'] :: acc) ws
    else breakWords limit carry false (grown + trailing) (w :: acc) ws

/-- Breaks one line of a piece, going on from a state. -/
def breakLine (limit : Nat) (st : LineState) (line : List Char) : List Char × LineState :=
  let words := spaceWords line
  let carry := match st.carry with
    | some c => some c
    | none => words.head?.map fun w => if (trimEndChars w).isEmpty then w else []
  let (acc, width) := breakWords limit (carry.getD []) true st.width [] words
  (acc.reverse.flatten, { width, carry })

/-- Breaks a piece, going on from a state: its lines after the first start afresh. -/
def breakPiece (limit : Nat) (st : LineState) (piece : List Char) : List Char × LineState :=
  (splitAfterBreaks piece).zipIdx.foldl (fun (out, st) (line, i) =>
    let st := if i = 0 then st else {}
    let (text, st) := breakLine limit st line
    (out ++ text, st)) ([], st)

/-- Breaks text given in pieces at a width limit, and drops the blanks at its end. -/
def wrapPieces (limit : Nat) (pieces : List String) : String :=
  let (out, _) := pieces.foldl (fun (out, st) piece =>
    let (text, st) := breakPiece limit st piece.toList
    (out ++ text, st)) (([] : List Char), ({} : LineState))
  String.ofList (trimEndChars out)

/-- Indents every line after the first. -/
def indentRest (indent : String) (s : String) : String :=
  String.ofList (s.toList.flatMap fun c => if c = '\n' then '\n' :: indent.toList else [c])

example : wrapPieces 10 ["aaaa bbbb cccc"] = "aaaa bbbb\ncccc" := by decide +kernel
example : wrapPieces 10 ["one\n\ntwo three four"] = "one\n\ntwo three\nfour" := by decide +kernel

end Conformance.Text
