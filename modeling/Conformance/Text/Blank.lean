/-!
# Blank and control characters

Which characters count as blank when a name is trimmed or a line is cut into words, and
which count as control characters. Blank is the Unicode `White_Space` property: the ASCII
tab, line feed, vertical tab, form feed, carriage return and space, the next-line control
and the wide spaces of the higher planes. Control characters are the general category `Cc`.
-/

namespace Conformance.Text

/-- Unicode `White_Space`: 25 code points in eleven runs. -/
def isBlank (c : Char) : Bool :=
  let n := c.toNat
  (0x09 ≤ n && n ≤ 0x0D) || n == 0x20 || n == 0x85 || n == 0xA0 || n == 0x1680 ||
  (0x2000 ≤ n && n ≤ 0x200A) || n == 0x2028 || n == 0x2029 || n == 0x202F ||
  n == 0x205F || n == 0x3000

/-- Unicode general category `Cc`: the C0 controls, delete and the C1 controls. -/
def isControl (c : Char) : Bool :=
  let n := c.toNat
  n ≤ 0x1F || (0x7F ≤ n && n ≤ 0x9F)

theorem isBlank_of_isWhitespace (c : Char) (h : c.isWhitespace = true) : isBlank c = true := by
  simp only [Char.isWhitespace, Bool.or_eq_true, decide_eq_true_eq] at h
  rcases h with ((h | h) | h) | h <;> subst h <;> decide

/-! ## Trimming -/

/-- Drops the blank characters at the front. -/
def trimStartChars (cs : List Char) : List Char :=
  cs.dropWhile isBlank

/-- Drops the blank characters at the back. -/
def trimEndChars (cs : List Char) : List Char :=
  ((cs.reverse).dropWhile isBlank).reverse

/-- Drops the blank characters at both ends. -/
def trimChars (cs : List Char) : List Char :=
  trimEndChars (trimStartChars cs)

/-- A text without its blank characters at both ends. -/
def trim (s : String) : String :=
  String.ofList (trimChars s.toList)

/-- A text without its blank characters at the front. -/
def trimStart (s : String) : String :=
  String.ofList (trimStartChars s.toList)

/-- A text is blank when trimming leaves nothing. -/
def IsBlankText (s : String) : Prop := trim s = ""

theorem trimStartChars_of_head {cs : List Char} (h : ∀ c ∈ cs.head?, isBlank c = false) :
    trimStartChars cs = cs := by
  cases cs with
  | nil => rfl
  | cons c rest => simp [trimStartChars, h c rfl]

theorem head_trimStartChars (cs : List Char) :
    ∀ c ∈ (trimStartChars cs).head?, isBlank c = false := by
  intro c hc
  have first := List.head?_dropWhile_not isBlank cs
  rw [show (cs.dropWhile isBlank).head? = some c from hc] at first
  exact first

theorem getLast_trimEndChars (cs : List Char) :
    ∀ c ∈ (trimEndChars cs).getLast?, isBlank c = false := by
  intro c hc
  rw [trimEndChars, List.getLast?_reverse] at hc
  exact head_trimStartChars cs.reverse c hc

theorem trimStartChars_trimStartChars (cs : List Char) :
    trimStartChars (trimStartChars cs) = trimStartChars cs :=
  trimStartChars_of_head (head_trimStartChars cs)

theorem trimEndChars_trimEndChars (cs : List Char) :
    trimEndChars (trimEndChars cs) = trimEndChars cs := by
  have twice := trimStartChars_trimStartChars cs.reverse
  unfold trimStartChars at twice
  simp only [trimEndChars, List.reverse_reverse, twice]

/-- Dropping the blanks at the back keeps the first character when anything is left, so the
front stays trimmed. -/
theorem trimStartChars_trimEndChars (cs : List Char) :
    trimStartChars (trimEndChars (trimStartChars cs)) = trimEndChars (trimStartChars cs) := by
  obtain ⟨u, hu⟩ : trimEndChars (trimStartChars cs) <+: trimStartChars cs := by
    unfold trimEndChars
    rw [← List.reverse_suffix, List.reverse_reverse]
    exact List.dropWhile_suffix isBlank
  refine trimStartChars_of_head fun c hc => head_trimStartChars cs c ?_
  rw [← hu]
  cases ht : trimEndChars (trimStartChars cs) with
  | nil => simp [ht] at hc
  | cons x t => simpa [ht] using hc

theorem trimChars_trimChars (cs : List Char) : trimChars (trimChars cs) = trimChars cs := by
  unfold trimChars
  rw [trimStartChars_trimEndChars, trimEndChars_trimEndChars]

theorem trim_trim (s : String) : trim (trim s) = trim s := by
  simp [trim, trimChars_trimChars]

/-! ## Words -/

/-- The longest run of non-blank characters at the front, and what follows it. -/
def splitWord (cs : List Char) : List Char × List Char :=
  (cs.takeWhile (fun c => !isBlank c), cs.dropWhile (fun c => !isBlank c))

/-- The first word: the first maximal run of non-blank characters, if there is one. -/
def firstWord (cs : List Char) : Option (List Char) :=
  match (splitWord (trimStartChars cs)).1 with
  | [] => none
  | w => some w

/-- The words of a text: its maximal runs of non-blank characters, in order. -/
def words (cs : List Char) : List (List Char) :=
  go cs.length (trimStartChars cs)
where
  /-- Cuts words off the front; `fuel` bounds their number. -/
  go : Nat → List Char → List (List Char)
    | 0, _ => []
    | fuel + 1, cs =>
      match splitWord cs with
      | ([], _) => []
      | (w, rest) => w :: go fuel (trimStartChars rest)

end Conformance.Text
