/-!
# UTF-8

Texts are stored on disk as UTF-8 octets. Writing a text gives its octets; reading octets
back is strict where a text must be valid and lossy where any octets are shown. Lossy
reading puts one replacement character for each maximal stretch that starts a character but
cannot finish it, and one for each octet that cannot start one.
-/

namespace Conformance.Text.Utf8

/-- The octets of one character. -/
def encodeChar (c : Char) : List UInt8 :=
  let n := c.toNat
  if n < 0x80 then [n.toUInt8]
  else if n < 0x800 then [(0xC0 + n / 0x40).toUInt8, (0x80 + n % 0x40).toUInt8]
  else if n < 0x10000 then
    [(0xE0 + n / 0x1000).toUInt8, (0x80 + n / 0x40 % 0x40).toUInt8, (0x80 + n % 0x40).toUInt8]
  else
    [(0xF0 + n / 0x40000).toUInt8, (0x80 + n / 0x1000 % 0x40).toUInt8,
      (0x80 + n / 0x40 % 0x40).toUInt8, (0x80 + n % 0x40).toUInt8]

/-- The octets of a text. -/
def encode (s : String) : List UInt8 :=
  s.toList.flatMap encodeChar

/-- Where a character's octets stand: how many continuation octets are owed, the range the
next one must lie in, and the code point gathered so far. -/
structure Partial where
  owed : Nat
  low : Nat
  high : Nat
  code : Nat

/-- What a first octet starts: a whole character, a partial one, or nothing. -/
def start (b : Nat) : Option (Char ⊕ Partial) :=
  if b ≤ 0x7F then some (.inl (Char.ofNat b))
  else if 0xC2 ≤ b ∧ b ≤ 0xDF then some (.inr ⟨1, 0x80, 0xBF, b - 0xC0⟩)
  else if b = 0xE0 then some (.inr ⟨2, 0xA0, 0xBF, 0⟩)
  else if 0xE1 ≤ b ∧ b ≤ 0xEC then some (.inr ⟨2, 0x80, 0xBF, b - 0xE0⟩)
  else if b = 0xED then some (.inr ⟨2, 0x80, 0x9F, 0xD⟩)
  else if 0xEE ≤ b ∧ b ≤ 0xEF then some (.inr ⟨2, 0x80, 0xBF, b - 0xE0⟩)
  else if b = 0xF0 then some (.inr ⟨3, 0x90, 0xBF, 0⟩)
  else if 0xF1 ≤ b ∧ b ≤ 0xF3 then some (.inr ⟨3, 0x80, 0xBF, b - 0xF0⟩)
  else if b = 0xF4 then some (.inr ⟨3, 0x80, 0x8F, 4⟩)
  else none

/-- One decoded piece: a character, or a stretch of octets that is not one. -/
inductive Piece where
  | char (c : Char)
  | invalid
  deriving DecidableEq, Repr

/-- Continues a partial character with the octets that follow. Returns the piece and the
octets after it; a refused octet is left for the next piece. -/
def continueWith (p : Partial) : List UInt8 → Piece × List UInt8
  | [] => (.invalid, [])
  | b :: rest =>
    let n := b.toNat
    if p.low ≤ n ∧ n ≤ p.high then
      let code := p.code * 0x40 + (n - 0x80)
      match p.owed with
      | 0 | 1 => (.char (Char.ofNat code), rest)
      | owed + 2 => continueWith ⟨owed + 1, 0x80, 0xBF, code⟩ rest
    else (.invalid, b :: rest)

/-- The first piece of a nonempty run of octets, and the octets after it. -/
def firstPiece (b : UInt8) (rest : List UInt8) : Piece × List UInt8 :=
  match start b.toNat with
  | some (.inl c) => (.char c, rest)
  | some (.inr p) => continueWith p rest
  | none => (.invalid, rest)

theorem continueWith_length (p : Partial) (bs : List UInt8) :
    (continueWith p bs).2.length ≤ bs.length := by
  fun_induction continueWith p bs
  all_goals simp_all
  all_goals omega

theorem firstPiece_length (b : UInt8) (rest : List UInt8) :
    (firstPiece b rest).2.length < (b :: rest).length := by
  unfold firstPiece
  split
  · simp
  · rename_i p _
    have := continueWith_length p rest
    simp only [List.length_cons]
    omega
  · simp

/-- The pieces of a run of octets, in order, after the pieces `done` (kept reversed). -/
def piecesFrom (done : List Piece) : List UInt8 → List Piece
  | [] => done.reverse
  | b :: rest => piecesFrom ((firstPiece b rest).1 :: done) (firstPiece b rest).2
termination_by bs => bs.length
decreasing_by
  have h := firstPiece_length b rest
  simp only [List.length_cons] at h ⊢
  omega

/-- The pieces of a run of octets, in order. -/
def pieces (bs : List UInt8) : List Piece := piecesFrom [] bs

/-- Octets read as a text when all of them form characters. -/
def decode? (bs : List UInt8) : Option String :=
  ((pieces bs).mapM fun (piece : Piece) =>
    match piece with
    | .char c => some c
    | .invalid => none).map String.ofList

/-- Octets read as a text, with a replacement character for each invalid stretch. -/
def decodeLossy (bs : List UInt8) : String :=
  String.ofList ((pieces bs).map fun (piece : Piece) =>
    match piece with
    | .char c => c
    | .invalid => '\uFFFD')

example : decodeLossy [0x61, 0xFF, 0x0A] = "a\uFFFD\n" := by cbv
example : decodeLossy [0xE2, 0x82] = "\uFFFD" := by cbv
example : decode? (encode "é😀") = some "é😀" := by cbv

end Conformance.Text.Utf8
