import Conformance.Text.Utf8

/-!
# Reading back what was written

The octets of a text decode to the text again. Each character's octets form one piece: the
lead octet announces how many continuation octets follow and the range the first of them
lies in, and the code point gathered from them is the character's. The ranges are where the
surrogates, which are no characters, are left out, and where overlong forms are refused.
-/

namespace Conformance.Text.Utf8

theorem toNat_valid (c : Char) : c.toNat < 0xD800 ∨ (0xDFFF < c.toNat ∧ c.toNat < 0x110000) := by
  have h := c.valid
  rw [Char.toNat]
  unfold UInt32.isValidChar Nat.isValidChar at h
  exact h

theorem continueWith_last {p : Partial} {b : UInt8} (rest : List UInt8) (owed : p.owed ≤ 1)
    (low : p.low ≤ b.toNat) (high : b.toNat ≤ p.high) :
    continueWith p (b :: rest) = (.char (Char.ofNat (p.code * 0x40 + (b.toNat - 0x80))), rest) := by
  obtain ⟨o, l, h, code⟩ := p
  simp only at owed low high
  have : o = 0 ∨ o = 1 := by omega
  rcases this with rfl | rfl <;> simp [continueWith, low, high]

theorem continueWith_more {p : Partial} {b : UInt8} (rest : List UInt8) {o : Nat}
    (owed : p.owed = o + 2) (low : p.low ≤ b.toNat) (high : b.toNat ≤ p.high) :
    continueWith p (b :: rest) =
      continueWith ⟨o + 1, 0x80, 0xBF, p.code * 0x40 + (b.toNat - 0x80)⟩ rest := by
  obtain ⟨o', l, h, code⟩ := p
  simp only at owed low high
  subst owed
  simp [continueWith, low, high]

theorem toNat_toUInt8 {n : Nat} (h : n < 0x100) : n.toUInt8.toNat = n := by
  simp
  omega

theorem firstPiece_encodeChar (c : Char) (rest : List UInt8) :
    ∃ b bs, encodeChar c = b :: bs ∧ firstPiece b (bs ++ rest) = (.char c, rest) := by
  have valid := toNat_valid c
  generalize n_def : c.toNat = n at valid
  have back : Char.ofNat n = c := by rw [← n_def]; simp
  unfold encodeChar
  rw [n_def]
  by_cases one : n < 0x80
  · refine ⟨_, [], if_pos one, ?_⟩
    simp only [firstPiece, start, toNat_toUInt8 (show n < 0x100 by omega),
      if_pos (show n ≤ 0x7F by omega), back, List.nil_append]
  by_cases two : n < 0x800
  · refine ⟨_, _, by rw [if_neg one, if_pos two], ?_⟩
    simp only [firstPiece, toNat_toUInt8 (show 0xC0 + n / 0x40 < 0x100 by omega),
      List.cons_append, List.nil_append, start]
    rw [if_neg (by omega), if_pos (by omega)]
    simp only
    have b2 := toNat_toUInt8 (show 0x80 + n % 0x40 < 0x100 by omega)
    rw [continueWith_last rest (Nat.le_refl _) (by simp only [b2]; omega) (by simp only [b2]; omega)]
    simp only [b2]
    rw [show (0xC0 + n / 0x40 - 0xC0) * 0x40 + (0x80 + n % 0x40 - 0x80) = n by omega, back]
  by_cases three : n < 0x10000
  · refine ⟨_, _, by rw [if_neg one, if_neg two, if_pos three], ?_⟩
    have b1 := toNat_toUInt8 (show 0xE0 + n / 0x1000 < 0x100 by omega)
    have b2 := toNat_toUInt8 (show 0x80 + n / 0x40 % 0x40 < 0x100 by omega)
    have b3 := toNat_toUInt8 (show 0x80 + n % 0x40 < 0x100 by omega)
    -- the lead octet fixes the range of the next one; the surrogates are no characters
    obtain ⟨low, high, lead, lowOk, highOk⟩ : ∃ low high,
        start (0xE0 + n / 0x1000) = some (.inr ⟨2, low, high, n / 0x1000⟩) ∧
          low ≤ 0x80 + n / 0x40 % 0x40 ∧ 0x80 + n / 0x40 % 0x40 ≤ high := by
      unfold start
      rcases (show n < 0x1000 ∨ (0x1000 ≤ n ∧ n < 0xD000) ∨ (0xD000 ≤ n ∧ n < 0xE000) ∨
          0xE000 ≤ n by omega) with e0 | e1 | ed | ee
      · refine ⟨0xA0, 0xBF, ?_, by omega, by omega⟩
        rw [if_neg (by omega), if_neg (by omega), if_pos (by omega), show n / 0x1000 = 0 by omega]
      · refine ⟨0x80, 0xBF, ?_, by omega, by omega⟩
        rw [if_neg (by omega), if_neg (by omega), if_neg (by omega), if_pos (by omega),
          Nat.add_sub_cancel_left]
      · refine ⟨0x80, 0x9F, ?_, by omega, by omega⟩
        rw [if_neg (by omega), if_neg (by omega), if_neg (by omega), if_neg (by omega),
          if_pos (by omega), show n / 0x1000 = 0xD by omega]
      · refine ⟨0x80, 0xBF, ?_, by omega, by omega⟩
        rw [if_neg (by omega), if_neg (by omega), if_neg (by omega), if_neg (by omega),
          if_neg (by omega), if_pos (by omega), Nat.add_sub_cancel_left]
    simp only [firstPiece, b1, lead, List.cons_append, List.nil_append]
    rw [continueWith_more _ rfl (by simp only [b2]; omega) (by simp only [b2]; omega),
      continueWith_last rest (Nat.le_refl _) (by simp only [b3]; omega) (by simp only [b3]; omega)]
    simp only [b2, b3]
    rw [show (n / 0x1000 * 0x40 + (0x80 + n / 0x40 % 0x40 - 0x80)) * 0x40 + (0x80 + n % 0x40 - 0x80) = n
      by omega, back]
  · refine ⟨_, _, by rw [if_neg one, if_neg two, if_neg three], ?_⟩
    have b1 := toNat_toUInt8 (show 0xF0 + n / 0x40000 < 0x100 by omega)
    have b2 := toNat_toUInt8 (show 0x80 + n / 0x1000 % 0x40 < 0x100 by omega)
    have b3 := toNat_toUInt8 (show 0x80 + n / 0x40 % 0x40 < 0x100 by omega)
    have b4 := toNat_toUInt8 (show 0x80 + n % 0x40 < 0x100 by omega)
    obtain ⟨low, high, lead, lowOk, highOk⟩ : ∃ low high,
        start (0xF0 + n / 0x40000) = some (.inr ⟨3, low, high, n / 0x40000⟩) ∧
          low ≤ 0x80 + n / 0x1000 % 0x40 ∧ 0x80 + n / 0x1000 % 0x40 ≤ high := by
      unfold start
      rcases (show n < 0x40000 ∨ (0x40000 ≤ n ∧ n < 0x100000) ∨ 0x100000 ≤ n by omega)
        with f0 | f1 | f4
      · refine ⟨0x90, 0xBF, ?_, by omega, by omega⟩
        rw [if_neg (by omega), if_neg (by omega), if_neg (by omega), if_neg (by omega),
          if_neg (by omega), if_neg (by omega), if_pos (by omega), show n / 0x40000 = 0 by omega]
      · refine ⟨0x80, 0xBF, ?_, by omega, by omega⟩
        rw [if_neg (by omega), if_neg (by omega), if_neg (by omega), if_neg (by omega),
          if_neg (by omega), if_neg (by omega), if_neg (by omega), if_pos (by omega),
          Nat.add_sub_cancel_left]
      · refine ⟨0x80, 0x8F, ?_, by omega, by omega⟩
        rw [if_neg (by omega), if_neg (by omega), if_neg (by omega), if_neg (by omega),
          if_neg (by omega), if_neg (by omega), if_neg (by omega), if_neg (by omega),
          if_pos (by omega), show n / 0x40000 = 4 by omega]
    simp only [firstPiece, b1, lead, List.cons_append, List.nil_append]
    rw [continueWith_more _ rfl (by simp only [b2]; omega) (by simp only [b2]; omega),
      continueWith_more _ rfl (by simp only [b3]; omega) (by simp only [b3]; omega),
      continueWith_last rest (Nat.le_refl _) (by simp only [b4]; omega) (by simp only [b4]; omega)]
    simp only [b2, b3, b4]
    rw [show ((n / 0x40000 * 0x40 + (0x80 + n / 0x1000 % 0x40 - 0x80)) * 0x40 +
      (0x80 + n / 0x40 % 0x40 - 0x80)) * 0x40 + (0x80 + n % 0x40 - 0x80) = n by omega, back]

theorem piecesFrom_encode (done : List Piece) (cs : List Char) :
    piecesFrom done (cs.flatMap encodeChar) = done.reverse ++ cs.map .char := by
  induction cs generalizing done with
  | nil => simp [piecesFrom]
  | cons c cs ih =>
    obtain ⟨b, bs, enc, first⟩ := firstPiece_encodeChar c (cs.flatMap encodeChar)
    rw [List.flatMap_cons, enc, List.cons_append, piecesFrom, first, ih]
    simp

theorem decode?_encode (s : String) : decode? (encode s) = some s := by
  simp only [decode?, encode, pieces, piecesFrom_encode, List.reverse_nil, List.nil_append]
  -- a read that keeps each character keeps a text made of characters only
  have chars : ∀ (keep : Piece → Option Char), (∀ c, keep (.char c) = some c) →
      ∀ cs : List Char, List.mapM (keep ∘ Piece.char) cs = some cs := by
    intro keep kept cs
    induction cs with
    | nil => rfl
    | cons c cs ih => simp [List.mapM_cons, ih, kept]
  simp only [Option.map_eq_some_iff, List.mapM_map]
  exact ⟨s.toList, chars _ (fun _ => rfl) s.toList, String.ofList_toList⟩

end Conformance.Text.Utf8
