import Conformance.CaseId

/-!
# Filters select whole components

A filter selects a case id when it names the id or one of its dotted ancestors. Split at every
dot, with the empty pieces kept, both are lists of components, and the test is one on those
lists: the filter's components begin the id's (`matchesPrefix_iff_components_prefix`), so a
filter never selects an id only because one of its components starts with the filter's last
one. Two facts of splitting carry the proof: the components joined by dots give the text back
(`List.intercalate_splitOn`), and a dot splits the components where it stands
(`List.splitOn_append_cons_self`).
-/

namespace Conformance

theorem intercalate_append_cons {α : Type} (sep : List α) {L : List (List α)} (hL : L ≠ [])
    (m : List α) (M : List (List α)) :
    sep.intercalate (L ++ m :: M) = sep.intercalate L ++ sep ++ sep.intercalate (m :: M) := by
  induction L with
  | nil => contradiction
  | cons a L ih =>
    cases L with
    | nil => rw [List.singleton_append, List.intercalate_cons_cons, List.intercalate_singleton]
    | cons b L =>
      have later := ih (List.cons_ne_nil b L)
      rw [List.cons_append] at later
      rw [List.cons_append, List.cons_append, List.intercalate_cons_cons, later,
        List.intercalate_cons_cons]
      simp only [List.append_assoc]

theorem eq_or_dot_of_splitOn_prefix {xs ys : List Char} (h : xs.splitOn '.' <+: ys.splitOn '.') :
    ys = xs ∨ ∃ t, ys = xs ++ '.' :: t := by
  obtain ⟨more, parts⟩ := h
  have joined := congrArg (List.intercalate ['.']) parts
  rw [List.intercalate_splitOn] at joined
  cases more with
  | nil =>
    left
    rw [List.append_nil, List.intercalate_splitOn] at joined
    exact joined.symm
  | cons m M =>
    right
    refine ⟨['.'].intercalate (m :: M), ?_⟩
    rw [← joined, intercalate_append_cons _ (List.splitOn_ne_nil _ _), List.intercalate_splitOn,
      List.append_assoc, List.singleton_append]

theorem splitOn_prefix_iff (xs ys : List Char) :
    xs.splitOn '.' <+: ys.splitOn '.' ↔ ys = xs ∨ ∃ t, ys = xs ++ '.' :: t := by
  constructor
  · exact eq_or_dot_of_splitOn_prefix
  · rintro (rfl | ⟨t, rfl⟩)
    · exact List.prefix_refl _
    · rw [List.splitOn_append_cons_self]
      exact List.prefix_append _ _

theorem CaseId.matchesPrefix_iff (id : CaseId) (p : String) :
    id.matchesPrefix p = true ↔
      id.text.toList = p.toList ∨ ∃ t, id.text.toList = p.toList ++ '.' :: t := by
  constructor
  · intro h
    simp only [CaseId.matchesPrefix, Bool.and_eq_true, List.isPrefixOf_iff_prefix] at h
    obtain ⟨⟨rest, whole⟩, next⟩ := h
    rw [← whole, List.drop_left' String.length_toList] at next
    -- what follows the filter is nothing, or a dot and more
    cases rest with
    | nil => exact .inl (by rw [← whole, List.append_nil])
    | cons c t =>
      have dot : c = '.' := by simpa using next
      exact .inr ⟨t, by rw [← whole, dot]⟩
  · rintro (whole | ⟨t, whole⟩) <;>
      simp [CaseId.matchesPrefix, whole, ← String.length_toList]

/-- A filter selects a case id exactly when its dotted components, empty ones included, begin
the id's. -/
theorem matchesPrefix_iff_components_prefix (id : CaseId) (p : String) :
    id.matchesPrefix p = true ↔ p.toList.splitOn '.' <+: id.text.toList.splitOn '.' := by
  rw [CaseId.matchesPrefix_iff, splitOn_prefix_iff]

example : (CaseId.mk "dEQP-GLES2.info.vendor").matchesPrefix "dEQP-GLES2.inf" = false ∧
    (CaseId.mk "dEQP-GLES2.info.vendor").matchesPrefix "dEQP-GLES2.info" = true := by
  decide

end Conformance
