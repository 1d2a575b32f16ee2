import Conformance.Sorted

/-!
Ascending lists as sets and maps, under a lawful total comparison. Inserting, uniting,
intersecting and subtracting give the expected members and keep a list ascending; altering
a key changes the look-up of that key only. Two ascending lists with the same members are
the same list, so a set or a map is determined by what it holds.
-/
namespace Conformance.Sorted

variable {α β γ : Type} [Ord α] [Std.TransOrd α]

/-- A strictly ascending list: the form a set is kept in. -/
def Ascending (xs : List α) : Prop := xs.Pairwise (fun a b => compare a b = .lt)

/-- A map whose keys strictly ascend. -/
def KeysAscending (m : List (α × β)) : Prop := Ascending (m.map (·.1))

/-- A member of the set under a key; a key that is absent holds nothing. -/
def Under (m : List (α × List γ)) (k : α) (x : γ) : Prop := x ∈ (find? k m).getD []

/-! ## The order -/

theorem compare_ne_of_lt {a b : α} (h : compare a b = .lt) : a ≠ b := by
  rintro rfl
  simp at h

theorem compare_lt_of_gt {a b : α} (h : compare a b = .gt) : compare b a = .lt :=
  Std.OrientedCmp.lt_of_gt h

theorem compare_lt_trans {a b c : α} (hab : compare a b = .lt) (hbc : compare b c = .lt) :
    compare a c = .lt :=
  Std.TransCmp.lt_trans hab hbc

theorem compare_lt_asymm {a b : α} (hab : compare a b = .lt) : compare b a ≠ .lt := by
  intro hba
  exact compare_ne_of_lt (compare_lt_trans hab hba) rfl

omit [Std.TransOrd α] in
theorem ascending_cons {x : α} {xs : List α} :
    Ascending (x :: xs) ↔ (∀ y ∈ xs, compare x y = .lt) ∧ Ascending xs :=
  List.pairwise_cons

omit [Std.TransOrd α] in
theorem keysAscending_cons {k : α} {v : β} {rest : List (α × β)} :
    KeysAscending ((k, v) :: rest) ↔ (∀ e ∈ rest, compare k e.1 = .lt) ∧ KeysAscending rest := by
  simp [KeysAscending, Ascending]

theorem Ascending.nodup {xs : List α} (h : Ascending xs) : xs.Nodup :=
  h.imp compare_ne_of_lt

omit [Ord α] [Std.TransOrd α] in
/-- Two lists ordered by an irreflexive, asymmetric relation, with the same members, are
equal. -/
private theorem eq_of_pairwise_of_mem_iff {δ : Type} {R : δ → δ → Prop} (irrefl : ∀ a, ¬ R a a)
    (asymm : ∀ a b, R a b → ¬ R b a) {xs ys : List δ} (hx : xs.Pairwise R) (hy : ys.Pairwise R)
    (same : ∀ a, a ∈ xs ↔ a ∈ ys) : xs = ys := by
  have nodupX : xs.Nodup := hx.imp fun {a _} r => by rintro rfl; exact irrefl a r
  have nodupY : ys.Nodup := hy.imp fun {a _} r => by rintro rfl; exact irrefl a r
  have perm : xs.Perm ys := (List.perm_ext_iff_of_nodup nodupX nodupY).mpr same
  exact perm.eq_of_pairwise (fun a b _ _ hab hba => absurd hba (asymm a b hab)) hx hy

theorem Ascending.eq_of_mem_iff {xs ys : List α} (hx : Ascending xs) (hy : Ascending ys)
    (same : ∀ a, a ∈ xs ↔ a ∈ ys) : xs = ys :=
  eq_of_pairwise_of_mem_iff (fun _ h => compare_ne_of_lt h rfl)
    (fun _ _ hab hba => compare_lt_asymm hab hba) hx hy same

theorem KeysAscending.eq_of_mem_iff {m₁ m₂ : List (α × β)} (h₁ : KeysAscending m₁)
    (h₂ : KeysAscending m₂) (same : ∀ e, e ∈ m₁ ↔ e ∈ m₂) : m₁ = m₂ :=
  eq_of_pairwise_of_mem_iff (R := fun a b => compare a.1 b.1 = .lt)
    (fun _ h => compare_ne_of_lt h rfl) (fun _ _ hab hba => compare_lt_asymm hab hba)
    (List.pairwise_map.mp h₁) (List.pairwise_map.mp h₂) same

variable [Std.LawfulEqOrd α]

omit [Std.TransOrd α] in
theorem compare_eq_iff {a b : α} : compare a b = .eq ↔ a = b :=
  Std.LawfulEqOrd.compare_eq_iff_eq

theorem eq_of_compare_ne_lt {a b : α} (h₁ : compare a b ≠ .lt) (h₂ : compare b a ≠ .lt) : a = b := by
  cases h : compare a b with
  | lt => exact absurd h h₁
  | eq => exact compare_eq_iff.mp h
  | gt => exact absurd (compare_lt_of_gt h) h₂

/-! ## Sets -/

omit [Std.TransOrd α] in
@[simp] theorem mem_insert {x c : α} {xs : List α} : c ∈ insert x xs ↔ c = x ∨ c ∈ xs := by
  induction xs with
  | nil => simp [insert]
  | cons y ys ih =>
    cases hc : compare x y with
    | lt => simp [insert, hc]
    | eq =>
      obtain rfl := compare_eq_iff.mp hc
      simp [insert]
    | gt =>
      simp only [insert, hc, List.mem_cons, ih]
      exact or_left_comm

theorem ascending_insert {x : α} {xs : List α} (h : Ascending xs) : Ascending (insert x xs) := by
  induction xs with
  | nil => simp [insert, Ascending]
  | cons y ys ih =>
    obtain ⟨above, hys⟩ := ascending_cons.mp h
    cases hc : compare x y with
    | lt =>
      simp only [insert, hc]
      refine ascending_cons.mpr ⟨?_, h⟩
      intro z hz
      rcases List.mem_cons.mp hz with rfl | hz
      · exact hc
      · exact compare_lt_trans hc (above z hz)
    | eq => simpa [insert, hc] using h
    | gt =>
      simp only [insert, hc]
      refine ascending_cons.mpr ⟨?_, ih hys⟩
      intro z hz
      rcases mem_insert.mp hz with rfl | hz
      · exact compare_lt_of_gt hc
      · exact above z hz

omit [Std.TransOrd α] in
theorem mem_foldl_insert {c : α} {acc xs : List α} :
    c ∈ xs.foldl (fun acc x => insert x acc) acc ↔ c ∈ acc ∨ c ∈ xs := by
  induction xs generalizing acc with
  | nil => simp
  | cons x xs ih =>
    rw [List.foldl_cons, ih, mem_insert, List.mem_cons, or_assoc]
    exact or_left_comm

theorem ascending_foldl_insert {acc xs : List α} (h : Ascending acc) :
    Ascending (xs.foldl (fun acc x => insert x acc) acc) := by
  induction xs generalizing acc with
  | nil => exact h
  | cons x xs ih => exact ih (ascending_insert h)

omit [Std.TransOrd α] in
@[simp] theorem mem_ofList {c : α} {xs : List α} : c ∈ ofList xs ↔ c ∈ xs := by
  simp [ofList, mem_foldl_insert]

theorem ascending_ofList (xs : List α) : Ascending (ofList xs) :=
  ascending_foldl_insert List.Pairwise.nil

omit [Std.TransOrd α] in
@[simp] theorem mem_union {c : α} {xs ys : List α} : c ∈ union xs ys ↔ c ∈ xs ∨ c ∈ ys :=
  mem_foldl_insert

theorem ascending_union {xs : List α} (ys : List α) (h : Ascending xs) : Ascending (union xs ys) :=
  ascending_foldl_insert h

theorem ofList_of_ascending {xs : List α} (h : Ascending xs) : ofList xs = xs :=
  (ascending_ofList xs).eq_of_mem_iff h fun _ => mem_ofList

section Eq

variable [BEq α] [LawfulBEq α]

omit [Ord α] [Std.TransOrd α] [Std.LawfulEqOrd α] in
@[simp] theorem mem_diff {c : α} {xs ys : List α} : c ∈ diff xs ys ↔ c ∈ xs ∧ c ∉ ys := by
  simp [diff]

omit [Ord α] [Std.TransOrd α] [Std.LawfulEqOrd α] in
@[simp] theorem mem_inter {c : α} {xs ys : List α} : c ∈ inter xs ys ↔ c ∈ xs ∧ c ∈ ys := by
  simp [inter]

omit [Std.TransOrd α] [Std.LawfulEqOrd α] [LawfulBEq α] in
theorem ascending_diff {xs : List α} (ys : List α) (h : Ascending xs) : Ascending (diff xs ys) :=
  List.Pairwise.filter _ h

end Eq

/-! ## Maps -/

omit [Std.TransOrd α] [Std.LawfulEqOrd α] in
theorem find?_eq_none_of_below {k : α} {rest : List (α × β)}
    (below : ∀ e ∈ rest, compare k e.1 = .lt) : find? k rest = none := by
  cases rest with
  | nil => rfl
  | cons e rest => simp [find?, below e List.mem_cons_self]

theorem find?_eq_some_iff {k : α} {v : β} {m : List (α × β)} (h : KeysAscending m) :
    find? k m = some v ↔ (k, v) ∈ m := by
  induction m with
  | nil => simp [find?]
  | cons e rest ih =>
    obtain ⟨k₁, v₁⟩ := e
    obtain ⟨below, hrest⟩ := keysAscending_cons.mp h
    have absent : (k₁, v) ∉ rest := fun mem => compare_ne_of_lt (below _ mem) rfl
    cases hc : compare k k₁ with
    | lt =>
      simp only [find?, hc, reduceCtorEq, false_iff, List.mem_cons, Prod.mk.injEq, not_or]
      exact ⟨fun e => compare_ne_of_lt hc e.1, fun mem => compare_lt_asymm hc (below _ mem)⟩
    | eq =>
      obtain rfl := compare_eq_iff.mp hc
      simp [find?, absent, eq_comm]
    | gt =>
      have hne : k ≠ k₁ := fun e => compare_ne_of_lt (compare_lt_of_gt hc) e.symm
      simp [find?, hc, ih hrest, hne]

theorem find?_eq_none_iff {k : α} {m : List (α × β)} (h : KeysAscending m) :
    find? k m = none ↔ k ∉ m.map (·.1) := by
  constructor
  · intro absent mem
    obtain ⟨⟨k', v⟩, hmem, rfl⟩ := List.mem_map.mp mem
    simp [(find?_eq_some_iff h).mpr hmem] at absent
  · intro absent
    cases hv : find? k m with
    | none => rfl
    | some v => exact absurd (List.mem_map_of_mem ((find?_eq_some_iff h).mp hv)) absent

omit [Std.TransOrd α] in
theorem find?_alter_self {k : α} {f : Option β → Option β} {m : List (α × β)}
    (h : KeysAscending m) : find? k (alter k f m) = f (find? k m) := by
  induction m with
  | nil => cases hf : f none <;> simp [alter, find?, hf]
  | cons e rest ih =>
    obtain ⟨k₁, v₁⟩ := e
    obtain ⟨below, hrest⟩ := keysAscending_cons.mp h
    cases hc : compare k k₁ with
    | lt => cases hf : f none <;> simp [alter, find?, hc, hf]
    | eq =>
      obtain rfl := compare_eq_iff.mp hc
      cases hf : f (some v₁) <;> simp [alter, find?, hf, find?_eq_none_of_below below]
    | gt => simp [alter, find?, hc, ih hrest]

theorem find?_alter_of_ne {k k' : α} {f : Option β → Option β} {m : List (α × β)}
    (h : KeysAscending m) (hne : k' ≠ k) : find? k' (alter k f m) = find? k' m := by
  have distinct : compare k' k ≠ .eq := fun e => hne (compare_eq_iff.mp e)
  induction m with
  | nil => cases hf : f none <;> cases hk : compare k' k <;> simp_all [alter, find?]
  | cons e rest ih =>
    obtain ⟨k₁, v₁⟩ := e
    obtain ⟨below, hrest⟩ := keysAscending_cons.mp h
    cases hc : compare k k₁ with
    | lt =>
      cases hf : f none
      · simp [alter, hc, hf]
      · cases hk : compare k' k with
        | lt => simp [alter, find?, hc, hf, hk, compare_lt_trans hk hc]
        | eq => exact absurd hk distinct
        | gt => simp [alter, find?, hc, hf, hk]
    | eq =>
      obtain rfl := compare_eq_iff.mp hc
      cases hk : compare k' k with
      | lt =>
        -- a key removed from the front leaves only larger keys behind
        have absent : find? k' rest = none :=
          find?_eq_none_of_below (fun e he => compare_lt_trans hk (below e he))
        cases hf : f (some v₁) <;> simp [alter, find?, hf, hk, absent]
      | eq => exact absurd hk distinct
      | gt => cases hf : f (some v₁) <;> simp [alter, find?, hf, hk]
    | gt => cases hk : compare k' k₁ <;> simp [alter, find?, hc, hk, ih hrest]

omit [Std.TransOrd α] in
theorem keys_alter {k x : α} {f : Option β → Option β} {m : List (α × β)}
    (mem : x ∈ (alter k f m).map (·.1)) : x = k ∨ x ∈ m.map (·.1) := by
  induction m with
  | nil => cases hf : f none <;> simp_all [alter]
  | cons e rest ih =>
    obtain ⟨k₁, v₁⟩ := e
    cases hc : compare k k₁ with
    | lt => cases hf : f none <;> simp_all [alter]
    | eq =>
      obtain rfl := compare_eq_iff.mp hc
      cases hf : f (some v₁) <;> simp_all [alter]
    | gt =>
      simp only [alter, hc, List.map_cons, List.mem_cons] at mem ⊢
      rcases mem with rfl | mem
      · exact .inr (.inl rfl)
      · rcases ih mem with same | later
        · exact .inl same
        · exact .inr (.inr later)

theorem keysAscending_alter {k : α} {f : Option β → Option β} {m : List (α × β)}
    (h : KeysAscending m) : KeysAscending (alter k f m) := by
  induction m with
  | nil => cases hf : f none <;> simp [alter, hf, KeysAscending, Ascending]
  | cons e rest ih =>
    obtain ⟨k₁, v₁⟩ := e
    obtain ⟨below, hrest⟩ := keysAscending_cons.mp h
    cases hc : compare k k₁ with
    | lt =>
      cases hf : f none
      · simpa [alter, hc, hf] using h
      · simp only [alter, hc, hf]
        refine keysAscending_cons.mpr ⟨?_, h⟩
        intro e he
        rcases List.mem_cons.mp he with rfl | he
        · exact hc
        · exact compare_lt_trans hc (below e he)
    | eq =>
      obtain rfl := compare_eq_iff.mp hc
      cases hf : f (some v₁)
      · simpa [alter, hf] using hrest
      · simpa [alter, hf] using keysAscending_cons.mpr ⟨below, hrest⟩
    | gt =>
      simp only [alter, hc]
      refine keysAscending_cons.mpr ⟨?_, ih hrest⟩
      intro e he
      rcases keys_alter (List.mem_map_of_mem he) with hk | hk
      · rw [hk]
        exact compare_lt_of_gt hc
      · obtain ⟨e', he', same⟩ := List.mem_map.mp hk
        exact same ▸ below e' he'

theorem mem_alter {k k' : α} {v : β} {f : Option β → Option β} {m : List (α × β)}
    (h : KeysAscending m) :
    (k', v) ∈ alter k f m ↔ (k' = k ∧ f (find? k m) = some v) ∨ (k' ≠ k ∧ (k', v) ∈ m) := by
  rw [← find?_eq_some_iff (keysAscending_alter h)]
  by_cases same : k' = k
  · subst same
    simp [find?_alter_self h]
  · simp [find?_alter_of_ne h same, same, find?_eq_some_iff h]

omit [Std.TransOrd α] in
theorem find?_map {k : α} {m : List (α × β)} (f : α × β → α × γ) (keeps : ∀ e, (f e).1 = e.1) :
    find? k (m.map f) = (find? k m).map (fun v => (f (k, v)).2) := by
  induction m with
  | nil => rfl
  | cons e rest ih =>
    obtain ⟨k₁, v₁⟩ := e
    have head : f (k₁, v₁) = (k₁, (f (k₁, v₁)).2) := Prod.ext (keeps _) rfl
    rw [List.map_cons, head]
    cases hc : compare k k₁ with
    | lt => simp [find?, hc]
    | eq =>
      obtain rfl := compare_eq_iff.mp hc
      simp [find?]
    | gt => simp [find?, hc, ih]

omit [Std.TransOrd α] [Std.LawfulEqOrd α] in
theorem keysAscending_map {m : List (α × β)} (f : α × β → α × γ) (keeps : ∀ e, (f e).1 = e.1)
    (h : KeysAscending m) : KeysAscending (m.map f) := by
  have same : (m.map f).map (·.1) = m.map (·.1) := by
    rw [List.map_map]
    exact List.map_congr_left (fun e _ => keeps e)
  unfold KeysAscending
  rw [same]
  exact h

omit [Std.TransOrd α] [Std.LawfulEqOrd α] in
theorem keysAscending_filter {m : List (α × β)} (p : α × β → Bool) (h : KeysAscending m) :
    KeysAscending (m.filter p) :=
  List.Pairwise.sublist (List.Sublist.map _ List.filter_sublist) h

theorem find?_filter {k : α} {m : List (α × β)} (p : α × β → Bool) (h : KeysAscending m) :
    find? k (m.filter p) = (find? k m).filter (fun v => p (k, v)) := by
  have kept : KeysAscending (m.filter p) := keysAscending_filter p h
  cases hv : find? k m with
  | none =>
    rw [Option.filter_none, find?_eq_none_iff kept]
    intro mem
    exact (find?_eq_none_iff h).mp hv (List.Sublist.map _ List.filter_sublist |>.subset mem)
  | some v =>
    have mem := (find?_eq_some_iff h).mp hv
    cases hp : p (k, v)
    · rw [Option.filter_some, hp, if_neg Bool.false_ne_true, find?_eq_none_iff kept]
      intro mem'
      obtain ⟨⟨k', v'⟩, hmem', same⟩ := List.mem_map.mp mem'
      subst same
      have found := (find?_eq_some_iff h).mpr (List.mem_filter.mp hmem').1
      rw [hv, Option.some_inj] at found
      subst found
      simp [hp] at hmem'
    · rw [Option.filter_some, hp, if_pos rfl]
      exact (find?_eq_some_iff kept).mpr (List.mem_filter.mpr ⟨mem, hp⟩)

omit [Std.LawfulEqOrd α] in
theorem alter_of_above {k : α} {f : Option β → Option β} {m : List (α × β)}
    (above : ∀ e ∈ m, compare e.1 k = .lt) : alter k f m = m ++ ((f none).map (k, ·)).toList := by
  induction m with
  | nil => cases hf : f none <;> simp [alter, hf]
  | cons e rest ih =>
    obtain ⟨k₁, v₁⟩ := e
    have beyond : compare k k₁ = .gt := Std.OrientedCmp.gt_iff_lt.mpr (above _ List.mem_cons_self)
    rw [alter, beyond, ih fun e he => above e (List.mem_cons_of_mem _ he)]
    rfl

/-! ## Maps of sets -/

theorem under_iff {k : α} {x : γ} {m : List (α × List γ)} (h : KeysAscending m) :
    Under m k x ↔ ∃ xs, (k, xs) ∈ m ∧ x ∈ xs := by
  unfold Under
  cases hv : find? k m with
  | none =>
    simp only [Option.getD_none, List.not_mem_nil, false_iff, not_exists, not_and]
    intro xs mem
    simp [(find?_eq_some_iff h).mpr mem] at hv
  | some xs =>
    simp only [Option.getD_some]
    constructor
    · intro hx
      exact ⟨xs, (find?_eq_some_iff h).mp hv, hx⟩
    · rintro ⟨xs', mem, hx⟩
      rw [(find?_eq_some_iff h).mpr mem, Option.some_inj] at hv
      exact hv ▸ hx

section Filing

variable {δ : Type} [Ord γ] [Std.TransOrd γ] [Std.LawfulEqOrd γ]

omit [Std.TransOrd γ] in
theorem under_modify_insert {m : List (α × List γ)} (h : KeysAscending m) {k k' : α} {x c : γ} :
    Under (modify k [] (insert x) m) k' c ↔ (k' = k ∧ c = x) ∨ Under m k' c := by
  by_cases same : k' = k
  · subst same
    simp [Under, modify, find?_alter_self h]
  · simp [Under, modify, find?_alter_of_ne h same, same]

omit [Std.TransOrd γ] in
theorem under_foldl_file (key : δ → α) (val : δ → γ) (l : List δ) {m : List (α × List γ)}
    (h : KeysAscending m) {k : α} {c : γ} :
    Under (l.foldl (fun m d => modify (key d) [] (insert (val d)) m) m) k c ↔
      Under m k c ∨ ∃ d ∈ l, key d = k ∧ val d = c := by
  induction l generalizing m with
  | nil => simp
  | cons d l ih =>
    have filed : KeysAscending (modify (key d) [] (insert (val d)) m) := keysAscending_alter h
    rw [List.foldl_cons, ih filed, under_modify_insert h]
    simp only [List.mem_cons, exists_eq_or_imp]
    constructor
    · rintro ((⟨rfl, rfl⟩ | under) | later)
      · exact .inr (.inl ⟨rfl, rfl⟩)
      · exact .inl under
      · exact .inr (.inr later)
    · rintro (under | filed | later)
      · exact .inl (.inr under)
      · exact .inl (.inl ⟨filed.1.symm, filed.2.symm⟩)
      · exact .inr later

omit [Std.TransOrd γ] [Std.LawfulEqOrd γ] in
theorem keysAscending_foldl_file (key : δ → α) (val : δ → γ) (l : List δ) {m : List (α × List γ)}
    (h : KeysAscending m) :
    KeysAscending (l.foldl (fun m d => modify (key d) [] (insert (val d)) m) m) := by
  induction l generalizing m with
  | nil => exact h
  | cons d l ih => exact ih (keysAscending_alter h)

theorem setsAscending_modify_insert {m : List (α × List γ)} (h : KeysAscending m)
    (hs : ∀ e ∈ m, Ascending e.2) (k : α) (x : γ) :
    ∀ e ∈ modify k [] (insert x) m, Ascending e.2 := by
  rintro ⟨k', cs⟩ mem
  rcases (mem_alter h).mp mem with ⟨-, filed⟩ | ⟨-, old⟩
  · obtain rfl := Option.some_inj.mp filed
    cases found : find? k m with
    | none => exact ascending_insert List.Pairwise.nil
    | some cs' => exact ascending_insert (hs _ ((find?_eq_some_iff h).mp found))
  · exact hs _ old

theorem setsAscending_foldl_file (key : δ → α) (val : δ → γ) (l : List δ) {m : List (α × List γ)}
    (h : KeysAscending m) (hs : ∀ e ∈ m, Ascending e.2) :
    ∀ e ∈ l.foldl (fun m d => modify (key d) [] (insert (val d)) m) m, Ascending e.2 := by
  induction l generalizing m with
  | nil => exact hs
  | cons d l ih => exact ih (keysAscending_alter h) (setsAscending_modify_insert h hs _ _)

omit [Std.LawfulEqOrd γ] in
theorem mem_iff_ascending {m : List (α × List γ)} (h : KeysAscending m) (hs : ∀ e ∈ m, Ascending e.2)
    {k : α} {xs : List γ} (nonempty : xs ≠ []) :
    (k, xs) ∈ m ↔ Ascending xs ∧ ∀ x, x ∈ xs ↔ Under m k x := by
  constructor
  · intro mem
    refine ⟨hs _ mem, fun x => ?_⟩
    rw [Under, (find?_eq_some_iff h).mpr mem, Option.getD_some]
  · rintro ⟨ascending, same⟩
    obtain ⟨x, hx⟩ := List.exists_mem_of_ne_nil xs nonempty
    have under := (same x).mp hx
    cases found : find? k m with
    | none => simp [Under, found] at under
    | some ys =>
      -- the key's set and the list have the same members, and both ascend
      have mem := (find?_eq_some_iff h).mp found
      have same' : ∀ y, y ∈ ys ↔ y ∈ xs := fun y => by
        rw [same y, Under, found, Option.getD_some]
      exact (Ascending.eq_of_mem_iff (hs _ mem) ascending same') ▸ mem

end Filing

end Conformance.Sorted
