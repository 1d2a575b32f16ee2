import Mathlib.Data.Finset.Card
import Conformance.Baseline.Fold
import Conformance.Proofs.Baseline

/-!
Folding a run decided case by case. The fold never computes a case's kind directly: it files
every pair, collects the cases that two disagreeing kinds share, strips them from the other
kinds and settles what is left by the last pair. Each stage is described here through what
it files under each kind, and together they give every case the kind `foldedKind` names:
flaky when the outcomes it has been seen with disagree as the policy counts it, else the
outcome of its last pair, and its old kind when the run does not name it.
-/
namespace Conformance

/-- Whether the outcomes seen for one case make it flaky under a policy: a flaky mark among
them, or two different ones, which under `healthy-vs-unhealthy` must include a healthy one. -/
def FlakyPolicy.Disagree (policy : FlakyPolicy) (seen : Finset Outcome) : Prop :=
  .flaky ∈ seen ∨ (2 ≤ seen.card ∧ (policy = .anyOutcome ∨ .pass ∈ seen ∨ .notSupported ∈ seen))

instance (policy : FlakyPolicy) (seen : Finset Outcome) : Decidable (policy.Disagree seen) :=
  inferInstanceAs (Decidable (_ ∨ _))

namespace Baseline
open Sorted

/-! ## The reference, case by case -/

/-- The outcomes paired with a case in a run, in order. -/
def outcomesOf (pairs : List (CaseId × Outcome)) (c : CaseId) : List Outcome :=
  (pairs.filter (·.1 == c)).map (·.2)

/-- The outcome of the last pair of a case in a run. -/
def lastOutcome (pairs : List (CaseId × Outcome)) (c : CaseId) : Option Outcome :=
  (outcomesOf pairs c).getLast?

/-- The distinct outcomes a case has been seen with: its kind in the baseline and every
outcome paired with it in the run. -/
def seenWith (b : Baseline) (pairs : List (CaseId × Outcome)) (c : CaseId) : Finset Outcome :=
  ((b.kindOf c).toList ++ outcomesOf pairs c).toFinset

/-- The kind a fold gives one case. -/
def foldedKind (b : Baseline) (pairs : List (CaseId × Outcome)) (policy : FlakyPolicy)
    (c : CaseId) : Option Outcome :=
  match lastOutcome pairs c with
  | none => b.kindOf c
  | some last => if policy.Disagree (seenWith b pairs c) then some .flaky else some last

theorem mem_outcomesOf {pairs : List (CaseId × Outcome)} {c : CaseId} {o : Outcome} :
    o ∈ outcomesOf pairs c ↔ (c, o) ∈ pairs := by
  simp [outcomesOf, and_comm]

theorem lastOutcome_eq_none_iff {pairs : List (CaseId × Outcome)} {c : CaseId} :
    lastOutcome pairs c = none ↔ c ∉ pairs.map (·.1) := by
  rw [lastOutcome, List.getLast?_eq_none_iff, List.eq_nil_iff_forall_not_mem]
  simp only [mem_outcomesOf, List.mem_map, not_exists, not_and]
  constructor
  · intro absent ⟨c', o⟩ mem same
    exact absent o (same ▸ mem)
  · intro absent o mem
    exact absent (c, o) mem rfl

theorem mem_of_lastOutcome {pairs : List (CaseId × Outcome)} {c : CaseId} {o : Outcome}
    (h : lastOutcome pairs c = some o) : (c, o) ∈ pairs :=
  mem_outcomesOf.mp (List.mem_of_getLast? h)

theorem mem_seenWith {b : Baseline} {pairs : List (CaseId × Outcome)} {c : CaseId} {o : Outcome} :
    o ∈ seenWith b pairs c ↔ b.kindOf c = some o ∨ (c, o) ∈ pairs := by
  simp [seenWith, mem_outcomesOf, eq_comm]

/-! ## Filing the pairs -/

theorem ascending_getD {m : List (Outcome × List CaseId)} (h : KeysAscending m)
    (hc : ∀ e ∈ m, Ascending e.2) (k : Outcome) : Ascending ((find? k m).getD []) := by
  cases hv : find? k m with
  | none => exact List.Pairwise.nil
  | some cs => exact hc _ ((find?_eq_some_iff h).mp hv)

theorem keysAscending_addPairs {kinds : List (Outcome × List CaseId)}
    (pairs : List (CaseId × Outcome)) (h : KeysAscending kinds) :
    KeysAscending (addPairs kinds pairs) :=
  keysAscending_foldl_file (fun p : CaseId × Outcome => p.2) (·.1) pairs h

theorem casesAscending_addPairs {kinds : List (Outcome × List CaseId)}
    (pairs : List (CaseId × Outcome)) (h : KeysAscending kinds) (hc : ∀ e ∈ kinds, Ascending e.2) :
    ∀ e ∈ addPairs kinds pairs, Ascending e.2 :=
  setsAscending_foldl_file (fun p : CaseId × Outcome => p.2) (·.1) pairs h hc

theorem under_addPairs {kinds : List (Outcome × List CaseId)} (pairs : List (CaseId × Outcome))
    (h : KeysAscending kinds) {o : Outcome} {c : CaseId} :
    Sorted.Under (addPairs kinds pairs) o c ↔ Sorted.Under kinds o c ∨ (c, o) ∈ pairs := by
  rw [addPairs, under_foldl_file (fun p : CaseId × Outcome => p.2) (·.1) pairs h]
  refine or_congr_right ⟨?_, fun mem => ⟨(c, o), mem, rfl, rfl⟩⟩
  rintro ⟨⟨c', o'⟩, mem, rfl, rfl⟩
  exact mem

theorem under_addPairs_iff {b : Baseline} (hb : b.Valid) (pairs : List (CaseId × Outcome))
    {o : Outcome} {c : CaseId} :
    Sorted.Under (addPairs b.kinds pairs) o c ↔ o ∈ seenWith b pairs c := by
  rw [under_addPairs pairs hb.kindsAscending, mem_seenWith, hb.kindOf_eq_some_iff]
  rfl

/-! ## The flaky cases -/

theorem countsAsFlaky_comm (policy : FlakyPolicy) (a b : Outcome) :
    policy.countsAsFlaky a b = policy.countsAsFlaky b a := by
  cases policy
  · rfl
  · simp only [FlakyPolicy.countsAsFlaky]
    grind

theorem mem_unorderedPairs {δ : Type} {l : List δ} {x y : δ} :
    (x, y) ∈ unorderedPairs l ↔ List.Sublist [x, y] l := by
  induction l with
  | nil => simp [unorderedPairs]
  | cons z zs ih =>
    simp only [unorderedPairs, List.mem_append, List.mem_map, Prod.mk.injEq, ih]
    rw [List.sublist_cons_iff]
    constructor
    · rintro (⟨w, hw, rfl, rfl⟩ | later)
      · exact .inr ⟨[w], rfl, List.singleton_sublist.mpr hw⟩
      · exact .inl later
    · rintro (later | ⟨r, same, hr⟩)
      · exact .inr later
      · obtain ⟨rfl, rfl⟩ := List.cons_eq_cons.mp same
        exact .inl ⟨y, List.singleton_sublist.mp hr, rfl, rfl⟩

theorem pair_sublist {δ : Type} {l : List δ} {x y : δ} (hx : x ∈ l) (hy : y ∈ l) (hne : x ≠ y) :
    List.Sublist [x, y] l ∨ List.Sublist [y, x] l := by
  induction l with
  | nil => simp at hx
  | cons z zs ih =>
    rcases List.mem_cons.mp hx with rfl | laterX
    · have laterY : y ∈ zs := (List.mem_cons.mp hy).resolve_left (Ne.symm hne)
      exact .inl (List.cons_sublist_cons.mpr (List.singleton_sublist.mpr laterY))
    · rcases List.mem_cons.mp hy with rfl | laterY
      · exact .inr (List.cons_sublist_cons.mpr (List.singleton_sublist.mpr laterX))
      · rcases ih laterX laterY with first | second
        · exact .inl (first.cons z)
        · exact .inr (second.cons z)

theorem mem_foldl_shared {policy : FlakyPolicy} {c : CaseId} {acc : List CaseId}
    {l : List ((Outcome × List CaseId) × (Outcome × List CaseId))} :
    c ∈ l.foldl (fun acc ab => if policy.countsAsFlaky ab.1.1 ab.2.1 then
        union acc (inter ab.1.2 ab.2.2) else acc) acc ↔
      c ∈ acc ∨ ∃ ab ∈ l, policy.countsAsFlaky ab.1.1 ab.2.1 = true ∧ c ∈ ab.1.2 ∧ c ∈ ab.2.2 := by
  induction l generalizing acc with
  | nil => simp
  | cons ab rest ih =>
    rw [List.foldl_cons, ih, List.exists_mem_cons_iff]
    by_cases counts : policy.countsAsFlaky ab.1.1 ab.2.1 = true
    · rw [if_pos counts, mem_union, mem_inter]
      constructor
      · rintro ((held | ⟨ca, cb⟩) | later)
        · exact .inl held
        · exact .inr (.inl ⟨counts, ca, cb⟩)
        · exact .inr (.inr later)
      · rintro (held | ⟨_, ca, cb⟩ | later)
        · exact .inl (.inl held)
        · exact .inl (.inr ⟨ca, cb⟩)
        · exact .inr later
    · rw [if_neg counts]
      constructor
      · rintro (held | later)
        · exact .inl held
        · exact .inr (.inr later)
      · rintro (held | ⟨yes, _⟩ | later)
        · exact .inl held
        · exact absurd yes counts
        · exact .inr later

theorem mem_flakyCases {policy : FlakyPolicy} {kinds : List (Outcome × List CaseId)}
    (h : KeysAscending kinds) {c : CaseId} :
    c ∈ flakyCases policy kinds ↔ Sorted.Under kinds .flaky c ∨
      ∃ a, Sorted.Under kinds a c ∧ ∃ b, Sorted.Under kinds b c ∧ a ≠ b ∧
        policy.countsAsFlaky a b = true := by
  have ordered : kinds.Pairwise (fun a b => compare a.1 b.1 = .lt) := List.pairwise_map.mp h
  rw [flakyCases, mem_foldl_shared]
  apply or_congr Iff.rfl
  constructor
  · rintro ⟨⟨⟨a, as⟩, ⟨b, bs⟩⟩, mem, counts, ha, hb⟩
    have sub := mem_unorderedPairs.mp mem
    have lt : compare a b = .lt := by
      simpa using List.Pairwise.sublist sub ordered
    exact ⟨a, (under_iff h).mpr ⟨as, sub.subset (by simp), ha⟩, b,
      (under_iff h).mpr ⟨bs, sub.subset (by simp), hb⟩, compare_ne_of_lt lt, counts⟩
  · rintro ⟨a, ha, b, hb, hne, counts⟩
    obtain ⟨as, mema, ca⟩ := (under_iff h).mp ha
    obtain ⟨bs, memb, cb⟩ := (under_iff h).mp hb
    have distinct : (a, as) ≠ (b, bs) := fun e => hne (Prod.mk.inj e).1
    rcases pair_sublist mema memb distinct with sub | sub
    · exact ⟨((a, as), (b, bs)), mem_unorderedPairs.mpr sub, counts, ca, cb⟩
    · refine ⟨((b, bs), (a, as)), mem_unorderedPairs.mpr sub, ?_, cb, ca⟩
      rwa [countsAsFlaky_comm]

theorem ascending_flakyCases (policy : FlakyPolicy) {kinds : List (Outcome × List CaseId)}
    (h : KeysAscending kinds) (hc : ∀ e ∈ kinds, Ascending e.2) :
    Ascending (flakyCases policy kinds) := by
  rw [flakyCases]
  have start := ascending_getD h hc .flaky
  generalize (find? Outcome.flaky kinds).getD [] = acc at start
  induction unorderedPairs kinds generalizing acc with
  | nil => exact start
  | cons ab rest ih =>
    rw [List.foldl_cons]
    apply ih
    split
    · exact ascending_union _ start
    · exact start

theorem isHealthy_iff {o : Outcome} : o.isHealthy = true ↔ o = .pass ∨ o = .notSupported := by
  simp [Outcome.isHealthy]

theorem disagree_iff {policy : FlakyPolicy} {seen : Finset Outcome} :
    policy.Disagree seen ↔ .flaky ∈ seen ∨
      ∃ a ∈ seen, ∃ b ∈ seen, a ≠ b ∧ policy.countsAsFlaky a b = true := by
  unfold FlakyPolicy.Disagree
  constructor
  · rintro (flaky | ⟨two, rfl | healthy⟩)
    · exact .inl flaky
    · obtain ⟨a, ha, b, hb, hne⟩ := Finset.one_lt_card.mp two
      exact .inr ⟨a, ha, b, hb, hne, rfl⟩
    · obtain ⟨a, ha, isA⟩ : ∃ a ∈ seen, a.isHealthy = true := by
        rcases healthy with pass | ns
        · exact ⟨.pass, pass, isHealthy_iff.mpr (.inl rfl)⟩
        · exact ⟨.notSupported, ns, isHealthy_iff.mpr (.inr rfl)⟩
      obtain ⟨b, hb, hne⟩ := (Finset.one_lt_card_iff_nontrivial.mp two).exists_ne a
      refine .inr ⟨a, ha, b, hb, Ne.symm hne, ?_⟩
      cases policy <;> simp [FlakyPolicy.countsAsFlaky, isA]
  · rintro (flaky | ⟨a, ha, b, hb, hne, counts⟩)
    · exact .inl flaky
    have two : 2 ≤ seen.card := Finset.one_lt_card.mpr ⟨a, ha, b, hb, hne⟩
    cases policy with
    | anyOutcome => exact .inr ⟨two, .inl rfl⟩
    | healthyVsUnhealthy =>
      simp only [FlakyPolicy.countsAsFlaky, Bool.or_eq_true, beq_iff_eq] at counts
      -- a flaky mark counts on its own; otherwise one of the two is healthy
      rcases counts with ((rfl | rfl) | healthy) | healthy
      · exact .inl ha
      · exact .inl hb
      · rcases isHealthy_iff.mp healthy with rfl | rfl
        · exact .inr ⟨two, .inr (.inl ha)⟩
        · exact .inr ⟨two, .inr (.inr ha)⟩
      · rcases isHealthy_iff.mp healthy with rfl | rfl
        · exact .inr ⟨two, .inr (.inl hb)⟩
        · exact .inr ⟨two, .inr (.inr hb)⟩

theorem mem_flakyCases_addPairs {b : Baseline} (hb : b.Valid) (pairs : List (CaseId × Outcome))
    (policy : FlakyPolicy) {c : CaseId} :
    c ∈ flakyCases policy (addPairs b.kinds pairs) ↔ policy.Disagree (seenWith b pairs c) := by
  rw [mem_flakyCases (keysAscending_addPairs pairs hb.kindsAscending), disagree_iff]
  simp only [under_addPairs_iff hb]

/-! ## Stripping the flaky cases -/

/-- The kinds once the flaky cases have left every kind but the flaky one. -/
def settle (flaky : List CaseId) (kinds : List (Outcome × List CaseId)) :
    List (Outcome × List CaseId) :=
  kinds.map fun (kind, cases) =>
    if kind == .flaky then (kind, cases) else (kind, Sorted.diff cases flaky)

theorem settle_keeps (flaky : List CaseId) (e : Outcome × List CaseId) :
    ((fun (kind, cases) => if kind == Outcome.flaky then (kind, cases) else
      (kind, Sorted.diff cases flaky)) e).1 = e.1 := by
  obtain ⟨kind, cases⟩ := e
  dsimp only
  split <;> rfl

theorem under_settle {flaky : List CaseId} {kinds : List (Outcome × List CaseId)} {o : Outcome}
    {c : CaseId} :
    Sorted.Under (settle flaky kinds) o c ↔ Sorted.Under kinds o c ∧ (o = .flaky ∨ c ∉ flaky) := by
  unfold settle Sorted.Under
  rw [find?_map _ (settle_keeps flaky)]
  cases find? o kinds with
  | none => simp
  | some cs =>
    by_cases isFlaky : o = .flaky
    · subst isFlaky
      simp
    · simp [isFlaky]

theorem keysAscending_settle {flaky : List CaseId} {kinds : List (Outcome × List CaseId)}
    (h : KeysAscending kinds) : KeysAscending (settle flaky kinds) :=
  keysAscending_map _ (settle_keeps flaky) h

theorem casesAscending_settle {flaky : List CaseId} {kinds : List (Outcome × List CaseId)}
    (hc : ∀ e ∈ kinds, Ascending e.2) : ∀ e ∈ settle flaky kinds, Ascending e.2 := by
  intro e mem
  obtain ⟨⟨kind, cases⟩, src, rfl⟩ := List.mem_map.mp mem
  dsimp only
  split
  · exact hc _ src
  · exact ascending_diff _ (hc _ src)

/-! ## Settling what is left by the last pair -/

theorem keysAscending_tally {cs : List CaseId} {acc : List (CaseId × Nat)} (h : KeysAscending acc) :
    KeysAscending (cs.foldl (fun m id => Sorted.modify id 0 (· + 1) m) acc) := by
  induction cs generalizing acc with
  | nil => exact h
  | cons x xs ih => exact ih (keysAscending_alter h)

theorem count_tally {cs : List CaseId} {acc : List (CaseId × Nat)} (h : KeysAscending acc)
    (c : CaseId) :
    (find? c (cs.foldl (fun m id => Sorted.modify id 0 (· + 1) m) acc)).getD 0 =
      (find? c acc).getD 0 + cs.count c := by
  induction cs generalizing acc with
  | nil => simp
  | cons x xs ih =>
    have tallied : KeysAscending (Sorted.modify x 0 (· + 1) acc) := keysAscending_alter h
    rw [List.foldl_cons, ih tallied, List.count_cons]
    by_cases same : c = x
    · subst same
      simp [Sorted.modify, find?_alter_self h]
      omega
    · simp [Sorted.modify, find?_alter_of_ne h same, Ne.symm same]

theorem keysAscending_membership (m : List (Outcome × List CaseId)) :
    KeysAscending (membership m) := by
  unfold membership
  generalize hacc : ([] : List (CaseId × Nat)) = acc
  have start : KeysAscending acc := hacc ▸ List.Pairwise.nil
  clear hacc
  induction m generalizing acc with
  | nil => exact start
  | cons e rest ih => exact ih _ (keysAscending_tally start)

theorem count_membership (m : List (Outcome × List CaseId)) (c : CaseId) :
    (find? c (membership m)).getD 0 = (m.flatMap (·.2)).count c := by
  unfold membership
  suffices general : ∀ acc : List (CaseId × Nat), KeysAscending acc →
      (find? c (m.foldl (fun m e => e.2.foldl (fun m id => Sorted.modify id 0 (· + 1) m) m) acc)).getD 0 =
        (find? c acc).getD 0 + (m.flatMap (·.2)).count c by
    simpa [find?] using general [] List.Pairwise.nil
  induction m with
  | nil => simp
  | cons e rest ih =>
    intro acc h
    rw [List.foldl_cons, ih _ (keysAscending_tally h), count_tally h, List.flatMap_cons,
      List.count_append]
    omega

/-- The cases under two or more kinds. -/
def leftovers (m : List (Outcome × List CaseId)) : List CaseId :=
  ((membership m).filter (·.2 > 1)).map (·.1)

theorem mem_leftovers {m : List (Outcome × List CaseId)} {c : CaseId} :
    c ∈ leftovers m ↔ 1 < (m.flatMap (·.2)).count c := by
  rw [← count_membership]
  unfold leftovers
  simp only [List.mem_map, List.mem_filter, decide_eq_true_eq]
  constructor
  · rintro ⟨⟨c', n⟩, ⟨mem, big⟩, rfl⟩
    rw [(find?_eq_some_iff (keysAscending_membership m)).mpr mem]
    exact big
  · intro big
    cases hv : find? c (membership m) with
    | none => simp [hv] at big
    | some n =>
      rw [hv] at big
      exact ⟨(c, n), ⟨(find?_eq_some_iff (keysAscending_membership m)).mp hv, big⟩, rfl⟩

theorem count_flatMap_eq_length {m : List (Outcome × List CaseId)} (nodup : ∀ e ∈ m, e.2.Nodup)
    (c : CaseId) : (m.flatMap (·.2)).count c = (m.filter fun e => c ∈ e.2).length := by
  induction m with
  | nil => rfl
  | cons e rest ih =>
    rw [List.flatMap_cons, List.count_append, ih (fun e he => nodup e (List.mem_cons_of_mem _ he)),
      List.filter_cons, (nodup e List.mem_cons_self).count]
    by_cases held : c ∈ e.2 <;> simp [held, Nat.add_comm]

theorem length_holding {m : List (Outcome × List CaseId)} (h : KeysAscending m) {c : CaseId}
    {kinds : Finset Outcome} (hk : ∀ o, Sorted.Under m o c ↔ o ∈ kinds) :
    (m.filter fun e => c ∈ e.2).length = kinds.card := by
  have nodup : ((m.filter fun e => c ∈ e.2).map (·.1)).Nodup :=
    Ascending.nodup (keysAscending_filter _ h)
  have same : ((m.filter fun e => c ∈ e.2).map (·.1)).toFinset = kinds := by
    ext o
    simp only [List.mem_toFinset, List.mem_map, List.mem_filter, decide_eq_true_eq, ← hk, under_iff h]
    constructor
    · rintro ⟨⟨o', cs⟩, ⟨mem, held⟩, rfl⟩
      exact ⟨cs, mem, held⟩
    · rintro ⟨cs, mem, held⟩
      exact ⟨(o, cs), ⟨mem, held⟩, rfl⟩
  rw [← same, List.toFinset_card_of_nodup nodup, List.length_map]

/-- The outcome of the last pair of each case among `amb`. -/
def latestOf (amb : List CaseId) (pairs : List (CaseId × Outcome)) : List (CaseId × Outcome) :=
  pairs.foldl (fun m p => if amb.contains p.1 then Sorted.put p.1 p.2 m else m) []

theorem lastOutcome_cons (p : CaseId × Outcome) (pairs : List (CaseId × Outcome)) (c : CaseId) :
    lastOutcome (p :: pairs) c =
      if p.1 = c then (lastOutcome pairs c).or (some p.2) else lastOutcome pairs c := by
  unfold lastOutcome outcomesOf
  rw [List.filter_cons]
  by_cases same : p.1 = c
  · simp only [same, beq_self_eq_true, if_true, List.map_cons, List.getLast?_cons]
    cases (List.map (·.2) (List.filter (·.1 == c) pairs)).getLast? <;> rfl
  · simp [same]

theorem find?_foldl_latest {amb : List CaseId} {pairs : List (CaseId × Outcome)}
    {init : List (CaseId × Outcome)} (h : KeysAscending init) (c : CaseId) :
    find? c (pairs.foldl (fun m p => if amb.contains p.1 then Sorted.put p.1 p.2 m else m) init) =
      (if c ∈ amb then lastOutcome pairs c else none).or (find? c init) := by
  induction pairs generalizing init with
  | nil => simp [lastOutcome, outcomesOf]
  | cons p rest ih =>
    have stepped : KeysAscending (if amb.contains p.1 then Sorted.put p.1 p.2 init else init) := by
      split
      · exact keysAscending_alter h
      · exact h
    rw [List.foldl_cons, ih stepped, lastOutcome_cons]
    by_cases named : p.1 = c
    · subst named
      by_cases leftover : p.1 ∈ amb
      · simp [leftover, Sorted.put, find?_alter_self h]
      · simp [leftover]
    · have step : find? c (if amb.contains p.1 then Sorted.put p.1 p.2 init else init) = find? c init := by
        split
        · exact find?_alter_of_ne h (Ne.symm named)
        · rfl
      simp only [step, named, if_false]

theorem find?_latestOf (amb : List CaseId) (pairs : List (CaseId × Outcome)) (c : CaseId) :
    find? c (latestOf amb pairs) = if c ∈ amb then lastOutcome pairs c else none := by
  have empty : KeysAscending ([] : List (CaseId × Outcome)) := List.Pairwise.nil
  rw [latestOf, find?_foldl_latest empty]
  cases (if c ∈ amb then lastOutcome pairs c else none) <;> rfl

/-- Whether a case stays under a kind once the leftovers are settled by `latest`. -/
def keepsUnder (latest : List (CaseId × Outcome)) (kind : Outcome) (id : CaseId) : Bool :=
  match find? id latest with
  | some k => k == kind
  | none => true

theorem resolveLeftovers_eq (m : List (Outcome × List CaseId)) (pairs : List (CaseId × Outcome)) :
    resolveLeftovers m pairs =
      m.map fun e => (e.1, e.2.filter (keepsUnder (latestOf (leftovers m) pairs) e.1)) := rfl

theorem under_resolveLeftovers {m : List (Outcome × List CaseId)} {pairs : List (CaseId × Outcome)}
    {o : Outcome} {c : CaseId} :
    Sorted.Under (resolveLeftovers m pairs) o c ↔ Sorted.Under m o c ∧
      (c ∈ leftovers m → ∀ k, lastOutcome pairs c = some k → k = o) := by
  rw [resolveLeftovers_eq, Sorted.Under, Sorted.Under, find?_map (fun (e : Outcome × List CaseId) =>
    (e.1, e.2.filter (keepsUnder (latestOf (leftovers m) pairs) e.1))) (fun _ => rfl)]
  cases find? o m with
  | none => simp
  | some cs =>
    simp only [Option.map_some, Option.getD_some, List.mem_filter, keepsUnder, find?_latestOf]
    apply and_congr Iff.rfl
    by_cases leftover : c ∈ leftovers m
    · cases lastOutcome pairs c <;> simp [leftover]
    · simp [leftover]

theorem keysAscending_resolveLeftovers {m : List (Outcome × List CaseId)}
    (pairs : List (CaseId × Outcome)) (h : KeysAscending m) :
    KeysAscending (resolveLeftovers m pairs) := by
  rw [resolveLeftovers_eq]
  exact keysAscending_map _ (fun _ => rfl) h

theorem casesAscending_resolveLeftovers {m : List (Outcome × List CaseId)}
    (pairs : List (CaseId × Outcome)) (hc : ∀ e ∈ m, Ascending e.2) :
    ∀ e ∈ resolveLeftovers m pairs, Ascending e.2 := by
  rw [resolveLeftovers_eq]
  intro e mem
  obtain ⟨⟨kind, cases⟩, src, rfl⟩ := List.mem_map.mp mem
  exact List.Pairwise.filter _ (hc _ src)

/-! ## The flaky kind and the empty kinds -/

theorem under_put_flaky {m : List (Outcome × List CaseId)} (h : KeysAscending m)
    {flaky : List CaseId} {o : Outcome} {c : CaseId} :
    Sorted.Under (Sorted.put .flaky flaky m) o c ↔
      (o = .flaky ∧ c ∈ flaky) ∨ (o ≠ .flaky ∧ Sorted.Under m o c) := by
  by_cases isFlaky : o = .flaky
  · subst isFlaky
    simp [Sorted.Under, Sorted.put, find?_alter_self h]
  · simp [Sorted.Under, Sorted.put, find?_alter_of_ne h isFlaky, isFlaky]

theorem under_dropEmpty {m : List (Outcome × List CaseId)} (h : KeysAscending m) {o : Outcome}
    {c : CaseId} : Sorted.Under (dropEmpty m) o c ↔ Sorted.Under m o c := by
  unfold dropEmpty Sorted.Under
  rw [find?_filter _ h]
  cases find? o m with
  | none => rfl
  | some cs =>
    cases cs with
    | nil => simp [Option.filter_some]
    | cons x xs => simp [Option.filter_some]

/-! ## The fold, case by case -/

theorem foldRun_kinds (b : Baseline) (pairs : List (CaseId × Outcome)) (policy : FlakyPolicy) :
    (b.foldRun pairs policy).baseline.kinds =
      dropEmpty (Sorted.put .flaky (flakyCases policy (addPairs b.kinds pairs))
        (resolveLeftovers (settle (flakyCases policy (addPairs b.kinds pairs))
          (addPairs b.kinds pairs)) pairs)) := rfl

theorem seenWith_unnamed {b : Baseline} {pairs : List (CaseId × Outcome)} {c : CaseId}
    (unnamed : lastOutcome pairs c = none) : seenWith b pairs c = (b.kindOf c).toList.toFinset := by
  have none : outcomesOf pairs c = [] := List.getLast?_eq_none_iff.mp unnamed
  simp [seenWith, none]

theorem mem_seenWith_of_lastOutcome {b : Baseline} {pairs : List (CaseId × Outcome)} {c : CaseId}
    {last : Outcome} (h : lastOutcome pairs c = some last) : last ∈ seenWith b pairs c :=
  mem_seenWith.mpr (.inr (mem_of_lastOutcome h))

theorem disagree_of_card_le_one {policy : FlakyPolicy} {seen : Finset Outcome} (small : seen.card ≤ 1) :
    policy.Disagree seen ↔ .flaky ∈ seen := by
  unfold FlakyPolicy.Disagree
  constructor
  · rintro (flaky | ⟨two, _⟩)
    · exact flaky
    · omega
  · exact .inl

theorem mem_iff_of_card_le_one {seen : Finset Outcome} (small : seen.card ≤ 1) {last : Outcome}
    (hl : last ∈ seen) {o : Outcome} : o ∈ seen ↔ o = last :=
  ⟨fun ho => Finset.card_le_one.mp small o ho last hl, fun e => e ▸ hl⟩

theorem filed_iff_foldedKind (b : Baseline) (pairs : List (CaseId × Outcome)) (policy : FlakyPolicy)
    {o : Outcome} {c : CaseId} :
    ((o = .flaky ∧ policy.Disagree (seenWith b pairs c)) ∨
      (o ≠ .flaky ∧ o ∈ seenWith b pairs c ∧ ¬ policy.Disagree (seenWith b pairs c) ∧
        (1 < (seenWith b pairs c).card → ∀ k, lastOutcome pairs c = some k → k = o))) ↔
      foldedKind b pairs policy c = some o := by
  unfold foldedKind
  cases hl : lastOutcome pairs c with
  | none =>
    rw [seenWith_unnamed hl]
    cases hk : b.kindOf c with
    | none => simp [FlakyPolicy.Disagree]
    | some k =>
      have small : ({k} : Finset Outcome).card ≤ 1 := by simp
      simp only [Option.toList_some, List.toFinset_cons, List.toFinset_nil, insert_empty_eq,
        disagree_of_card_le_one small, Finset.mem_singleton, Option.some_inj]
      constructor
      · rintro (⟨rfl, rfl⟩ | ⟨_, rfl, _⟩)
        · rfl
        · rfl
      · rintro rfl
        by_cases isFlaky : k = .flaky
        · exact .inl ⟨isFlaky, isFlaky.symm⟩
        · exact .inr ⟨isFlaky, rfl, Ne.symm isFlaky, by simp⟩
  | some last =>
    have seen : last ∈ seenWith b pairs c := mem_seenWith_of_lastOutcome hl
    by_cases disagree : policy.Disagree (seenWith b pairs c)
    · simp only [disagree, if_true, and_true, not_true_eq_false, false_and, and_false, or_false,
        Option.some_inj, eq_comm]
    · have notFlaky : Outcome.flaky ∉ seenWith b pairs c := fun flaky => disagree (.inl flaky)
      simp only [disagree, if_false, and_false, false_or, not_false_eq_true, true_and, Option.some_inj]
      by_cases two : 1 < (seenWith b pairs c).card
      · simp only [two, forall_const, forall_eq']
        constructor
        · rintro ⟨_, _, rfl⟩
          rfl
        · rintro rfl
          exact ⟨fun e => notFlaky (e ▸ seen), seen, rfl⟩
      · have small : (seenWith b pairs c).card ≤ 1 := by omega
        simp only [two, false_implies, and_true, mem_iff_of_card_le_one small seen]
        constructor
        · rintro ⟨_, rfl⟩
          rfl
        · rintro rfl
          exact ⟨fun e => notFlaky (e ▸ seen), rfl⟩

section Valid

variable {b : Baseline} (hb : b.Valid) (pairs : List (CaseId × Outcome)) (policy : FlakyPolicy)
include hb

theorem keysAscending_filed :
    KeysAscending (addPairs b.kinds pairs) := keysAscending_addPairs pairs hb.kindsAscending

theorem casesAscending_filed :
    ∀ e ∈ addPairs b.kinds pairs, Ascending e.2 :=
  casesAscending_addPairs pairs hb.kindsAscending hb.casesAscending

theorem keysAscending_resolved :
    KeysAscending (resolveLeftovers (settle (flakyCases policy (addPairs b.kinds pairs))
      (addPairs b.kinds pairs)) pairs) :=
  keysAscending_resolveLeftovers pairs (keysAscending_settle (keysAscending_filed hb pairs))

theorem keysAscending_flakyPut :
    KeysAscending (Sorted.put .flaky (flakyCases policy (addPairs b.kinds pairs))
      (resolveLeftovers (settle (flakyCases policy (addPairs b.kinds pairs))
        (addPairs b.kinds pairs)) pairs)) :=
  keysAscending_alter (keysAscending_resolved hb pairs policy)

theorem mem_leftovers_settle {c : CaseId} :
    c ∈ leftovers (settle (flakyCases policy (addPairs b.kinds pairs)) (addPairs b.kinds pairs)) ↔
      ¬ policy.Disagree (seenWith b pairs c) ∧ 1 < (seenWith b pairs c).card := by
  have nodup : ∀ e ∈ settle (flakyCases policy (addPairs b.kinds pairs)) (addPairs b.kinds pairs),
      e.2.Nodup := fun e he => (casesAscending_settle (casesAscending_filed hb pairs) e he).nodup
  -- the kinds still holding the case once the flaky cases are stripped
  have holding : ∀ o, Sorted.Under (settle (flakyCases policy (addPairs b.kinds pairs))
      (addPairs b.kinds pairs)) o c ↔ o ∈ (seenWith b pairs c).filter
        (fun o => o = .flaky ∨ ¬ policy.Disagree (seenWith b pairs c)) := by
    intro o
    rw [under_settle, under_addPairs_iff hb, mem_flakyCases_addPairs hb, Finset.mem_filter]
  rw [mem_leftovers, count_flatMap_eq_length nodup,
    length_holding (keysAscending_settle (keysAscending_filed hb pairs)) holding]
  by_cases disagree : policy.Disagree (seenWith b pairs c)
  · have small : ((seenWith b pairs c).filter
        (fun o => o = .flaky ∨ ¬ policy.Disagree (seenWith b pairs c))).card ≤ 1 := by
      refine Finset.card_le_one.mpr fun x hx y hy => ?_
      simp only [disagree, not_true_eq_false, or_false, Finset.mem_filter] at hx hy
      rw [hx.2, hy.2]
    constructor
    · intro big
      omega
    · rintro ⟨agree, _⟩
      exact absurd disagree agree
  · simp [disagree]

theorem under_foldRun {o : Outcome} {c : CaseId} :
    (b.foldRun pairs policy).baseline.Under o c ↔ foldedKind b pairs policy c = some o := by
  rw [← filed_iff_foldedKind, Baseline.Under, foldRun_kinds,
    under_dropEmpty (keysAscending_flakyPut hb pairs policy),
    under_put_flaky (keysAscending_resolved hb pairs policy),
    under_resolveLeftovers, under_settle, under_addPairs_iff hb, mem_flakyCases_addPairs hb,
    mem_leftovers_settle hb]
  constructor
  · rintro (flaky | ⟨notFlaky, ⟨seen, kept⟩, last⟩)
    · exact .inl flaky
    · have agree : ¬ policy.Disagree (seenWith b pairs c) := kept.resolve_left notFlaky
      exact .inr ⟨notFlaky, seen, agree, fun two => last ⟨agree, two⟩⟩
  · rintro (flaky | ⟨notFlaky, seen, agree, last⟩)
    · exact .inl flaky
    · exact .inr ⟨notFlaky, ⟨seen, .inr agree⟩, fun leftover => last leftover.2⟩

theorem valid_foldRun : (b.foldRun pairs policy).baseline.Valid := by
  have resolved := keysAscending_resolved hb pairs policy
  refine ⟨?_, ?_, ?_, ?_⟩
  · rw [foldRun_kinds]
    exact keysAscending_filter _ (keysAscending_flakyPut hb pairs policy)
  · rw [foldRun_kinds]
    rintro ⟨kind, cases⟩ mem
    rcases (mem_alter resolved).mp (List.mem_filter.mp mem).1 with ⟨_, put⟩ | ⟨_, kept⟩
    · obtain rfl := Option.some_inj.mp put
      exact ascending_flakyCases policy (keysAscending_filed hb pairs) (casesAscending_filed hb pairs)
    · exact casesAscending_resolveLeftovers pairs
        (casesAscending_settle (casesAscending_filed hb pairs)) _ kept
  · rw [foldRun_kinds]
    intro e mem
    simpa using (List.mem_filter.mp mem).2
  · intro c k₁ k₂ h₁ h₂
    rw [under_foldRun hb] at h₁ h₂
    exact Option.some_inj.mp (h₁.symm.trans h₂)

theorem kindOf_foldRun (c : CaseId) :
    (b.foldRun pairs policy).baseline.kindOf c = foldedKind b pairs policy c := by
  have valid := valid_foldRun hb pairs policy
  cases hk : foldedKind b pairs policy c with
  | none =>
    rw [valid.kindOf_eq_none_iff, valid.mem_cases_iff]
    rintro ⟨kind, under⟩
    rw [under_foldRun hb, hk] at under
    cases under
  | some kind => exact valid.kindOf_eq_some_iff.mpr ((under_foldRun hb pairs policy).mpr hk)

end Valid

theorem foldedKind_unnamed {b : Baseline} {pairs : List (CaseId × Outcome)} (policy : FlakyPolicy)
    {c : CaseId} (unnamed : c ∉ pairs.map (·.1)) : foldedKind b pairs policy c = b.kindOf c := by
  rw [foldedKind, lastOutcome_eq_none_iff.mpr unnamed]

theorem foldedKind_eq_flaky_iff {b : Baseline} {pairs : List (CaseId × Outcome)}
    {policy : FlakyPolicy} {c : CaseId} :
    foldedKind b pairs policy c = some .flaky ↔ policy.Disagree (seenWith b pairs c) := by
  rw [← filed_iff_foldedKind]
  simp

theorem foldedKind_eq_none_iff {b : Baseline} {pairs : List (CaseId × Outcome)}
    {policy : FlakyPolicy} {c : CaseId} :
    foldedKind b pairs policy c = none ↔ b.kindOf c = none ∧ c ∉ pairs.map (·.1) := by
  rw [← lastOutcome_eq_none_iff]
  unfold foldedKind
  cases lastOutcome pairs c with
  | none => simp
  | some last => by_cases disagree : policy.Disagree (seenWith b pairs c) <;> simp [disagree]

theorem valid_empty : Baseline.empty.Valid where
  kindsAscending := List.Pairwise.nil
  casesAscending := by simp [Baseline.empty]
  nonempty := by simp [Baseline.empty]
  oneKind := by simp [Baseline.empty, Baseline.Under, Sorted.Under, find?]

/-! ## The fold against its reference -/

/-- What folding a run into a baseline must give, case by case. The result is a valid baseline
of the cases known before and those the run names. A case the run does not name keeps its
kind. A named case becomes flaky exactly when it was flaky, or was seen flaky, or was seen
with two outcomes that the policy counts as a disagreement; otherwise it takes the outcome of
its last pair, the one outcome it was seen with when there is only one. The fold reports the
cases that became flaky and the cases that are new, each as an ascending set. -/
structure FoldsAsReference (b : Baseline) (pairs : List (CaseId × Outcome)) (policy : FlakyPolicy)
    (r : Folded) : Prop where
  valid : r.baseline.Valid
  cases : ∀ c, c ∈ r.baseline.cases ↔ c ∈ b.cases ∨ c ∈ pairs.map (·.1)
  unnamed : ∀ c, c ∉ pairs.map (·.1) → r.baseline.kindOf c = b.kindOf c
  flaky : ∀ c ∈ pairs.map (·.1), r.baseline.kindOf c = some .flaky ↔
    b.kindOf c = some .flaky ∨ .flaky ∈ seenWith b pairs c ∨
      (2 ≤ (seenWith b pairs c).card ∧
        (policy = .anyOutcome ∨ .pass ∈ seenWith b pairs c ∨ .notSupported ∈ seenWith b pairs c))
  last : ∀ c ∈ pairs.map (·.1), r.baseline.kindOf c ≠ some .flaky →
    r.baseline.kindOf c = lastOutcome pairs c ∧
      ∀ o, seenWith b pairs c = {o} → lastOutcome pairs c = some o
  newlyFlakyAscending : Ascending r.newlyFlaky
  newlyFlaky : ∀ c, c ∈ r.newlyFlaky ↔ r.baseline.kindOf c = some .flaky ∧ b.kindOf c ≠ some .flaky
  newCasesAscending : Ascending r.newCases
  newCases : ∀ c, c ∈ r.newCases ↔ c ∈ pairs.map (·.1) ∧ c ∉ b.cases

theorem mem_cases_foldRun {b : Baseline} (hb : b.Valid) (pairs : List (CaseId × Outcome))
    (policy : FlakyPolicy) {c : CaseId} :
    c ∈ (b.foldRun pairs policy).baseline.cases ↔ c ∈ b.cases ∨ c ∈ pairs.map (·.1) := by
  rw [(valid_foldRun hb pairs policy).mem_cases_iff]
  simp only [under_foldRun hb]
  rw [← Option.isSome_iff_exists, Option.isSome_iff_ne_none, ne_eq, foldedKind_eq_none_iff,
    hb.kindOf_eq_none_iff, not_and_or, not_not, not_not]

theorem mem_newlyFlaky_foldRun {b : Baseline} (hb : b.Valid) (pairs : List (CaseId × Outcome))
    (policy : FlakyPolicy) {c : CaseId} :
    c ∈ (b.foldRun pairs policy).newlyFlaky ↔
      (b.foldRun pairs policy).baseline.kindOf c = some .flaky ∧ b.kindOf c ≠ some .flaky := by
  change c ∈ Sorted.diff (flakyCases policy (addPairs b.kinds pairs)) ((b.get? .flaky).getD []) ↔ _
  rw [mem_diff, mem_flakyCases_addPairs hb, kindOf_foldRun hb, foldedKind_eq_flaky_iff, ne_eq,
    hb.kindOf_eq_some_iff]
  rfl

theorem mem_newCases_foldRun (b : Baseline) (pairs : List (CaseId × Outcome))
    (policy : FlakyPolicy) {c : CaseId} :
    c ∈ (b.foldRun pairs policy).newCases ↔ c ∈ pairs.map (·.1) ∧ c ∉ b.cases := by
  change c ∈ Sorted.ofList ((pairs.map (·.1)).filter (fun id => !b.cases.contains id)) ↔ _
  simp

theorem newlyFlaky_ascending_foldRun {b : Baseline} (hb : b.Valid) (pairs : List (CaseId × Outcome))
    (policy : FlakyPolicy) : Ascending (b.foldRun pairs policy).newlyFlaky :=
  ascending_diff _ (ascending_flakyCases policy (keysAscending_filed hb pairs)
    (casesAscending_filed hb pairs))

theorem newCases_ascending_foldRun (b : Baseline) (pairs : List (CaseId × Outcome))
    (policy : FlakyPolicy) : Ascending (b.foldRun pairs policy).newCases :=
  ascending_ofList _

theorem foldRun_folds_as_reference (b : Baseline) (hb : b.Valid) (pairs : List (CaseId × Outcome))
    (policy : FlakyPolicy) : FoldsAsReference b pairs policy (b.foldRun pairs policy) where
  valid := valid_foldRun hb pairs policy
  cases _ := mem_cases_foldRun hb pairs policy
  unnamed c unnamed := by rw [kindOf_foldRun hb, foldedKind_unnamed policy unnamed]
  flaky c _ := by
    rw [kindOf_foldRun hb, foldedKind_eq_flaky_iff]
    constructor
    · exact .inr
    · rintro (wasFlaky | disagree)
      · exact .inl (mem_seenWith.mpr (.inl wasFlaky))
      · exact disagree
  last c named notFlaky := by
    obtain ⟨last, hl⟩ := Option.ne_none_iff_exists'.mp (mt lastOutcome_eq_none_iff.mp (not_not.mpr named))
    rw [ne_eq, kindOf_foldRun hb, foldedKind_eq_flaky_iff] at notFlaky
    refine ⟨?_, fun o single => ?_⟩
    · rw [kindOf_foldRun hb, foldedKind, hl]
      exact if_neg notFlaky
    · have seen := mem_seenWith_of_lastOutcome (b := b) hl
      rw [single, Finset.mem_singleton] at seen
      rw [hl, seen]
  newlyFlakyAscending := newlyFlaky_ascending_foldRun hb pairs policy
  newlyFlaky _ := mem_newlyFlaky_foldRun hb pairs policy
  newCasesAscending := newCases_ascending_foldRun b pairs policy
  newCases _ := mem_newCases_foldRun b pairs policy

/-- A second run folded under `healthy-vs-unhealthy` into a baseline built by a first one. -/
theorem foldRun_reference_on_second_run :
    (Baseline.empty.foldRun [(.mk "A", .fail), (.mk "B", .pass)] .anyOutcome).baseline.Valid ∧
      FoldsAsReference (Baseline.empty.foldRun [(.mk "A", .fail), (.mk "B", .pass)] .anyOutcome).baseline
        [(.mk "A", .internalError), (.mk "B", .crash), (.mk "A", .timeout), (.mk "C", .pass)]
        .healthyVsUnhealthy
        ((Baseline.empty.foldRun [(.mk "A", .fail), (.mk "B", .pass)] .anyOutcome).baseline.foldRun
          [(.mk "A", .internalError), (.mk "B", .crash), (.mk "A", .timeout), (.mk "C", .pass)]
          .healthyVsUnhealthy) :=
  ⟨valid_foldRun valid_empty _ _,
    foldRun_folds_as_reference _ (valid_foldRun valid_empty _ _) _ _⟩

end Baseline

end Conformance
