import Conformance.Cli.Session

/-!
# Steps of a session that leave the disk alone

`Session.Keeps P m` says that `m` leaves the disk as it found it, gives only results with `P`,
and fails only with an error code. The rules for `pure`, `>>=`, `throw` and the console's own
steps compose it along a command's `do` block, and `Session.Prints` marks the steps that only
print. Reading a log, its caselist included, is such a step (`Cli.Session.keeps_loadLog`).
-/

namespace Conformance

namespace Cli

namespace Session

variable {α β : Type} {P Q : α → Prop}

/-- A result with `P`, or a failure that ends the program with an error code. -/
def Answered (P : α → Prop) : Except Failure α → Prop
  | .ok a => P a
  | .error f => f.exitCode ≠ 0

theorem Answered.mono {r : Except Failure α} (h : Answered P r) (imp : ∀ a, P a → Q a) :
    Answered Q r := by
  cases r with
  | ok a => exact imp a h
  | error f => exact h

/-- A step that leaves the disk as it found it, gives only results with `P`, and fails only
with an error code. -/
def Keeps (P : α → Prop) (m : Session α) : Prop :=
  ∀ c, (m.run.run c).2.disk = c.disk ∧ Answered P (m.run.run c).1

theorem Keeps.ok {m : Session α} (h : Keeps P m) {c : Console} {a : α} (found : (m.run.run c).1 = .ok a) :
    P a := by
  have answered := (h c).2
  rw [found] at answered
  exact answered

theorem Keeps.error {m : Session α} (h : Keeps P m) {c : Console} {f : Failure}
    (found : (m.run.run c).1 = .error f) : f.exitCode ≠ 0 := by
  have answered := (h c).2
  rw [found] at answered
  exact answered

theorem Keeps.pure {a : α} (h : P a) : Keeps P (pure a) := fun _ => ⟨rfl, h⟩

theorem Keeps.throw {f : Failure} (h : f.exitCode ≠ 0) : Keeps P (throw f : Session α) := fun _ =>
  ⟨rfl, h⟩

theorem Keeps.bind {R : β → Prop} {m : Session α} {f : α → Session β} (hm : Keeps P m)
    (hf : ∀ a, P a → Keeps R (f a)) : Keeps R (m >>= f) := by
  intro c
  obtain ⟨disk, answered⟩ := hm c
  simp only [ExceptT.run_bind, StateT.run_bind]
  rcases first : m.run.run c with ⟨r, c'⟩
  rw [first] at disk answered
  cases r with
  | error e => exact ⟨disk, answered⟩
  | ok a =>
    obtain ⟨disk', answered'⟩ := hf a answered c'
    exact ⟨disk'.trans disk, answered'⟩

theorem Keeps.mono {m : Session α} (h : Keeps P m) (imp : ∀ a, P a → Q a) : Keeps Q m :=
  fun c => ⟨(h c).1, (h c).2.mono imp⟩

theorem Keeps.map {f : α → β} {R : β → Prop} {m : Session α} (h : Keeps P m) (hf : ∀ a, P a → R (f a)) :
    Keeps R (f <$> m) := by
  rw [map_eq_pure_bind]
  exact h.bind fun a ha => Keeps.pure (hf a ha)

theorem keeps_get : Keeps (fun _ => True) (get : Session Console) := fun _ => ⟨rfl, trivial⟩

theorem keeps_disk : Keeps (fun _ => True) disk :=
  keeps_get.bind fun _ _ => Keeps.pure trivial

/-- A step that only prints: it succeeds, and leaves the disk as it was. -/
def Prints (m : Session Unit) : Prop := ∀ c, (m.run.run c).1 = .ok () ∧ (m.run.run c).2.disk = c.disk

theorem Prints.keeps {m : Session Unit} (h : Prints m) : Keeps (fun _ => True) m := fun c => by
  obtain ⟨ok, disk⟩ := h c
  exact ⟨disk, by rw [ok]; trivial⟩

theorem Prints.run_bind {m : Session Unit} (h : Prints m) (f : Unit → Session β) (c : Console) :
    (m >>= f).run.run c = (f ()).run.run (m.run.run c).2 := by
  simp only [ExceptT.run_bind, StateT.run_bind]
  rcases first : m.run.run c with ⟨r, c'⟩
  have ok := (h c).1
  rw [first] at ok
  cases ok
  rfl

theorem Prints.bind {m m' : Session Unit} (h : Prints m) (h' : Prints m') : Prints (m >>= fun _ => m') :=
  fun c => by
    rw [h.run_bind]
    exact ⟨(h' _).1, (h' _).2.trans (h c).2⟩

theorem prints_pure : Prints (pure () : Session Unit) := fun _ => ⟨rfl, rfl⟩

theorem prints_tell (m : String) : Prints (tell m) := fun _ => ⟨rfl, rfl⟩

theorem prints_say (s : String) : Prints (say s) := fun _ => ⟨rfl, rfl⟩

theorem prints_present (report : Palette → String) : Prints (present report) := fun c =>
  prints_say _ c

theorem prints_forM {γ : Type} {g : γ → Session Unit} (hg : ∀ x, Prints (g x)) (xs : List γ) :
    Prints (xs.forM g) := by
  induction xs with
  | nil => exact prints_pure
  | cons x xs ih =>
    rw [List.forM_eq_forM, List.forM_cons]
    rw [List.forM_eq_forM] at ih
    exact (hg x).bind ih

theorem prints_notes (ns : List Note) : Prints (notes ns) := fun c => by
  -- the notes are told with the console's verbosity and colours as they were at the start
  refine prints_forM (fun n => ?_) ns c
  split
  · split
    · exact prints_tell _
    · exact prints_pure
  · exact prints_tell _

theorem keeps_notes (ns : List Note) : Keeps (fun _ => True) (notes ns) :=
  (prints_notes ns).keeps

theorem keeps_orFail {ε : Type} {f : ε → Failure} (hf : ∀ x, (f x).exitCode ≠ 0) (e : Except ε α) :
    Keeps (fun a => e = .ok a) (orFail f e) := by
  cases e with
  | error x => exact Keeps.throw (hf x)
  | ok a => exact Keeps.pure rfl

theorem keeps_readLog (path : String) : Keeps (fun _ => True) (readLog path) := by
  unfold readLog
  refine keeps_disk.bind fun d _ => ?_
  split
  · exact Keeps.pure trivial
  · exact (keeps_notes _).bind fun _ _ => Keeps.pure trivial
  · exact Keeps.throw nofun

theorem keeps_explicitKey (src : LogSource) : Keeps (fun _ => True) (explicitKey src) := by
  unfold explicitKey
  split
  · exact (keeps_orFail (fun _ => by nofun) _).map fun _ _ => trivial
  · exact Keeps.pure trivial

/-- Reading a log, its caselist included, leaves the disk as it was. -/
theorem keeps_loadLog (src : LogSource) (path : String) : Keeps (fun _ => True) (loadLog src path) := by
  unfold loadLog
  refine (keeps_readLog path).bind fun text _ => (keeps_explicitKey src).bind fun explicit _ => ?_
  split
  · -- an autotest log: the key given, or the one it names
    cases explicit with
    | some k => exact (Keeps.pure (P := fun _ => True) trivial).bind fun _ _ => Keeps.pure trivial
    | none => exact (keeps_orFail (fun _ => by nofun) _).bind fun _ _ => Keeps.pure trivial
  · -- a raw log, with its caselist file read when one is given
    cases src.caselist with
    | none =>
      exact (Keeps.pure (P := fun _ => True) trivial).bind fun _ _ =>
        (keeps_notes _).bind fun _ _ => Keeps.pure trivial
    | some p =>
      refine keeps_disk.bind fun d _ => ?_
      split
      · exact (Keeps.pure (P := fun _ => True) trivial).bind fun _ _ =>
          (keeps_notes _).bind fun _ _ => Keeps.pure trivial
      · exact Keeps.throw nofun

end Session

end Cli

end Conformance
