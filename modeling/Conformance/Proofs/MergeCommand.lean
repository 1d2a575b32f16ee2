import Conformance.Proofs.SessionSteps
import Conformance.Proofs.MergeLoads
import Conformance.Proofs.TallyViews

/-!
# The merge command

`merge` takes the logs one after another, and a log comes to one of the ends of `Session.Fate`
(`Session.mergeOne_fate`): it cannot be read, names no baseline, records an incomplete run
where complete runs are required, holds no results, or is merged into its key's baseline, the
only end that touches the disk. The command is a list of turns, one per log, each from the
console the one before left, and the verdict on their failures (`Session.merge_run`), which
gives the exit code of the first failure. On a disk shaped as a file system and under a root that
does not lead up, every baseline then loads as it loaded before, with the runs merged into it folded in, in order
(`Session.merge_command_merges_logs`), though a log that fails in its save may already have
changed its key's lists (`Session.failed_log_removes_a_list`). A merge command line reads its
settings and runs the merge with them (`Session.exec_merge`), under the flaky detection policy
the line gives, when it gives one (`Session.keeps_settings`).
-/

namespace Conformance

namespace Cli.Session

open Disk

variable {α β γ : Type}

/-! ## Stepping through a command -/

theorem run_bind_ok {m : Session α} {f : α → Session β} {c c' : Console} {a : α}
    (h : m.run.run c = (.ok a, c')) : (m >>= f).run.run c = (f a).run.run c' := by
  simp only [ExceptT.run_bind, StateT.run_bind, h]
  rfl

theorem run_bind_error {m : Session α} {f : α → Session β} {c c' : Console} {e : Failure}
    (h : m.run.run c = (.error e, c')) : (m >>= f).run.run c = (.error e, c') := by
  simp only [ExceptT.run_bind, StateT.run_bind, h]
  rfl

theorem run_throw_bind {f : α → Session β} {c : Console} {e : Failure} :
    (throw e >>= f).run.run c = (.error e, c) := rfl

theorem run_disk_bind {f : Disk → Session β} {c : Console} :
    (disk >>= f).run.run c = (f c.disk).run.run c := rfl

theorem run_setDisk_bind {f : Unit → Session β} {c : Console} {d : Disk} :
    (setDisk d >>= f).run.run c = (f ()).run.run { c with disk := d } := rfl

theorem run_attempt {m : Session α} (c : Console) :
    (tryCatch (Except.ok <$> m) (fun f => pure (.error f)) : Session (Except Failure α)).run.run c =
      (.ok (m.run.run c).1, (m.run.run c).2) := by
  rw [ExceptT.run_tryCatch, ExceptT.run_map, StateT.run_bind, StateT.run_map]
  rcases h : m.run.run c with ⟨r, c'⟩
  cases r <;> rfl

theorem run_checked (R : Except Failure γ → Console → Prop) {T : Session γ}
    {N : Session Unit} (hN : Prints N) {f : Failure} {first second : Bool} {c : Console}
    (refuse : first = true → second = true → R (.error f) c)
    (go : ∀ c', c'.disk = c.disk → (first = false ∨ second = false) → R (T.run.run c').1 (T.run.run c').2) :
    R ((if first = true then (if second = true then (throw f : Session Unit) >>= fun _ => N >>= fun _ => T
      else N >>= fun _ => T) else T).run.run c).1
      ((if first = true then (if second = true then (throw f : Session Unit) >>= fun _ => N >>= fun _ => T
      else N >>= fun _ => T) else T).run.run c).2 := by
  cases first with
  | false => exact go c rfl (.inl rfl)
  | true =>
    cases second with
    | true => exact refuse rfl rfl
    | false =>
      simp only [if_true, Bool.false_eq_true, if_false]
      rw [hN.run_bind]
      exact go _ (hN c).2 (.inr rfl)

/-! ## What one log comes to -/

/-- What merging one log from a console comes to: the result, and the disk it leaves. -/
inductive Fate (cfg : Settings) (store : Store) (src : LogSource) (path : String) (c : Console) :
    Except Failure (Option (Key × MergeSummary)) → Disk → Prop
  /-- The log cannot be read, or its caselist, or the key given for it is invalid. -/
  | unread {f : Failure} : ((loadLog src path).run.run c).1 = .error f →
      Fate cfg store src path c (.error f) c.disk
  /-- The log names no baseline. -/
  | keyless {log : LoadedLog} : ((loadLog src path).run.run c).1 = .ok log → log.key = none →
      Fate cfg store src path c (.error (.missingKey path)) c.disk
  /-- The log records an incomplete run, and complete runs are required. -/
  | incomplete {log : LoadedLog} {key : Key} : ((loadLog src path).run.run c).1 = .ok log →
      log.key = some key → log.completed = false → cfg.requireComplete = true →
      Fate cfg store src path c (.error (.incompleteRun path)) c.disk
  /-- The log holds no results: nothing is merged, and nothing fails. -/
  | empty {log : LoadedLog} {key : Key} : ((loadLog src path).run.run c).1 = .ok log →
      log.key = some key → (log.completed = true ∨ cfg.requireComplete = false) →
      (RunTally.ofPairs log.results).isEmpty = true → Fate cfg store src path c (.ok none) c.disk
  /-- The log's run is merged into its key's baseline, as one run under the configured flaky
  policy; the merge's failure is the log's. -/
  | merged {log : LoadedLog} {key : Key} : ((loadLog src path).run.run c).1 = .ok log →
      log.key = some key → (log.completed = true ∨ cfg.requireComplete = false) →
      (RunTally.ofPairs log.results).isEmpty = false →
      Fate cfg store src path c
        (((store.merge key (RunTally.ofPairs log.results) cfg.flakyDetection c.disk).answer.map
          fun summary => some (key, summary)).mapError (.merge key.display))
        (store.merge key (RunTally.ofPairs log.results) cfg.flakyDetection c.disk).disk

/-- Merging one log comes to one of its fates. -/
theorem mergeOne_fate (cfg : Settings) (store : Store) (src : LogSource) (path : String) (c : Console) :
    Fate cfg store src path c ((mergeOne cfg store src path).run.run c).1
      ((mergeOne cfg store src path).run.run c).2.disk := by
  obtain ⟨kept, -⟩ := keeps_loadLog src path c
  unfold mergeOne
  rcases read : (loadLog src path).run.run c with ⟨r, c1⟩
  rw [read] at kept
  cases r with
  | error f =>
    rw [run_bind_error read]
    exact kept ▸ Fate.unread (by rw [read])
  | ok log =>
    have read' : ((loadLog src path).run.run c).1 = .ok log := by rw [read]
    rw [run_bind_ok read]
    cases key : log.key with
    | none =>
      simp only
      rw [run_throw_bind]
      exact kept ▸ Fate.keyless read' key
    | some k =>
      simp only [pure_bind]
      refine run_checked (fun r c' => Fate cfg store src path c r c'.disk) (prints_notes _) ?_ ?_
      · intro incomplete required
        exact kept ▸ Fate.incomplete read' key (by simpa using incomplete) required
      · -- the run may be merged; the log was read, and a warning told, on the same disk
        intro c2 disk2 incomplete
        have passes : log.completed = true ∨ cfg.requireComplete = false := by simpa using incomplete
        replace disk2 : c2.disk = c.disk := disk2.trans kept
        split
        · rename_i empty
          rw [(prints_notes _).run_bind]
          exact ((prints_notes _) c2).2.trans disk2 ▸ Fate.empty read' key passes empty
        · rename_i nonempty
          rw [run_disk_bind, run_setDisk_bind, (prints_notes _).run_bind, disk2]
          have merged : Fate cfg store src path c _ _ := .merged read' key passes (by simpa using nonempty)
          have disk3 := (prints_notes (store.merge k (RunTally.ofPairs log.results) cfg.flakyDetection c.disk).notes
            { c2 with disk := (store.merge k (RunTally.ofPairs log.results) cfg.flakyDetection c.disk).disk }).2
          split
          · rename_i summary answer
            rw [answer] at merged
            exact disk3 ▸ merged
          · rename_i e answer
            rw [answer] at merged
            exact disk3 ▸ merged

theorem Fate.exitCode_ne_zero {cfg : Settings} {store : Store} {src : LogSource} {path : String}
    {c : Console} {r : Except Failure (Option (Key × MergeSummary))} {d : Disk}
    (h : Fate cfg store src path c r d) {f : Failure} (failed : r = .error f) : f.exitCode ≠ 0 := by
  cases h with
  | unread read =>
    cases failed
    exact (keeps_loadLog src path).error read
  | keyless => cases failed; nofun
  | incomplete => cases failed; nofun
  | empty => cases failed
  | @merged log key read hkey passes nonempty =>
    -- the merge failed to load or to save
    cases answer : (store.merge key (RunTally.ofPairs log.results) cfg.flakyDetection c.disk).answer with
    | ok summary => simp [answer, Except.map, Except.mapError] at failed
    | error e =>
      simp only [answer, Except.map, Except.mapError, Except.error.injEq] at failed
      subst failed
      cases e <;> nofun

/-! ## The turns of a merge command -/

/-- One log's turn in a merge command: the console it met, what merging it gave, and the
console it left once that was reported. -/
structure LogTurn where
  log : String
  met : Console
  result : Except Failure (Option (Key × MergeSummary))
  left : Console

/-- What a merge command prints of one log's result: the merge's report, nothing for a log
without results, or the failure. -/
def reportResult : Except Failure (Option (Key × MergeSummary)) → Session Unit
  | .ok (some (key, summary)) => present (mergeReport · key summary)
  | .ok none => pure ()
  | .error f => do tell (f.report (← get).errColors)

/-- Merges one log from a console and reports the result. -/
def mergeTurn (cfg : Settings) (store : Store) (src : LogSource) (log : String) (c : Console) :
    LogTurn :=
  let merged := (mergeOne cfg store src log).run.run c
  ⟨log, c, merged.1, ((reportResult merged.1).run.run merged.2).2⟩

/-- The turns of logs merged one after another, each from the console the one before left. -/
def mergeTurns (cfg : Settings) (store : Store) (src : LogSource) : List String → Console → List LogTurn
  | [], _ => []
  | log :: logs, c =>
    mergeTurn cfg store src log c :: mergeTurns cfg store src logs (mergeTurn cfg store src log c).left

/-- The console the turns leave. -/
def afterTurns (c : Console) (turns : List LogTurn) : Console := turns.foldl (fun _ t => t.left) c

theorem afterTurns_cons (c : Console) (t : LogTurn) (turns : List LogTurn) :
    afterTurns c (t :: turns) = afterTurns t.left turns := rfl

/-- The failure of a turn whose log could not be merged. -/
def LogTurn.failure? (t : LogTurn) : Option Failure :=
  match t.result with
  | .error f => some f
  | .ok _ => none

/-- The count of failures so far and the exit code of the first, after one more turn. -/
def LogTurn.tally (acc : Nat × Option Nat) (t : LogTurn) : Nat × Option Nat :=
  match t.failure? with
  | some f => (acc.1 + 1, acc.2.orElse fun _ => some f.exitCode)
  | none => acc

/-- How a merge command ends, given the failures of its logs in order: well when there are
none, and otherwise with their count and the first one's exit code. -/
def mergeVerdict (total : Nat) : List Failure → Except Failure Nat
  | [] => .ok ExitCode.ok
  | f :: rest => .error (.someLogsFailed (rest.length + 1) total f.exitCode)

theorem forIn_turns (cfg : Settings) (store : Store) (src : LogSource) {body : String → Nat × Option Nat → Session (ForInStep (Nat × Option Nat))}
    (step : ∀ log acc c, (body log acc).run.run c =
      (.ok (.yield ((mergeTurn cfg store src log c).tally acc)), (mergeTurn cfg store src log c).left))
    (logs : List String) (acc : Nat × Option Nat) (c : Console) :
    (forIn logs acc body).run.run c =
      (.ok ((mergeTurns cfg store src logs c).foldl LogTurn.tally acc),
        afterTurns c (mergeTurns cfg store src logs c)) := by
  induction logs generalizing acc c with
  | nil => rfl
  | cons log logs ih =>
    rw [List.forIn_cons, run_bind_ok (step log acc c)]
    exact ih _ _

theorem foldl_tally (turns : List LogTurn) (acc : Nat × Option Nat) :
    turns.foldl LogTurn.tally acc = (acc.1 + (turns.filterMap LogTurn.failure?).length,
      acc.2.orElse fun _ => (turns.filterMap LogTurn.failure?).head?.map Failure.exitCode) := by
  induction turns generalizing acc with
  | nil => cases acc; simp
  | cons t turns ih =>
    rw [List.foldl_cons, ih]
    unfold LogTurn.tally
    cases failed : t.failure? with
    | none => simp [failed]
    | some f => cases acc.2 <;> simp [failed, Nat.add_assoc, Nat.add_comm 1]

/-- A merge command is its turns, one per log in order, and ends as the verdict on their
failures says. -/
theorem merge_run (cfg : Settings) (store : Store) (src : LogSource) (logs : List String) (c : Console) :
    (merge cfg store src logs).run.run c =
      (mergeVerdict logs.length ((mergeTurns cfg store src logs c).filterMap LogTurn.failure?),
        afterTurns c (mergeTurns cfg store src logs c)) := by
  unfold merge
  dsimp only
  rw [run_bind_ok (forIn_turns cfg store src ?step logs (0, none) c), foldl_tally]
  · generalize (mergeTurns cfg store src logs c).filterMap LogTurn.failure? = failures
    cases failures with
    | nil => rfl
    | cons f rest =>
      simp only [Nat.zero_add, List.length_cons]
      rfl
  · -- each pass of the loop takes one turn: it merges the log and reports what that gave
    intro log acc c
    rw [run_bind_ok (run_attempt c)]
    unfold mergeTurn LogTurn.tally LogTurn.failure?
    rcases merged : (mergeOne cfg store src log).run.run c with ⟨r, c'⟩
    cases r with
    | error f => rfl
    | ok o =>
      cases o with
      | none => rfl
      | some p => rfl

theorem prints_reportResult (r : Except Failure (Option (Key × MergeSummary))) :
    Prints (reportResult r) := by
  cases r with
  | error f => exact fun c => prints_tell _ c
  | ok o =>
    cases o with
    | none => exact prints_pure
    | some p =>
      obtain ⟨key, summary⟩ := p
      rw [reportResult]
      exact prints_present _

theorem mergeTurn_fate (cfg : Settings) (store : Store) (src : LogSource) (log : String) (c : Console) :
    Fate cfg store src log c (mergeTurn cfg store src log c).result (mergeTurn cfg store src log c).left.disk := by
  have reported := (prints_reportResult ((mergeOne cfg store src log).run.run c).1
    ((mergeOne cfg store src log).run.run c).2).2
  unfold mergeTurn
  dsimp only
  rw [reported]
  exact mergeOne_fate cfg store src log c

/-! ## What each turn does to the store -/

/-- The change a turn made to the store: its log's run merged into its key, when that merge
took place. -/
def LogTurn.change? (src : LogSource) (policy : FlakyPolicy) (t : LogTurn) : Option Change :=
  match t.result, ((loadLog src t.log).run.run t.met).1 with
  | .ok (some (key, _)), .ok log => some (.merge key (RunTally.ofPairs log.results) policy)
  | _, _ => none

section Fates

variable {cfg : Settings} {store : Store} {src : LogSource} {path : String} {c : Console}
  {r : Except Failure (Option (Key × MergeSummary))} {d : Disk}

theorem Fate.tree (h : Fate cfg store src path c r d) (t : c.disk.Tree) (hs : store.NamedRoot) :
    d.Tree := by
  cases h with
  | unread => exact t
  | keyless => exact t
  | incomplete => exact t
  | empty => exact t
  | merged => exact Store.tree_merge t hs _

theorem Fate.load {t : LogTurn} (h : Fate cfg store src t.log t.met t.result d) (tree : t.met.disk.Tree)
    (hs : store.NamedRoot) (k : Key) (fit : NamesFit (store.jsonPath k)) :
    store.load k d = (store.load k t.met.disk).map fun b =>
      ((t.change? src cfg.flakyDetection).map (Change.step k b)).getD b := by
  obtain ⟨path, c, r, left⟩ := t
  dsimp only at h tree ⊢
  have unchanged : ∀ x : Except LoadError Baseline, x = x.map fun b =>
      ((none : Option Change).map (Change.step k b)).getD b := fun x => by cases x <;> rfl
  cases h with
  | unread read => exact unchanged _
  | keyless read => exact unchanged _
  | incomplete read => exact unchanged _
  | empty read => exact unchanged _
  | @merged log key read hkey passes nonempty =>
    cases answer : (store.merge key (RunTally.ofPairs log.results) cfg.flakyDetection c.disk).answer with
    | error e =>
      -- a failed merge is no change
      rw [Store.load_merge_of_error tree hs key k fit answer]
      simp only [LogTurn.change?, Except.map, Except.mapError]
      exact unchanged _
    | ok m =>
      rw [Store.load_merge_of_ok tree hs key k fit answer]
      simp [LogTurn.change?, read, Except.map, Except.mapError]

theorem Fate.load_of_error {t : LogTurn} (h : Fate cfg store src t.log t.met t.result d)
    (tree : t.met.disk.Tree) (hs : store.NamedRoot) {f : Failure} (failed : t.result = .error f)
    (k : Key) (fit : NamesFit (store.jsonPath k)) :
    store.load k d = store.load k t.met.disk := by
  rw [h.load tree hs k fit, LogTurn.change?, failed]
  cases store.load k t.met.disk <;> rfl

theorem Fate.change_isSome {t : LogTurn} (h : Fate cfg store src t.log t.met t.result d) :
    (t.change? src cfg.flakyDetection).isSome ↔ ∃ key summary, t.result = .ok (some (key, summary)) := by
  obtain ⟨path, c, r, left⟩ := t
  dsimp only at h ⊢
  constructor
  · intro changed
    cases r with
    | error f => simp [LogTurn.change?] at changed
    | ok o =>
      cases o with
      | none => simp [LogTurn.change?] at changed
      | some p => exact ⟨p.1, p.2, rfl⟩
  · rintro ⟨key, summary, merged⟩
    -- only a merge that took place gives a key and a summary
    cases h with
    | unread => cases merged
    | keyless => cases merged
    | incomplete => cases merged
    | empty => cases merged
    | merged read =>
      simp [LogTurn.change?, merged, read]

end Fates

/-! ## The turns one after another -/

section Turns

variable {cfg : Settings} {store : Store} {src : LogSource}

theorem log_mergeTurns (logs : List String) (c : Console) :
    (mergeTurns cfg store src logs c).map LogTurn.log = logs := by
  induction logs generalizing c with
  | nil => rfl
  | cons log logs ih => exact congrArg (log :: ·) (ih _)

theorem fate_of_mem_mergeTurns {logs : List String} {c : Console} {t : LogTurn}
    (mem : t ∈ mergeTurns cfg store src logs c) : Fate cfg store src t.log t.met t.result t.left.disk := by
  induction logs generalizing c with
  | nil => cases mem
  | cons log logs ih =>
    rcases List.mem_cons.mp mem with rfl | later
    · exact mergeTurn_fate cfg store src log c
    · exact ih later

theorem tree_of_mem_mergeTurns (hs : store.NamedRoot) {logs : List String} {c : Console}
    (tree : c.disk.Tree) {t : LogTurn} (mem : t ∈ mergeTurns cfg store src logs c) : t.met.disk.Tree := by
  induction logs generalizing c with
  | nil => cases mem
  | cons log logs ih =>
    rcases List.mem_cons.mp mem with rfl | later
    · exact tree
    · exact ih ((mergeTurn_fate cfg store src log c).tree tree hs) later

theorem load_afterTurns (hs : store.NamedRoot) (k : Key) (fit : NamesFit (store.jsonPath k))
    (logs : List String) {c : Console} (tree : c.disk.Tree) :
    store.load k (afterTurns c (mergeTurns cfg store src logs c)).disk =
      (store.load k c.disk).map fun b =>
        ((mergeTurns cfg store src logs c).filterMap (LogTurn.change? src cfg.flakyDetection)).foldl
          (Change.step k) b := by
  induction logs generalizing c with
  | nil =>
    simp only [mergeTurns, afterTurns, List.filterMap_nil, List.foldl_nil]
    cases store.load k c.disk <;> rfl
  | cons log logs ih =>
    -- the first turn's change, then the rest from the console it left
    have fate := mergeTurn_fate cfg store src log c
    have first := Fate.load (t := mergeTurn cfg store src log c) fate tree hs k fit
    rw [mergeTurns, afterTurns_cons, ih (fate.tree tree hs), first, List.filterMap_cons]
    change Except.map _ (Except.map _ (store.load k c.disk)) = _
    cases store.load k c.disk with
    | error e => rfl
    | ok b =>
      cases (mergeTurn cfg store src log c).change? src cfg.flakyDetection <;> rfl

theorem exitCode_ne_zero_of_mem_failures {logs : List String} {c : Console} {f : Failure}
    (mem : f ∈ (mergeTurns cfg store src logs c).filterMap LogTurn.failure?) : f.exitCode ≠ 0 := by
  obtain ⟨t, mem, failed⟩ := List.mem_filterMap.mp mem
  unfold LogTurn.failure? at failed
  split at failed
  · rename_i f' result
    cases failed
    exact (fate_of_mem_mergeTurns mem).exitCode_ne_zero result
  · cases failed

end Turns

/-! ## The command -/

/-- Working out the settings changes no disk, and a flaky detection policy given on the
command line is the one in force. -/
theorem keeps_settings (g : Globals) (cwd : Place) (policy : Option FlakyPolicy) :
    Keeps (fun s => ∀ p, policy = some p → s.flakyDetection = p) (settings g cwd policy) := by
  unfold settings
  refine keeps_disk.bind fun d _ => ?_
  dsimp only
  refine (keeps_notes _).bind fun _ _ =>
    (keeps_orFail (fun _ => by nofun) _).bind fun s _ => Keeps.pure ?_
  intro p given
  subst given
  rfl

/-- A merge command line runs the merge of its logs with the settings it was given, from the
console that reading the settings left. -/
theorem exec_merge {inv : Invocation} {cwd : Place} {logs : List String} {src : LogSource}
    {policy : Option FlakyPolicy} (command : inv.command = .merge logs src policy)
    {c₀ c : Console} {cfg : Settings}
    (configured : (settings inv.globals cwd policy).run.run c₀ = (.ok cfg, c)) :
    (exec inv cwd).run.run c₀ = (merge cfg ⟨cfg.expectationsDir⟩ src logs).run.run c := by
  unfold exec
  rw [command]
  exact run_bind_ok configured

/-- The exit code a command's result ends the program with. -/
def exitCodeOf : Except Failure Nat → Nat
  | .ok code => code
  | .error f => f.exitCode

/-- What a merge command does with its logs, from a console. When the console is what reading
the settings of a merge command line left, the settings hold the flaky policy the line gives,
if any, and the command line runs this merge. It takes one turn per log, in order, each from
the console the one before left, and each comes to one of its log's fates. A turn changes the
store exactly when its log was merged. The command ends with the exit code of the first log
that failed, which is not 0, or with 0 when none did. A log that fails changes no load, and
after the command every baseline loads as it loaded before, with the runs of the logs merged
into it folded in, in order, where the components of its path fit. -/
structure MergesLogs (cfg : Settings) (store : Store) (src : LogSource) (logs : List String)
    (c : Console) : Prop where
  commandLine : ∀ (inv : Invocation) (cwd : Place) (policy : Option FlakyPolicy) (c₀ : Console),
    inv.command = .merge logs src policy →
    (settings inv.globals cwd policy).run.run c₀ = (.ok cfg, c) →
      (∀ p, policy = some p → cfg.flakyDetection = p) ∧ c.disk = c₀.disk ∧
        (exec inv cwd).run.run c₀ = (merge cfg ⟨cfg.expectationsDir⟩ src logs).run.run c
  run : (merge cfg store src logs).run.run c =
    (mergeVerdict logs.length ((mergeTurns cfg store src logs c).filterMap LogTurn.failure?),
      afterTurns c (mergeTurns cfg store src logs c))
  everyLog : (mergeTurns cfg store src logs c).map LogTurn.log = logs
  fates : ∀ t ∈ mergeTurns cfg store src logs c, Fate cfg store src t.log t.met t.result t.left.disk
  changes : ∀ t ∈ mergeTurns cfg store src logs c,
    (t.change? src cfg.flakyDetection).isSome ↔ ∃ key summary, t.result = .ok (some (key, summary))
  exitCode : exitCodeOf ((merge cfg store src logs).run.run c).1 =
    (((mergeTurns cfg store src logs c).filterMap LogTurn.failure?).head?.map Failure.exitCode).getD
      ExitCode.ok
  succeeds : exitCodeOf ((merge cfg store src logs).run.run c).1 = 0 ↔
    (mergeTurns cfg store src logs c).filterMap LogTurn.failure? = []
  failedKeeps : ∀ t ∈ mergeTurns cfg store src logs c, ∀ f, t.result = .error f →
    ∀ k, NamesFit (store.jsonPath k) → store.load k t.left.disk = store.load k t.met.disk
  loads : ∀ k, NamesFit (store.jsonPath k) →
    store.load k (afterTurns c (mergeTurns cfg store src logs c)).disk =
      (store.load k c.disk).map fun b =>
        ((mergeTurns cfg store src logs c).filterMap (LogTurn.change? src cfg.flakyDetection)).foldl
          (Change.step k) b

theorem exitCodeOf_mergeVerdict (total : Nat) (failures : List Failure) :
    exitCodeOf (mergeVerdict total failures) = (failures.head?.map Failure.exitCode).getD ExitCode.ok := by
  cases failures <;> rfl

/-- A merge command on a disk shaped as a file system, under a store root that does not lead
up, merges each log on its own, in order: the runs of the logs that were merged are
folded into their keys' baselines, a log that fails changes no load and stops no other, a log
without results is neither merged nor a failure, and the command ends with the exit code of
the first failure, or 0 when there is none. -/
theorem merge_command_merges_logs (cfg : Settings) (store : Store) (src : LogSource)
    (logs : List String) (c : Console) (tree : c.disk.Tree) (hs : store.NamedRoot) :
    MergesLogs cfg store src logs c where
  commandLine inv cwd policy c₀ command configured := by
    have kept := keeps_settings inv.globals cwd policy c₀
    rw [configured] at kept
    exact ⟨kept.2, kept.1, exec_merge command configured⟩
  run := merge_run cfg store src logs c
  everyLog := log_mergeTurns logs c
  fates _ mem := fate_of_mem_mergeTurns mem
  changes _ mem := (fate_of_mem_mergeTurns mem).change_isSome
  exitCode := by rw [merge_run, exitCodeOf_mergeVerdict]
  succeeds := by
    rw [merge_run, exitCodeOf_mergeVerdict]
    cases failures : (mergeTurns cfg store src logs c).filterMap LogTurn.failure? with
    | nil => simp [ExitCode.ok]
    | cons f rest =>
      have nonzero := exitCode_ne_zero_of_mem_failures (failures ▸ List.mem_cons_self : f ∈ _)
      simp [nonzero]
  failedKeeps _ mem _ failed k fit :=
    (fate_of_mem_mergeTurns mem).load_of_error (tree_of_mem_mergeTurns hs tree mem) hs failed k fit
  loads k fit := load_afterTurns hs k fit logs tree

/-- Two logs, the first of which is not there: the command goes on to the second, on a disk
that holds only that log, under a root written `./store/`. -/
theorem merge_command_goes_past_a_missing_log :
    let store : Store := ⟨⟨"./store/", [".", "store", "."]⟩⟩
    let d : Disk := Disk.empty.put ["run.log"]
      (.file (Text.Utf8.encode "#beginTestCaseResult b\n#terminateTestCaseResult Crash\n"))
    let c : Console := { disk := d }
    c.disk.Tree ∧ store.NamedRoot ∧
      MergesLogs ⟨store.root, .anyOutcome, false⟩ store { gpu := some "gpu", filter := some "f" }
        ["missing.log", "run.log"] c := by
  intro store d c
  have tree : c.disk.Tree := @Tree.put _ tree_empty [] _ _ (get?_of_fixed _ rfl) (by decide) (by decide)
  have hs : store.NamedRoot := ⟨by decide, [], ["store"], by decide, .inl rfl, by decide⟩
  exact ⟨tree, hs, merge_command_merges_logs _ _ _ _ c tree hs⟩

/-- A log whose merge fails still changes the store: under the healthy against unhealthy
policy its failing case moves from the failures to the crashes, and the save removed the
key's list of failures as stale before the write of its crashes failed on a directory. -/
theorem failed_log_removes_a_list :
    let store : Store := ⟨⟨"store", ["store"]⟩⟩
    let k : Key := .mk "gpu" "f"
    let d : Disk := ((store.save k ⟨[(.fail, [.mk "b"]), (.pass, [.mk "a"])]⟩ Disk.empty).disk.createDirAll
      ⟨"store/gpu/f.Crash", ["store", "gpu", "f.Crash"]⟩).1.put ["run.log"]
      (.file (Text.Utf8.encode "#beginTestCaseResult b\n#terminateTestCaseResult Crash\n"))
    let cfg : Settings := ⟨store.root, .healthyVsUnhealthy, false⟩
    let after := (merge cfg store { gpu := some "gpu", filter := some "f" } ["run.log"]).run.run
      { disk := d }
    after.1 = .error (.someLogsFailed 1 1 108) ∧
      store.loadSubset k .fail d = .ok (some [.mk "b"]) ∧
      store.loadSubset k .fail after.2.disk = .ok none := by
  decide +kernel

end Cli.Session

end Conformance
