import GameAP.Lib.Leases
import GameAP.Lib.Runs
import GameAP.Plugins.Tasks

/-!
# The runs of scheduled tasks

Every panel instance has its own registry and starts a run for each task whose slot has come.  A run
takes two locks that all instances share: one on the slot, which is never given back, and one on the
task, which it refreshes before every retry and releases at its end.

`TaskRun.step` is one run with its attempts, `Schedulers.step` the instances with their registries
and runs.  `TaskRun.Moves` and `Schedulers.Ran` say what a step can do, and `TaskRegistry.Ahead`
that no operation gives a task a slot that has passed.
-/

namespace GameAP

open Runs Tables Leases Table

/-! ### One run -/

def slotLockMinTTL : ℤ := seconds 5

def slotLockMaxTTL : ℤ := seconds 3600

def runLockSlack : ℤ := seconds 30

/-- The token of a lock: the run that has taken it, and which of its two locks it is. -/
inductive LockToken
  | slot (run : ℕ)
  | run (run : ℕ)
  deriving DecidableEq

/-- The locks that the instances share; a lock is free once its time has come. -/
abbrev TaskLocks := LeaseTable String LockToken Time

/-- The time of a lock has come. -/
def lockOver (expires now : Time) : Bool := decide (expires ≤ now)

inductive HandlerOutcome
  | ok
  | failed
  | panicked
  deriving DecidableEq

/-- The environment of a step: whether the lock service answers, whether the plugin can run here and
is enabled, whether the scheduler is stopping, how the call of the handler ends, and the jitter. -/
structure RunEnv extends Env where
  runnable : Bool := true
  enabled : Bool := true
  cancelled : Bool := false
  outcome : HandlerOutcome := .ok
  jitter : ℕ := 0
  deriving DecidableEq

/-- Where a run stands.  `lockedUntil` is the end of its lock on the task. -/
inductive RunPhase
  | resolve
  | acquireSlot
  | acquireRunLock
  | attempt (n : ℕ) (lockedUntil : Time)
  | calling (n : ℕ) (lockedUntil started : Time)
  | failed (n : ℕ) (lockedUntil : Time)
  | waiting (n : ℕ) (lockedUntil wakeAt : Time)
  | release (lockedUntil : Time)
  | clearRunning
  | done
  deriving DecidableEq

def RunPhase.lockedUntil : RunPhase → Option Time
  | .attempt _ t | .calling _ t _ | .failed _ t | .waiting _ t _ | .release t => some t
  | .resolve | .acquireSlot | .acquireRunLock | .clearRunning | .done => none

/-- The end of the lock of a run that is about to call the handler. -/
def RunPhase.attempts : RunPhase → Option Time
  | .attempt _ t => some t
  | _ => none

/-- A run of a task for a slot on an instance. -/
structure TaskRun where
  inst : ℕ
  key : TaskKey
  task : ScheduledTask
  slot : Time
  phase : RunPhase := .resolve
  slotUntil : Option Time := none
  invoked : Bool := false
  deriving DecidableEq

/-- The lock key of `acquireSlot`. -/
def slotKey (key : TaskKey) (slot : Time) : String :=
  "pluginscheduler:slot:" ++ toString key.pluginID ++ ":" ++ key.name ++ ":" ++ toString slot.unixMilli

/-- The lock key of `acquireRunLock`. -/
def runKey (key : TaskKey) : String :=
  "pluginscheduler:run:" ++ toString key.pluginID ++ ":" ++ key.name

/-- The timeout of a call. -/
def callTimeout (opts : SchedulerOptions) (taskTimeout : ℤ) : ℤ :=
  if 0 < taskTimeout then taskTimeout else opts.defaultCallTimeout

namespace TaskRun

variable (opts : SchedulerOptions) (r : TaskRun)

/-- The slot for which the run was started. -/
def ident : ℕ × TaskKey × Time := (r.inst, r.key, r.slot)

def timeout : ℕ := (callTimeout opts r.task.timeout).toNat

/-- When the call of the handler returns at the latest. -/
def returnsBy : Option Time :=
  match r.phase with
  | .calling _ _ started => some (started + r.timeout opts)
  | _ => none

/-- How long the slot is locked. -/
def slotTTL : ℕ := (min (max r.task.interval slotLockMinTTL) slotLockMaxTTL).toNat

/-- How long the task is locked at first. -/
def runTTL : ℕ := (callTimeout opts r.task.timeout + runLockSlack).toNat

/-- The time before a retry. -/
def retryDelay (e : RunEnv) : ℤ := r.task.retryDelay + e.jitter

/-- How long the task is locked before the next attempt. -/
def retryTTL (e : RunEnv) : ℤ := r.retryDelay e + callTimeout opts r.task.timeout + runLockSlack

/-- `Acquire`, by a service that may also fail. -/
def acquireLock (locks : TaskLocks) (key : String) (token : LockToken) (ttl : ℕ) (e : RunEnv) :
    Option TaskLocks :=
  if e.ok then Leases.acquire lockOver locks key ⟨token, e.now + ttl⟩ e.now else none

/-- `Refresh` of the lock on the task by run `j`. -/
def refreshLock (j : ℕ) (locks : TaskLocks) (e : RunEnv) : Option TaskLocks :=
  if e.ok && decide (0 < r.retryTTL opts e) then
    Leases.refresh (fun expires now => !lockOver expires now) locks (runKey r.key)
      ⟨.run j, e.now + (r.retryTTL opts e).toNat⟩ e.now
  else none

/-- One step of run `j`: `runTask` with `acquireSlot`, `acquireRunLock`, `runAttempts` and
`invoke`. -/
def step (j : ℕ) (locks : TaskLocks) (e : RunEnv) : Option (TaskLocks × TaskRun) :=
  match r.phase with
  | .resolve =>
    some (locks, { r with phase := if e.runnable then .acquireSlot else .clearRunning })
  | .acquireSlot =>
    match acquireLock locks (slotKey r.key r.slot) (.slot j) r.slotTTL e with
    | some locks' =>
      some (locks', { r with phase := .acquireRunLock, slotUntil := some (e.now + r.slotTTL) })
    | none => some (locks, { r with phase := .clearRunning })
  | .acquireRunLock =>
    match acquireLock locks (runKey r.key) (.run j) (r.runTTL opts) e with
    | some locks' => some (locks', { r with phase := .attempt 1 (e.now + r.runTTL opts) })
    | none => some (locks, { r with phase := .clearRunning })
  | .attempt n t =>
    if e.cancelled then some (locks, { r with phase := .release t })
    else if !e.enabled then some (locks, { r with phase := .failed n t })
    else some (locks, { r with phase := .calling n t e.now, invoked := true })
  | .calling n t _ =>
    match e.outcome with
    | .ok | .panicked => some (locks, { r with phase := .release t })
    | .failed => some (locks, { r with phase := .failed n t })
  | .failed n t =>
    if r.task.errorPolicy ≠ .retry ∨ r.task.maxRetries < n then
      some (locks, { r with phase := .release t })
    else if r.task.maxJitter.toNat < e.jitter then none
    else
      match r.refreshLock opts j locks e with
      | some locks' =>
        some (locks', { r with
          phase := .waiting n (e.now + (r.retryTTL opts e).toNat) (e.now + (r.retryDelay e).toNat) })
      | none => some (locks, { r with phase := .release t })
  | .waiting n t wakeAt =>
    if e.cancelled then some (locks, { r with phase := .release t })
    else if e.now < wakeAt then none
    else some (locks, { r with phase := .attempt (n + 1) t })
  | .release _ =>
    some (if e.ok then Leases.release locks (runKey r.key) (.run j) else locks,
      { r with phase := .clearRunning })
  | .clearRunning => some (locks, { r with phase := .done })
  | .done => none

end TaskRun

/-! ### The instances -/

/-- The slot of the task has come. -/
def TaskState.due (st : TaskState) (now : Time) : Bool := st.nextAt ≠ 0 && decide (st.nextAt ≤ now)

namespace TaskRegistry

variable (reg : TaskRegistry)

def fireDue (now : Time) : TaskRegistry :=
  Table.mapValues reg fun _ st =>
    if st.due now then { st with nextAt := nextSlot now st.task.interval, running := true } else st

/-- The runs that `fireDue` starts on an instance. -/
def started (inst : ℕ) (now : Time) : List TaskRun :=
  (reg.entries.filter fun entry => entry.2.due now && !entry.2.running).map fun entry =>
    { inst, key := entry.1, task := entry.2.task, slot := entry.2.nextAt }

/-- The run of a task is over. -/
def clearRunning (key : TaskKey) : TaskRegistry :=
  match reg.get key with
  | some st => reg.put key { st with running := false }
  | none => reg

/-- What `AddTask` does to the registry, when the table takes the row. -/
def addTask (opts : SchedulerOptions) (task : ScheduledTask) (now : Time) : TaskRegistry :=
  match validateTask opts task with
  | .error _ => reg
  | .ok task =>
    if reg.get task.key = none ∧ opts.maxTasksPerPlugin ≤ tasksOf reg task.pluginID then reg
    else reg.register task now

end TaskRegistry

/-- The registries of the instances, the locks and the runs that were started; run `j` is the one at
position `j`. -/
structure Schedulers where
  now : Time := 0
  registries : ℕ → TaskRegistry := fun _ => ∅
  locks : TaskLocks := ∅
  runs : List TaskRun := []

/-- What can happen on an instance, and the steps of the runs.  A refresh may find any rows. -/
inductive SchedulersOp
  | addTask (inst : ℕ) (task : ScheduledTask) (now : Time)
  | removeTask (inst : ℕ) (key : TaskKey) (now : Time)
  | removePluginTasks (inst pluginID : ℕ) (now : Time)
  | reload (inst : ℕ) (rows : List ScheduledTask) (now : Time)
  | fire (inst : ℕ) (now : Time)
  | advance (j : ℕ) (e : RunEnv)

/-- The time of a step. -/
def SchedulersOp.now : SchedulersOp → Time
  | .addTask _ _ now | .removeTask _ _ now | .removePluginTasks _ _ now | .reload _ _ now
  | .fire _ now => now
  | .advance _ e => e.now

namespace Schedulers

variable (opts : SchedulerOptions) (s : Schedulers)

/-- The registry of an instance changes. -/
def withRegistry (inst : ℕ) (reg : TaskRegistry) (now : Time) : Schedulers :=
  { s with now, registries := Function.update s.registries inst reg }

/-- One operation.  The clock does not go back. -/
def step (op : SchedulersOp) : Option Schedulers :=
  if op.now < s.now then none
  else
    match op with
    | .addTask inst task now =>
      some (s.withRegistry inst ((s.registries inst).addTask opts task now) now)
    | .removeTask inst key now => some (s.withRegistry inst (Table.del (s.registries inst) key) now)
    | .removePluginTasks inst pluginID now =>
      some (s.withRegistry inst
        (Table.delWhere (s.registries inst) fun key => key.pluginID = pluginID) now)
    | .reload inst rows now => some (s.withRegistry inst ((s.registries inst).merge rows now) now)
    | .fire inst now =>
      some { s.withRegistry inst ((s.registries inst).fireDue now) now with
        runs := s.runs ++ (s.registries inst).started inst now }
    | .advance j e =>
      s.runs[j]?.bind fun r => (r.step opts j s.locks e).map fun next =>
        { now := e.now
          registries :=
            if r.phase = .clearRunning then
              Function.update s.registries r.inst ((s.registries r.inst).clearRunning r.key)
            else s.registries
          locks := next.1
          runs := s.runs.set j next.2 }

/-- The assumptions on the environment: every call of the handler returns within its timeout, and a
run that comes to a slot does so before the lock of another instance on it has run out. -/
def Timely (op : SchedulersOp) : Prop :=
  (∀ r ∈ s.runs, ∀ t ∈ r.returnsBy opts, op.now ≤ t) ∧
  match op with
  | .advance j e => ∀ r ∈ s.runs[j]?, r.phase = .acquireSlot →
      ∀ r' ∈ s.runs, r'.inst ≠ r.inst → r'.key = r.key → r'.slot = r.slot →
        ∀ t ∈ r'.slotUntil, e.now < t
  | .addTask _ _ _ | .removeTask _ _ _ | .removePluginTasks _ _ _ | .reload _ _ _ | .fire _ _ => True

/-- A call of the handler that begins now ends, at the latest, before the lock on the task. -/
def Prompt (op : SchedulersOp) : Prop :=
  match op with
  | .advance j e => e.cancelled = false → e.enabled = true →
      ∀ r ∈ s.runs[j]?, ∀ t ∈ r.phase.attempts, e.now + r.timeout opts < t
  | .addTask _ _ _ | .removeTask _ _ _ | .removePluginTasks _ _ _ | .reload _ _ _ | .fire _ _ => True

instance (op : SchedulersOp) : Decidable (s.Timely opts op) := by
  cases op <;> unfold Timely <;> infer_instance

instance (op : SchedulersOp) : Decidable (s.Prompt opts op) := by
  cases op <;> unfold Prompt <;> infer_instance

end Schedulers

/-! ### What an operation does to the slots -/

theorem lockOver_lasting : Lasting lockOver := by
  intro expires s t hst hover
  exact decide_eq_true (le_trans (of_decide_eq_true hover) hst)

namespace TaskRegistry

variable {reg reg' reg'' : TaskRegistry} {now : Time} {key : TaskKey} {task : ScheduledTask}
  {st : TaskState}

/-- Every slot of the new registry is an old one, or it is still to come. -/
def Ahead (reg reg' : TaskRegistry) (now : Time) : Prop :=
  ∀ key st', reg'.get key = some st' →
    (∃ st, reg.get key = some st ∧ st'.nextAt = st.nextAt) ∨ st'.nextAt = 0 ∨ now < st'.nextAt

theorem Ahead.refl (reg : TaskRegistry) (now : Time) : Ahead reg reg now :=
  fun _ st hst => .inl ⟨st, hst, rfl⟩

theorem Ahead.trans (h : Ahead reg reg' now) (h' : Ahead reg' reg'' now) : Ahead reg reg'' now := by
  intro key st'' hst''
  rcases h' key st'' hst'' with ⟨st', hst', heq⟩ | hahead
  · rw [heq]
    exact h key st' hst'
  · exact .inr hahead

theorem ahead_put (h : st.nextAt = 0 ∨ now < st.nextAt ∨
    ∃ st₀, reg.get key = some st₀ ∧ st.nextAt = st₀.nextAt) : Ahead reg (reg.put key st) now := by
  intro key' st' hst'
  rw [get_put] at hst'
  split_ifs at hst' with hkey
  · cases hst'
    subst hkey
    rcases h with h | h | h
    · exact .inr (.inl h)
    · exact .inr (.inr h)
    · exact .inl h
  · exact .inl ⟨st', hst', rfl⟩

theorem ahead_put_nextSlot {interval : ℤ} (h : st.nextAt = nextSlot now interval) :
    Ahead reg (reg.put key st) now := by
  refine ahead_put ?_
  rw [h]
  rcases nextSlot_eq_zero_or_lt now interval with h | h
  · exact .inl h
  · exact .inr (.inl h)

theorem ahead_register : Ahead reg (reg.register task now) now := by
  unfold register
  cases reg.get task.key with
  | none | some => exact ahead_put_nextSlot rfl

theorem ahead_addTask (opts : SchedulerOptions) : Ahead reg (reg.addTask opts task now) now := by
  unfold addTask
  cases validateTask opts task with
  | error err => exact Ahead.refl reg now
  | ok task' =>
    dsimp only
    split_ifs
    · exact Ahead.refl reg now
    · exact ahead_register

theorem ahead_mergeTask : Ahead reg (mergeTask now reg task) now := by
  unfold mergeTask
  split_ifs
  · exact Ahead.refl reg now
  · cases hget : reg.get task.key with
    | none => exact ahead_put_nextSlot rfl
    | some st =>
      dsimp only
      split_ifs
      · exact ahead_put_nextSlot rfl
      · exact ahead_put (.inr (.inr ⟨st, hget, rfl⟩))

theorem ahead_delWhere (reg : TaskRegistry) (f : TaskKey → Bool) :
    Ahead reg (delWhere reg f) now := by
  intro key st hst
  rw [get_delWhere] at hst
  split_ifs at hst
  exact .inl ⟨st, hst, rfl⟩

theorem ahead_del (reg : TaskRegistry) (key : TaskKey) : Ahead reg (del reg key) now := by
  intro key' st hst
  rw [get_del] at hst
  split_ifs at hst
  exact .inl ⟨st, hst, rfl⟩

theorem ahead_foldl (rows : List ScheduledTask) :
    ∀ reg : TaskRegistry, Ahead reg (rows.foldl (mergeTask now) reg) now := by
  induction rows with
  | nil => exact fun reg => Ahead.refl reg now
  | cons task rows ih => exact fun reg => ahead_mergeTask.trans (ih _)

theorem ahead_fireDue : Ahead reg (reg.fireDue now) now := by
  intro key st' hst'
  unfold fireDue at hst'
  rw [get_mapValues] at hst'
  obtain ⟨st, hst, rfl⟩ := Option.map_eq_some_iff.1 hst'
  split_ifs
  · exact .inr (nextSlot_eq_zero_or_lt now st.task.interval)
  · exact .inl ⟨st, hst, rfl⟩

theorem ahead_clearRunning : Ahead reg (reg.clearRunning key) now := by
  unfold clearRunning
  cases hget : reg.get key with
  | none => exact Ahead.refl reg now
  | some st => exact ahead_put (.inr (.inr ⟨st, hget, rfl⟩))

variable {inst : ℕ} {r : TaskRun}

/-- A run is started for the slot of an entry that has come; the entry has another slot then. -/
theorem mem_started (h : r ∈ reg.started inst now) :
    r.inst = inst ∧ r.phase = .resolve ∧ r.slotUntil = none ∧ r.invoked = false ∧ r.slot ≤ now ∧
      r.slot ≠ 0 ∧ ∃ st, reg.get r.key = some st ∧ st.nextAt = r.slot := by
  obtain ⟨⟨key, st⟩, hmem, rfl⟩ := List.mem_map.1 h
  obtain ⟨hentry, hdue⟩ := List.mem_filter.1 hmem
  simp only [TaskState.due, Bool.and_eq_true, decide_eq_true_eq] at hdue
  exact ⟨rfl, rfl, rfl, rfl, hdue.1.2, hdue.1.1, st, get_eq_some_iff.2 hentry, rfl⟩

theorem started_ahead (h : r ∈ reg.started inst now) {st' : TaskState}
    (hst' : (reg.fireDue now).get r.key = some st') : st'.nextAt = 0 ∨ r.slot < st'.nextAt := by
  obtain ⟨-, -, -, -, hle, hne, st, hst, hslot⟩ := mem_started h
  have hdue : st.due now = true := by
    simp [TaskState.due, hslot, hne, hle]
  unfold fireDue at hst'
  rw [get_mapValues, hst, Option.map_some, if_pos hdue] at hst'
  cases hst'
  exact (nextSlot_eq_zero_or_lt now st.task.interval).imp_right (lt_of_le_of_lt hle)

theorem nodup_started (reg : TaskRegistry) (inst : ℕ) (now : Time) :
    ((reg.started inst now).map TaskRun.ident).Nodup := by
  have hkeys : ((reg.started inst now).map TaskRun.key).Nodup := by
    unfold started
    rw [List.map_map]
    exact (List.filter_sublist.map Sigma.fst).nodup reg.keys_nodup
  refine List.Nodup.of_map (fun x : ℕ × TaskKey × Time => x.2.1) ?_
  rw [List.map_map]
  exact hkeys

end TaskRegistry

/-! ### What a step of a run can do -/

open RunPhase

namespace TaskRun

variable {opts : SchedulerOptions} {r r' : TaskRun} {j : ℕ} {locks locks' : TaskLocks} {e : RunEnv}

/-- A step of run `j` takes or refreshes a lock, calls the handler, releases the lock on the task,
or changes nothing but the place of the run. -/
inductive Moves (opts : SchedulerOptions) (r : TaskRun) (j : ℕ) (locks : TaskLocks) (e : RunEnv) :
    TaskLocks → TaskRun → Prop
  | slot {locks' : TaskLocks} (hphase : r.phase = .acquireSlot)
    (h : Leases.acquire lockOver locks (slotKey r.key r.slot) ⟨.slot j, e.now + r.slotTTL⟩ e.now =
      some locks') :
    Moves opts r j locks e locks'
      { r with phase := .acquireRunLock, slotUntil := some (e.now + r.slotTTL) }
  | lock {locks' : TaskLocks} {t : Time} (hphase : r.phase = .acquireRunLock)
    (h : Leases.acquire lockOver locks (runKey r.key) ⟨.run j, t⟩ e.now = some locks') :
    Moves opts r j locks e locks' { r with phase := .attempt 1 t }
  | call {n : ℕ} {t : Time} (hphase : r.phase = .attempt n t) (hcancelled : e.cancelled = false)
    (henabled : e.enabled = true) :
    Moves opts r j locks e locks { r with phase := .calling n t e.now, invoked := true }
  | refresh {locks' : TaskLocks} {live : Time → Time → Bool} {n : ℕ} {t t' wakeAt : Time}
    (hphase : r.phase = .failed n t)
    (h : Leases.refresh live locks (runKey r.key) ⟨.run j, t'⟩ e.now = some locks') :
    Moves opts r j locks e locks' { r with phase := .waiting n t' wakeAt }
  | release : Moves opts r j locks e (Leases.release locks (runKey r.key) (.run j))
      { r with phase := .clearRunning }
  | quiet {phase : RunPhase} (hslot : phase ≠ .acquireRunLock)
    (hlock : ∀ t, phase.lockedUntil = some t → r.phase.lockedUntil = some t)
    (hcall : ∀ n t started, phase ≠ .calling n t started) :
    Moves opts r j locks e locks { r with phase }

theorem Moves.unlocked {phase : RunPhase} (hslot : phase ≠ .acquireRunLock)
    (hnone : phase.lockedUntil = none) : Moves opts r j locks e locks { r with phase } := by
  refine .quiet hslot (fun t ht => ?_) fun n t started hphase => ?_
  · rw [hnone] at ht
    cases ht
  · rw [hphase] at hnone
    cases hnone

theorem moves_of_step (h : r.step opts j locks e = some (locks', r')) :
    Moves opts r j locks e locks' r' := by
  unfold step at h
  cases hphase : r.phase with
  | resolve =>
    rw [hphase] at h
    cases h
    cases e.runnable with
    | true | false => exact .unlocked (by simp) rfl
  | acquireSlot =>
    rw [hphase] at h
    dsimp only [acquireLock] at h
    split at h
    · next locks₁ hacq =>
      split_ifs at hacq
      cases h
      exact .slot hphase hacq
    · cases h
      exact .unlocked (by simp) rfl
  | acquireRunLock =>
    rw [hphase] at h
    dsimp only [acquireLock] at h
    split at h
    · next locks₁ hacq =>
      split_ifs at hacq
      cases h
      exact .lock hphase hacq
    · cases h
      exact .unlocked (by simp) rfl
  | attempt n t =>
    rw [hphase] at h
    dsimp only at h
    split_ifs at h with hcanc henab <;> cases h
    any_goals exact .quiet nofun (by simp [hphase, lockedUntil]) nofun
    · exact .call hphase (by simpa using hcanc) (by simpa using henab)
  | calling n t started =>
    rw [hphase] at h
    cases houtc : e.outcome with
    | ok | panicked | failed =>
      rw [houtc] at h
      cases h
      exact .quiet nofun (by simp [hphase, lockedUntil]) nofun
  | failed n t =>
    rw [hphase] at h
    dsimp only [refreshLock] at h
    split_ifs at h with hpolicy hjitter hok
    · cases h
      exact .quiet nofun (by simp [hphase, lockedUntil]) nofun
    · split at h
      · next locks₁ hrefr =>
        cases h
        exact .refresh hphase hrefr
      · cases h
        exact .quiet nofun (by simp [hphase, lockedUntil]) nofun
    · cases h
      exact .quiet nofun (by simp [hphase, lockedUntil]) nofun
  | waiting n t wakeAt =>
    rw [hphase] at h
    dsimp only at h
    split_ifs at h <;> cases h <;> exact .quiet nofun (by simp [hphase, lockedUntil]) nofun
  | release t =>
    rw [hphase] at h
    dsimp only at h
    cases h
    cases e.ok with
    | true => exact .release
    | false => exact .unlocked (by simp) rfl
  | clearRunning =>
    rw [hphase] at h
    cases h
    exact .unlocked (by simp) rfl
  | done =>
    rw [hphase] at h
    cases h

section

variable (h : Moves opts r j locks e locks' r')
include h

theorem Moves.ident : r'.ident = r.ident := by
  cases h <;> rfl

theorem Moves.spares :
    ∃ token, (token = .slot j ∨ token = .run j) ∧ Spares lockOver e.now token locks locks' := by
  cases h with
  | slot hphase h => exact ⟨_, .inl rfl, spares_acquire lockOver_lasting (le_refl _) h⟩
  | lock hphase h => exact ⟨_, .inr rfl, spares_acquire lockOver_lasting (le_refl _) h⟩
  | call | quiet => exact ⟨_, .inl rfl, Spares.refl _ _ _ _⟩
  | refresh hphase h => exact ⟨_, .inr rfl, spares_refresh h⟩
  | release => exact ⟨_, .inr rfl, spares_release⟩

theorem Moves.slotUntil : r'.slotUntil = r.slotUntil ∨ r.phase = .acquireSlot ∧ ∃ l,
      Leases.acquire lockOver locks (slotKey r.key r.slot) l e.now = some locks' := by
  cases h with
  | slot hphase h => exact .inr ⟨hphase, _, h⟩
  | lock | call | refresh | release | quiet => exact .inl rfl

end

end TaskRun

/-! ### What an operation of the schedulers can do -/

namespace Schedulers

variable {opts : SchedulerOptions} {s s' : Schedulers} {op : SchedulersOp} {i j : ℕ} {r r' : TaskRun}

/-- The runs after an operation: new ones are started on an instance, or one run makes a step. -/
inductive Ran (opts : SchedulerOptions) (s : Schedulers) (op : SchedulersOp) (s' : Schedulers) : Prop
  | same (hlocks : s'.locks = s.locks) (hruns : s'.runs = s.runs)
  | fired (inst : ℕ) (hlocks : s'.locks = s.locks)
    (hruns : s'.runs = s.runs ++ (s.registries inst).started inst op.now)
    (hregistry : s'.registries inst = (s.registries inst).fireDue op.now)
  | moved (j : ℕ) (e : RunEnv) (r r' : TaskRun) (hop : op = .advance j e) (hr : s.runs[j]? = some r)
    (hmoves : r.Moves opts j s.locks e s'.locks r') (hruns : s'.runs = s.runs.set j r')

open TaskRegistry

theorem ahead_withRegistry {reg : TaskRegistry} {now : Time}
    (h : Ahead (s.registries inst) reg now) (inst' : ℕ) :
    Ahead (s.registries inst') ((s.withRegistry inst reg now).registries inst') now := by
  by_cases heq : inst' = inst
  · subst heq
    simpa [withRegistry] using h
  · simpa [withRegistry, heq] using Ahead.refl (s.registries inst') now

theorem step_eq_some (h : s.step opts op = some s') : s.now ≤ op.now ∧ s'.now = op.now ∧
    (∀ inst, Ahead (s.registries inst) (s'.registries inst) op.now) ∧
    Ran opts s op s' := by
  unfold step at h
  split_ifs at h with hlt
  refine ⟨Nat.not_lt.1 hlt, ?_⟩
  cases op with
  | addTask inst task now =>
    cases h
    exact ⟨rfl, ahead_withRegistry (ahead_addTask opts), .same rfl rfl⟩
  | removeTask inst key now =>
    cases h
    exact ⟨rfl, ahead_withRegistry (ahead_del _ key), .same rfl rfl⟩
  | removePluginTasks inst pluginID now =>
    cases h
    exact ⟨rfl, ahead_withRegistry (ahead_delWhere _ _), .same rfl rfl⟩
  | reload inst rows now =>
    cases h
    exact ⟨rfl, ahead_withRegistry ((ahead_foldl rows _).trans (ahead_delWhere _ _)), .same rfl rfl⟩
  | fire inst now =>
    cases h
    exact ⟨rfl, ahead_withRegistry ahead_fireDue,
      .fired inst rfl rfl (Function.update_self inst _ s.registries)⟩
  | advance j e =>
    obtain ⟨r, hr, h⟩ := Option.bind_eq_some_iff.1 h
    obtain ⟨⟨locks', r'⟩, hstep, rfl⟩ := Option.map_eq_some_iff.1 h
    refine ⟨rfl, fun inst => ?_, .moved j e r r' rfl hr (TaskRun.moves_of_step hstep) rfl⟩
    split_ifs
    · have hclear : Ahead (s.registries r.inst)
          ((s.registries r.inst).clearRunning r.key) e.now := ahead_clearRunning
      exact ahead_withRegistry hclear inst
    · exact Ahead.refl _ _

end Schedulers

end GameAP
