import GameAP.Domain
import GameAP.Lib.Tables

/-!
# The scheduled tasks of plugins

The definition of a task with its validation, the grid of the slots at which it is due, and the
registry in which the scheduler keeps the tasks in memory.  `AddTask` puts one task into the
registry, and a refresh merges all the rows of the table into it:
`TaskRegistry.taskAt_merge_findAll` says that nothing else is left in it then.

Durations are integers and count nanoseconds.  The identifiers and the times of the rows are left
out: nothing here reads them.
-/

namespace GameAP

open Tables Table List

/-! ### Definitions of tasks -/

/-- `PluginScheduledTaskErrorPolicy`; `other` are the texts that are no policy. -/
inductive ErrorPolicy
  | ignore
  | retry
  | other (text : String)
  deriving DecidableEq

/-- What identifies a task. -/
structure TaskKey where
  pluginID : ℕ
  name : String
  deriving DecidableEq

/-- `PluginScheduledTask`; durations count nanoseconds. -/
structure ScheduledTask where
  pluginID : ℕ
  name : String
  interval : ℤ
  errorPolicy : ErrorPolicy := .ignore
  maxRetries : ℕ := 0
  retryDelay : ℤ := 0
  maxJitter : ℤ := 0
  timeout : ℤ := 0
  deriving DecidableEq

/-- The key of a task. -/
def ScheduledTask.key (task : ScheduledTask) : TaskKey := ⟨task.pluginID, task.name⟩

/-- Seconds in nanoseconds. -/
def seconds (n : ℕ) : ℤ := n * 1000000000

/-- `Options`, as given. -/
structure SchedulerConfig where
  minInterval : ℤ := 0
  maxTasksPerPlugin : ℤ := 0
  defaultCallTimeout : ℤ := 0
  maxCallTimeout : ℤ := 0
  maxRetries : ℤ := 0
  maxRetryDelay : ℤ := 0
  maxJitter : ℤ := 0

/-- `Options`, after `applyDefaults`. -/
structure SchedulerOptions where
  minInterval : ℤ
  maxTasksPerPlugin : ℕ
  defaultCallTimeout : ℤ
  maxCallTimeout : ℤ
  maxRetries : ℕ
  maxRetryDelay : ℤ
  maxJitter : ℤ
  minInterval_pos : 0 < minInterval
  defaultCallTimeout_pos : 0 < defaultCallTimeout

/-- A value, or its default when it is not positive. -/
def orDefault (value fallback : ℤ) : ℤ := if value ≤ 0 then fallback else value

theorem orDefault_pos {value fallback : ℤ} (h : 0 < fallback) : 0 < orDefault value fallback := by
  unfold orDefault
  split_ifs with hvalue
  · exact h
  · omega

theorem seconds_pos {n : ℕ} (h : 0 < n) : 0 < seconds n := by
  unfold seconds
  omega

def SchedulerConfig.applyDefaults (o : SchedulerConfig) : SchedulerOptions where
  minInterval := orDefault o.minInterval (seconds 1)
  maxTasksPerPlugin := (orDefault o.maxTasksPerPlugin 32).toNat
  defaultCallTimeout := orDefault o.defaultCallTimeout (seconds 60)
  maxCallTimeout := orDefault o.maxCallTimeout (seconds 300)
  maxRetries := (orDefault o.maxRetries 10).toNat
  maxRetryDelay := orDefault o.maxRetryDelay (seconds 600)
  maxJitter := orDefault o.maxJitter (seconds 30)
  minInterval_pos := orDefault_pos (seconds_pos Nat.one_pos)
  defaultCallTimeout_pos := orDefault_pos (seconds_pos (Nat.succ_pos 59))

inductive SchedulerError
  | pluginUnknown
  | badName
  | shortInterval (interval minimum : ℤ)
  | unknownPolicy (policy : ErrorPolicy)
  | manyRetries (retries limit : ℕ)
  | badRetryDelay (limit : ℤ)
  | badJitter (limit : ℤ)
  | negativeTimeout
  | taskLimitReached (limit : ℕ)
  | notPersisted
  | notDeleted
  | pluginNotDeleted
  | notFetched
  deriving DecidableEq

/-- `taskNameRegex`. -/
def taskNameMatches (name : String) : Bool :=
  match name.toList with
  | [] => false
  | c :: cs =>
    c.isAlphanum && decide (cs.length ≤ 63) && cs.all fun c => c.isAlphanum || c = '_' || c = '-'

/-- The retries of a task. -/
def validateRetryPolicy (opts : SchedulerOptions) (task : ScheduledTask) :
    Except SchedulerError Unit :=
  if opts.maxRetries < task.maxRetries then .error (.manyRetries task.maxRetries opts.maxRetries)
  else if task.retryDelay < 0 ∨ opts.maxRetryDelay < task.retryDelay then
    .error (.badRetryDelay opts.maxRetryDelay)
  else if task.maxJitter < 0 ∨ opts.maxJitter < task.maxJitter then
    .error (.badJitter opts.maxJitter)
  else .ok ()

/-- The policy of a task that names none. -/
def ErrorPolicy.orIgnore : ErrorPolicy → ErrorPolicy
  | .other "" => .ignore
  | policy => policy

def validateTask (opts : SchedulerOptions) (task : ScheduledTask) :
    Except SchedulerError ScheduledTask :=
  if task.pluginID = 0 then .error .pluginUnknown
  else if !taskNameMatches task.name then .error .badName
  else if task.interval < opts.minInterval then .error (.shortInterval task.interval opts.minInterval)
  else if task.errorPolicy.orIgnore ≠ .ignore ∧ task.errorPolicy.orIgnore ≠ .retry then
    .error (.unknownPolicy task.errorPolicy.orIgnore)
  else
    match validateRetryPolicy opts task with
    | .error err => .error err
    | .ok () =>
      if task.timeout < 0 then .error .negativeTimeout
      else
        .ok { task with
          errorPolicy := task.errorPolicy.orIgnore
          timeout := min task.timeout opts.maxCallTimeout }

theorem validateTask_interval {opts : SchedulerOptions} {task task' : ScheduledTask}
    (h : validateTask opts task = .ok task') : 0 < task'.interval := by
  unfold validateTask at h
  have hmin := opts.minInterval_pos
  cases hretry : validateRetryPolicy opts task with
  | error err =>
    rw [hretry] at h
    split_ifs at h
  | ok u =>
    rw [hretry] at h
    split_ifs at h with hplug hname hint
    cases h
    dsimp only
    omega

/-! ### Slots -/

/-- The zero time when the interval is less than a millisecond. -/
def nextSlot (now : Time) (interval : ℤ) : Time :=
  let iv := interval.tdiv nanosPerMilli
  if iv ≤ 0 then 0 else Time.ofUnixMilli ((now.unixMilli.tdiv iv + 1) * iv)

theorem lt_ofUnixMilli {now : Time} {ms : ℤ} (h : now.unixMilli < ms) : now < Time.ofUnixMilli ms := by
  have hlt : (now - unixEpoch : ℤ) < ms * nanosPerMilli :=
    (Int.ediv_lt_iff_lt_mul (by decide)).1 h
  rw [Time.ofUnixMilli, Int.lt_toNat, Int.add_comm]
  exact Int.lt_add_of_sub_right_lt hlt

theorem nextSlot_eq_zero_or_lt (now : Time) (interval : ℤ) :
    nextSlot now interval = 0 ∨ now < nextSlot now interval := by
  unfold nextSlot
  dsimp only
  split_ifs with hiv
  · exact .inl rfl
  · exact .inr (lt_ofUnixMilli (Int.lt_tdiv_add_one_mul_self _ (Int.not_le.1 hiv)))

/-! ### The registry -/

/-- A task of the registry. -/
structure TaskState where
  task : ScheduledTask
  nextAt : Time
  running : Bool := false
  deriving DecidableEq

/-- The tasks of the scheduler in memory. -/
abbrev TaskRegistry := Table TaskKey TaskState

/-- The rows of the table, by their unique key. -/
abbrev TaskRows := Table TaskKey ScheduledTask

/-- How many entries a plugin has. -/
def tasksOf {ν : Type} (m : Table TaskKey ν) (pluginID : ℕ) : ℕ :=
  (m.keys.filter fun key => key.pluginID = pluginID).length

/-- All tasks of the table. -/
def TaskRows.findAll (rows : TaskRows) : List ScheduledTask := rows.entries.map Sigma.snd

namespace TaskRegistry

variable (reg : TaskRegistry)

/-- The definition that the registry has of a task. -/
def taskAt (key : TaskKey) : Option ScheduledTask := (reg.get key).map TaskState.task

/-- What `AddTask` does to the registry. -/
def register (task : ScheduledTask) (now : Time) : TaskRegistry :=
  match reg.get task.key with
  | some st => reg.put task.key { st with task, nextAt := nextSlot now task.interval }
  | none => reg.put task.key { task, nextAt := nextSlot now task.interval }

/-- What `reload` does with one row. -/
def mergeTask (now : Time) (reg : TaskRegistry) (task : ScheduledTask) : TaskRegistry :=
  if task.interval ≤ 0 then reg
  else
    match reg.get task.key with
    | none => reg.put task.key { task, nextAt := nextSlot now task.interval }
    | some st =>
      reg.put task.key
        { st with
          task
          nextAt := if st.task.interval ≠ task.interval then nextSlot now task.interval else st.nextAt }

/-- The keys that `reload` has seen. -/
def seen (tasks : List ScheduledTask) : List TaskKey :=
  (tasks.filter fun task => 0 < task.interval).map ScheduledTask.key

/-- `reload`, after it has read the rows. -/
def merge (tasks : List ScheduledTask) (now : Time) : TaskRegistry :=
  Table.delWhere (tasks.foldl (mergeTask now) reg) fun key => !(seen tasks).contains key

end TaskRegistry

/-! ### Counting -/

section Counting

variable {ν ν' : Type} {m : Table TaskKey ν} {m' : Table TaskKey ν'} {P : ℕ}

theorem nodup_tasksOf (m : Table TaskKey ν) (P : ℕ) :
    (m.keys.filter fun key => key.pluginID = P).Nodup := m.keys_nodup.filter _

theorem tasksOf_le (h : ∀ key v, key.pluginID = P → m.get key = some v → ∃ v', m'.get key = some v') :
    tasksOf m P ≤ tasksOf m' P := by
  refine (subperm_of_subset (nodup_tasksOf m P) fun key hkey => ?_).length_le
  obtain ⟨hmem, hP⟩ := mem_filter.1 hkey
  obtain ⟨v, hv⟩ := mem_keys_iff.1 hmem
  exact mem_filter.2 ⟨mem_keys_iff.2 (h key v (of_decide_eq_true hP) hv), hP⟩

theorem tasksOf_put_le (key : TaskKey) (v : ν) : tasksOf (m.put key v) P ≤ tasksOf m P + 1 := by
  have hsub : (put m key v).keys.filter (fun key => key.pluginID = P) ⊆
      key :: m.keys.filter fun key => key.pluginID = P := by
    intro key' hkey'
    obtain ⟨hmem, hP⟩ := mem_filter.1 hkey'
    obtain ⟨v', hv'⟩ := mem_keys_iff.1 hmem
    rw [get_put] at hv'
    split_ifs at hv' with heq
    · exact heq ▸ mem_cons_self
    · exact mem_cons_of_mem _ (mem_filter.2 ⟨mem_keys_iff.2 ⟨v', hv'⟩, hP⟩)
  exact (subperm_of_subset (nodup_tasksOf _ P) hsub).length_le

theorem tasksOf_put {max : ℕ} {key : TaskKey} (v : ν)
    (hroom : m.get key ≠ none ∨ tasksOf m key.pluginID < max) (hmax : tasksOf m P ≤ max) :
    tasksOf (m.put key v) P ≤ max := by
  by_cases hkey : m.get key ≠ none ∨ key.pluginID ≠ P
  · refine le_trans (tasksOf_le fun key' v' hP hv' => ?_) hmax
    rw [get_put] at hv'
    split_ifs at hv' with heq
    · subst heq
      rcases hkey with hne | hne
      · exact Option.ne_none_iff_exists'.1 hne
      · exact absurd hP hne
    · exact ⟨v', hv'⟩
  · push Not at hkey
    obtain ⟨hnone, rfl⟩ := hkey
    have hlt := hroom.resolve_left fun hne => hne hnone
    have hle := tasksOf_put_le (m := m) (P := key.pluginID) key v
    omega

end Counting

/-! ### What the operations do to the registry -/

variable {rows : TaskRows}

theorem TaskRows.mem_findAll {task : ScheduledTask} :
    task ∈ rows.findAll ↔ ∃ key, rows.get key = some task := by
  unfold TaskRows.findAll
  rw [mem_map]
  constructor
  · rintro ⟨⟨key, task'⟩, hmem, rfl⟩
    exact ⟨key, get_eq_some_iff.2 hmem⟩
  · rintro ⟨key, hkey⟩
    exact ⟨⟨key, task⟩, get_eq_some_iff.1 hkey, rfl⟩

namespace TaskRegistry

variable {reg : TaskRegistry} {now : Time} {task : ScheduledTask} {tasks : List ScheduledTask}
  {key : TaskKey}

section

variable (reg : TaskRegistry) (task : ScheduledTask) (now : Time)

theorem register_eq_put : ∃ st, st.task = task ∧ reg.register task now = reg.put task.key st := by
  unfold register
  cases reg.get task.key with
  | none | some => exact ⟨_, rfl, rfl⟩

theorem taskAt_register (key : TaskKey) :
    (reg.register task now).taskAt key = if key = task.key then some task else reg.taskAt key := by
  obtain ⟨st, htask, heq⟩ := register_eq_put reg task now
  unfold taskAt
  rw [heq, get_put]
  split_ifs
  · rw [Option.map_some, htask]
  · rfl

end

theorem mergeTask_eq (reg : TaskRegistry) (now : Time) (hpos : 0 < task.interval) :
    ∃ st, st.task = task ∧ mergeTask now reg task = reg.put task.key st := by
  unfold mergeTask
  rw [if_neg (by omega)]
  cases reg.get task.key with
  | none | some => exact ⟨_, rfl, rfl⟩

theorem taskAt_mergeTask : (mergeTask now reg task).taskAt key =
      if 0 < task.interval ∧ task.key = key then some task else reg.taskAt key := by
  by_cases hpos : 0 < task.interval
  · obtain ⟨st, htask, heq⟩ := mergeTask_eq reg now hpos
    unfold taskAt
    rw [heq, get_put]
    by_cases hkey : key = task.key
    · rw [if_pos hkey, if_pos ⟨hpos, hkey.symm⟩, Option.map_some, htask]
    · rw [if_neg hkey, if_neg fun h => hkey h.2.symm]
  · unfold mergeTask
    rw [if_pos (by omega), if_neg fun h => hpos h.1]

theorem taskAt_foldl_of_forall (h : ∀ task ∈ tasks, ¬(0 < task.interval ∧ task.key = key)) :
    TaskRegistry.taskAt (tasks.foldl (mergeTask now) reg) key = reg.taskAt key := by
  induction tasks generalizing reg with
  | nil => rfl
  | cons task tasks ih =>
    obtain ⟨htask, htasks⟩ := forall_mem_cons.1 h
    rw [foldl_cons, ih htasks, taskAt_mergeTask, if_neg htask]

theorem taskAt_foldl_of_mem (hmem : task ∈ tasks) (hpos : 0 < task.interval)
    (huniq : ∀ task' ∈ tasks, task'.key = task.key → task' = task) :
    TaskRegistry.taskAt (tasks.foldl (mergeTask now) reg) task.key = some task := by
  induction tasks generalizing reg with
  | nil => cases hmem
  | cons head tasks ih =>
    obtain ⟨hhead, htasks⟩ := forall_mem_cons.1 huniq
    rw [foldl_cons]
    by_cases hin : task ∈ tasks
    · exact ih hin htasks
    · obtain rfl : task = head := (mem_cons.1 hmem).resolve_right hin
      rw [taskAt_foldl_of_forall, taskAt_mergeTask, if_pos ⟨hpos, rfl⟩]
      rintro task' hmem' ⟨_, hkey'⟩
      exact hin (htasks task' hmem' hkey' ▸ hmem')

theorem mem_seen : key ∈ seen tasks ↔ ∃ task ∈ tasks, 0 < task.interval ∧ task.key = key := by
  simp [seen, and_assoc]

theorem taskAt_delWhere (reg : TaskRegistry) (f : TaskKey → Bool) (key : TaskKey) :
    TaskRegistry.taskAt (delWhere reg f) key = if f key then none else reg.taskAt key := by
  unfold taskAt
  rw [get_delWhere]
  split_ifs <;> rfl

theorem taskAt_del (reg : TaskRegistry) (key' key : TaskKey) :
    TaskRegistry.taskAt (del reg key') key = if key = key' then none else reg.taskAt key := by
  unfold taskAt
  rw [get_del]
  split_ifs <;> rfl

theorem taskAt_merge_findAll
    (hkeyed : ∀ key task, rows.get key = some task → task.key = key) (key : TaskKey) :
    (reg.merge rows.findAll now).taskAt key = (rows.get key).filter fun task => 0 < task.interval := by
  unfold merge
  rw [taskAt_delWhere]
  by_cases hseen : key ∈ seen rows.findAll
  · obtain ⟨task, hmem, hpos, rfl⟩ := mem_seen.1 hseen
    obtain ⟨key', hrow⟩ := TaskRows.mem_findAll.1 hmem
    obtain rfl : task.key = key' := hkeyed key' task hrow
    have huniq : ∀ task' ∈ rows.findAll, task'.key = task.key → task' = task := by
      intro task' hmem' hkey'
      obtain ⟨key'', hrow'⟩ := TaskRows.mem_findAll.1 hmem'
      rw [← hkeyed key'' task' hrow', hkey', hrow] at hrow'
      exact (Option.some.inj hrow').symm
    rw [if_neg (by simpa using hseen), hrow, taskAt_foldl_of_mem hmem hpos huniq,
      Option.filter_some, if_pos (decide_eq_true hpos)]
  · rw [if_pos (by simpa using hseen)]
    symm
    rw [Option.filter_eq_none_iff]
    intro task hrow hpos
    have hmem : task ∈ rows.findAll := TaskRows.mem_findAll.2 ⟨key, hrow⟩
    exact hseen (mem_seen.2 ⟨task, hmem, of_decide_eq_true hpos, hkeyed key task hrow⟩)

end TaskRegistry

end GameAP
