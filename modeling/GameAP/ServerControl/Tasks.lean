import GameAP.Lib.Runs
import GameAP.Repositories.DaemonTasks

/-!
# Commands for a game server

`servercontrol.Service`: `Start`, `Stop`, `Restart`, `Update`, `Install` and `Reinstall` create
tasks for the daemon.  Each of them asks whether a task of certain types is waiting or working for
the server, and then saves a new one; `Reinstall` saves three of them in a transaction.

* `addServerStart` to `addServerDelete` are one procedure with different types and messages;
* `next` makes the check and the save separate steps of a call, and with a task dispatcher there is
  a second save after the task was sent to the daemon;
* `OneActive`: no two tasks of a server that are waiting or working have the same type or are an
  update and an install.  It fails when another call saves its task between the check and the save
  (`two_starts`), and only then (`one_active_task`, `Alone`).

Of the server settings only their failures are in the model.
-/

namespace GameAP

open Runs DaemonTaskRepository Function DaemonTask List

namespace ServerControl

/-- A `domain.Server` with its start command. -/
structure GameServer extends Server where
  startCommand : Option String := none
  deriving DecidableEq

/-- Two types of tasks that should not be waiting or working at the same time. -/
def conflicts (a b : DaemonTaskType) : Bool :=
  a = b || a = .serverUpdate && b = .serverInstall || a = .serverInstall && b = .serverUpdate

/-- What distinguishes the functions `addServer…`: the type of the new task, the types in conflict
and the error if one is active, whether a start command is needed, and whether an id of zero is
set. -/
structure AddServerTask where
  name : String
  task : DaemonTaskType
  taskTypes : List DaemonTaskType
  alreadyExists : String
  needsStartCommand : Bool := false
  alwaysRunAft : Bool := false
  covers : ∀ t, conflicts task t = true → t ∈ taskTypes

def addServerStart : AddServerTask where
  name := "start"
  task := .serverStart
  taskTypes := [.serverStart]
  alreadyExists := "task 'server start' already exists"
  needsStartCommand := true
  alwaysRunAft := true
  covers t := by cases t <;> decide

def addServerStop : AddServerTask where
  name := "stop"
  task := .serverStop
  taskTypes := [.serverStop]
  alreadyExists := "task 'server stop' already exists"
  covers t := by cases t <;> decide

def addServerRestart : AddServerTask where
  name := "restart"
  task := .serverRestart
  taskTypes := [.serverRestart]
  alreadyExists := "task 'server restart' already exists"
  needsStartCommand := true
  covers t := by cases t <;> decide

def addServerUpdate : AddServerTask where
  name := "update"
  task := .serverUpdate
  taskTypes := [.serverUpdate, .serverInstall]
  alreadyExists := "server update/install task is already in progress"
  covers t := by cases t <;> decide

def addServerInstall : AddServerTask where
  name := "install"
  task := .serverInstall
  taskTypes := [.serverUpdate, .serverInstall]
  alreadyExists := "server update/install task is already in progress"
  covers t := by cases t <;> decide

def addServerDelete : AddServerTask where
  name := "delete"
  task := .serverDelete
  taskTypes := [.serverDelete]
  alreadyExists := "task 'server delete' already exists"
  covers t := by cases t <;> decide

/-- The task that is saved. -/
def AddServerTask.newTask (a : AddServerTask) (server : GameServer) (runAftID : ℕ) (now : Time) :
    DaemonTask where
  id := 0
  runAftID := if a.alwaysRunAft || 0 < runAftID then some runAftID else none
  createdAt := some now
  updatedAt := some now
  dedicatedServerID := server.dsID
  serverID := some server.id
  task := a.task
  status := .waiting

def workingTasksExist (r : DaemonTaskRepository) (server : GameServer)
    (taskTypes : List DaemonTaskType) : Bool :=
  r.exists_ { serverIDs := [some server.id], tasks := taskTypes, statuses := [.waiting, .working] }

/-- `serverCommandCorrectOrFail`. -/
def serverCommandCorrect (server : GameServer) : Bool :=
  match server.startCommand with
  | none => false
  | some command => command ≠ ""

/-! ### The calls -/

inductive Command
  | start
  | stop
  | restart
  | update
  | install
  | reinstall
  deriving DecidableEq

/-- The tasks that a command creates, each one to run after the one before. -/
def Command.adds : Command → AddServerTask × List AddServerTask
  | .start => (addServerStart, [])
  | .stop => (addServerStop, [])
  | .restart => (addServerRestart, [])
  | .update => (addServerUpdate, [])
  | .install => (addServerInstall, [])
  | .reinstall => (addServerStop, [addServerDelete, addServerInstall])

/-- Where a call stands. -/
inductive ControlStep
  | preEvent
  | updateAutostart
  | checkAll
  | check (a : AddServerTask) (runAftID : ℕ) (rest : List AddServerTask)
  | save (a : AddServerTask) (runAftID : ℕ) (rest : List AddServerTask)
  | send (t : DaemonTask) (rest : List AddServerTask)
  | saveAgain (t : DaemonTask) (rest : List AddServerTask)
  | commit (taskID : ℕ)
  | returned (result : Except String ℕ)

/-- A call; `pending` is what its transaction has saved. -/
structure ControlCall where
  command : Command
  server : GameServer
  step : ControlStep := .preEvent
  pending : List DaemonTask := []

/-- What the environment chooses: the time, the error of the operation if it fails, and the name and
the message of a plugin that cancels the command. -/
structure ControlEnv where
  now : Time
  err : Option String := none
  cancelled : Option (String × String) := none

/-- The task table.  `owner` says which call has taken an id in a transaction; the source has no
such thing. -/
structure TaskStore where
  tasks : DaemonTaskRepository
  owner : ℕ → Option ℕ := fun _ => none

/-- Whether it has a task dispatcher, and whether `tm` has transactions. -/
structure Service where
  taskDispatcher : Bool
  transactions : Bool

namespace ControlCall

variable (c : ControlCall)

def goto (step : ControlStep) : ControlCall := { c with step }

/-- The call returns an error; a transaction is rolled back. -/
def fail (err : String) : ControlCall := { c with step := .returned (.error err), pending := [] }

/-- `addServer…` returns an error. -/
def failAdd (a : AddServerTask) (err : String) : ControlCall :=
  match c.command with
  | .reinstall => c.fail ("failed to create " ++ a.name ++ " task" ++ ": " ++ err)
  | _ => c.fail err

def view (r : DaemonTaskRepository) : DaemonTaskRepository :=
  c.pending.foldl store r

end ControlCall

namespace Service

variable (svc : Service)

/-- The call runs in a transaction once it creates tasks. -/
def inTransaction (c : ControlCall) : Bool := svc.transactions && c.command = .reinstall

/-- The call after a save. -/
def created (c : ControlCall) (taskID : ℕ) : List AddServerTask → ControlCall
  | [] => c.goto (if svc.inTransaction c then .commit taskID else .returned (.ok taskID))
  | a :: rest => c.goto (.check a taskID rest)

/-- `Save` of a new task by call `i`: the store, the call and the task with its id. -/
def saveNew (i : ℕ) (s : TaskStore) (c : ControlCall) (t : DaemonTask) (now : Time) :
    TaskStore × ControlCall × DaemonTask :=
  let saved := (s.tasks.save now t).2
  if svc.inTransaction c then
    ({ s with tasks.nextID := s.tasks.freshID
              owner := Function.update s.owner s.tasks.freshID (some i) },
      { c with pending := c.pending ++ [saved] }, saved)
  else ({ s with tasks := (s.tasks.save now t).1 }, c, saved)

/-- `Save` of a task that has an id. -/
def saveOld (s : TaskStore) (c : ControlCall) (t : DaemonTask) (now : Time) :
    TaskStore × ControlCall :=
  if svc.inTransaction c then
    (s, { c with pending := c.pending.map fun p =>
      if p.id = t.id then stamp now t else p })
  else ({ s with tasks := (s.tasks.save now t).1 }, c)

/-- The error of a command that the plugin `name` has cancelled. -/
def cancelledByPlugin (name message : String) : String :=
  "cancelled by " ++ name ++ ": " ++ (if message = "" then name else message) ++ ": " ++
    "operation cancelled by plugin"

/-- The types that `Reinstall` asks for first. -/
def allTypes : List DaemonTaskType :=
  [.serverStart, .serverStop, .serverRestart, .serverUpdate, .serverInstall, .serverDelete]

/-- The first task that the command creates. -/
def addFirst (c : ControlCall) : ControlCall := c.goto (.check c.command.adds.1 0 c.command.adds.2)

/-- One step of a call. -/
def next (i : ℕ) (s : TaskStore) (c : ControlCall) (e : ControlEnv) :
    Option (TaskStore × ControlCall) :=
  match c.step, e.err with
  | .preEvent, _ =>
    match e.cancelled, c.command with
    | some (name, message), _ => some (s, c.fail (cancelledByPlugin name message))
    | none, .start | none, .stop | none, .restart => some (s, c.goto .updateAutostart)
    | none, .update | none, .install => some (s, addFirst c)
    | none, .reinstall => some (s, c.goto .checkAll)
  | .updateAutostart, some err => some (s, c.fail err)
  | .updateAutostart, none => some (s, addFirst c)
  | .checkAll, some err => some (s, c.fail ("failed to check daemon task existence: " ++ err))
  | .checkAll, none =>
    if workingTasksExist s.tasks c.server allTypes then
      some (s, c.fail "another task already exists, please wait until it is completed")
    else some (s, addFirst c)
  | .check a _ _, some err =>
    some (s, c.failAdd a ("failed to check daemon task existence: " ++ err))
  | .check a runAftID rest, none =>
    if workingTasksExist (c.view s.tasks) c.server a.taskTypes then
      some (s, c.failAdd a a.alreadyExists)
    else if a.needsStartCommand && !serverCommandCorrect c.server then
      some (s, c.failAdd a "empty server start command")
    else some (s, c.goto (.save a runAftID rest))
  | .save a _ _, some err => some (s, c.failAdd a ("failed to dispatch daemon task: " ++ err))
  | .save a runAftID rest, none =>
    let (s, c, t) := svc.saveNew i s c (a.newTask c.server runAftID e.now) e.now
    some (s, if svc.taskDispatcher then c.goto (.send t rest) else svc.created c t.id rest)
  -- a task that cannot be sent stays in the table, and the second save may fail
  | .send t rest, some _ => some (s, svc.created c t.id rest)
  | .send t rest, none => some (s, c.goto (.saveAgain t rest))
  | .saveAgain t rest, some _ => some (s, svc.created c t.id rest)
  | .saveAgain t rest, none =>
    let (s, c) := svc.saveOld s c t e.now
    some (s, svc.created c t.id rest)
  | .commit _, some err => some (s, c.fail err)
  | .commit taskID, none =>
    some ({ s with tasks := c.view s.tasks },
      { c with step := .returned (.ok taskID), pending := [] })
  | .returned _, _ => none

end Service

/-- A call of the service, or a report of the daemon about one of its tasks. -/
inductive TaskCall
  | control (c : ControlCall)
  | report (taskID : ℕ) (status : DaemonTaskStatus)
  | reported

/-- Waiting or working. -/
def active (t : DaemonTask) : Bool := t.status = .waiting || t.status = .working

/-- A task that is waiting or working gets another status. -/
def reportStatus (r : DaemonTaskRepository) (taskID : ℕ) (status : DaemonTaskStatus) (now : Time) :
    DaemonTaskRepository :=
  match r.row taskID with
  | none => r
  | some t =>
    if active t then (r.save now (t.withoutOutput.withStatus status)).1 else r

/-- The calls and the reports, interleaved. -/
def Service.program (svc : Service) : Program TaskStore TaskCall ControlEnv where
  start
    | _, .control c => c.pending.isEmpty && match c.step with
      | .preEvent => true
      | _ => false
    | _, .report _ _ => true
    | _, .reported => false
  next
    | i, s, .control c, e => (svc.next i s c e).map fun r => (r.1, .control r.2)
    | _, s, .report taskID status, e =>
      some ({ s with tasks := reportStatus s.tasks taskID status e.now }, .reported)
    | _, _, .reported, _ => none

/-! ### The property and the condition -/

/-- No two tasks of a server that are waiting or working are in conflict. -/
def OneActive (r : DaemonTaskRepository) : Prop :=
  ∀ id id' t t', r.row id = some t → r.row id' = some t' → t.serverID ≠ none →
    t.serverID = t'.serverID → active t = true → active t' = true →
    conflicts t.task t'.task = true → id = id'

/-- The types that the call has asked for and whose tasks it has yet to show to the others. -/
def ControlCall.claims (c : ControlCall) : List DaemonTaskType :=
  match c.step with
  | .save a _ _ => a.task :: c.pending.map DaemonTask.task
  | _ => c.pending.map DaemonTask.task

def TaskCall.claims (serverID : ℕ) : TaskCall → List DaemonTaskType
  | .control c => if c.server.id = serverID then c.claims else []
  | .report _ _ => []
  | .reported => []

namespace Service

variable (svc : Service)

/-- The types of the tasks that the next step of the call shows to the others. -/
def shows (c : ControlCall) : List DaemonTaskType :=
  match c.step with
  | .save a _ _ => if svc.inTransaction c then [] else [a.task]
  | .commit _ => c.pending.map DaemonTask.task
  | _ => []

/-- Nobody else has asked for a task in conflict with one that becomes visible now, the counter of
the ids does not wrap, and the second save of a task does not come after the task has ended. -/
def Alone (p : Pool TaskStore TaskCall) (i : ℕ) (call : TaskCall) (_ : ControlEnv) : Prop :=
  match call with
  | .control c =>
    (∀ t ∈ svc.shows c, ∀ j < p.calls.length, j ≠ i → ∀ d ∈ p.calls[j]?,
      ∀ t' ∈ d.claims c.server.id, conflicts t' t = false) ∧
    match c.step with
    | .save _ _ _ => p.store.tasks.nextID + 1 < 2 ^ 32
    | .saveAgain t _ =>
      svc.inTransaction c = true ∨ ∀ u ∈ p.store.tasks.row t.id, active u = true
    | _ => True
  | _ => True

end Service

instance (svc : Service) (p : Pool TaskStore TaskCall) (i : ℕ) :
    (call : TaskCall) → (e : ControlEnv) → Decidable (svc.Alone p i call e)
  | .control c, _ => by
    unfold Service.Alone
    have : Decidable (match c.step with
      | .save _ _ _ => p.store.tasks.nextID + 1 < 2 ^ 32
      | .saveAgain t _ =>
        svc.inTransaction c = true ∨ ∀ u ∈ p.store.tasks.row t.id, active u = true
      | _ => True) := by
      split <;> infer_instance
    infer_instance
  | .report _ _, _ | .reported, _ => .isTrue trivial

/-! ### What a step does to the table -/

structure Inv (s : TaskStore) : Prop where
  consistent : s.tasks.Consistent
  bounded : ∀ k t, s.tasks.row k = some t → k ≤ s.tasks.nextID
  oneActive : OneActive s.tasks

/-- No task of the server that is waiting or working is in conflict with type `t`. -/
def Quiet (r : DaemonTaskRepository) (serverID : ℕ) (t : DaemonTaskType) : Prop :=
  ∀ k u, r.row k = some u → u.serverID = some serverID → active u = true →
    conflicts t u.task = false

/-- A step of call `i` writes new rows, under ids that are new or that it has taken, and may change
the status of the old ones, but no task that has ended is active again. -/
structure Writes (i : ℕ) (rows : List DaemonTask) (s s' : TaskStore) : Prop where
  next : s.tasks.nextID ≤ s'.tasks.nextID
  owner : ∀ k ≤ s.tasks.nextID, s'.owner k = s.owner k
  free : ∀ p ∈ rows, s.tasks.row p.id = none ∧ p.id ≤ s'.tasks.nextID ∧
    (s.tasks.nextID < p.id ∨ s.owner p.id = some i)
  row : ∀ k u, s'.tasks.row k = some u →
    (∃ t, s.tasks.row k = some t ∧ u.task = t.task ∧ u.serverID = t.serverID ∧
      (active u = true → active t = true)) ∨ u ∈ rows ∧ u.id = k
  kept : ∀ k t, s.tasks.row k = some t →
    ∃ u, s'.tasks.row k = some u ∧ u.task = t.task ∧ u.serverID = t.serverID

section Writes

variable {i : ℕ} {rows : List DaemonTask} {s s' : TaskStore}

theorem Writes.refl (i : ℕ) (s : TaskStore) : Writes i [] s s :=
  ⟨le_rfl, fun _ _ => rfl, forall_mem_nil _, fun _ u hu => .inl ⟨u, hu, rfl, rfl, id⟩,
    fun _ t ht => ⟨t, ht, rfl, rfl⟩⟩

theorem conflicts_comm (a b : DaemonTaskType) : conflicts a b = conflicts b a := by
  cases a <;> cases b <;> rfl

theorem Quiet.writes {serverID : ℕ} {t : DaemonTaskType} (h : Quiet s.tasks serverID t)
    (hw : Writes i rows s s')
    (hrows : ∀ p ∈ rows, p.serverID = some serverID → conflicts t p.task = false) :
    Quiet s'.tasks serverID t := by
  intro k u hu hserv hact
  rcases hw.row k u hu with ⟨t', ht', htask, hserv', hact'⟩ | ⟨hmem, _⟩
  · rw [htask]
    exact h k t' ht' (hserv'.symm.trans hserv) (hact' hact)
  · exact hrows u hmem hserv

/-- The property is kept when the new rows are in conflict neither with the old ones nor with each
other. -/
theorem Inv.writes (hs : Inv s) (hw : Writes i rows s s') (hcons : s'.tasks.Consistent)
    (hquiet : ∀ p ∈ rows, ∀ serverID, p.serverID = some serverID →
      Quiet s.tasks serverID p.task)
    (hapart : rows.Pairwise fun p q => conflicts p.task q.task = false) : Inv s' := by
  refine ⟨hcons, fun k u hu => ?_, ?_⟩
  · rcases hw.row k u hu with ⟨t, ht, _⟩ | ⟨hmem, rfl⟩
    · exact (hs.bounded k t ht).trans hw.next
    · exact (hw.free u hmem).2.1
  · -- an old row and a new one that are active
    have hmixed {k : ℕ} {t p : DaemonTask} (ht : s.tasks.row k = some t) (hp : p ∈ rows)
        (hsome : p.serverID ≠ none) (hserv : t.serverID = p.serverID) (hact : active t = true) :
        conflicts p.task t.task = false := by
      obtain ⟨x, hx⟩ := Option.ne_none_iff_exists'.1 hsome
      exact hquiet p hp x hx k t ht (hserv.trans hx) hact
    intro k k' u u' hu hu' hsome hserv hact hact' hconf
    rcases hw.row k u hu with ⟨t, ht, htask, hserv₁, hact₁⟩ | ⟨hmem, hid⟩ <;>
      rcases hw.row k' u' hu' with ⟨t', ht', htask', hserv₁', hact₁'⟩ | ⟨hmem', hid'⟩
    · rw [htask, htask'] at hconf
      rw [hserv₁] at hsome
      exact hs.oneActive k k' t t' ht ht' hsome (hserv₁.symm.trans (hserv.trans hserv₁'))
        (hact₁ hact) (hact₁' hact') hconf
    · have hfalse := hmixed ht hmem' (hserv ▸ hsome) (hserv₁.symm.trans hserv)
        (hact₁ hact)
      rw [htask, conflicts_comm, hfalse] at hconf
      cases hconf
    · have hfalse := hmixed ht' hmem hsome (hserv₁'.symm.trans hserv.symm) (hact₁' hact')
      rw [htask', hfalse] at hconf
      cases hconf
    · by_contra hne
      have hne' : u ≠ u' := fun heq => hne (hid.symm.trans ((congrArg DaemonTask.id heq).trans hid'))
      have : Std.Symm fun p q : DaemonTask => conflicts p.task q.task = false :=
        ⟨fun p q hpq => (conflicts_comm q.task p.task).trans hpq⟩
      rw [hapart.forall hmem hmem' hne'] at hconf
      cases hconf

end Writes

/-! ### The writes of the repository -/

section Repository

variable {r : DaemonTaskRepository} {rows : List DaemonTask} {k : ℕ}

theorem nextID_store (t : DaemonTask) : (r.store t).nextID = r.nextID := rfl

theorem nextID_save {t : DaemonTask} (ht : t.id ≠ 0) (now : Time) :
    (r.save now t).1.nextID = r.nextID := by
  cases h : r.row t.id with
  | none => rw [r.save_of_none ht h, nextID_store]
  | some old =>
    rw [r.save_of_some ht h, nextID_store]
    rfl

theorem freshID_of_lt (h : r.nextID + 1 < 2 ^ 32) : r.freshID = r.nextID + 1 := Nat.mod_eq_of_lt h

theorem row_foldl_store_of_ne (h : ∀ p ∈ rows, p.id ≠ k) :
    (rows.foldl store r).row k = r.row k := by
  induction rows generalizing r with
  | nil => rfl
  | cons p rows ih =>
    rw [foldl_cons, ih fun q hq => h q (mem_cons_of_mem p hq), r.row_store,
      update_of_ne (h p mem_cons_self).symm]

theorem row_foldl_store {u : DaemonTask} (h : (rows.foldl store r).row k = some u) :
    r.row k = some u ∨ u ∈ rows ∧ u.id = k := by
  induction rows generalizing r with
  | nil => exact .inl h
  | cons p rows ih =>
    rcases ih h with hrow | ⟨hmem, hid⟩
    · rw [r.row_store, update_apply] at hrow
      split_ifs at hrow with hk
      · cases hrow
        exact .inr ⟨mem_cons_self, hk.symm⟩
      · exact .inl hrow
    · exact .inr ⟨mem_cons_of_mem p hmem, hid⟩

theorem row_foldl_store_of_mem (hrows : rows.Pairwise fun p q => p.id ≠ q.id) {p : DaemonTask}
    (hp : p ∈ rows) : (rows.foldl store r).row p.id = some p := by
  induction rows generalizing r with
  | nil => cases hp
  | cons q rows ih =>
    rw [pairwise_cons] at hrows
    rw [foldl_cons]
    rcases mem_cons.1 hp with rfl | hp
    · rw [row_foldl_store_of_ne fun q hq => (hrows.1 q hq).symm, r.row_store, update_self]
    · exact ih hrows.2 hp

theorem nextID_foldl_store : (rows.foldl store r).nextID = r.nextID := by
  induction rows generalizing r with
  | nil => rfl
  | cons p rows ih => rw [foldl_cons, ih, nextID_store]

theorem consistent_foldl_store (hr : r.Consistent)
    (hrows : rows.Pairwise fun p q => p.id ≠ q.id)
    (hfree : ∀ p ∈ rows, p.id ≠ 0 ∧ r.row p.id = none) :
    (rows.foldl store r).Consistent := by
  induction rows generalizing r with
  | nil => exact hr
  | cons p rows ih =>
    rw [pairwise_cons] at hrows
    obtain ⟨hp, hnone⟩ := hfree p mem_cons_self
    have hstore := hr.store hp
    rw [hnone] at hstore
    refine ih hstore hrows.2 fun q hq => ?_
    obtain ⟨hq0, hqnone⟩ := hfree q (mem_cons_of_mem p hq)
    refine ⟨hq0, ?_⟩
    rw [r.row_store, update_of_ne (hrows.1 q hq).symm]
    exact hqnone

theorem workingTasksExist_iff (hr : r.Consistent) (server : GameServer)
    {taskTypes : List DaemonTaskType} (htypes : taskTypes ≠ []) :
    workingTasksExist r server taskTypes = true ↔ ∃ k t, r.row k = some t ∧
      t.serverID = some server.id ∧ t.task ∈ taskTypes ∧ active t = true := by
  rw [workingTasksExist, hr.exists_iff rfl]
  refine exists_congr fun k => exists_congr fun t => and_congr_right fun _ => ?_
  constructor
  · rintro ⟨_, _, hserv, htype, hstat⟩
    obtain ⟨x, hx, hmem⟩ := hserv (cons_ne_nil _ _)
    refine ⟨?_, htype htypes, ?_⟩
    · rw [hx, mem_singleton.1 hmem]
    · simpa [active] using hstat (cons_ne_nil _ _)
  · rintro ⟨hserv, htype, hact⟩
    refine ⟨fun h => absurd rfl h, fun h => absurd rfl h, fun _ => ⟨_, hserv, ?_⟩, fun _ => htype,
      fun _ => ?_⟩
    · exact mem_singleton_self _
    · simpa [active] using hact

end Repository

section Store

variable {i : ℕ} {s : TaskStore} {t u : DaemonTask}

theorem writes_save (ht : t.id ≠ 0) (hu : s.tasks.row t.id = some u) (htask : t.task = u.task)
    (hserv : t.serverID = u.serverID) (hact : active t = true → active u = true) (now : Time) :
    Writes i [] s { s with tasks := (s.tasks.save now t).1 } := by
  refine ⟨(nextID_save ht now).ge, fun _ _ => rfl, forall_mem_nil _, fun k v hv => ?_,
    fun k v hv => ?_⟩
  · left
    rw [s.tasks.row_save ht, update_apply] at hv
    split_ifs at hv with hk
    · cases hv
      subst hk
      exact ⟨u, hu, htask, hserv, hact⟩
    · exact ⟨v, hv, rfl, rfl, id⟩
  · rw [s.tasks.row_save ht]
    by_cases hk : k = t.id
    · subst hk
      rw [hu] at hv
      cases hv
      exact ⟨_, update_self .., htask, hserv⟩
    · exact ⟨v, by rw [update_of_ne hk]; exact hv, rfl, rfl⟩

/-- The new task as it is stored. -/
def withFreshID (s : TaskStore) (t : DaemonTask) (now : Time) : DaemonTask :=
  { stamp now t with id := s.tasks.freshID }

theorem row_freshID (hs : Inv s) (hwrap : s.tasks.nextID + 1 < 2 ^ 32) :
    s.tasks.row s.tasks.freshID = none := by
  rw [Option.eq_none_iff_forall_ne_some]
  intro u hu
  have hle := hs.bounded _ u hu
  rw [freshID_of_lt hwrap] at hle
  exact Nat.not_succ_le_self _ hle

theorem writes_saveNew (hs : Inv s) (ht : t.id = 0) (hwrap : s.tasks.nextID + 1 < 2 ^ 32)
    (now : Time) :
    Writes i [withFreshID s t now] s { s with tasks := (s.tasks.save now t).1 } := by
  have hnext : (s.tasks.save now t).1.nextID = s.tasks.freshID := by
    rw [s.tasks.save_of_new ht]
    rfl
  have hfree := row_freshID hs hwrap
  have hfresh := freshID_of_lt hwrap
  refine ⟨?_, fun _ _ => rfl, fun p hp => ?_, fun k v hv => ?_, fun k v hv => ?_⟩
  · show s.tasks.nextID ≤ (s.tasks.save now t).1.nextID
    rw [hnext, hfresh]
    exact Nat.le_succ _
  · obtain rfl := mem_singleton.1 hp
    exact ⟨hfree, hnext.ge, .inl (Nat.lt_of_lt_of_eq (Nat.lt_succ_self _) hfresh.symm)⟩
  · rw [s.tasks.row_save_new ht, update_apply] at hv
    split_ifs at hv with hk
    · cases hv
      exact .inr ⟨mem_singleton_self _, hk.symm⟩
    · exact .inl ⟨v, hv, rfl, rfl, id⟩
  · rw [s.tasks.row_save_new ht]
    have hk : k ≠ s.tasks.freshID := by
      rintro rfl
      rw [hfree] at hv
      cases hv
    exact ⟨v, by rw [update_of_ne hk]; exact hv, rfl, rfl⟩

theorem writes_reserve (hwrap : s.tasks.nextID + 1 < 2 ^ 32) :
    Writes i [] s { tasks := { s.tasks with nextID := s.tasks.freshID },
                    owner := update s.owner s.tasks.freshID (some i) } := by
  have hfresh := freshID_of_lt hwrap
  refine ⟨hfresh ▸ Nat.le_succ _, fun k hk => update_of_ne ?_ .., forall_mem_nil _,
    fun k v hv => .inl ⟨v, hv, rfl, rfl, id⟩, fun k v hv => ⟨v, hv, rfl, rfl⟩⟩
  rintro rfl
  rw [hfresh] at hk
  exact Nat.not_succ_le_self _ hk

theorem writes_commit {rows : List DaemonTask}
    (hrows : ∀ p ∈ rows, s.tasks.row p.id = none ∧ p.id ≤ s.tasks.nextID ∧ s.owner p.id = some i) :
    Writes i rows s { s with tasks := rows.foldl store s.tasks } := by
  refine ⟨nextID_foldl_store.ge, fun _ _ => rfl, fun p hp => ?_, fun k v hv => ?_, fun k v hv => ?_⟩
  · obtain ⟨hnone, hle, howner⟩ := hrows p hp
    exact ⟨hnone, hle.trans nextID_foldl_store.ge, .inr howner⟩
  · rcases row_foldl_store hv with hrow | hmem
    · exact .inl ⟨v, hrow, rfl, rfl, id⟩
    · exact .inr hmem
  · refine ⟨v, ?_, rfl, rfl⟩
    rw [← hv]
    refine row_foldl_store_of_ne fun p hp heq => ?_
    rw [← heq, (hrows p hp).1] at hv
    cases hv

end Store

/-! ### Steps of calls -/

/-- What holds of a row that the transaction of call `i` for a server has saved. -/
structure Saved (i : ℕ) (s : TaskStore) (server : GameServer) (p : DaemonTask) : Prop where
  owner : s.owner p.id = some i
  ne_zero : p.id ≠ 0
  le : p.id ≤ s.tasks.nextID
  free : s.tasks.row p.id = none
  server : p.serverID = some server.id
  active : active p = true

/-- The task that the call has created last: in its transaction, or in the table. -/
structure Created (svc : Service) (s : TaskStore) (c : ControlCall) (t : DaemonTask) : Prop where
  ne_zero : t.id ≠ 0
  server : t.serverID = some c.server.id
  active : active t = true
  pending : svc.inTransaction c = true → ∀ p ∈ c.pending, p.id = t.id → p.task = t.task
  row : svc.inTransaction c = false →
    ∃ u, s.tasks.row t.id = some u ∧ u.task = t.task ∧ u.serverID = t.serverID

/-- Two rows of a transaction. -/
def Apart (p q : DaemonTask) : Prop := p.id ≠ q.id ∧ conflicts p.task q.task = false

/-- What holds of call `i`: the types that it has asked for are quiet, its rows are its own, and
what it has asked for last is in conflict with none of them. -/
structure Holds (svc : Service) (i : ℕ) (s : TaskStore) (c : ControlCall) : Prop where
  quiet : ∀ t ∈ c.claims, Quiet s.tasks c.server.id t
  saved : ∀ p ∈ c.pending, Saved i s c.server p
  apart : c.pending.Pairwise Apart
  outside : svc.inTransaction c = false → c.pending = []
  step : match c.step with
    | .save a _ _ => ∀ p ∈ c.pending, conflicts p.task a.task = false
    | .send t _ | .saveAgain t _ => Created svc s c t
    | _ => True

open ControlCall

section Holds

variable {svc : Service} {i j : ℕ} {s s' : TaskStore} {c : ControlCall} {rows : List DaemonTask}
  {p : DaemonTask} {server : GameServer}

theorem Saved.writes (h : Saved j s server p)
    (hw : Writes i rows s s') (hne : ∀ u ∈ rows, u.id ≠ p.id) : Saved j s' server p := by
  refine ⟨(hw.owner p.id h.le).trans h.owner, h.ne_zero, h.le.trans hw.next, ?_, h.server, h.active⟩
  rw [Option.eq_none_iff_forall_ne_some]
  intro u hu
  rcases hw.row p.id u hu with ⟨t, ht, _⟩ | ⟨hmem, hid⟩
  · rw [h.free] at ht
    cases ht
  · exact hne u hmem hid

theorem Created.writes {t : DaemonTask} (h : Created svc s c t) (hw : Writes i rows s s') :
    Created svc s' c t := by
  refine ⟨h.ne_zero, h.server, h.active, h.pending, fun hout => ?_⟩
  obtain ⟨u, hu, htask, hserv⟩ := h.row hout
  obtain ⟨v, hv, htask', hserv'⟩ := hw.kept _ u hu
  exact ⟨v, hv, htask'.trans htask, hserv'.trans hserv⟩

/-- A step of another call that shows no task in conflict with what this one has asked for. -/
theorem Holds.writes (h : Holds svc j s c) (hw : Writes i rows s s') (hj : j ≠ i)
    (hrows : ∀ p ∈ rows, p.serverID = some c.server.id →
      ∀ t ∈ c.claims, conflicts t p.task = false) : Holds svc j s' c := by
  refine ⟨fun t ht => (h.quiet t ht).writes hw fun p hp hserv => hrows p hp hserv t ht,
    fun p hp => (h.saved p hp).writes hw fun u hu hid => ?_, h.apart, h.outside, ?_⟩
  · -- a new row has a new id or one that call `i` has taken
    obtain ⟨_, _, hlt | howner⟩ := hw.free u hu
    · exact Nat.not_lt.2 (h.saved p hp).le (hid ▸ hlt)
    · rw [hid, (h.saved p hp).owner] at howner
      exact hj (Option.some.inj howner)
  · have hstep := h.step
    split <;> rename_i heq <;> simp only [heq] at hstep
    exacts [hstep, hstep.writes hw, hstep.writes hw, trivial]

/-- The places where nothing is known but what is known of the transaction. -/
def Plain : ControlStep → Prop
  | .save _ _ _ | .send _ _ | .saveAgain _ _ => False
  | _ => True

theorem claims_of_plain (hstep : Plain c.step) : c.claims = c.pending.map task := by
  unfold claims
  split
  · rename_i heq
    rw [heq] at hstep
    exact hstep.elim
  · rfl

theorem holds_of_plain (hplain : Plain c.step)
    (hquiet : ∀ p ∈ c.pending, Quiet s.tasks c.server.id p.task)
    (hsaved : ∀ p ∈ c.pending, Saved i s c.server p) (hapart : c.pending.Pairwise Apart)
    (houts : svc.inTransaction c = false → c.pending = []) : Holds svc i s c := by
  refine ⟨fun t ht => ?_, hsaved, hapart, houts, ?_⟩
  · rw [claims_of_plain hplain] at ht
    obtain ⟨p, hp, rfl⟩ := mem_map.1 ht
    exact hquiet p hp
  · cases hstep : c.step with
    | save | send | saveAgain =>
      rw [hstep] at hplain
      exact hplain.elim
    | _ => trivial

theorem holds_of_nil (hpend : c.pending = []) (hplain : Plain c.step) : Holds svc i s c := by
  refine holds_of_plain hplain ?_ ?_ ?_ fun _ => hpend <;> rw [hpend]
  · exact forall_mem_nil _
  · exact forall_mem_nil _
  · exact .nil

theorem holds_fail (err : String) : Holds svc i s (c.fail err) := holds_of_nil rfl trivial

theorem holds_failAdd (a : AddServerTask) (err : String) : Holds svc i s (c.failAdd a err) := by
  unfold failAdd
  split <;> exact holds_fail _

theorem mem_claims_of_pending (hp : p ∈ c.pending) : p.task ∈ c.claims := by
  have hmem : p.task ∈ c.pending.map task := mem_map_of_mem hp
  unfold claims
  split
  · exact mem_cons_of_mem _ hmem
  · exact hmem

section

variable (h : Holds svc i s c)
include h

theorem Holds.goto {step : ControlStep} (hstep : Plain step) : Holds svc i s (c.goto step) :=
  holds_of_plain hstep (fun _ hp => h.quiet _ (mem_claims_of_pending hp)) h.saved h.apart h.outside

theorem Holds.created (taskID : ℕ) (rest : List AddServerTask) :
    Holds svc i s (svc.created c taskID rest) := by
  unfold Service.created
  split
  · refine h.goto ?_
    split_ifs <;> trivial
  · exact h.goto trivial

theorem Holds.consistent_view (hs : Inv s) : (c.view s.tasks).Consistent :=
  consistent_foldl_store hs.consistent (h.apart.imp And.left) fun p hp =>
    ⟨(h.saved p hp).ne_zero, (h.saved p hp).free⟩

theorem Holds.check (hs : Inv s) {a : AddServerTask}
    (hnone : workingTasksExist (c.view s.tasks) c.server a.taskTypes = false) (runAftID : ℕ)
    (rest : List AddServerTask) : Holds svc i s (c.goto (.save a runAftID rest)) := by
  have htypes : a.taskTypes ≠ [] := ne_nil_of_mem (a.covers a.task (by
    unfold conflicts
    simp))
  have hquiet : Quiet (c.view s.tasks) c.server.id a.task := by
    intro k u hu hserv hact
    rw [← Bool.not_eq_true] at hnone ⊢
    intro hconf
    exact hnone ((workingTasksExist_iff (h.consistent_view hs) c.server htypes).2
      ⟨k, u, hu, hserv, a.covers u.task hconf, hact⟩)
  refine ⟨fun t ht => ?_, h.saved, h.apart, h.outside, fun p hp => ?_⟩
  · rcases mem_cons.1 ht with rfl | ht
    · intro k u hu
      refine hquiet k u ?_
      rw [← hu]
      refine row_foldl_store_of_ne fun p hp heq => ?_
      rw [← heq, (h.saved p hp).free] at hu
      cases hu
    · obtain ⟨p, hp, rfl⟩ := mem_map.1 ht
      exact h.quiet _ (mem_claims_of_pending hp)
  · rw [conflicts_comm]
    exact hquiet p.id p (row_foldl_store_of_mem (h.apart.imp And.left) hp) (h.saved p hp).server
      (h.saved p hp).active

end

end Holds

open Service

section Steps

variable {svc : Service} {i : ℕ} {s s' : TaskStore} {c c' : ControlCall}

/-- What a step of a call does: the rows that it shows, and where the call stands then. -/
def Steps (svc : Service) (i : ℕ) (s : TaskStore) (c : ControlCall) (s' : TaskStore)
    (c' : ControlCall) : Prop :=
  ∃ rows, Writes i rows s s' ∧ Inv s' ∧ Holds svc i s' c' ∧
    ∀ p ∈ rows, p.task ∈ svc.shows c ∧ p.serverID = some c.server.id

theorem Steps.same (hs : Inv s) (h : Holds svc i s c') : Steps svc i s c s c' :=
  ⟨[], .refl i s, hs, h, forall_mem_nil _⟩

variable {a : AddServerTask} {runAftID : ℕ} {rest : List AddServerTask}

section

variable (hs : Inv s) (hc : Holds svc i s c) (hstep : c.step = .save a runAftID rest)
include hs hc hstep

theorem save_outside
    (hout : svc.inTransaction c = false) (hwrap : s.tasks.nextID + 1 < 2 ^ 32) (now : Time) :
    let t := withFreshID s (a.newTask c.server runAftID now) now
    let s' := { s with tasks := (s.tasks.save now (a.newTask c.server runAftID now)).1 }
    Steps svc i s c s' (c.goto (.send t rest)) := by
  intro t s'
  have hfresh := freshID_of_lt hwrap
  have hzero : s.tasks.freshID ≠ 0 := hfresh ▸ Nat.succ_ne_zero _
  have hfree := row_freshID hs hwrap
  have hw : Writes i [t] s s' := writes_saveNew hs rfl hwrap now
  have hclaim : a.task ∈ c.claims := by
    unfold claims
    rw [hstep]
    exact mem_cons_self
  have hpend := hc.outside hout
  refine ⟨[t], hw, hs.writes hw (hs.consistent.save_new rfl hzero hfree now) ?_
    (pairwise_singleton _ _), ?_, ?_⟩
  · intro p hp serverID hserv
    obtain rfl := mem_singleton.1 hp
    cases hserv
    exact hc.quiet a.task hclaim
  · have hclaims : (c.goto (.send t rest)).claims = [] := congrArg (map task) hpend
    refine ⟨?_, ?_, hc.apart, hc.outside, hzero, rfl, rfl, fun hin => ?_, fun _ => ?_⟩
    · rw [hclaims]
      exact fun t ht => (by cases ht)
    · show ∀ p ∈ c.pending, _
      rw [hpend]
      exact fun p hp => (by cases hp)
    · exact absurd (hout.symm.trans hin) Bool.false_ne_true
    · refine ⟨t, ?_, rfl, rfl⟩
      show (s.tasks.save now _).1.row s.tasks.freshID = some t
      rw [s.tasks.row_save_new rfl, update_self]
      rfl
  · intro p hp
    obtain rfl := mem_singleton.1 hp
    refine ⟨?_, rfl⟩
    unfold shows
    rw [hstep]
    simp only [hout]
    exact mem_singleton_self _

theorem save_inside
    (hin : svc.inTransaction c = true) (hwrap : s.tasks.nextID + 1 < 2 ^ 32) (now : Time) :
    let t := withFreshID s (a.newTask c.server runAftID now) now
    let s' : TaskStore := { tasks := { s.tasks with nextID := s.tasks.freshID },
                            owner := update s.owner s.tasks.freshID (some i) }
    Steps svc i s c s' (({ c with pending := c.pending ++ [t] } : ControlCall).goto
      (.send t rest)) := by
  intro t s'
  have hid : t.id = s.tasks.nextID + 1 := freshID_of_lt hwrap
  have hw : Writes i [] s s' := writes_reserve hwrap
  have hcons : s'.tasks.Consistent :=
    { hs.consistent with }
  have hne {p : DaemonTask} (hp : p ∈ c.pending) : p.id ≠ t.id := by
    have hle := (hc.saved p hp).le
    intro heq
    rw [heq, hid] at hle
    exact Nat.not_succ_le_self _ hle
  have hapart := hc.step
  rw [hstep] at hapart
  refine ⟨[], hw, hs.writes hw hcons (forall_mem_nil _) .nil, ?_,
    forall_mem_nil _⟩
  refine ⟨fun t' ht' => ?_, fun p hp => ?_, ?_, fun hout => ?_, ?_⟩
  · -- the type of the new task was asked for
    refine Quiet.writes (hc.quiet t' ?_) hw (forall_mem_nil _)
    obtain ⟨p, hp, rfl⟩ := mem_map.1 ht'
    rcases mem_append.1 hp with hp | hp
    · exact mem_claims_of_pending hp
    · obtain rfl := mem_singleton.1 hp
      unfold claims
      rw [hstep]
      exact mem_cons_self
  · rcases mem_append.1 hp with hp | hp
    · exact (hc.saved p hp).writes hw (forall_mem_nil _)
    · obtain rfl := mem_singleton.1 hp
      exact ⟨update_self .., hid ▸ Nat.succ_ne_zero _, le_rfl, row_freshID hs hwrap, rfl, rfl⟩
  · refine pairwise_append.2 ⟨hc.apart, pairwise_singleton _ _, fun p hp q hq => ?_⟩
    obtain rfl := mem_singleton.1 hq
    exact ⟨hne hp, hapart p hp⟩
  · exact absurd (hout.symm.trans hin) Bool.false_ne_true
  · refine ⟨hid ▸ Nat.succ_ne_zero _, rfl, rfl, fun _ p hp heq => ?_, fun hout => ?_⟩
    · rcases mem_append.1 hp with hp | hp
      · exact absurd heq (hne hp)
      · rw [mem_singleton.1 hp]
    · exact absurd (hout.symm.trans hin) Bool.false_ne_true

end

variable {t : DaemonTask} {step : ControlStep}

theorem saveAgain_outside (hs : Inv s) (hc : Holds svc i s c) (hstep : c.step = .saveAgain t rest)
    (hout : svc.inTransaction c = false) (hact : ∀ u ∈ s.tasks.row t.id, active u = true)
    (now : Time) :
    Steps svc i s c { s with tasks := (s.tasks.save now t).1 } (c.goto (.returned (.ok t.id))) := by
  have hcre := hc.step
  rw [hstep] at hcre
  obtain ⟨u, hu, htask, hserv⟩ := hcre.row hout
  have hw : Writes i [] s { s with tasks := (s.tasks.save now t).1 } :=
    writes_save hcre.ne_zero hu htask.symm hserv.symm (fun _ => hact u hu) now
  refine ⟨[], hw, hs.writes hw (hs.consistent.save hcre.ne_zero now)
    (forall_mem_nil _) .nil, ?_, forall_mem_nil _⟩
  exact holds_of_nil (hc.outside hout) trivial

theorem Holds.map_pending (hc : Holds svc i s c) {f : DaemonTask → DaemonTask}
    (hf : ∀ p ∈ c.pending, (f p).id = p.id ∧ (f p).task = p.task ∧ (f p).serverID = p.serverID ∧
      (active p = true → active (f p) = true))
    (hin : svc.inTransaction c = true) (hplain : Plain step) :
    Holds svc i s ({ c with step, pending := c.pending.map f } : ControlCall) := by
  refine holds_of_plain hplain (fun q hq => ?_) (fun q hq => ?_) ?_ fun hout => ?_
  · obtain ⟨p, hp, rfl⟩ := mem_map.1 hq
    rw [(hf p hp).2.1]
    exact hc.quiet _ (mem_claims_of_pending hp)
  · obtain ⟨p, hp, rfl⟩ := mem_map.1 hq
    obtain ⟨hid, _, hserv, hact⟩ := hf p hp
    obtain ⟨howner, hzero, hle, hfree, hserv', hact'⟩ := hc.saved p hp
    rw [← hid] at howner hzero hle hfree
    exact ⟨howner, hzero, hle, hfree, hserv.trans hserv', hact hact'⟩
  · rw [pairwise_map]
    refine hc.apart.imp_of_mem fun {p q} hp hq hapart => ?_
    unfold Apart
    rw [(hf p hp).1, (hf q hq).1, (hf p hp).2.1, (hf q hq).2.1]
    exact hapart
  · exact absurd (hout.symm.trans hin) Bool.false_ne_true

theorem saveAgain_inside (hc : Holds svc i s c)
    (hstep : c.step = .saveAgain t rest) (hin : svc.inTransaction c = true) (step : ControlStep)
    (hplain : Plain step) (now : Time) :
    Holds svc i s ({ c with
      step, pending := c.pending.map fun p =>
        if p.id = t.id then stamp now t else p } : ControlCall) := by
  have hcre := hc.step
  rw [hstep] at hcre
  refine hc.map_pending (fun p hp => ?_) hin hplain
  split_ifs with hid
  · exact ⟨hid.symm, (hcre.pending hin p hp hid).symm,
      hcre.server.trans (hc.saved p hp).server.symm, fun _ => hcre.active⟩
  · exact ⟨rfl, rfl, rfl, id⟩

theorem commit_spec (hs : Inv s) (hc : Holds svc i s c) {taskID : ℕ}
    (hstep : c.step = .commit taskID) :
    Steps svc i s c { s with tasks := c.view s.tasks }
      { c with step := .returned (.ok taskID), pending := [] } := by
  have hw : Writes i c.pending s { s with tasks := c.view s.tasks } :=
    writes_commit fun p hp =>
      ⟨(hc.saved p hp).free, (hc.saved p hp).le, (hc.saved p hp).owner⟩
  refine ⟨c.pending, hw, hs.writes hw (hc.consistent_view hs) ?_ (hc.apart.imp And.right),
    holds_of_nil rfl trivial, fun p hp => ⟨?_, (hc.saved p hp).server⟩⟩
  · intro p hp serverID hserv
    rw [(hc.saved p hp).server] at hserv
    cases hserv
    exact hc.quiet _ (mem_claims_of_pending hp)
  · unfold shows
    rw [hstep]
    exact mem_map_of_mem hp

theorem Holds.created_of_goto (h : Holds svc i s (c.goto step)) (taskID : ℕ)
    (rest : List AddServerTask) : Holds svc i s (svc.created c taskID rest) := by
  have hcre := h.created taskID rest
  cases rest <;> exact hcre

theorem Steps.created (h : Steps svc i s c s' (c'.goto step)) (taskID : ℕ)
    (rest : List AddServerTask) : Steps svc i s c s' (svc.created c' taskID rest) := by
  obtain ⟨rows, hw, hs', hholds, hrows⟩ := h
  exact ⟨rows, hw, hs', hholds.created_of_goto taskID rest, hrows⟩

variable {e : ControlEnv}

theorem save_spec (hs : Inv s) (hc : Holds svc i s c) (hstep : c.step = .save a runAftID rest)
    (hwrap : s.tasks.nextID + 1 < 2 ^ 32) (herr : e.err = none)
    (h : svc.next i s c e = some (s', c')) : Steps svc i s c s' c' := by
  have hsave : (s.tasks.save e.now (a.newTask c.server runAftID e.now)).2 =
      withFreshID s (a.newTask c.server runAftID e.now) e.now := by
    rfl
  unfold Service.next at h
  simp only [hstep, herr, saveNew, hsave] at h
  cases hin : svc.inTransaction c with
  | true =>
    have hspec := save_inside hs hc hstep hin hwrap e.now
    simp only [hin, if_true] at h
    split_ifs at h <;> cases h
    · exact hspec
    · exact hspec.created _ _
  | false =>
    have hspec := save_outside hs hc hstep hin hwrap e.now
    simp only [hin, Bool.false_eq_true, if_false] at h
    split_ifs at h <;> cases h
    · exact hspec
    · exact hspec.created _ _

theorem saveAgain_spec (hs : Inv s) (hc : Holds svc i s c) (hstep : c.step = .saveAgain t rest)
    (hact : svc.inTransaction c = true ∨ ∀ u ∈ s.tasks.row t.id, active u = true)
    (herr : e.err = none) (h : svc.next i s c e = some (s', c')) : Steps svc i s c s' c' := by
  unfold Service.next at h
  simp only [hstep, herr, saveOld] at h
  cases hin : svc.inTransaction c with
  | true =>
    simp only [hin, if_true] at h
    cases h
    refine .same hs ?_
    exact (saveAgain_inside hc hstep hin (.returned (.ok t.id)) trivial e.now).created_of_goto _ _
  | false =>
    simp only [hin, Bool.false_eq_true, if_false] at h
    cases h
    have hact' := hact.resolve_left fun htrue => Bool.false_ne_true (hin.symm.trans htrue)
    exact (saveAgain_outside hs hc hstep hin hact' e.now).created t.id rest

theorem next_spec {p : Pool TaskStore TaskCall} (hs : Inv p.store)
    (hc : Holds svc i p.store c) (hG : svc.Alone p i (.control c) e)
    (h : svc.next i p.store c e = some (s', c')) : Steps svc i p.store c s' c' := by
  have hnext := h
  have hcond := hG.2
  unfold Service.next at h
  split at h
  -- an operation that fails, and the steps that only go on
  all_goals try
    cases h
    first
      | exact .same hs (holds_fail _)
      | exact .same hs (holds_failAdd _ _)
      | exact .same hs (hc.goto trivial)
      | exact .same hs (hc.created _ _)
  · split at h <;> cases h
    · exact .same hs (holds_fail _)
    all_goals exact .same hs (hc.goto trivial)
  · split_ifs at h <;> cases h
    · exact .same hs (holds_fail _)
    · exact .same hs (hc.goto trivial)
  · split_ifs at h with hexists hcomm <;> cases h
    any_goals exact .same hs (holds_failAdd _ _)
    · exact .same hs (hc.check hs (Bool.eq_false_iff.2 hexists) _ _)
  · rename_i hstep herr
    simp only [hstep] at hcond
    exact save_spec hs hc hstep hcond herr hnext
  · rename_i hstep _
    cases h
    have hcre := hc.step
    rw [hstep] at hcre
    refine .same hs ⟨?_, hc.saved, hc.apart, hc.outside, ?_⟩
    · have hquiet := hc.quiet
      unfold claims at hquiet
      rw [hstep] at hquiet
      exact hquiet
    · exact { hcre with }
  · rename_i hstep herr
    simp only [hstep] at hcond
    exact saveAgain_spec hs hc hstep hcond herr hnext
  · rename_i hstep _
    cases h
    exact commit_spec hs hc hstep
  · cases h

end Steps

theorem report_spec {i : ℕ} {s : TaskStore} (hs : Inv s) (taskID : ℕ) (status : DaemonTaskStatus)
    (now : Time) :
    Writes i [] s { s with tasks := reportStatus s.tasks taskID status now } ∧
      Inv { s with tasks := reportStatus s.tasks taskID status now } := by
  unfold reportStatus
  split
  · exact ⟨.refl i s, hs⟩
  · rename_i t ht
    split_ifs with hact
    · obtain ⟨hid, hzero⟩ := hs.consistent.keyed taskID t ht
      have hzero' : (t.withoutOutput.withStatus status).id ≠ 0 := by
        rw [withStatus_id, withoutOutput_id, hid]
        exact hzero
      have hrow : s.tasks.row (t.withoutOutput.withStatus status).id = some t := by
        rw [withStatus_id, withoutOutput_id, hid]
        exact ht
      have hw : Writes i [] s
          { s with tasks := (s.tasks.save now (t.withoutOutput.withStatus status)).1 } :=
        writes_save hzero' hrow rfl rfl (fun _ => hact) now
      exact ⟨hw, hs.writes hw (hs.consistent.save hzero' now) (forall_mem_nil _) .nil⟩
    · exact ⟨.refl i s, hs⟩

/-! ### Whole runs -/

/-- What holds of position `i` of the pool. -/
def Slot (svc : Service) (s : TaskStore) (i : ℕ) : Option TaskCall → Prop
  | some (.control c) => Holds svc i s c
  | _ => True

theorem slot_starts {svc : Service} {s : TaskStore} {i : ℕ} {c : TaskCall}
    (hc : svc.program.start s c = true) : Slot svc s i (some c) := by
  cases c with
  | control c =>
    obtain ⟨hpend, hstep⟩ := (Bool.and_eq_true _ _).mp hc
    have hplain : Plain c.step := by
      split at hstep
      · rename_i heq
        rw [heq]
        trivial
      · cases hstep
    exact holds_of_nil (isEmpty_iff.1 hpend) hplain
  | report | reported => trivial

/-- The step of a call, whatever it is: what it writes is in conflict with nothing that another call
has asked for. -/
theorem slot_next {svc : Service} {p : Pool TaskStore TaskCall} {i : ℕ} {c c' : TaskCall}
    {e : ControlEnv} {s' : TaskStore} (hs : Inv p.store) (hc : Slot svc p.store i (some c))
    (hG : svc.Alone p i c e) (h : svc.program.next i p.store c e = some (s', c')) :
    ∃ rows, Writes i rows p.store s' ∧ Inv s' ∧ Slot svc s' i (some c') ∧
      ∀ q ∈ rows, ∀ j, j ≠ i → ∀ d : ControlCall, p.calls[j]? = some (.control d) →
        q.serverID = some d.server.id → ∀ t ∈ d.claims, conflicts t q.task = false := by
  cases c with
  | control c =>
    obtain ⟨⟨s₁, c₁⟩, hnext, heq⟩ := Option.map_eq_some_iff.1 h
    cases heq
    obtain ⟨rows, hw, hs', hholds, hrows⟩ := next_spec hs hc hG hnext
    refine ⟨rows, hw, hs', hholds, fun q hq j hj d hd hserv t ht => ?_⟩
    obtain ⟨hshows, hserv'⟩ := hrows q hq
    rw [hserv'] at hserv
    have hclaims : t ∈ (TaskCall.control d).claims c.server.id := by
      rw [TaskCall.claims, if_pos (Option.some.inj hserv).symm]
      exact ht
    exact hG.1 q.task hshows j (List.getElem?_eq_some_iff.1 hd).1 hj _ hd t hclaims
  | report taskID status =>
    cases h
    obtain ⟨hw, hs'⟩ := report_spec (i := i) hs taskID status e.now
    exact ⟨[], hw, hs', trivial, forall_mem_nil _⟩
  | reported => cases h

theorem slotsInv_step (svc : Service) :
    StableUnder svc.program.step (GuardedAt svc.Alone) (SlotsInv Inv (Slot svc)) := by
  refine Program.slotsInv_step (fun s i c _ hc _ => slot_starts hc)
    fun p i e c s' c' hs hslot hG hn => ?_
  obtain ⟨rows, hw, hs', hslot', hrows⟩ := slot_next hs hslot hG hn
  refine ⟨hs', hslot', fun j hj hx => ?_⟩
  cases hd : p.calls[j]? with
  | none => trivial
  | some d =>
    rw [hd] at hx
    cases d with
    | control d =>
      exact Holds.writes hx hw hj fun q hq hserv t ht => hrows q hq j hj d hd hserv t ht
    | report | reported => trivial

/-- **One active task of a kind**, if nobody saves or commits a task while another call stands
between the check and the save of a task in conflict with it. -/
theorem one_active_task (svc : Service) {r : DaemonTaskRepository} (hr : r.Consistent)
    (hids : ∀ k t, r.row k = some t → k ≤ r.nextID) (hone : OneActive r)
    {ms : List (Move TaskCall ControlEnv)} {p : Pool TaskStore TaskCall}
    (hG : Along svc.program.step (GuardedAt svc.Alone) (Pool.idle { tasks := r }) ms)
    (hrun : run svc.program.step (Pool.idle { tasks := r }) ms = some p) :
    OneActive p.store.tasks := by
  have hidle : SlotsInv Inv (Slot svc) (Pool.idle { tasks := r }) := ⟨⟨hr, hids, hone⟩, fun _ => trivial⟩
  exact (run_inv _ (slotsInv_step svc) hidle hG hrun).store.oneActive

theorem new_bounded (k : ℕ) (t : DaemonTask) (h : new.row k = some t) :
    k ≤ new.nextID := by
  cases h

theorem new_oneActive : OneActive .new := fun _ _ _ _ h => (by cases h)

def dispatching : Service := ⟨true, true⟩

def arena : GameServer := { id := 1, installed := .installed, dsID := 1, startCommand := some "./run" }

/-- `n` steps of call `i` that succeed. -/
def steps (i n : ℕ) : List (Move TaskCall ControlEnv) := List.replicate n (.advance i { now := 1 })

/-- A `Start`, and after its task was saved another one, which is refused. -/
def startTwice : List (Move TaskCall ControlEnv) :=
  .spawn (.control { command := .start, server := arena }) :: (steps 0 6 ++
    .spawn (.control { command := .start, server := arena }) :: steps 1 3)

theorem one_active_task_startTwice :
    ∃ p, run dispatching.program.step (Pool.idle { tasks := .new }) startTwice = some p ∧
      (p.store.tasks.row 1).map DaemonTask.status = some .waiting ∧ p.store.tasks.row 2 = none ∧
      OneActive p.store.tasks := by
  have hG : Along dispatching.program.step (GuardedAt dispatching.Alone)
      (Pool.idle { tasks := .new }) startTwice := by decide
  exact ⟨_, rfl, rfl, rfl, one_active_task dispatching new_consistent
    new_bounded new_oneActive hG rfl⟩

/-- Two calls of `Start` make their checks before one of them saves. -/
def startTogether : List (Move TaskCall ControlEnv) :=
  .spawn (.control { command := .start, server := arena }) ::
    .spawn (.control { command := .start, server := arena }) ::
      (steps 0 3 ++ steps 1 3 ++ steps 0 1 ++ steps 1 1)

theorem two_starts : ¬ ∀ (svc : Service) (r : DaemonTaskRepository) ms p, r.Consistent →
      (∀ k t, r.row k = some t → k ≤ r.nextID) → OneActive r →
      run svc.program.step (Pool.idle { tasks := r }) ms = some p → OneActive p.store.tasks := by
  intro hall
  have h := hall dispatching .new startTogether _ new_consistent new_bounded
    new_oneActive rfl
  exact absurd (h 1 2 _ _ rfl rfl (by decide) rfl rfl rfl rfl) (by decide)

end ServerControl

end GameAP
