import GameAP.Lib.Runs
import GameAP.Tasks.Handler

/-!
# The calls that write task rows, step by step

Four operations of the panel read a task row, hold a copy of it and later save the whole row back:
`Dispatcher.Dispatch`, `Dispatcher.FlushPending`, `TaskHandler.HandleTaskStatusUpdate` and
`TaskHandler.ReconcileWorkingTasks`.  Only the third one runs under `statusMu`.  Each of them is cut
at its repository accesses and at its sends to the daemon, and any number of calls may be in
progress.

* A `TaskCall` is the place a call has reached together with the copies it holds; the error branches
  of the source are branches of `next`;
* `Panel.finished` is a ghost: the tasks for which a status update has persisted a terminal status.

What a step can do to the task table is said once, in `tasks_next`: nothing, or it appends output,
or it writes the copy that the call is about to save, or it stores a new task.
-/

namespace GameAP

open Runs Function

/-- The part of a row that the interleavings are about. -/
structure TaskHead where
  node : ℕ
  status : DaemonTaskStatus
  deriving DecidableEq

/-- The node and the status. -/
def DaemonTask.head (t : DaemonTask) : TaskHead := ⟨t.dedicatedServerID, t.status⟩

structure Panel where
  world : TaskWorld
  /-- The call that holds `statusMu`. -/
  statusMu : Option ℕ := none
  /-- The tasks that were sent to a daemon. -/
  received : Finset ℕ := ∅
  /-- The tasks for which a status update has persisted a terminal status. -/
  finished : Finset ℕ := ∅

/-- The table without outputs and timestamps. -/
def DaemonTaskRepository.head (r : DaemonTaskRepository) (k : ℕ) : Option TaskHead :=
  (r.row k).map DaemonTask.head

/-- The stored heads. -/
def Panel.head (s : Panel) : ℕ → Option TaskHead := s.world.tasks.head

/-- The places between the steps of the four operations, with the copies held there. -/
inductive TaskCall
  | dispatchSave (t : DaemonTask)
  | dispatchSend (t : DaemonTask)
  | dispatchSaveAgain (t : DaemonTask)
  | flushFind (nodeID : ℕ)
  | flushSend (tasks : List DaemonTask)
  | flushSave (t : DaemonTask) (rest : List DaemonTask)
  | statusFind (update : TaskStatusUpdate)
  | statusSave (t : DaemonTask) (update : TaskStatusUpdate)
  | reconcileFind (nodeID : ℕ) (inFlight : List ℕ)
  | reconcileAppend (nodeID : ℕ) (inFlight : List ℕ) (tasks : List DaemonTask)
  | reconcileSave (nodeID : ℕ) (inFlight : List ℕ) (t : DaemonTask) (rest : List DaemonTask)
  | returned
  deriving DecidableEq

/-- The filter of `FlushPending`. -/
def waitingOf (nodeID : ℕ) : FindDaemonTask :=
  { dedicatedServerIDs := [nodeID], statuses := [.waiting] }

/-- The tasks that `ReconcileWorkingTasks` found and that the daemon does not hold. -/
def abandonedOf (r : DaemonTaskRepository) (nodeID : ℕ) (inFlight : List ℕ) : List DaemonTask :=
  (r.find (TaskHandler.workingOf nodeID)).filter fun t => t.id ∉ inFlight

namespace Panel

/-- `Save` on the task repository; the second component is the caller's task afterwards. -/
def save (s : Panel) (now : Time) (t : DaemonTask) : Panel × DaemonTask :=
  let r := s.world.tasks.save now t
  ({ s with world := { s.world with tasks := r.1 } }, r.2)

/-- The task was handed to the daemon's stream. -/
def send (s : Panel) (t : DaemonTask) : Panel := { s with received := insert t.id s.received }

end Panel

namespace TaskHandler

variable (h : TaskHandler)

/-- The save of a status update, which also gives `statusMu` back. -/
def saveStatus (s : Panel) (now : Time) (t : DaemonTask) (update : TaskStatusUpdate) : Panel :=
  { s with
    world := h.applyStatus now s.world t update
    statusMu := none
    finished := if isTerminalStatus (protoTaskStatusToDomain update.status) then
      insert t.id s.finished else s.finished }

/-- One step of call `i`. -/
def next (i : ℕ) (s : Panel) : TaskCall → Env → Option (Panel × TaskCall)
  -- `Dispatch`
  | .dispatchSave t, e =>
    if e.ok then some ((s.save e.now t).1, .dispatchSend (s.save e.now t).2) else some (s, .returned)
  | .dispatchSend t, e =>
    if e.ok then some (s.send t, .dispatchSaveAgain t) else some (s, .returned)
  | .dispatchSaveAgain t, e => some (if e.ok then (s.save e.now t).1 else s, .returned)
  -- `FlushPending`: without a session, or when the search fails, it returns at once
  | .flushFind nodeID, e =>
    some (s, if e.ok then .flushSend (s.world.tasks.find (waitingOf nodeID)) else .returned)
  | .flushSend [], _ => some (s, .returned)
  | .flushSend (t :: rest), e =>
    if e.ok then some (s.send t, .flushSave (t.withStatus .working) rest) else some (s, .returned)
  | .flushSave t rest, e => some (if e.ok then (s.save e.now t).1 else s, .flushSend rest)
  -- `HandleTaskStatusUpdate`: the search waits for `statusMu`
  | .statusFind update, e =>
    match s.statusMu, e.ok, s.world.tasks.find { ids := [update.taskID] } with
    | some _, _, _ => none
    | none, true, t :: _ => some ({ s with statusMu := some i }, .statusSave t update)
    | none, _, _ => some (s, .returned)
  | .statusSave t update, e =>
    some (if e.ok then h.saveStatus s e.now t update else { s with statusMu := none }, .returned)
  -- `ReconcileWorkingTasks`: a task whose output or row cannot be written is skipped
  | .reconcileFind nodeID inFlight, e =>
    some (s, if e.ok then .reconcileAppend nodeID inFlight (abandonedOf s.world.tasks nodeID inFlight)
      else .returned)
  | .reconcileAppend _ _ [], _ => some (s, .returned)
  | .reconcileAppend nodeID inFlight (t :: rest), e =>
    if e.ok then
      some ({ s with world := { s.world with
          tasks := s.world.tasks.appendOutput t.id abandonedTaskMessage } },
        .reconcileSave nodeID inFlight t rest)
    else some (s, .reconcileAppend nodeID inFlight rest)
  | .reconcileSave nodeID inFlight t rest, e =>
    some (if e.ok then { s with world := h.saveAbandoned e.now s.world t } else s,
      .reconcileAppend nodeID inFlight rest)
  | .returned, _ => none

/-- The calls that may begin: `Dispatch` gets a new task, as all its callers pass it, and a daemon
reports the status of a task only after it has received it. -/
def start (s : Panel) : TaskCall → Bool
  | .dispatchSave t => t.id = 0 ∧ t.status = .waiting
  | .flushFind _ => true
  | .statusFind update => update.taskID ∈ s.received
  | .reconcileFind _ _ => true
  | _ => false

def program : Program Panel TaskCall Env := ⟨start, h.next⟩

end TaskHandler

/-- The copies of stored rows that a call still holds. -/
def TaskCall.copies : TaskCall → List DaemonTask
  | .dispatchSend t => [t]
  | .dispatchSaveAgain t => [t]
  | .flushSend tasks => tasks
  | .flushSave t rest => t :: rest
  | .statusSave t _ => [t]
  | .reconcileAppend _ _ tasks => tasks
  | .reconcileSave _ _ t rest => t :: rest
  | _ => []

/-- The task that the next step of the call saves, with the status it gives it. -/
def TaskCall.writes : TaskCall → Option DaemonTask
  | .dispatchSaveAgain t => some t
  | .flushSave t _ => some t
  | .statusSave t update => some (t.withStatus (protoTaskStatusToDomain update.status))
  | .reconcileSave _ _ t _ => some (t.withStatus .error).withoutOutput
  | _ => none

/-- The status of the copies: a request and the copy that `Dispatch` saves again are waiting, what
`FlushPending` saves is working.  A request has no id yet. -/
def TaskCall.Carries : TaskCall → Prop
  | .dispatchSave t => t.id = 0 ∧ t.status = .waiting
  | .dispatchSend t => t.status = .waiting
  | .dispatchSaveAgain t => t.status = .waiting
  | .flushSave t _ => t.status = .working
  | _ => True

/-- What call `i` relies on: the rows it holds copies of are stored and belong to the same node, and
`statusMu` is held between the search and the save of a status update. -/
structure Held (i : ℕ) (s : Panel) (c : TaskCall) : Prop where
  carries : c.Carries
  copies : ∀ t ∈ c.copies, t.id ≠ 0 ∧ ∃ hd, s.head t.id = some hd ∧ hd.node = t.dedicatedServerID
  mutex : ∀ t update, c = .statusSave t update → s.statusMu = some i

/-- The new row of `Dispatch` gets an id that is not in use. -/
def FreshID (s : Panel) : TaskCall → Prop
  | .dispatchSave _ => s.world.tasks.freshID ≠ 0 ∧ s.world.tasks.row s.world.tasks.freshID = none
  | _ => True

instance (s : Panel) : (c : TaskCall) → Decidable (FreshID s c)
  | .dispatchSave _ => inferInstanceAs (Decidable (_ ∧ _))
  | .dispatchSend _ | .dispatchSaveAgain _ | .flushFind _ | .flushSend _ | .flushSave _ _
  | .statusFind _ | .statusSave _ _ | .reconcileFind _ _ | .reconcileAppend _ _ _
  | .reconcileSave _ _ _ _ | .returned => .isTrue trivial

/-! ### Rows and heads -/

variable {k : ℕ} {t : DaemonTask} {hd : TaskHead}

theorem Panel.head_of_row {s : Panel}
    (hrow : s.world.tasks.row k = some t) : s.head k = some t.head :=
  congrArg (Option.map DaemonTask.head) hrow

theorem Panel.row_of_head {s : Panel} (hhd : s.head k = some hd) :
    ∃ t, s.world.tasks.row k = some t ∧ t.head = hd :=
  Option.map_eq_some_iff.1 hhd

theorem Panel.head_of_mem_find {s : Panel} (hs : s.world.tasks.Consistent) {f : FindDaemonTask}
    (ht : t ∈ s.world.tasks.find f) : s.head t.id = some t.head := by
  obtain ⟨u, hrow, -, rfl⟩ := hs.mem_find.1 ht
  show s.head u.id = some u.head
  exact Panel.head_of_row hrow

theorem FreshID.ne_of_head {s : Panel} (hfresh : FreshID s (.dispatchSave t))
    (hhd : s.head k = some hd) : k ≠ s.world.tasks.freshID := by
  rintro rfl
  obtain ⟨u, hu, -⟩ := Panel.row_of_head hhd
  rw [hfresh.2] at hu
  cases hu

/-! ### What one step does to the task table -/

theorem TaskCall.mem_copies_of_writes {c : TaskCall} (hw : c.writes = some t) :
    ∃ u ∈ c.copies, u.id = t.id ∧ u.dedicatedServerID = t.dedicatedServerID := by
  cases c <;> simp only [TaskCall.writes, reduceCtorEq, Option.some.injEq] at hw
  all_goals subst hw; exact ⟨_, List.mem_cons_self .., rfl, rfl⟩

theorem Held.id_of_writes {i : ℕ} {s : Panel} {c : TaskCall} (hc : Held i s c)
    (hw : c.writes = some t) : t.id ≠ 0 := by
  obtain ⟨u, hu, hid, -⟩ := TaskCall.mem_copies_of_writes hw
  rw [← hid]
  exact (hc.copies u hu).1

namespace DaemonTaskRepository

variable {r : DaemonTaskRepository}

theorem head_save (ht : t.id ≠ 0) (now : Time) :
    (r.save now t).1.head = update r.head t.id (some t.head) := by
  funext k
  simp only [head, r.row_save ht now, update_apply]
  split_ifs <;> rfl

theorem head_save_new (ht : t.id = 0) (now : Time) :
    (r.save now t).1.head = update r.head r.freshID (some t.head) := by
  funext k
  simp only [head, r.row_save_new ht now, update_apply]
  split_ifs <;> rfl

theorem head_appendOutput (id : ℕ) (output : String) : (r.appendOutput id output).head = r.head := by
  funext k
  simp only [head, r.row_appendOutput]
  split_ifs with hk
  · subst hk; cases r.row k <;> rfl
  · rfl

end DaemonTaskRepository

open DaemonTaskRepository

namespace TaskHandler

/-- The place after a save, or after a task that is skipped. -/
inductive Proceeds : TaskCall → TaskCall → Prop
  | dispatch (t : DaemonTask) : Proceeds (.dispatchSaveAgain t) .returned
  | flush (t : DaemonTask) (rest : List DaemonTask) : Proceeds (.flushSave t rest) (.flushSend rest)
  | reconcile (nodeID : ℕ) (inFlight : List ℕ) (t : DaemonTask) (rest : List DaemonTask) :
      Proceeds (.reconcileSave nodeID inFlight t rest) (.reconcileAppend nodeID inFlight rest)
  | skip (nodeID : ℕ) (inFlight : List ℕ) (t : DaemonTask) (rest : List DaemonTask) :
      Proceeds (.reconcileAppend nodeID inFlight (t :: rest)) (.reconcileAppend nodeID inFlight rest)

/-- What a step of call `i` can do. -/
inductive Step (h : TaskHandler) (i : ℕ) (s : Panel) (e : Env) : TaskCall → Panel → TaskCall → Prop
  | ends (c : TaskCall) : Step h i s e c s .returned
  | create (t : DaemonTask) :
      Step h i s e (.dispatchSave t) (s.save e.now t).1 (.dispatchSend (s.save e.now t).2)
  | sends (t : DaemonTask) : Step h i s e (.dispatchSend t) (s.send t) (.dispatchSaveAgain t)
  | saves {c c' : TaskCall} {t : DaemonTask} {w : TaskWorld} (hw : c.writes = some t)
      (hok : e.ok = true) (htasks : w.tasks = (s.world.tasks.save e.now t).1) (hp : Proceeds c c') :
      Step h i s e c { s with world := w } c'
  | skips {c c' : TaskCall} (hp : Proceeds c c') : Step h i s e c s c'
  | flushFind (nodeID : ℕ) :
      Step h i s e (.flushFind nodeID) s (.flushSend (s.world.tasks.find (waitingOf nodeID)))
  | flushSend (t : DaemonTask) (rest : List DaemonTask) :
      Step h i s e (.flushSend (t :: rest)) (s.send t) (.flushSave (t.withStatus .working) rest)
  | statusFind {t : DaemonTask} {update : TaskStatusUpdate} (hmu : s.statusMu = none)
      (ht : t ∈ s.world.tasks.find { ids := [update.taskID] }) :
      Step h i s e (.statusFind update) { s with statusMu := some i } (.statusSave t update)
  | statusSave (t : DaemonTask) (update : TaskStatusUpdate) (hok : e.ok = true) :
      Step h i s e (.statusSave t update) (h.saveStatus s e.now t update) .returned
  | statusLost (t : DaemonTask) (update : TaskStatusUpdate) :
      Step h i s e (.statusSave t update) { s with statusMu := none } .returned
  | reconcileFind (nodeID : ℕ) (inFlight : List ℕ) : Step h i s e (.reconcileFind nodeID inFlight) s
      (.reconcileAppend nodeID inFlight (abandonedOf s.world.tasks nodeID inFlight))
  | append (nodeID : ℕ) (inFlight : List ℕ) (t : DaemonTask) (rest : List DaemonTask) :
      Step h i s e (.reconcileAppend nodeID inFlight (t :: rest))
        { s with world := { s.world with
            tasks := s.world.tasks.appendOutput t.id abandonedTaskMessage } }
        (.reconcileSave nodeID inFlight t rest)

variable {h : TaskHandler} {i : ℕ} {s s' : Panel} {c c' : TaskCall} {e : Env}

theorem step_of_next (hnext : h.next i s c e = some (s', c')) : Step h i s e c s' c' := by
  obtain ⟨now, ok⟩ := e
  cases c with
  | dispatchSave t =>
    cases ok <;> cases hnext
    · exact .ends _
    · exact .create t
  | dispatchSend t =>
    cases ok <;> cases hnext
    · exact .ends _
    · exact .sends t
  | flushFind nodeID =>
    cases ok <;> cases hnext
    · exact .ends _
    · exact .flushFind nodeID
  | flushSend tasks =>
    cases tasks with
    | nil => cases hnext; exact .ends _
    | cons t rest =>
      cases ok <;> cases hnext
      · exact .ends _
      · exact .flushSend t rest
  | statusFind update =>
    simp only [next] at hnext
    split at hnext <;> cases hnext
    · exact .statusFind ‹_› (by simp_all)
    · exact .ends _
  | statusSave t update =>
    cases ok <;> cases hnext
    · exact .statusLost t update
    · exact .statusSave t update rfl
  | reconcileFind nodeID inFlight =>
    cases ok <;> cases hnext
    · exact .ends _
    · exact .reconcileFind nodeID inFlight
  | reconcileAppend nodeID inFlight tasks =>
    cases tasks with
    | nil => cases hnext; exact .ends _
    | cons t rest =>
      cases ok <;> cases hnext
      · exact .skips (.skip ..)
      · exact .append ..
  | dispatchSaveAgain t =>
    cases ok <;> cases hnext
    · exact .skips (.dispatch t)
    · exact .saves rfl rfl rfl (.dispatch t)
  | flushSave t rest =>
    cases ok <;> cases hnext
    · exact .skips (.flush ..)
    · exact .saves rfl rfl rfl (.flush ..)
  | reconcileSave nodeID inFlight t rest =>
    cases ok <;> cases hnext
    · exact .skips (.reconcile ..)
    · exact .saves rfl rfl rfl (.reconcile ..)
  | returned => cases hnext

/-- **One step on the task table.** -/
theorem tasks_next (hnext : h.next i s c e = some (s', c')) : s'.world.tasks = s.world.tasks ∨
    (∃ id output, s'.world.tasks = s.world.tasks.appendOutput id output) ∨
    (∃ t, c.writes = some t ∧ e.ok = true ∧ s'.world.tasks = (s.world.tasks.save e.now t).1) ∨
    (∃ t, c = .dispatchSave t ∧ c' = .dispatchSend (s.save e.now t).2 ∧
      s'.world.tasks = (s.world.tasks.save e.now t).1) := by
  cases step_of_next hnext with
  | create t => exact .inr (.inr (.inr ⟨t, rfl, rfl, rfl⟩))
  | saves hw hok htasks => exact .inr (.inr (.inl ⟨_, hw, hok, htasks⟩))
  | statusSave t update hok => exact .inr (.inr (.inl ⟨_, rfl, hok, rfl⟩))
  | append => exact .inr (.inl ⟨_, _, rfl⟩)
  | _ => exact .inl rfl

theorem head_next (hc : Held i s c) (hnext : h.next i s c e = some (s', c')) : s'.head = s.head ∨
    (∃ t, c.writes = some t ∧ e.ok = true ∧ s'.head = update s.head t.id (some t.head)) ∨
    (∃ t, c = .dispatchSave t ∧ c' = .dispatchSend (s.save e.now t).2 ∧
      s'.head = update s.head s.world.tasks.freshID (some t.head)) := by
  unfold Panel.head
  rcases tasks_next hnext with heq | ⟨id, output, heq⟩ | ⟨t, hw, hok, heq⟩ | ⟨t, rfl, hc', heq⟩ <;>
    rw [heq]
  · exact .inl rfl
  · exact .inl (head_appendOutput id output)
  · exact .inr (.inl ⟨t, hw, hok, head_save (hc.id_of_writes hw) _⟩)
  · exact .inr (.inr ⟨t, rfl, hc', head_save_new hc.carries.1 _⟩)

theorem consistent_next (hs : s.world.tasks.Consistent) (hc : Held i s c) (hfresh : FreshID s c)
    (hnext : h.next i s c e = some (s', c')) : s'.world.tasks.Consistent := by
  rcases tasks_next hnext with heq | ⟨id, output, heq⟩ | ⟨t, hw, -, heq⟩ | ⟨t, rfl, -, heq⟩ <;>
    rw [heq]
  · exact hs
  · exact hs.appendOutput id output
  · exact hs.save (hc.id_of_writes hw) _
  · obtain ⟨h0, hfree⟩ := hfresh
    exact hs.save_new hc.carries.1 h0 hfree _

/-! ### The invariant of all interleavings -/

theorem node_next (hc : Held i s c) (hfresh : FreshID s c)
    (hnext : h.next i s c e = some (s', c')) (hk : s.head k = some hd) :
    ∃ hd', s'.head k = some hd' ∧ hd'.node = hd.node := by
  rcases head_next hc hnext with heq | ⟨t, hw, -, heq⟩ | ⟨t, rfl, -, heq⟩
  · exact ⟨hd, by rw [heq, hk], rfl⟩
  · rw [heq, update_apply]
    split_ifs with hkt
    · -- the call writes the row of `k`, of which it holds a copy
      obtain ⟨u, hu, hid, hnode⟩ := TaskCall.mem_copies_of_writes hw
      obtain ⟨-, hd', hhd, hn⟩ := hc.copies u hu
      rw [hid, ← hkt, hk] at hhd
      cases hhd
      exact ⟨_, rfl, by rw [hn, hnode]; rfl⟩
    · exact ⟨hd, hk, rfl⟩
  · rw [heq, update_of_ne (hfresh.ne_of_head hk)]
    exact ⟨hd, hk, rfl⟩

/-- Where the copies of a call come from: it held them before, or it has just found them. -/
theorem copies_next (hs : s.world.tasks.Consistent) (hnext : h.next i s c e = some (s', c'))
    (hnew : ∀ t, c ≠ .dispatchSave t) (ht : t ∈ c'.copies) :
    (∃ u ∈ c.copies, u.id = t.id ∧ u.dedicatedServerID = t.dedicatedServerID) ∨
    s.head t.id = some t.head := by
  cases step_of_next hnext with
  | create t => exact absurd rfl (hnew t)
  | sends | append => exact .inl ⟨t, ht, rfl, rfl⟩
  | flushFind => exact .inr (Panel.head_of_mem_find hs ht)
  | reconcileFind => exact .inr (Panel.head_of_mem_find hs (List.mem_of_mem_filter ht))
  | statusFind _ hf =>
    rw [List.mem_singleton.1 ht]
    exact .inr (Panel.head_of_mem_find hs hf)
  | flushSend u rest =>
    rcases List.mem_cons.1 ht with rfl | ht
    · exact .inl ⟨u, List.mem_cons_self .., rfl, rfl⟩
    · exact .inl ⟨t, List.mem_cons_of_mem _ ht, rfl, rfl⟩
  | saves _ _ _ hp | skips hp =>
    cases hp with
    | dispatch => cases ht
    | flush | reconcile | skip => exact .inl ⟨t, List.mem_cons_of_mem _ ht, rfl, rfl⟩
  | ends | statusSave | statusLost => cases ht

theorem carries_next (hc : c.Carries) (hnext : h.next i s c e = some (s', c')) : c'.Carries := by
  cases step_of_next hnext with
  | create t =>
    show ((s.world.tasks.save e.now t).2).status = .waiting
    rw [s.world.tasks.save_of_new hc.1]
    exact hc.2
  | sends => exact hc
  | flushSend => rfl
  | saves _ _ _ hp | skips hp => cases hp <;> trivial
  | _ => trivial

theorem held_self (hs : s.world.tasks.Consistent) (hc : Held i s c) (hfresh : FreshID s c)
    (hnext : h.next i s c e = some (s', c')) : Held i s' c' := by
  refine ⟨carries_next hc.carries hnext, fun t ht => ?_, ?_⟩
  swap
  · rintro t update rfl
    cases step_of_next hnext with
    | statusFind => rfl
    | saves _ _ _ hp | skips hp => cases hp
  by_cases hnew : ∃ t₀, c = .dispatchSave t₀
  · obtain ⟨t₀, rfl⟩ := hnew
    obtain ⟨now, ok⟩ := e
    cases ok <;> cases hnext
    · cases ht
    · -- the caller's task gets the new id and is the row stored under it
      have h0 := hc.carries.1
      have hid : (s.save now t₀).2.id = s.world.tasks.freshID := by
        rw [Panel.save, s.world.tasks.save_of_new h0]
      have hnode : (s.save now t₀).2.dedicatedServerID = t₀.dedicatedServerID := by
        rw [Panel.save, s.world.tasks.save_of_new h0]; rfl
      have hhd : (s.save now t₀).1.head s.world.tasks.freshID = some t₀.head := by
        show (s.world.tasks.save now t₀).1.head _ = _
        rw [head_save_new h0, update_self]
      rw [List.mem_singleton.1 ht, hid, hnode]
      exact ⟨hfresh.1, t₀.head, hhd, rfl⟩
  · rcases copies_next hs hnext (fun t₀ h₀ => hnew ⟨t₀, h₀⟩) ht with ⟨u, hu, hid, hnode⟩ | hhd
    · obtain ⟨h0, hd, hhd, hn⟩ := hc.copies u hu
      obtain ⟨hd', hhd', hn'⟩ := node_next hc hfresh hnext hhd
      exact ⟨hid ▸ h0, hd', hid ▸ hhd', by rw [hn', hn, hnode]⟩
    · obtain ⟨hd', hhd', hn'⟩ := node_next hc hfresh hnext hhd
      obtain ⟨u, hu, -⟩ := Panel.row_of_head hhd
      exact ⟨(hs.keyed _ u hu).2, hd', hhd', hn'⟩

theorem held_other (hc : Held i s c) (hfresh : FreshID s c)
    (hnext : h.next i s c e = some (s', c')) {j : ℕ} {d : TaskCall} (hj : j ≠ i)
    (hd : Held j s d) : Held j s' d := by
  refine ⟨hd.carries, fun t ht => ?_, fun t update hd' => ?_⟩
  · obtain ⟨h0, hhd, hsome, hnode⟩ := hd.copies t ht
    obtain ⟨hhd', hsome', hnode'⟩ := node_next hc hfresh hnext hsome
    exact ⟨h0, hhd', hsome', hnode'.trans hnode⟩
  · have hmu := hd.mutex t update hd'
    cases step_of_next hnext with
    | statusFind hnone => rw [hmu] at hnone; cases hnone
    | statusSave u up | statusLost u up =>
      -- two calls cannot both hold `statusMu`
      rw [hc.mutex u up rfl] at hmu
      exact absurd (Option.some.inj hmu).symm hj
    | _ => exact hmu

/-- The invariant of every interleaving in which `Dispatch` gets unused ids. -/
abbrev HeldInv : Pool Panel TaskCall → Prop :=
  PoolInv (fun s => s.world.tasks.Consistent) Held

theorem held_start {p : Pool Panel TaskCall} (hc : start p.store c = true) :
    Held p.calls.length p.store c := by
  cases c <;> simp only [start, Bool.false_eq_true] at hc
  case dispatchSave t =>
    have hreq : t.id = 0 ∧ t.status = .waiting := of_decide_eq_true hc
    exact ⟨hreq, by simp [TaskCall.copies], by simp⟩
  all_goals exact ⟨trivial, by simp [TaskCall.copies], by simp⟩

theorem held_step :
    StableUnder h.program.step (Guarded fun p c _ => FreshID p.store c) HeldInv := by
  refine Program.inv_step ?_ ?_
  · intro p c _ hc
    exact held_start hc
  · intro p i e c s' c' hp hfresh hci hnext
    have hc := hp.call i c hci
    exact ⟨consistent_next hp.store hc hfresh hnext, held_self hp.store hc hfresh hnext,
      fun j d hj hd => held_other hc hfresh hnext hj (hp.call j d hd)⟩

end TaskHandler

end GameAP
