import GameAP.Repositories.DaemonTasks
import GameAP.Repositories.Servers

/-!
# The task handler of the gateway

`handlers.TaskHandler`: what the panel does with the status updates and the output that a daemon
reports on its stream, and with the working tasks that a daemon no longer holds.  The world is the
two repositories, the realtime messages handed to the publisher and the events handed to the
plugins; the three dependencies that may be `nil` in the source are flags of the handler.

The node id of the stream is an argument of both message handlers, as in the source, where neither
of them compares it with the task.
-/

namespace GameAP

/-- `pluginproto.EventType`, the daemon task events. -/
inductive TaskEventType
  | started
  | completed
  | failed
  deriving DecidableEq

/-- What `DispatchTaskEventAsync` is called with. -/
structure PluginTaskEvent where
  eventType : TaskEventType
  taskID : ℕ
  nodeID : ℕ
  serverID : Option ℕ
  task : DaemonTaskType
  status : DaemonTaskStatus
  deriving DecidableEq

/-- What is published. -/
inductive RealtimeMessage
  | taskStatus (taskID : ℕ) (status : DaemonTaskStatus) (serverID : ℕ) (message : String)
  | taskComplete (taskID : ℕ) (status : DaemonTaskStatus) (serverID : ℕ)
  | taskOutput (taskID : ℕ) (chunk : String) (isFinal : Bool)
  deriving DecidableEq

structure TaskWorld where
  tasks : DaemonTaskRepository
  servers : ServerRepository
  published : List RealtimeMessage := []
  events : List PluginTaskEvent := []

/-- Which of its optional dependencies are wired. -/
structure TaskHandler where
  serverRepo : Bool := true
  publisher : Bool := true
  pluginEvents : Bool := true
  deriving DecidableEq

def abandonedTaskMessage : String := "Daemon was restarted before task could complete"

def resolveInstalledStatus : DaemonTaskType → DaemonTaskStatus → Option ServerInstalledStatus
  | .serverInstall, .working => some .installationInProg
  | .serverInstall, .success => some .installed
  | .serverInstall, .error => some .notInstalled
  | .serverInstall, .canceled => some .notInstalled
  | .serverDelete, .success => some .notInstalled
  | _, _ => none

/-- The event type that `dispatchPluginTaskEvent` chooses for a status. -/
def taskEventType : DaemonTaskStatus → TaskEventType
  | .working => .started
  | .success => .completed
  | _ => .failed

open DaemonTaskRepository

namespace TaskHandler

variable (h : TaskHandler)

/-- The events it hands out. -/
def dispatchPluginTaskEvent (t : DaemonTask) : List PluginTaskEvent :=
  if h.pluginEvents then
    [⟨taskEventType t.status, t.id, t.dedicatedServerID, t.serverID, t.task, t.status⟩]
  else []

/-- `publishTaskStatus`, `publishTaskComplete` and `publishTaskOutput` do nothing without a
publisher. -/
def publish (m : RealtimeMessage) : List RealtimeMessage := if h.publisher then [m] else []

def updateServerInstalledStatus (now : Time) (servers : ServerRepository) (t : DaemonTask) :
    ServerRepository :=
  match h.serverRepo, t.serverID, resolveInstalledStatus t.task t.status with
  | true, some serverID, some installedStatus =>
    match servers.findByIDs [serverID] with
    | [] => servers
    | server :: _ => servers.save now { server with installed := installedStatus }
  | _, _, _ => servers

/-- `HandleTaskStatusUpdate` after the task was found: `t` is the copy that `Find` returned. -/
def applyStatus (now : Time) (w : TaskWorld) (t : DaemonTask) (update : TaskStatusUpdate) :
    TaskWorld :=
  let prevStatus := t.status
  let saved := w.tasks.save now (t.withStatus (protoTaskStatusToDomain update.status))
  let t := saved.2
  { tasks := saved.1
    servers := h.updateServerInstalledStatus now w.servers t
    published := w.published ++
      h.publish (.taskStatus update.taskID t.status t.dedicatedServerID update.message) ++
      if isTerminalStatus t.status then
        h.publish (.taskComplete update.taskID t.status t.dedicatedServerID) else []
    events := w.events ++
      if prevStatus ≠ t.status ∧ (isTerminalStatus t.status = true ∨ t.status = .working) then
        h.dispatchPluginTaskEvent t else [] }

def handleTaskStatusUpdate (now : Time) (w : TaskWorld) (_nodeID : ℕ) (update : TaskStatusUpdate) :
    TaskWorld :=
  match w.tasks.find { ids := [update.taskID] } with
  | [] => w
  | t :: _ => h.applyStatus now w t update

def handleTaskOutput (w : TaskWorld) (_nodeID : ℕ) (output : TaskOutput) : TaskWorld :=
  if output.outputChunk = "" then w
  else
    { w with
      tasks := w.tasks.appendOutput output.taskID output.outputChunk
      published := w.published ++
        h.publish (.taskOutput output.taskID output.outputChunk output.isFinal) }

/-- `markTaskAbandoned` after the message was appended: the copy that `Find` returned is saved as
failed. -/
def saveAbandoned (now : Time) (w : TaskWorld) (t : DaemonTask) : TaskWorld :=
  let saved := w.tasks.save now (t.withStatus .error).withoutOutput
  let t := saved.2
  { tasks := saved.1
    servers := h.updateServerInstalledStatus now w.servers t
    published := w.published ++
      h.publish (.taskStatus t.id t.status t.dedicatedServerID abandonedTaskMessage) ++
      h.publish (.taskComplete t.id t.status t.dedicatedServerID)
    events := w.events ++ h.dispatchPluginTaskEvent t }

/-- Marks a task as failed. -/
def markTaskAbandoned (now : Time) (w : TaskWorld) (t : DaemonTask) : TaskWorld :=
  h.saveAbandoned now { w with tasks := w.tasks.appendOutput t.id abandonedTaskMessage } t

/-- The filter of `ReconcileWorkingTasks`. -/
def workingOf (nodeID : ℕ) : FindDaemonTask :=
  { dedicatedServerIDs := [nodeID], statuses := [.working] }

/-- The world afterwards and the number of tasks it marked. -/
def reconcileWorkingTasks (now : Time) (w : TaskWorld) (nodeID : ℕ) (inFlightIDs : List ℕ) :
    TaskWorld × ℕ :=
  let abandoned := (w.tasks.find (workingOf nodeID)).filter fun t => t.id ∉ inFlightIDs
  (abandoned.foldl (h.markTaskAbandoned now) w, abandoned.length)

/-! ### What one status update does -/

variable {w : TaskWorld} {update : TaskStatusUpdate}

theorem handleTaskStatusUpdate_of_none
    (hrow : w.tasks.row update.taskID = none) (now : Time) (nodeID : ℕ) :
    h.handleTaskStatusUpdate now w nodeID update = w := by
  simp [handleTaskStatusUpdate, find_id, hrow]

variable {t : DaemonTask}

theorem handleTaskStatusUpdate_of_some
    (hrow : w.tasks.row update.taskID = some t) (now : Time) (nodeID : ℕ) :
    h.handleTaskStatusUpdate now w nodeID update = h.applyStatus now w t.withoutOutput update := by
  simp [handleTaskStatusUpdate, find_id, hrow]

/-- The rows after a status was applied to the copy `t`: one row changes, and it has the reported
status. -/
theorem row_applyStatus (ht : t.id ≠ 0) (now : Time) (update : TaskStatusUpdate) :
    ∃ u, (h.applyStatus now w t update).tasks.row = Function.update w.tasks.row t.id (some u) ∧
      u.id = t.id ∧ u.status = protoTaskStatusToDomain update.status ∧
      u.dedicatedServerID = t.dedicatedServerID :=
  ⟨w.tasks.stored now (t.withStatus (protoTaskStatusToDomain update.status)),
    w.tasks.row_save (t := t.withStatus (protoTaskStatusToDomain update.status)) ht now,
    rfl, rfl, rfl⟩

theorem keyed_applyStatus (hw : w.tasks.Keyed) (ht : t.id ≠ 0) (now : Time)
    (update : TaskStatusUpdate) : (h.applyStatus now w t update).tasks.Keyed := by
  obtain ⟨u, hrow, hid, -⟩ := h.row_applyStatus (w := w) ht now update
  rw [← hid] at hrow ht
  exact hw.of_update ht hrow

theorem events_applyStatus (ht : t.id ≠ 0) (now : Time) (update : TaskStatusUpdate) :
    (h.applyStatus now w t update).events = w.events ++
      if t.status ≠ protoTaskStatusToDomain update.status ∧
          protoTaskStatusToDomain update.status ≠ .waiting then
        h.dispatchPluginTaskEvent (t.withStatus (protoTaskStatusToDomain update.status))
      else [] := by
  have hsave := w.tasks.save_task (t := t.withStatus (protoTaskStatusToDomain update.status)) ht now
  have hcond : (isTerminalStatus (protoTaskStatusToDomain update.status) = true ∨
      protoTaskStatusToDomain update.status = .working) ↔
      protoTaskStatusToDomain update.status ≠ .waiting := by
    cases protoTaskStatusToDomain update.status <;> simp [isTerminalStatus]
  simp only [applyStatus, hsave, stamp_status, DaemonTask.withStatus_status,
    hcond]
  rfl

variable {servers : ServerRepository}

section

variable (hs : servers.Keyed) (now : Time) (t : DaemonTask)
include hs

/-- `updateServerInstalledStatus` either does nothing or saves the server that the task names. -/
theorem updateServerInstalledStatus_cases : h.updateServerInstalledStatus now servers t = servers ∨
    ∃ s status, h.serverRepo = true ∧ t.serverID = some s.id ∧ servers.row s.id = some s ∧
      s.id ≠ 0 ∧ s.deletedAt = none ∧ resolveInstalledStatus t.task t.status = some status ∧
      h.updateServerInstalledStatus now servers t =
        servers.save now { s with installed := status } := by
  unfold updateServerInstalledStatus
  split
  · rename_i serverID status hrepo hsrv hres
    rw [ServerRepository.findByIDs_id]
    cases hrow : servers.row serverID with
    | none => exact .inl rfl
    | some s =>
      obtain ⟨rfl, h0⟩ := hs serverID s hrow
      by_cases hd : s.deletedAt = none
      · have hf : (some s).filter (fun s => decide (s.deletedAt = none)) = some s := by
          simp [Option.filter, hd]
        rw [hf]
        exact .inr ⟨s, status, hrepo, hsrv, hrow, h0, hd, hres, rfl⟩
      · left; simp [Option.filter, hd]
  · exact .inl rfl

/-- A server is saved only when the task names it, it is not deleted, and the type and status of
the task say how the server is installed; every other row of the server table stays. -/
theorem row_updateServerInstalledStatus {j : ℕ}
    (hj : ∀ s, t.serverID = some j → servers.row j = some s →
      ¬ (h.serverRepo = true ∧ s.deletedAt = none ∧
        resolveInstalledStatus t.task t.status ≠ none)) :
    (h.updateServerInstalledStatus now servers t).row j = servers.row j := by
  rcases h.updateServerInstalledStatus_cases hs now t with
    he | ⟨s, status, hrepo, hsrv, hrow, h0, hdel, hres, he⟩
  · rw [he]
  · rw [he]
    refine (servers.row_save (s := { s with installed := status }) h0 ..).trans (if_neg ?_)
    rintro rfl
    exact hj s hsrv hrow ⟨hrepo, hdel, by rw [hres]; exact Option.some_ne_none _⟩

theorem keyed_updateServerInstalledStatus : (h.updateServerInstalledStatus now servers t).Keyed := by
  rcases h.updateServerInstalledStatus_cases hs now t with he | ⟨s, status, -, -, -, h0, -, -, he⟩
  · rw [he]; exact hs
  · rw [he]; exact hs.save (s := { s with installed := status }) h0 now

end

end TaskHandler

/-! ### A world with one task -/

/-- A request to start server 1 on node 1, as `Dispatch` gets it. -/
def startRequest : DaemonTask :=
  { id := 0, dedicatedServerID := 1, serverID := some 1, task := .serverStart, status := .waiting }

def oneTask : TaskWorld :=
  { tasks := (DaemonTaskRepository.new.save 1 startRequest).1, servers := .new }

theorem oneTask_consistent : oneTask.tasks.Consistent :=
  new_consistent.save_new rfl (by decide) rfl 1

end GameAP
