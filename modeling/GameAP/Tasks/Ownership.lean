import GameAP.Lib.Runs
import GameAP.Tasks.Handler

/-!
# Whose rows a daemon can change

The messages of a daemon reach the task handler together with its node `N`, which the handler does
not compare with the task that a message names.  A message with the id of a task of another node
therefore changes that task, and through `updateServerInstalledStatus` also its server
(`foreign_task_changes`).

* `SameForeign N` relates two worlds whose rows of other nodes are equal, the absent ones included;
* `OwnMessage N` is the check that the dispatcher of the other task service makes and this handler
  lacks;
* `foreign_unchanged`: a stream all of whose messages pass that check leaves every foreign row
  alone, in every state reached.
-/

namespace GameAP

open Runs

/-- The messages of a daemon about its tasks. -/
inductive StreamMessage
  | status (update : TaskStatusUpdate)
  | output (output : TaskOutput)
  deriving DecidableEq

/-- A message and the time at which the panel handles it. -/
structure Received where
  now : Time
  message : StreamMessage
  deriving DecidableEq

/-- The rows of tasks and servers that do not belong to node `N` are equal, and no such row
appears or disappears. -/
structure SameForeign (N : ℕ) (w w' : TaskWorld) : Prop where
  tasks : ∀ k, (∀ t, w.tasks.row k = some t → t.dedicatedServerID ≠ N) →
    w'.tasks.row k = w.tasks.row k
  servers : ∀ j, (∀ s, w.servers.row j = some s → s.dsID ≠ N) →
    w'.servers.row j = w.servers.row j

theorem SameForeign.refl (N : ℕ) (w : TaskWorld) : SameForeign N w w :=
  ⟨fun _ _ => rfl, fun _ _ => rfl⟩

theorem SameForeign.trans {N : ℕ} {w₁ w₂ w₃ : TaskWorld} (h : SameForeign N w₁ w₂)
    (h' : SameForeign N w₂ w₃) : SameForeign N w₁ w₃ := by
  refine ⟨fun k hk => ?_, fun j hj => ?_⟩
  · have h12 := h.tasks k hk
    rw [← h12] at hk
    rw [h'.tasks k hk, h12]
  · have h12 := h.servers j hj
    rw [← h12] at hj
    rw [h'.servers j hj, h12]

namespace TaskHandler

variable (h : TaskHandler) (N : ℕ)

/-- The handler on one message of the stream of node `N`. -/
def receive (w : TaskWorld) (r : Received) : TaskWorld :=
  match r.message with
  | .status update => h.handleTaskStatusUpdate r.now w N update
  | .output output => h.handleTaskOutput w N output

/-- The stream as a step system: every message is handled. -/
def stream (w : TaskWorld) (r : Received) : Option TaskWorld := some (h.receive N w r)

/-- The server that `updateServerInstalledStatus` would save for the task, if there is one,
belongs to node `N`. -/
def OwnServer (w : TaskWorld) (t : DaemonTask) : Prop :=
  ∀ j ∈ t.serverID, ∀ s ∈ w.servers.row j, h.serverRepo = true ∧ s.deletedAt = none ∧
    resolveInstalledStatus t.task t.status ≠ none → s.dsID = N

instance (w : TaskWorld) (t : DaemonTask) : Decidable (h.OwnServer N w t) :=
  inferInstanceAs (Decidable (∀ _ ∈ _, ∀ _ ∈ _, _))

/-- The message names no stored task or a task of node `N` whose server, where the new status
changes it, is on node `N` as well. -/
def OwnMessage (w : TaskWorld) (r : Received) : Prop :=
  match r.message with
  | .status update => ∀ t ∈ w.tasks.row update.taskID, t.dedicatedServerID = N ∧
      h.OwnServer N w (t.withStatus (protoTaskStatusToDomain update.status))
  | .output output => output.outputChunk = "" ∨
      ∀ t ∈ w.tasks.row output.taskID, t.dedicatedServerID = N

instance (w : TaskWorld) : (r : Received) → Decidable (h.OwnMessage N w r)
  | ⟨_, .status _⟩ => inferInstanceAs (Decidable (∀ _ ∈ _, _))
  | ⟨_, .output _⟩ => inferInstanceAs (Decidable (_ ∨ _))

variable {h N} {w w' : TaskWorld}

/-! ### One message -/

theorem sameForeign_applyStatus (hw : w.tasks.Keyed) (hs : w.servers.Keyed) {t : DaemonTask}
    {update : TaskStatusUpdate} (hrow : w.tasks.row t.id = some t) (hN : t.dedicatedServerID = N)
    (hown : h.OwnServer N w (t.withStatus (protoTaskStatusToDomain update.status))) (now : Time) :
    SameForeign N w (h.applyStatus now w t.withoutOutput update) := by
  have h0 : t.withoutOutput.id ≠ 0 := (hw _ t hrow).2
  refine ⟨fun k hk => ?_, fun j hj => ?_⟩
  · obtain ⟨u, hu, -⟩ := h.row_applyStatus (w := w) h0 now update
    have hne : k ≠ t.withoutOutput.id := by
      rintro rfl
      exact hk t hrow hN
    rw [hu, Function.update_of_ne hne]
  · have hsave := w.tasks.save_task
      (t := t.withoutOutput.withStatus (protoTaskStatusToDomain update.status)) h0 now
    simp only [applyStatus, hsave]
    refine h.row_updateServerInstalledStatus hs now _ fun s hsrv hsrow hsave => ?_
    exact hj s hsrow (hown j hsrv s hsrow hsave)

theorem sameForeign_handleTaskOutput {output : TaskOutput}
    (hown : output.outputChunk = "" ∨ ∀ t ∈ w.tasks.row output.taskID, t.dedicatedServerID = N) :
    SameForeign N w (h.handleTaskOutput w N output) := by
  unfold handleTaskOutput
  split_ifs with hchunk
  · exact .refl N w
  · refine ⟨fun k hk => ?_, fun _ _ => rfl⟩
    show (w.tasks.appendOutput _ _).row k = _
    rw [w.tasks.row_appendOutput]
    split_ifs with heq
    · -- the output goes to a row of `N`, or to no row at all
      subst heq
      cases hrow : w.tasks.row output.taskID with
      | none => rfl
      | some t => exact absurd (hown.resolve_left hchunk t hrow) (hk t hrow)
    · rfl

/-- **One message** that passes the check leaves the foreign rows alone. -/
theorem sameForeign_receive (hw : w.tasks.Keyed) (hs : w.servers.Keyed) {r : Received}
    (hown : h.OwnMessage N w r) : SameForeign N w (h.receive N w r) := by
  obtain ⟨now, message⟩ := r
  cases message with
  | output output => exact sameForeign_handleTaskOutput hown
  | status update =>
    simp only [receive]
    cases hrow : w.tasks.row update.taskID with
    | none => rw [h.handleTaskStatusUpdate_of_none hrow]; exact .refl N w
    | some t =>
      obtain ⟨hN, hsrv⟩ := hown t hrow
      have hid : t.id = update.taskID := (hw _ t hrow).1
      rw [h.handleTaskStatusUpdate_of_some hrow]
      rw [← hid] at hrow
      exact sameForeign_applyStatus hw hs hrow hN hsrv now

theorem keyed_receive (hw : w.tasks.Keyed) (hs : w.servers.Keyed) (r : Received) :
    (h.receive N w r).tasks.Keyed ∧ (h.receive N w r).servers.Keyed := by
  obtain ⟨now, message⟩ := r
  cases message with
  | output output =>
    simp only [receive, handleTaskOutput]
    split_ifs
    · exact ⟨hw, hs⟩
    · exact ⟨hw.appendOutput _ _, hs⟩
  | status update =>
    simp only [receive]
    cases hrow : w.tasks.row update.taskID with
    | none => rw [h.handleTaskStatusUpdate_of_none hrow]; exact ⟨hw, hs⟩
    | some t =>
      obtain ⟨hid, h0⟩ := hw _ t hrow
      rw [← hid] at h0
      rw [h.handleTaskStatusUpdate_of_some hrow]
      refine ⟨h.keyed_applyStatus hw (t := t.withoutOutput) h0 now update, ?_⟩
      exact h.keyed_updateServerInstalledStatus hs now _

/-! ### A stream of messages -/

/-- **Ownership**: whatever a daemon of node `N` sends, as long as each message passes the check in
the state in which it is handled, no task and no server of another node changes. -/
theorem foreign_unchanged (h : TaskHandler) (N : ℕ) {w w' : TaskWorld} (hw : w.tasks.Keyed)
    (hs : w.servers.Keyed) (rs : List Received) (hown : Along (h.stream N) (h.OwnMessage N) w rs)
    (hrun : run (h.stream N) w rs = some w') : SameForeign N w w' := by
  refine run_rel (fun w => w.tasks.Keyed ∧ w.servers.Keyed) (SameForeign N) (.refl N)
    (fun _ _ _ => .trans) ?_ ?_ ⟨hw, hs⟩ hown hrun
  · rintro w r w' ⟨hw, hs⟩ - hstep
    cases hstep
    exact keyed_receive hw hs r
  · rintro w r w' ⟨hw, hs⟩ hr hstep
    cases hstep
    exact sameForeign_receive hw hs hr

/-- The daemon of node 1 runs its own task and also reports a task that nobody stored. -/
theorem foreign_unchanged_of_own_task :
    ∃ w', run (stream {} 1) oneTask [⟨2, .status ⟨1, .working, ""⟩⟩, ⟨3, .output ⟨1, "done", true⟩⟩,
      ⟨4, .status ⟨7, .error, ""⟩⟩, ⟨5, .status ⟨1, .success, ""⟩⟩] = some w' ∧
      SameForeign 1 oneTask w' :=
  ⟨_, rfl, foreign_unchanged {} 1 oneTask_consistent.keyed ServerRepository.new_keyed
    [⟨2, .status ⟨1, .working, ""⟩⟩, ⟨3, .output ⟨1, "done", true⟩⟩,
      ⟨4, .status ⟨7, .error, ""⟩⟩, ⟨5, .status ⟨1, .success, ""⟩⟩] (by decide) rfl⟩

/-- The daemon of node 2 reports success for task 1, which belongs to node 1. -/
theorem foreign_task_changes :
    ¬ ∀ (h : TaskHandler) (N : ℕ) (w w' : TaskWorld) (rs : List Received), w.tasks.Keyed →
      w.servers.Keyed → run (h.stream N) w rs = some w' → SameForeign N w w' := by
  intro hall
  have hsame := hall {} 2 oneTask _ [⟨2, .status ⟨1, .success, ""⟩⟩] oneTask_consistent.keyed
    ServerRepository.new_keyed rfl
  have hfor : ∀ t, oneTask.tasks.row 1 = some t → t.dedicatedServerID ≠ 2 := by
    intro t ht
    cases ht
    decide
  exact absurd (congrArg (Option.map DaemonTask.status) (hsame.tasks 1 hfor)) (by decide)

end TaskHandler

end GameAP
