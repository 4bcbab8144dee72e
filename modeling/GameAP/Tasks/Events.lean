import GameAP.Tasks.Handler
import Mathlib.Data.List.Destutter

/-!
# Plugin events of a task

`HandleTaskStatusUpdate` tells the plugins about a transition when the reported status differs from
the stored one, which removes direct repetitions and nothing else (`transitions`).
`eventTypes_handleUpdates` computes the event types exactly, for every sequence of updates over any
set of tasks.

A daemon that replays `working, success` after a reconnect makes the plugins see both events again
(`events_repeat_after_replay`); `eachOnce_iff` says for which histories each event is dispatched at
most once.
-/

namespace GameAP

/-- A status update as it reaches the handler: the time, the node of the stream, the message. -/
structure Delivery where
  now : Time
  nodeID : ℕ
  update : TaskStatusUpdate
  deriving DecidableEq

def Delivery.status (d : Delivery) : DaemonTaskStatus := protoTaskStatusToDomain d.update.status

/-- The statuses reported for a task, in order. -/
def reported (ds : List Delivery) (k : ℕ) : List DaemonTaskStatus :=
  (ds.filter fun d => d.update.taskID = k).map Delivery.status

/-- The statuses of `ss` that differ from the one before, the first one compared with `s`. -/
def transitions (s : DaemonTaskStatus) (ss : List DaemonTaskStatus) : List DaemonTaskStatus :=
  (ss.destutter' (· ≠ ·) s).tail

/-- The types of the events about task `k`, in order. -/
def eventTypes (es : List PluginTaskEvent) (k : ℕ) : List TaskEventType :=
  (es.filter fun e => e.taskID = k).map (·.eventType)

/-- Started, completed and failed are each dispatched at most once for the task, and never both
completed and failed. -/
structure EachOnce (es : List PluginTaskEvent) (k : ℕ) : Prop where
  started : (eventTypes es k).count .started ≤ 1
  completed : (eventTypes es k).count .completed ≤ 1
  failed : (eventTypes es k).count .failed ≤ 1
  exclusive : (eventTypes es k).count .completed = 0 ∨ (eventTypes es k).count .failed = 0

/-- From the stored status `s` on, the reported statuses `ss` enter `working` at most once and
enter a terminal status at most once. -/
def RunsOnce (s : DaemonTaskStatus) (ss : List DaemonTaskStatus) : Prop :=
  (transitions s ss).count .working ≤ 1 ∧ (transitions s ss).countP isTerminalStatus ≤ 1

instance (s : DaemonTaskStatus) (ss : List DaemonTaskStatus) : Decidable (RunsOnce s ss) :=
  inferInstanceAs (Decidable (_ ∧ _))

@[simp] theorem transitions_nil (s : DaemonTaskStatus) : transitions s [] = [] := rfl

theorem destutter_eq_cons_tail (l : List DaemonTaskStatus) (a : DaemonTaskStatus) :
    l.destutter' (· ≠ ·) a = a :: (l.destutter' (· ≠ ·) a).tail := by
  induction l generalizing a with
  | nil => rfl
  | cons b l ih =>
    by_cases hab : a ≠ b
    · rw [List.destutter'_cons_pos _ hab, List.tail_cons]
    · rw [List.destutter'_cons_neg _ hab]
      exact ih a

theorem transitions_cons (s x : DaemonTaskStatus) (xs : List DaemonTaskStatus) :
    transitions s (x :: xs) = if s = x then transitions s xs else x :: transitions x xs := by
  unfold transitions
  split_ifs with h
  · rw [List.destutter'_cons_neg _ (not_not.2 h)]
  · rw [List.destutter'_cons_pos _ h, List.tail_cons]
    exact destutter_eq_cons_tail xs x

/-- The stored status. -/
def TaskWorld.statusOf (w : TaskWorld) (k : ℕ) : Option DaemonTaskStatus :=
  (w.tasks.row k).map (·.status)

namespace TaskHandler

variable (h : TaskHandler)

/-- The handler applied to a sequence of updates. -/
def handleUpdates (w : TaskWorld) (ds : List Delivery) : TaskWorld :=
  ds.foldl (fun w d => h.handleTaskStatusUpdate d.now w d.nodeID d.update) w

variable {h} {w : TaskWorld}

theorem eventTypes_append (es es' : List PluginTaskEvent) (k : ℕ) :
    eventTypes (es ++ es') k = eventTypes es k ++ eventTypes es' k := by
  simp [eventTypes]

theorem eventTypes_dispatch (hp : h.pluginEvents = true) (c : Prop) [Decidable c] (t : DaemonTask)
    (k : ℕ) : eventTypes (if c then h.dispatchPluginTaskEvent t else []) k =
      if t.id = k ∧ c then [taskEventType t.status] else [] := by
  by_cases hc : c <;> by_cases hk : t.id = k <;>
    simp [eventTypes, dispatchPluginTaskEvent, hp, hk, hc]

/-- What one update does to the status and to the events of every task. -/
theorem handleTaskStatusUpdate_spec (hw : w.tasks.Keyed) (hp : h.pluginEvents = true)
    (d : Delivery) :
    (h.handleTaskStatusUpdate d.now w d.nodeID d.update).tasks.Keyed ∧ ∀ k,
      (h.handleTaskStatusUpdate d.now w d.nodeID d.update).statusOf k =
        (w.statusOf k).map (fun s => if d.update.taskID = k then d.status else s) ∧
      eventTypes (h.handleTaskStatusUpdate d.now w d.nodeID d.update).events k =
        eventTypes w.events k ++ (w.statusOf k).elim [] fun s =>
          if d.update.taskID = k ∧ s ≠ d.status ∧ d.status ≠ .waiting then
            [taskEventType d.status] else [] := by
  cases hrow : w.tasks.row d.update.taskID with
  | none =>
    rw [h.handleTaskStatusUpdate_of_none hrow]
    refine ⟨hw, fun k => ?_⟩
    by_cases hk : d.update.taskID = k
    · subst hk; simp [TaskWorld.statusOf, hrow]
    · cases w.statusOf k <;> simp [hk]
  | some v =>
    obtain ⟨hid, h0⟩ := hw _ v hrow
    rw [← hid] at h0
    rw [h.handleTaskStatusUpdate_of_some hrow]
    obtain ⟨u, hurow, -, hst, -⟩ :=
      h.row_applyStatus (w := w) (t := v.withoutOutput) h0 d.now d.update
    have hev := h.events_applyStatus (w := w) (t := v.withoutOutput) h0 d.now d.update
    refine ⟨h.keyed_applyStatus hw (t := v.withoutOutput) h0 d.now d.update, fun k => ?_⟩
    rw [hev, eventTypes_append, eventTypes_dispatch hp, TaskWorld.statusOf, hurow,
      Function.update_apply]
    simp only [DaemonTask.withoutOutput_id, DaemonTask.withStatus_id, DaemonTask.withStatus_status,
      DaemonTask.withoutOutput_status, hid, List.append_cancel_left_eq]
    by_cases hk : d.update.taskID = k
    · subst hk
      simp [TaskWorld.statusOf, hrow, hst, Delivery.status]
    · rw [if_neg (Ne.symm hk)]
      refine ⟨?_, ?_⟩
      · show w.statusOf k = _
        cases w.statusOf k <;> simp [hk]
      · cases w.statusOf k <;> simp [hk]

/-- **The events of a task**: the transitions of its reported statuses, except those into
`waiting`; a task that is not stored has none. -/
theorem eventTypes_handleUpdates (hp : h.pluginEvents = true) (ds : List Delivery)
    (hw : w.tasks.Keyed) (k : ℕ) :
    eventTypes (h.handleUpdates w ds).events k = eventTypes w.events k ++ (w.statusOf k).elim []
      fun s => ((transitions s (reported ds k)).filter (· ≠ .waiting)).map taskEventType := by
  induction ds generalizing w with
  | nil => cases w.statusOf k <;> simp [handleUpdates, reported]
  | cons d ds ih =>
    obtain ⟨hw', hspec⟩ := handleTaskStatusUpdate_spec hw hp d
    obtain ⟨hst, hev⟩ := hspec k
    have hstep : h.handleUpdates w (d :: ds) =
        h.handleUpdates (h.handleTaskStatusUpdate d.now w d.nodeID d.update) ds := rfl
    rw [hstep, ih hw', hev, hst, List.append_assoc]
    cases w.statusOf k with
    | none => rfl
    | some s =>
      simp only [Option.map_some, Option.elim_some]
      by_cases hk : d.update.taskID = k
      · have hrep : reported (d :: ds) k = d.status :: reported ds k := by simp [reported, hk]
        rw [hrep, transitions_cons]
        by_cases hs : s = d.status
        · simp [hk, hs]
        · by_cases hwait : d.status = .waiting
          · -- the transition into `waiting` is kept by the history and dropped by the filter
            rw [hwait] at hs
            simp [hk, hs, hwait]
          · simp [hk, hs, hwait]
      · have hrep : reported (d :: ds) k = reported ds k := by simp [reported, hk]
        simp [hk, hrep]

/-! ### When each event is dispatched once -/

section

variable (l : List DaemonTaskStatus)

theorem count_started :
    ((l.filter (· ≠ .waiting)).map taskEventType).count .started = l.count .working := by
  induction l with
  | nil => rfl
  | cons s l ih => cases s <;> simp_all [taskEventType]

theorem count_completed :
    ((l.filter (· ≠ .waiting)).map taskEventType).count .completed = l.count .success := by
  induction l with
  | nil => rfl
  | cons s l ih => cases s <;> simp_all [taskEventType]

theorem count_failed :
    ((l.filter (· ≠ .waiting)).map taskEventType).count .failed + l.count .success =
      l.countP isTerminalStatus := by
  induction l with
  | nil => rfl
  | cons s l ih =>
    cases s <;> simp_all [taskEventType, isTerminalStatus] <;> omega

end

theorem events_eq_of_unwired (hp : h.pluginEvents = false) (ds : List Delivery) :
    (h.handleUpdates w ds).events = w.events := by
  induction ds generalizing w with
  | nil => rfl
  | cons d ds ih =>
    have hstep : h.handleUpdates w (d :: ds) =
        h.handleUpdates (h.handleTaskStatusUpdate d.now w d.nodeID d.update) ds := rfl
    rw [hstep, ih, handleTaskStatusUpdate]
    split
    · rfl
    · simp [applyStatus, dispatchPluginTaskEvent, hp]

/-- **Each event at most once**, and not both completed and failed, exactly when the statuses
reported for every stored task enter `working` at most once and a terminal status at most once. -/
theorem eachOnce_iff (h : TaskHandler) (w : TaskWorld) (hw : w.tasks.Keyed) (hev : w.events = [])
    (ds : List Delivery) :
    (∀ k, EachOnce (h.handleUpdates w ds).events k) ↔
      h.pluginEvents = false ∨ ∀ k s, w.statusOf k = some s → RunsOnce s (reported ds k) := by
  cases hp : h.pluginEvents with
  | false =>
    simp only [true_or, iff_true]
    intro k
    rw [events_eq_of_unwired hp ds, hev]
    constructor <;> simp [eventTypes]
  | true =>
    simp only [Bool.true_eq_false, false_or]
    refine forall_congr' fun k => ?_
    have hes := eventTypes_handleUpdates hp ds hw k
    rw [hev] at hes
    cases hk : w.statusOf k with
    | none =>
      rw [hk] at hes
      refine iff_of_true ?_ (fun s hs => by cases hs)
      constructor <;> rw [hes] <;> simp [eventTypes]
    | some s =>
      have hes' : eventTypes (h.handleUpdates w ds).events k =
          ((transitions s (reported ds k)).filter (· ≠ .waiting)).map taskEventType := by
        rw [hes, hk]; rfl
      have hs := count_started (transitions s (reported ds k))
      have hc := count_completed (transitions s (reported ds k))
      have hf := count_failed (transitions s (reported ds k))
      rw [← hes'] at hs hc hf
      have hsome : (∀ s', some s = some s' → RunsOnce s' (reported ds k)) ↔
          RunsOnce s (reported ds k) := by simp
      rw [hsome]
      unfold RunsOnce
      constructor
      · rintro ⟨h1, h2, h3, h4⟩
        omega
      · rintro ⟨h1, h2⟩
        exact ⟨by omega, by omega, by omega, by omega⟩

/-- The update of task 1 to a status, at a given time. -/
def report (now : Time) (status : ProtoTaskStatus) : Delivery := ⟨now, 1, ⟨1, status, ""⟩⟩

/-- A task that is reported as started and as finished, with the second report repeated. -/
theorem eachOnce_of_repeated_report : EachOnce (handleUpdates {} oneTask
      [report 2 .working, report 3 .success, report 4 .success]).events 1 := by
  refine (eachOnce_iff {} oneTask oneTask_consistent.keyed rfl _).2 (.inr ?_) 1
  · intro k s hs
    -- the only stored task is task 1
    obtain ⟨t, ht, rfl⟩ := Option.map_eq_some_iff.1 hs
    rw [oneTask, DaemonTaskRepository.row_save_new _ rfl, Function.update_apply] at ht
    split_ifs at ht with hk
    · cases ht; subst hk; decide
    · cases ht

/-- The daemon reports `working` and `success` again after a reconnect. -/
theorem events_repeat_after_replay :
    ¬ ∀ (h : TaskHandler) (w : TaskWorld) (ds : List Delivery), w.tasks.Keyed → w.events = [] →
      ∀ k, EachOnce (h.handleUpdates w ds).events k := by
  intro hall
  have h1 := hall {} oneTask
    [report 2 .working, report 3 .success, report 4 .working, report 5 .success]
    oneTask_consistent.keyed rfl 1
  exact absurd h1.completed (by decide)

end TaskHandler

end GameAP
