import GameAP.Tasks.Handler

/-!
# The task reaper

`taskreaper.Reaper`: one `Sweep` picks the nodes that have a stale working task and are connected to
no instance, and hands each of them to `ReconcileWorkingTasks` without tasks in flight.  The first
filter is by task and the second by node, so that all the working tasks of such a node are marked,
the fresh ones too; `sweep_marks` says so, and when a fresh task is safe.
-/

namespace GameAP

open Tables List

/-- `taskreaper.Options`, in nanoseconds. -/
structure ReaperOptions where
  interval : ℤ := 0
  staleThreshold : ℤ := 0

def ReaperOptions.applyDefaults (o : ReaperOptions) : ReaperOptions :=
  { interval := if o.interval ≤ 0 then 60 * 1000000000 else o.interval
    staleThreshold := if o.staleThreshold ≤ 0 then 600 * 1000000000 else o.staleThreshold }

/-- `isConnectedAnywhere` is what the session registry answers. -/
structure Reaper where
  opts : ReaperOptions
  isConnectedAnywhere : ℕ → Bool
  reconciler : TaskHandler

def newReaper (isConnectedAnywhere : ℕ → Bool) (reconciler : TaskHandler) (opts : ReaperOptions) :
    Reaper :=
  ⟨opts.applyDefaults, isConnectedAnywhere, reconciler⟩

/-- The order in which `range` goes through a set of nodes. -/
structure NodeOrder where
  order : Finset ℕ → List ℕ
  perm : ∀ s, (order s).Perm (ascending s)

namespace Reaper

variable (r : Reaper)

/-- The task has no update time, or none after the cutoff. -/
def stale (now : Time) (t : DaemonTask) : Bool :=
  match t.updatedAt with
  | none => true
  | some u => !decide ((now : ℤ) - r.opts.staleThreshold < u)

/-- The nodes that the first loop of `Sweep` collects. -/
def abandonedNodes (now : Time) (tasks : List DaemonTask) : Finset ℕ :=
  tasks.foldl (fun nodes t =>
    if r.isConnectedAnywhere t.dedicatedServerID then nodes
    else if r.stale now t then insert t.dedicatedServerID nodes
    else nodes) ∅

/-- `now` is the clock of the cutoff, and `later` the one of the saves. -/
def sweep (it : NodeOrder) (now later : Time) (w : TaskWorld) : TaskWorld :=
  let tasks := w.tasks.find { statuses := [.working] }
  if tasks = [] then w
  else
    (it.order (r.abandonedNodes now tasks)).foldl
      (fun w nodeID => (r.reconciler.reconcileWorkingTasks later w nodeID []).1) w

end Reaper

/-! ### What a reconciliation leaves -/

/-- The row of an abandoned task. -/
def DaemonTask.abandoned (now : Time) (t : DaemonTask) : DaemonTask :=
  { t with
    status := .error
    updatedAt := some now
    output := some (t.output.getD "" ++ abandonedTaskMessage) }

@[simp] theorem DaemonTask.abandoned_status (now : Time) (t : DaemonTask) :
    (t.abandoned now).status = .error := rfl

namespace DaemonTaskRepository

variable {r : DaemonTaskRepository} {t : DaemonTask}

theorem matches_workingOf {n : ℕ} :
    Matches (TaskHandler.workingOf n) t ↔ t.dedicatedServerID = n ∧ t.status = .working := by
  constructor
  · intro hm
    exact ⟨mem_singleton.1 (hm.node (cons_ne_nil _ _)),
      mem_singleton.1 (hm.status (cons_ne_nil _ _))⟩
  · rintro ⟨hnode, hstat⟩
    exact ⟨fun h => absurd rfl h, fun _ => mem_singleton.2 hnode, fun h => absurd rfl h,
      fun h => absurd rfl h, fun _ => mem_singleton.2 hstat⟩

theorem matches_working : Matches { statuses := [.working] } t ↔ t.status = .working := by
  constructor
  · intro hm
    exact mem_singleton.1 (hm.status (cons_ne_nil _ _))
  · intro hstat
    exact ⟨fun h => absurd rfl h, fun h => absurd rfl h, fun h => absurd rfl h,
      fun h => absurd rfl h, fun _ => mem_singleton.2 hstat⟩

theorem Consistent.nodup_find (h : r.Consistent) (f : FindDaemonTask) :
    ((r.find f).map DaemonTask.id).Nodup := by
  have hids : (r.find f).map DaemonTask.id = ascending (r.getFilteredTaskIDs f) := by
    unfold find
    rw [map_filterMap]
    refine Eq.trans (filterMap_congr fun id hid => ?_) filterMap_some
    obtain ⟨t, ht, -⟩ := (h.mem_getFilteredTaskIDs f id).1 (mem_ascending.1 hid)
    have hget : r.tasks.get id = some t := ht
    rw [hget]
    exact congrArg some (h.keyed id t ht).1
  rw [hids]
  exact nodup_ascending _

end DaemonTaskRepository

namespace TaskHandler

variable (h : TaskHandler) {w : TaskWorld}

open DaemonTaskRepository

theorem row_markTaskAbandoned (hrow : w.tasks.row t.id = some t) (ht : t.id ≠ 0) (now : Time) :
    (h.markTaskAbandoned now w t.withoutOutput).tasks.row =
      Function.update w.tasks.row t.id (some (t.abandoned now)) := by
  have hsave := (w.tasks.appendOutput t.id abandonedTaskMessage).row_save
    (t := (t.withoutOutput.withStatus .error).withoutOutput) ht now
  refine Eq.trans hsave ?_
  have hst : (w.tasks.appendOutput t.id abandonedTaskMessage).stored now
      (t.withoutOutput.withStatus .error).withoutOutput = t.abandoned now := by
    simp [stored, stamp, DaemonTask.withStatus,
      DaemonTask.withoutOutput, DaemonTask.abandoned, w.tasks.row_appendOutput, hrow, ht]
  rw [hst]
  funext id
  by_cases hid : id = t.id
  · subst hid
    rw [Function.update_self]
    exact Function.update_self ..
  · refine (Function.update_of_ne hid ..).trans ?_
    rw [w.tasks.row_appendOutput, if_neg hid, Function.update_of_ne hid]

theorem foldl_markTaskAbandoned (now : Time) (ts : List DaemonTask) (hw : w.tasks.Consistent)
    (hnodup : (ts.map DaemonTask.id).Nodup)
    (hrows : ∀ c ∈ ts, ∃ t, w.tasks.row t.id = some t ∧ c = t.withoutOutput) :
    (ts.foldl (h.markTaskAbandoned now) w).tasks.Consistent ∧
      ∀ id, (ts.foldl (h.markTaskAbandoned now) w).tasks.row id = (w.tasks.row id).map fun t =>
        if id ∈ ts.map DaemonTask.id then t.abandoned now else t := by
  induction ts generalizing w with
  | nil => exact ⟨hw, fun id => by simp⟩
  | cons c ts ih =>
    obtain ⟨t, hrow, rfl⟩ := hrows c (mem_cons_self ..)
    obtain ⟨hnotin, hnodup⟩ := nodup_cons.1 hnodup
    have ht : t.id ≠ 0 := (hw.keyed _ _ hrow).2
    have hmark := h.row_markTaskAbandoned hrow ht now
    obtain ⟨hcons, hfold⟩ := ih
      ((hw.appendOutput _ _).save (t := (t.withoutOutput.withStatus .error).withoutOutput) ht now)
      hnodup fun c hc => by
        obtain ⟨u, hu, rfl⟩ := hrows c (mem_cons_of_mem _ hc)
        refine ⟨u, ?_, rfl⟩
        rw [hmark, Function.update_of_ne ?_, hu]
        rintro heq
        exact hnotin (mem_map.2 ⟨_, hc, heq⟩)
    refine ⟨hcons, fun id => ?_⟩
    rw [foldl_cons, hfold id, hmark]
    by_cases hid : id = t.id
    · subst hid
      simp [hrow, show t.id ∉ ts.map DaemonTask.id from hnotin]
    · simp [hid]

/-- `ReconcileWorkingTasks` marks the working tasks of the node that are not in flight. -/
theorem reconcileWorkingTasks_spec (hw : w.tasks.Consistent) (now : Time) (n : ℕ)
    (inFlight : List ℕ) :
    (h.reconcileWorkingTasks now w n inFlight).1.tasks.Consistent ∧
      ∀ id, (h.reconcileWorkingTasks now w n inFlight).1.tasks.row id =
        (w.tasks.row id).map fun t =>
          if t.status = .working ∧ t.dedicatedServerID = n ∧ t.id ∉ inFlight then t.abandoned now
          else t := by
  obtain ⟨hcons, hrows⟩ := h.foldl_markTaskAbandoned now
    ((w.tasks.find (workingOf n)).filter fun t => t.id ∉ inFlight) hw
    ((hw.nodup_find _).sublist (filter_sublist.map _)) fun c hc => by
      obtain ⟨t, hrow, -, rfl⟩ := hw.mem_find.1 (mem_filter.1 hc).1
      exact ⟨t, hrow, rfl⟩
  refine ⟨hcons, fun id => Eq.trans (hrows id) ?_⟩
  cases hrow : w.tasks.row id with
  | none => rfl
  | some t =>
    obtain ⟨rfl, -⟩ := hw.keyed id t hrow
    have hmem : t.id ∈ ((w.tasks.find (workingOf n)).filter fun t => t.id ∉ inFlight).map
        DaemonTask.id ↔ t.status = .working ∧ t.dedicatedServerID = n ∧ t.id ∉ inFlight := by
      simp only [mem_map, mem_filter, hw.mem_find,
        matches_workingOf, decide_eq_true_eq]
      constructor
      · rintro ⟨c, ⟨⟨u, hu, ⟨hnode, hstat⟩, rfl⟩, hfl⟩, hid⟩
        rw [DaemonTask.withoutOutput_id] at hid hfl
        rw [hid, hrow] at hu
        cases hu
        exact ⟨hstat, hnode, hfl⟩
      · rintro ⟨hstat, hnode, hfl⟩
        exact ⟨t.withoutOutput, ⟨⟨t, hrow, ⟨hnode, hstat⟩, rfl⟩, hfl⟩, rfl⟩
    simp only [Option.map_some, hmem]

/-- One node after the other: a task that was marked is not working any more, so that no task is
marked twice. -/
theorem foldl_reconcileWorkingTasks (hw : w.tasks.Consistent) (now : Time) (nodes : List ℕ) (id : ℕ) :
    (nodes.foldl (fun w n => (h.reconcileWorkingTasks now w n []).1) w).tasks.row id =
      (w.tasks.row id).map fun t =>
        if t.status = .working ∧ t.dedicatedServerID ∈ nodes then t.abandoned now else t := by
  induction nodes generalizing w with
  | nil => simp
  | cons n nodes ih =>
    obtain ⟨hcons, hrow⟩ := h.reconcileWorkingTasks_spec hw now n []
    rw [foldl_cons, ih hcons, hrow, Option.map_map]
    refine congrArg (Option.map · _) (funext fun t => ?_)
    by_cases hstat : t.status = .working
    · by_cases hnode : t.dedicatedServerID = n
      · simp [hstat, hnode]
      · simp [hstat, hnode]
    · simp [hstat]

end TaskHandler

/-! ### What a sweep leaves -/

namespace Reaper

variable {r : Reaper} {w : TaskWorld}

theorem mem_abandonedNodes {now : Time} {tasks : List DaemonTask} {n : ℕ} :
    n ∈ r.abandonedNodes now tasks ↔ r.isConnectedAnywhere n = false ∧
      ∃ t ∈ tasks, t.dedicatedServerID = n ∧ r.stale now t = true := by
  -- the nodes collected so far are an arbitrary set
  have hfold : ∀ nodes : Finset ℕ, n ∈ tasks.foldl (fun nodes t =>
      if r.isConnectedAnywhere t.dedicatedServerID then nodes
      else if r.stale now t then insert t.dedicatedServerID nodes
      else nodes) nodes ↔ n ∈ nodes ∨ r.isConnectedAnywhere n = false ∧
        ∃ t ∈ tasks, t.dedicatedServerID = n ∧ r.stale now t = true := by
    induction tasks with
    | nil => simp
    | cons t tasks ih =>
      intro nodes
      rw [foldl_cons, ih]
      by_cases hconn : r.isConnectedAnywhere t.dedicatedServerID = true
      · rw [if_pos hconn]
        grind
      · rw [if_neg hconn]
        by_cases hstale : r.stale now t = true
        · rw [if_pos hstale]
          grind
        · rw [if_neg hstale]
          grind
  rw [abandonedNodes, hfold]
  simp

/-- The task is working on a node that is connected to no instance. -/
def Stranded (r : Reaper) (t : DaemonTask) : Prop :=
  t.status = .working ∧ r.isConnectedAnywhere t.dedicatedServerID = false

/-- Some working task of the node is stale. -/
def HasStale (r : Reaper) (now : Time) (w : TaskWorld) (n : ℕ) : Prop :=
  ∃ id u, w.tasks.row id = some u ∧ u.status = .working ∧ u.dedicatedServerID = n ∧
    r.stale now u = true

open DaemonTaskRepository

theorem row_sweep (hw : w.tasks.Consistent) (it : NodeOrder) (now later : Time) {id : ℕ}
    (hrow : w.tasks.row id = some t) :
    (r.Stranded t ∧ r.HasStale now w t.dedicatedServerID →
      (r.sweep it now later w).tasks.row id = some (t.abandoned later)) ∧
    (¬ (r.Stranded t ∧ r.HasStale now w t.dedicatedServerID) →
      (r.sweep it now later w).tasks.row id = some t) := by
  have hmem : t.dedicatedServerID ∈
      it.order (r.abandonedNodes now (w.tasks.find { statuses := [.working] })) ↔
      r.isConnectedAnywhere t.dedicatedServerID = false ∧ r.HasStale now w t.dedicatedServerID := by
    rw [(it.perm _).mem_iff, mem_ascending, mem_abandonedNodes]
    refine and_congr_right fun _ => ?_
    simp only [hw.mem_find, matches_working]
    constructor
    · rintro ⟨c, ⟨u, hu, hstat, rfl⟩, hnode, hstale⟩
      exact ⟨u.id, u, hu, hstat, hnode, hstale⟩
    · rintro ⟨id, u, hu, hstat, hnode, hstale⟩
      obtain ⟨rfl, -⟩ := hw.keyed id u hu
      exact ⟨u.withoutOutput, ⟨u, hu, hstat, rfl⟩, hnode, hstale⟩
  have hswept : (r.sweep it now later w).tasks.row id =
      some (if t.status = .working ∧ t.dedicatedServerID ∈
        it.order (r.abandonedNodes now (w.tasks.find { statuses := [.working] })) then
          t.abandoned later else t) := by
    unfold sweep
    by_cases hempty : w.tasks.find { statuses := [.working] } = []
    · -- without a working task there is nothing to mark
      have hidle : t.status ≠ .working := fun hstat => by
        obtain ⟨rfl, -⟩ := hw.keyed id t hrow
        have hfound : t.withoutOutput ∈ w.tasks.find { statuses := [.working] } :=
          hw.mem_find.2 ⟨t, hrow, matches_working.2 hstat, rfl⟩
        rw [hempty] at hfound
        cases hfound
      simp [hempty, hidle, hrow]
    · rw [if_neg hempty, r.reconciler.foldl_reconcileWorkingTasks hw later, hrow]
      rfl
  rw [hswept]
  constructor
  · rintro ⟨⟨hstat, hconn⟩, hstale⟩
    rw [if_pos ⟨hstat, hmem.2 ⟨hconn, hstale⟩⟩]
  · intro hnot
    refine congrArg some (if_neg fun hhit => hnot ?_)
    obtain ⟨hconn, hstale⟩ := hmem.1 hhit.2
    exact ⟨⟨hhit.1, hconn⟩, hstale⟩

/-- **One sweep** marks exactly the working tasks of the nodes that are connected to no instance and
have a stale working task.  They are all stale precisely if no such node has a fresh working
task. -/
theorem sweep_marks (r : Reaper) {w : TaskWorld} (hw : w.tasks.Consistent) (it : NodeOrder)
    (now later : Time) :
    (∀ id t, w.tasks.row id = some t → (r.Stranded t ∧ r.HasStale now w t.dedicatedServerID →
        (r.sweep it now later w).tasks.row id = some (t.abandoned later)) ∧
      (¬ (r.Stranded t ∧ r.HasStale now w t.dedicatedServerID) →
        (r.sweep it now later w).tasks.row id = some t)) ∧
    ((∀ id t t', w.tasks.row id = some t → (r.sweep it now later w).tasks.row id = some t' →
        t'.status ≠ t.status → r.Stranded t ∧ r.stale now t = true) ↔
      ∀ id t, w.tasks.row id = some t → r.Stranded t → r.HasStale now w t.dedicatedServerID →
        r.stale now t = true) := by
  refine ⟨fun id t hrow => row_sweep hw it now later hrow, ?_, ?_⟩
  · intro hmark id t hrow hstr hstale
    have hrow' := (row_sweep hw it now later hrow).1 ⟨hstr, hstale⟩
    refine (hmark id t _ hrow hrow' ?_).2
    rw [DaemonTask.abandoned_status, hstr.1]
    exact DaemonTaskStatus.noConfusion
  · intro hall id t t' hrow hrow' hne
    by_cases hdoomed : r.Stranded t ∧ r.HasStale now w t.dedicatedServerID
    · exact ⟨hdoomed.1, hall id t hrow hdoomed.1 hdoomed.2⟩
    · rw [(row_sweep hw it now later hrow).2 hdoomed] at hrow'
      cases hrow'
      exact absurd rfl hne

/-- Two working tasks of node 1, which were last updated at the times 1 and 1000. -/
def twoWorking : TaskWorld :=
  { tasks := ((new.save 1 { startRequest with status := .working }).1.save 1000
      { startRequest with status := .working }).1
    servers := .new }

theorem twoWorking_consistent : twoWorking.tasks.Consistent :=
  (new_consistent.save_new rfl (by decide) rfl 1).save_new rfl (by decide)
    rfl 1000

def increasingNodes : NodeOrder := ⟨ascending, fun _ => .refl _⟩

def lonelyReaper : Reaper := newReaper (fun _ => false) {} { staleThreshold := 100 }

theorem sweep_marks_both_stale :
    (lonelyReaper.sweep increasingNodes 5000 5001 twoWorking).tasks.row 2 =
      (twoWorking.tasks.row 2).map (DaemonTask.abandoned 5001) := by
  obtain ⟨t, ht, hstr, hstale⟩ : ∃ t, twoWorking.tasks.row 2 = some t ∧
      lonelyReaper.Stranded t ∧ lonelyReaper.stale 5000 t = true := ⟨_, rfl, ⟨rfl, rfl⟩, rfl⟩
  have hmark := ((sweep_marks lonelyReaper twoWorking_consistent increasingNodes 5000 5001).1
    2 t ht).1 ⟨hstr, 2, t, ht, hstr.1, rfl, hstale⟩
  rfl

/-- The task of the time 1000 is fresh at the time 1050, but the other one of its node is stale. -/
theorem fresh_task_abandoned : ∃ t t', twoWorking.tasks.row 2 = some t ∧
      (lonelyReaper.sweep increasingNodes 1050 1051 twoWorking).tasks.row 2 = some t' ∧
      t.status = .working ∧ lonelyReaper.stale 1050 t = false ∧ t'.status = .error :=
  ⟨_, _, rfl, rfl, by decide +kernel⟩

end Reaper

end GameAP
