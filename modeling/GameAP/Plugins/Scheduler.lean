import GameAP.Lib.Runs
import GameAP.Plugins.Tasks

/-!
# The registry of the scheduler and the table

The scheduled tasks are rows of a table, and the scheduler keeps a registry of them in memory.
`AddTask` holds the lock of the registry while it writes the row; `RemoveTask`, `RemovePluginTasks`
and the refresh use the table first and take the lock afterwards.

`registry_agrees`: as long as no row changes between the read of a refresh and its merge, no task is
added again between the two halves of its removal, and no failed statement has taken effect, the
registry is exactly the table whenever no call is in progress.  The invariant is `Synced`: where the
two differ, a call in progress will make them agree.  Otherwise a refresh may lose a task
(`refresh_drops_added_task`).
-/

namespace GameAP

open Runs Tables TaskRegistry List Option

/-! ### The calls -/

structure SchedulerStore where
  rows : TaskRows := ∅
  registry : TaskRegistry := ∅
  /-- The call of `AddTask` that holds the lock of the registry. -/
  mutex : Option ℕ := none

/-- The environment of a step: whether a statement that fails has taken effect. -/
structure SchedulerEnv extends Env where
  applied : Bool := false
  deriving DecidableEq

def SchedulerEnv.effect (e : SchedulerEnv) : Bool := e.ok || e.applied

/-- How a call ends. -/
inductive SchedulerResult
  | ok
  | removed (deleted : ℕ)
  | failed (error : SchedulerError)
  deriving DecidableEq

/-- Where a call stands; each constructor is before a statement or before a section under the
lock. -/
inductive SchedulerCall
  | addTask (task : ScheduledTask)
  | addLock (task : ScheduledTask)
  | upsert (task : ScheduledTask)
  | register (task : ScheduledTask)
  | removeTask (key : TaskKey)
  | removeEntry (key : TaskKey)
  | removePluginTasks (pluginID : ℕ)
  | removeEntries (pluginID deleted : ℕ)
  | reload
  | merge (tasks : List ScheduledTask)
  | returned (result : SchedulerResult)
  deriving DecidableEq

namespace SchedulerCall

/-- One step of call `i`. -/
def next (opts : SchedulerOptions) (i : ℕ) (s : SchedulerStore) (e : SchedulerEnv) :
    SchedulerCall → Option (SchedulerStore × SchedulerCall)
  | .addTask task =>
    match validateTask opts task with
    | .error err => some (s, .returned (.failed err))
    | .ok task => some (s, .addLock task)
  | .addLock task =>
    if s.mutex.isSome then none
    else if s.registry.get task.key = none ∧
        opts.maxTasksPerPlugin ≤ tasksOf s.registry task.pluginID then
      some (s, .returned (.failed (.taskLimitReached opts.maxTasksPerPlugin)))
    else some ({ s with mutex := some i }, .upsert task)
  | .upsert task =>
    let rows := if e.effect then s.rows.put task.key task else s.rows
    if e.ok then some ({ s with rows }, .register task)
    else some ({ s with rows, mutex := none }, .returned (.failed .notPersisted))
  | .register task =>
    some ({ s with registry := s.registry.register task e.now, mutex := none }, .returned .ok)
  | .removeTask key =>
    let rows := if e.effect then s.rows.del key else s.rows
    some ({ s with rows }, if e.ok then .removeEntry key else .returned (.failed .notDeleted))
  | .removeEntry key =>
    if s.mutex.isSome then none
    else some ({ s with registry := s.registry.del key }, .returned .ok)
  | .removePluginTasks pluginID =>
    let rows := if e.effect then s.rows.delWhere fun key => key.pluginID = pluginID else s.rows
    some ({ s with rows },
      if e.ok then .removeEntries pluginID (tasksOf s.rows pluginID)
      else .returned (.failed .pluginNotDeleted))
  | .removeEntries pluginID deleted =>
    if s.mutex.isSome then none
    else
      some ({ s with registry := s.registry.delWhere fun key => key.pluginID = pluginID },
        .returned (.removed deleted))
  | .reload =>
    some (s, if e.ok then .merge s.rows.findAll else .returned (.failed .notFetched))
  | .merge tasks =>
    if s.mutex.isSome then none
    else some ({ s with registry := s.registry.merge tasks e.now }, .returned .ok)
  | .returned _ => none

/-- Any number of additions, removals and refreshes. -/
def program (opts : SchedulerOptions) : Program SchedulerStore SchedulerCall SchedulerEnv where
  start _ c := match c with
    | .addTask _ | .removeTask _ | .removePluginTasks _ | .reload => true
    | _ => false
  next i s c e := next opts i s e c

/-- The condition on a step: a statement that fails has not taken effect, a removed task has not
been added again before its entry is removed, and the rows that a refresh merges are still those
that it has read. -/
def Settled (p : Pool SchedulerStore SchedulerCall) (c : SchedulerCall) (e : SchedulerEnv) : Prop :=
  match c with
  | .upsert _ | .removeTask _ | .removePluginTasks _ => e.effect = e.ok
  | .removeEntry key => p.store.rows.get key = none
  | .removeEntries pluginID _ => ∀ key ∈ p.store.rows.keys, key.pluginID ≠ pluginID
  | .merge tasks => tasks = p.store.rows.findAll
  | .addTask _ | .addLock _ | .register _ | .reload | .returned _ => True

instance (p : Pool SchedulerStore SchedulerCall) (c : SchedulerCall) (e : SchedulerEnv) :
    Decidable (Settled p c e) := by
  cases c <;> unfold Settled <;> infer_instance

/-- The call has returned. -/
def finished : SchedulerCall → Bool
  | .returned _ => true
  | _ => false

/-- The call has written the row and will register the task. -/
def registers (key : TaskKey) : SchedulerCall → Prop
  | .register task => task.key = key
  | _ => False

/-- The call has deleted the row and will remove the entry. -/
def removes (key : TaskKey) : SchedulerCall → Prop
  | .removeEntry key' => key' = key
  | .removeEntries pluginID _ => key.pluginID = pluginID
  | _ => False

/-- The task that a call adds, once it has been validated. -/
def adds : SchedulerCall → Option ScheduledTask
  | .addLock task | .upsert task | .register task => some task
  | _ => none

/-- The task that a call adds, while it holds the lock. -/
def locked : SchedulerCall → Option ScheduledTask
  | .upsert task | .register task => some task
  | _ => none

end SchedulerCall

/-! ### The invariant -/

namespace SchedulerCall

variable {opts : SchedulerOptions} {p : Pool SchedulerStore SchedulerCall} {s' : SchedulerStore}
  {i : ℕ} {c c' : SchedulerCall} {e : SchedulerEnv} {key : TaskKey} {task : ScheduledTask}
  {W : SchedulerCall → Prop} {registry : TaskRegistry} {f : TaskKey → Bool}

/-- Some call in progress has this to do. -/
def Pending (p : Pool SchedulerStore SchedulerCall) (W : SchedulerCall → Prop) : Prop :=
  ∃ c ∈ p.calls, W c

/-- Where table and registry differ, a call in progress will make them agree. -/
structure Synced (opts : SchedulerOptions) (p : Pool SchedulerStore SchedulerCall) : Prop where
  rows : ∀ key task, p.store.rows.get key = some task → task.key = key ∧ 0 < task.interval
  adds : ∀ c ∈ p.calls, ∀ task ∈ c.adds, 0 < task.interval
  lock : ∀ i c, p.calls[i]? = some c → c.locked ≠ none → p.store.mutex = some i
  room : ∀ c ∈ p.calls, ∀ task ∈ c.locked, p.store.registry.get task.key ≠ none ∨
    tasksOf p.store.registry task.pluginID < opts.maxTasksPerPlugin
  limit : ∀ P, tasksOf p.store.registry P ≤ opts.maxTasksPerPlugin
  registered : ∀ key task, p.store.rows.get key = some task →
    p.store.registry.taskAt key = some task ∨ Pending p (registers key)
  persisted : ∀ key task, p.store.registry.taskAt key = some task →
    p.store.rows.get key = some task ∨ Pending p (registers key) ∨
      p.store.rows.get key = none ∧ Pending p (removes key)
  written : ∀ task, .register task ∈ p.calls → p.store.rows.get task.key = some task ∨
    p.store.rows.get task.key = none ∧ Pending p (removes task.key)

/-- At rest the registry has the tasks of the table, which have positive intervals and are not too
many. -/
structure InAgreement (opts : SchedulerOptions) (s : SchedulerStore) : Prop where
  rows : ∀ key task, s.rows.get key = some task → task.key = key ∧ 0 < task.interval
  agrees : ∀ key, s.registry.taskAt key = s.rows.get key
  limit : ∀ P, tasksOf s.registry P ≤ opts.maxTasksPerPlugin

theorem locked_of_adds (h : c.adds = none) : c.locked = none := by
  cases c <;> first | rfl | cases h

theorem Pending.advance (hc : p.calls[i]? = some c) (h : Pending p W)
    (hW : ¬W c) : Pending ⟨s', p.calls.set i c'⟩ W := by
  obtain ⟨d, hd, hWd⟩ := h
  obtain ⟨j, hj⟩ := mem_iff_getElem?.1 hd
  have hne : i ≠ j := by
    rintro rfl
    rw [hc] at hj
    cases hj
    exact hW hWd
  exact ⟨d, mem_of_getElem? ((getElem?_set_ne hne).trans hj), hWd⟩

theorem pending_self (hc : p.calls[i]? = some c) (h : W c') : Pending ⟨s', p.calls.set i c'⟩ W :=
  ⟨c', mem_set (List.getElem?_eq_some_iff.1 hc).1 c', h⟩

theorem forall_mem_set {Q : SchedulerCall → Prop} {calls : List SchedulerCall} (h : ∀ d ∈ calls, Q d)
    (hc' : Q c') : ∀ d ∈ calls.set i c', Q d := by
  intro d hd
  rcases mem_or_eq_of_mem_set hd with hd | rfl
  · exact h d hd
  · exact hc'

open Pending

namespace Synced

section

variable (hp : Synced opts p)

include hp

theorem unlocked (hmutex : p.store.mutex = none) : ∀ d ∈ p.calls, d.locked = none := by
  intro d hd
  obtain ⟨j, hj⟩ := mem_iff_getElem?.1 hd
  by_contra hne
  have hlock := hp.lock j d hj hne
  rw [hmutex] at hlock
  cases hlock

theorem not_registers (hmutex : p.store.mutex = none) (key : TaskKey) :
    ¬Pending p (registers key) := by
  rintro ⟨d, hd, hreg⟩
  have hnone := hp.unlocked hmutex d hd
  cases d with
  | register => cases hnone
  | _ => exact hreg

theorem lock_set (hother : ∀ j, j ≠ i → p.store.mutex = some j → s'.mutex = some j)
    (hself : c'.locked ≠ none → s'.mutex = some i) :
    ∀ j d, (p.calls.set i c')[j]? = some d → d.locked ≠ none → s'.mutex = some j := by
  intro j d hd hlock
  rcases getElem?_set_cases hd with ⟨rfl, rfl⟩ | ⟨hj, hd⟩
  · exact hself hlock
  · exact hother j hj (hp.lock j d hd hlock)

theorem unlocked_set (hc : p.calls[i]? = some c) (hlocked : c.locked ≠ none)
    (hc' : c'.locked = none) : ∀ d ∈ p.calls.set i c', d.locked = none := by
  intro d hd
  obtain ⟨j, hj⟩ := mem_iff_getElem?.1 hd
  by_contra hne
  have hlock : p.store.mutex = some j := hp.lock_set (fun j _ h => h) (absurd hc') j d hj hne
  rw [hp.lock i c hc hlocked] at hlock
  cases hlock
  rw [getElem?_set_self (List.getElem?_eq_some_iff.1 hc).1] at hj
  cases hj
  exact hne hc'

/-- A step that leaves the entries and only deletes rows whose entries the call will remove, by a
call that has nothing left to do there. -/
theorem quiet (hc : p.calls[i]? = some c)
    (hrows : ∀ key, s'.rows.get key = p.store.rows.get key ∨ s'.rows.get key = none ∧ c'.removes key)
    (hreg : s'.registry = p.store.registry)
    (hother : ∀ j, j ≠ i → p.store.mutex = some j → s'.mutex = some j)
    (hself : c'.locked ≠ none → s'.mutex = some i) (hregi : ∀ key, ¬c.registers key)
    (hrem : ∀ key, ¬c.removes key) (hadds : ∀ task ∈ c'.adds, 0 < task.interval)
    (hroom : ∀ task ∈ c'.locked, p.store.registry.get task.key ≠ none ∨
      tasksOf p.store.registry task.pluginID < opts.maxTasksPerPlugin)
    (hnew : ∀ task, c' ≠ .register task) : Synced opts ⟨s', p.calls.set i c'⟩ := by
  have hold : ∀ key task, s'.rows.get key = some task → p.store.rows.get key = some task := by
    intro key task hrow
    rcases hrows key with heq | ⟨hnone, -⟩
    · exact heq ▸ hrow
    · cases hnone.symm.trans hrow
  exact
    { rows := fun key task hrow => hp.rows key task (hold key task hrow)
      adds := forall_mem_set hp.adds hadds
      lock := hp.lock_set hother hself
      room := by rw [hreg]; exact forall_mem_set hp.room hroom
      limit := by rw [hreg]; exact hp.limit
      registered := by
        rw [hreg]
        intro key task hrow
        exact (hp.registered key task (hold key task hrow)).imp_right
          (advance hc · (hregi key))
      persisted := by
        rw [hreg]
        intro key task hentry
        rcases hrows key with heq | ⟨hnone, hdo⟩
        · rw [heq]
          exact (hp.persisted key task hentry).imp_right
            (Or.imp (advance hc · (hregi key))
              (And.imp_right (advance hc · (hrem key))))
        · exact .inr (.inr ⟨hnone, pending_self hc hdo⟩)
      written := by
        intro task hmem
        have hmem' := (mem_or_eq_of_mem_set hmem).resolve_right fun h => hnew task h.symm
        rcases hrows task.key with heq | ⟨hnone, hdo⟩
        · rw [heq]
          exact (hp.written task hmem').imp_right (And.imp_right (advance hc · (hrem _)))
        · exact .inr ⟨hnone, pending_self hc hdo⟩ }

theorem deleteRows (hc : p.calls[i]? = some c) {rows : TaskRows}
    (hrows : ∀ key, rows.get key = if f key then none else p.store.rows.get key)
    (hreg : ∀ key, ¬c.registers key) (hrem : ∀ key, ¬c.removes key)
    (hadds : c'.adds = none) (hdo : ∀ key, f key = true → c'.removes key) :
    Synced opts ⟨{ p.store with rows }, p.calls.set i c'⟩ := by
  refine hp.quiet hc (fun key => ?_) rfl (fun _ _ h => h) (absurd (locked_of_adds hadds)) hreg
    hrem (by simp [hadds]) (by simp [locked_of_adds hadds]) ?_
  · dsimp only
    rw [hrows]
    split_ifs with hf
    · exact .inr ⟨rfl, hdo key hf⟩
    · exact .inl rfl
  · rintro task rfl
    cases hadds

theorem reply (hc : p.calls[i]? = some c) (hreg : ∀ key, ¬c.registers key)
    (hrem : ∀ key, ¬c.removes key) (hadds : c'.adds = none) :
    Synced opts ⟨p.store, p.calls.set i c'⟩ :=
  hp.deleteRows hc (f := fun _ => false) (fun _ => rfl) hreg hrem hadds nofun

theorem upsert (hc : p.calls[i]? = some (.upsert task)) :
    Synced opts ⟨{ p.store with rows := p.store.rows.put task.key task },
      p.calls.set i (.register task)⟩ where
  rows := by
    intro key task' hrow
    rw [Table.get_put] at hrow
    split_ifs at hrow with hkey
    · cases hrow
      exact ⟨hkey.symm, hp.adds _ (mem_of_getElem? hc) task rfl⟩
    · exact hp.rows key task' hrow
  adds := forall_mem_set hp.adds (hp.adds (.upsert task) (mem_of_getElem? hc))
  lock := hp.lock_set (fun j _ h => h) fun _ => hp.lock i _ hc (by simp [locked])
  room := forall_mem_set hp.room (hp.room (.upsert task) (mem_of_getElem? hc))
  limit := hp.limit
  registered := by
    intro key task' hrow
    rw [Table.get_put] at hrow
    split_ifs at hrow with hkey
    · exact .inr (pending_self hc hkey.symm)
    · exact (hp.registered key task' hrow).imp_right (advance hc · id)
  persisted := by
    intro key task' hentry
    dsimp only
    rw [Table.get_put]
    split_ifs with hkey
    · exact .inr (.inl (pending_self hc hkey.symm))
    · exact (hp.persisted key task' hentry).imp_right
        (Or.imp (advance hc · id) (And.imp_right (advance hc · id)))
  written := by
    intro task' hmem
    have hlock := hp.lock i _ hc (by simp [locked])
    rcases mem_or_eq_of_mem_set hmem with hmem | heq
    · -- no other call holds the lock
      obtain ⟨j, hj⟩ := mem_iff_getElem?.1 hmem
      have hlock' := hp.lock j _ hj (by simp [locked])
      rw [hlock] at hlock'
      cases hlock'
      rw [hc] at hj
      cases hj
    · cases heq
      exact .inl (Table.get_put_self _ _ _)

theorem register (hc : p.calls[i]? = some (.register task)) (now : Time)
    (result : SchedulerResult) :
    Synced opts ⟨{ p.store with registry := p.store.registry.register task now, mutex := none },
      p.calls.set i (.returned result)⟩ where
  rows := hp.rows
  adds := forall_mem_set hp.adds (by simp [SchedulerCall.adds])
  lock := by
    have hlock := hp.lock i _ hc (by simp [locked])
    refine hp.lock_set (fun j hj h => ?_) (by simp [locked])
    rw [hlock] at h
    exact absurd (some.inj h).symm hj
  room := by
    intro d hd task' htask'
    rw [hp.unlocked_set hc (some_ne_none task) rfl d hd] at htask'
    cases htask'
  limit := by
    intro P
    obtain ⟨st, -, heq⟩ := register_eq_put p.store.registry task now
    rw [heq]
    exact tasksOf_put st (hp.room _ (mem_of_getElem? hc) task rfl) (hp.limit P)
  registered := by
    intro key task' hrow
    dsimp only
    rw [taskAt_register]
    split_ifs with hkey
    · subst hkey
      rcases hp.written task (mem_of_getElem? hc) with hwrit | ⟨hnone, -⟩
      · exact .inl (hwrit.symm.trans hrow)
      · rw [hnone] at hrow
        cases hrow
    · exact (hp.registered key task' hrow).imp_right (advance hc · (Ne.symm hkey))
  persisted := by
    intro key task' hentry
    dsimp only at hentry
    rw [taskAt_register] at hentry
    split_ifs at hentry with hkey
    · subst hkey
      cases hentry
      exact (hp.written task (mem_of_getElem? hc)).imp_right fun h =>
        .inr ⟨h.1, h.2.advance hc id⟩
    · exact (hp.persisted key task' hentry).imp_right (Or.imp (advance hc · (Ne.symm hkey))
        (And.imp_right (advance hc · id)))
  written := by
    intro task' hmem
    have hnone := hp.unlocked_set hc (some_ne_none task) rfl _ hmem
    cases hnone

theorem setRegistry (hc : p.calls[i]? = some c)
    (hmutex : p.store.mutex = none) (hadds : c'.adds = none)
    (hreg : ∀ key task, p.store.rows.get key = some task → registry.taskAt key = some task)
    (hpers : ∀ key task, registry.taskAt key = some task →
      p.store.rows.get key = some task ∨ p.store.registry.taskAt key = some task ∧ ¬c.removes key) :
    Synced opts ⟨{ p.store with registry }, p.calls.set i c'⟩ where
  rows := hp.rows
  adds := forall_mem_set hp.adds (by simp [hadds])
  lock := hp.lock_set (fun j _ h => h) fun h => absurd (locked_of_adds hadds) h
  room := by
    intro d hd task htask
    have hnone := forall_mem_set (hp.unlocked hmutex) (locked_of_adds hadds) d hd
    rw [hnone] at htask
    cases htask
  limit := by
    intro P
    refine le_trans (tasksOf_le fun key st hP hst => ?_) (hp.limit P)
    have hentry : registry.taskAt key = some st.task := congrArg (Option.map _) hst
    have htaskAt : p.store.registry.taskAt key = some st.task := by
      rcases hpers key st.task hentry with hrow | hold
      · exact (hp.registered key st.task hrow).resolve_right (hp.not_registers hmutex key)
      · exact hold.1
    obtain ⟨st', hst', -⟩ := map_eq_some_iff.1 htaskAt
    exact ⟨st', hst'⟩
  registered := fun key task hrow => .inl (hreg key task hrow)
  persisted := by
    intro key task hentry
    rcases hpers key task hentry with hrow | ⟨hold, hrem⟩
    · exact .inl hrow
    · rcases hp.persisted key task hold with hrow | hregi | ⟨hnone, hpend⟩
      · exact .inl hrow
      · exact absurd hregi (hp.not_registers hmutex key)
      · exact .inr (.inr ⟨hnone, hpend.advance hc hrem⟩)
  written := by
    intro task hmem
    have hnone := forall_mem_set (hp.unlocked hmutex) (locked_of_adds hadds) _ hmem
    cases hnone

theorem deleteEntries (hc : p.calls[i]? = some c)
    (hmutex : p.store.mutex = none) (hadds : c'.adds = none)
    (hreg : ∀ key, registry.taskAt key = if f key then none else p.store.registry.taskAt key)
    (hgone : ∀ key, f key = true → p.store.rows.get key = none)
    (hrem : ∀ key, c.removes key → f key = true) :
    Synced opts ⟨{ p.store with registry }, p.calls.set i c'⟩ := by
  refine hp.setRegistry hc hmutex hadds (fun key task hrow => ?_) fun key task hentry => ?_
  · have hf : ¬f key = true := by
      intro hf
      rw [hgone key hf] at hrow
      cases hrow
    rw [hreg, if_neg hf]
    exact (hp.registered key task hrow).resolve_right (hp.not_registers hmutex key)
  · rw [hreg] at hentry
    split_ifs at hentry with hf
    exact .inr ⟨hentry, fun h => hf (hrem key h)⟩

theorem merge (hc : p.calls[i]? = some c) (hmutex : p.store.mutex = none)
    (hadds : c'.adds = none) (now : Time) :
    Synced opts ⟨{ p.store with registry := p.store.registry.merge p.store.rows.findAll now },
      p.calls.set i c'⟩ := by
  have hkeyed : ∀ key task, p.store.rows.get key = some task → task.key = key :=
    fun key task hrow => (hp.rows key task hrow).1
  refine hp.setRegistry hc hmutex hadds (fun key task hrow => ?_) fun key task hentry => ?_
  · rw [taskAt_merge_findAll hkeyed, hrow, filter_some,
      if_pos (decide_eq_true (hp.rows key task hrow).2)]
  · rw [taskAt_merge_findAll hkeyed] at hentry
    exact .inl (eq_some_of_filter_eq_some hentry)

theorem spawn (hstart : (program opts).start p.store c = true) :
    Synced opts ⟨p.store, p.calls ++ [c]⟩ := by
  have hadds : c.adds = none := by
    cases c <;> first | rfl | cases hstart
  have hgrow : ∀ {W : SchedulerCall → Prop}, Pending p W → Pending ⟨p.store, p.calls ++ [c]⟩ W :=
    fun ⟨d, hd, hW⟩ => ⟨d, mem_append_left _ hd, hW⟩
  have hcalls : ∀ {Q : SchedulerCall → Prop}, (∀ d ∈ p.calls, Q d) → Q c → ∀ d ∈ p.calls ++ [c], Q d :=
    fun h hc => forall_mem_append.2 ⟨h, forall_mem_singleton.2 hc⟩
  exact {
    rows := hp.rows
    adds := hcalls hp.adds (by simp [hadds])
    lock := by
      intro j d hd hlock
      rw [getElem?_append] at hd
      split_ifs at hd with hlt
      · exact hp.lock j d hd hlock
      · rw [mem_singleton.1 (mem_of_getElem? hd)] at hlock
        exact absurd (locked_of_adds hadds) hlock
    room := hcalls hp.room (by simp [locked_of_adds hadds])
    limit := hp.limit
    registered := fun key task hrow => (hp.registered key task hrow).imp_right hgrow
    persisted := fun key task hentry =>
      (hp.persisted key task hentry).imp_right (Or.imp hgrow (And.imp_right hgrow))
    written := by
      intro task hmem
      rcases mem_append.1 hmem with hmem | hmem
      · exact (hp.written task hmem).imp_right (And.imp_right hgrow)
      · rw [← mem_singleton.1 hmem] at hadds
        cases hadds }

theorem advance (hc : p.calls[i]? = some c) (hG : Settled p c e)
    (h : next opts i p.store e c = some (s', c')) : Synced opts ⟨s', p.calls.set i c'⟩ := by
  cases c with
  | addTask task =>
    simp only [next] at h
    cases hvalid : validateTask opts task with
    | error err =>
      rw [hvalid] at h
      cases h
      exact hp.reply hc (fun _ => id) (fun _ => id) rfl
    | ok task' =>
      rw [hvalid] at h
      cases h
      refine hp.quiet hc (fun _ => .inl rfl) rfl (fun _ _ h => h) (absurd rfl) (fun _ => id)
        (fun _ => id) ?_ (by simp [locked]) (by simp)
      intro task'' htask''
      cases htask''
      exact validateTask_interval hvalid
  | addLock task =>
    simp only [next] at h
    split_ifs at h with hmutex hfull <;> cases h
    · exact hp.reply hc (fun _ => id) (fun _ => id) rfl
    · refine hp.quiet hc (fun _ => .inl rfl) rfl (fun j _ hj => ?_) (fun _ => rfl) (fun _ => id)
        (fun _ => id) ?_ ?_ (by simp)
      · simp [hj] at hmutex
      · exact hp.adds (.addLock task) (mem_of_getElem? hc)
      · intro task' htask'
        cases htask'
        by_cases hnone : p.store.registry.get task.key = none
        · exact .inr (Nat.lt_of_not_le fun hle => hfull ⟨hnone, hle⟩)
        · exact .inl hnone
  | upsert task =>
    simp only [next] at h
    rw [show e.effect = e.ok from hG] at h
    cases hok : e.ok with
    | true =>
      rw [hok] at h
      cases h
      exact hp.upsert hc
    | false =>
      rw [hok] at h
      cases h
      refine hp.quiet hc (fun _ => .inl rfl) rfl (fun j hj hmutex => ?_) (absurd rfl) (fun _ => id)
        (fun _ => id) (by simp [SchedulerCall.adds]) (by simp [locked]) (by simp)
      rw [hp.lock i _ hc (some_ne_none task)] at hmutex
      exact absurd (some.inj hmutex).symm hj
  | register task =>
    cases h
    exact hp.register hc e.now .ok
  | removeTask key =>
    simp only [next] at h
    rw [show e.effect = e.ok from hG] at h
    cases hok : e.ok with
    | true =>
      simp only [hok, if_true] at h
      cases h
      refine hp.deleteRows hc (f := fun key' => key' = key) (fun key' => ?_) (fun _ => id)
        (fun _ => id) rfl fun key' hkey' => (of_decide_eq_true hkey').symm
      simp only [Table.get_del, decide_eq_true_eq]
    | false =>
      rw [hok] at h
      cases h
      exact hp.reply hc (fun _ => id) (fun _ => id) rfl
  | removeEntry key =>
    simp only [next] at h
    split_ifs at h with hmutex
    cases h
    refine hp.deleteEntries hc (f := fun key' => key' = key) (by simpa using hmutex) rfl
      (fun key' => ?_) (fun key' hkey' => of_decide_eq_true hkey' ▸ hG)
      fun key' hkey' => decide_eq_true (Eq.symm hkey')
    rw [taskAt_del]
    simp only [decide_eq_true_eq]
  | removePluginTasks pluginID =>
    simp only [next] at h
    rw [show e.effect = e.ok from hG] at h
    cases hok : e.ok with
    | true =>
      simp only [hok, if_true] at h
      cases h
      refine hp.deleteRows hc (f := fun key => key.pluginID = pluginID) (Table.get_delWhere _ _)
        (fun _ => id) (fun _ => id) rfl fun key' hkey' => ?_
      have hplug : key'.pluginID = pluginID := of_decide_eq_true hkey'
      exact hplug
    | false =>
      rw [hok] at h
      cases h
      exact hp.reply hc (fun _ => id) (fun _ => id) rfl
  | removeEntries pluginID deleted =>
    simp only [next] at h
    split_ifs at h with hmutex
    cases h
    refine hp.deleteEntries hc (by simpa using hmutex) rfl (taskAt_delWhere _ _)
      (fun key hkey => ?_) fun key hkey => decide_eq_true hkey
    rw [eq_none_iff_forall_ne_some]
    intro task hrow
    exact hG key (Table.mem_keys_iff.2 ⟨task, hrow⟩) (of_decide_eq_true hkey)
  | reload =>
    cases h
    exact hp.reply hc (fun _ => id) (fun _ => id) (by cases e.ok <;> rfl)
  | merge tasks =>
    simp only [next] at h
    split_ifs at h with hmutex
    cases h
    obtain rfl : tasks = p.store.rows.findAll := hG
    exact hp.merge hc (by simpa using hmutex) rfl e.now
  | returned result => cases h

end

theorem init {s : SchedulerStore} (h : InAgreement opts s) : Synced opts (Pool.idle s) where
  rows := h.rows
  adds := nofun
  lock := fun j c hc => by simp [Pool.idle] at hc
  room := nofun
  limit := h.limit
  registered key _ hrow := .inl ((h.agrees key).trans hrow)
  persisted key _ hentry := .inl ((h.agrees key).symm.trans hentry)
  written := nofun

theorem step : StableUnder (program opts).step (Guarded Settled) (Synced opts) := by
  intro p m p' hp hG h
  obtain ⟨c, rfl, hstart, rfl⟩ | ⟨i, e, c, s', c', rfl, hc, hnext, rfl⟩ := Program.step_cases h
  · exact hp.spawn hstart
  · exact hp.advance hc (hG c hc) hnext

theorem agrees (hp : Synced opts p) (hidle : ∀ c ∈ p.calls, c.finished = true) (key : TaskKey) :
    p.store.registry.taskAt key = p.store.rows.get key := by
  have hdone : ∀ c ∈ p.calls, ∃ result, c = .returned result := by
    intro c hc
    have hfin := hidle c hc
    cases c with
    | returned result => exact ⟨result, rfl⟩
    | _ => cases hfin
  have hreg : ¬Pending p (registers key) := by
    rintro ⟨c, hc, h⟩
    obtain ⟨result, rfl⟩ := hdone c hc
    exact h
  have hrem : ¬Pending p (removes key) := by
    rintro ⟨c, hc, h⟩
    obtain ⟨result, rfl⟩ := hdone c hc
    exact h
  refine ext fun task => ⟨fun hentry => ?_, fun hrow => ?_⟩
  · rcases hp.persisted key task hentry with hrow | h | ⟨-, h⟩
    · exact hrow
    · exact absurd h hreg
    · exact absurd h hrem
  · exact (hp.registered key task hrow).resolve_right hreg

end Synced

/-! ### The registry and the table -/

/-- From a table and a registry in agreement, the registry has exactly the tasks of the table with a
positive interval whenever no call is in progress, and no plugin has more tasks than allowed. -/
theorem registry_agrees (opts : SchedulerOptions) {s : SchedulerStore} (hs : InAgreement opts s)
    (ms : List (Move SchedulerCall SchedulerEnv)) {p : Pool SchedulerStore SchedulerCall}
    (hG : Along (program opts).step (Guarded Settled) (Pool.idle s) ms)
    (hrun : run (program opts).step (Pool.idle s) ms = some p)
    (hidle : ∀ c ∈ p.calls, c.finished = true) :
    (∀ key, p.store.registry.taskAt key =
      (p.store.rows.get key).filter fun task => 0 < task.interval) ∧
    ∀ pluginID, tasksOf p.store.rows pluginID ≤ opts.maxTasksPerPlugin := by
  have hp : Synced opts p := run_inv (Synced opts) Synced.step (Synced.init hs) hG hrun
  refine ⟨fun key => ?_, fun pluginID => ?_⟩
  · rw [hp.agrees hidle key]
    cases hrow : p.store.rows.get key with
    | none => rfl
    | some task =>
      rw [Option.filter_some, if_pos (decide_eq_true (hp.rows key task hrow).2)]
  · refine le_trans (tasksOf_le fun key task _ hrow => ?_) (hp.limit pluginID)
    rw [← hp.agrees hidle key] at hrow
    obtain ⟨st, hst, -⟩ := Option.map_eq_some_iff.1 hrow
    exact ⟨st, hst⟩

def sampleTask : ScheduledTask := { pluginID := 7, name := "backup", interval := seconds 60 }

def reportTask : ScheduledTask := { pluginID := 7, name := "report", interval := seconds 5 }

/-- One task is registered. -/
def sampleStore : SchedulerStore where
  rows := (∅ : TaskRows).put ⟨7, "report"⟩ reportTask
  registry := (∅ : TaskRegistry).put ⟨7, "report"⟩ { task := reportTask, nextAt := 20 }

theorem inAgreement_sampleStore : InAgreement (SchedulerConfig.applyDefaults {}) sampleStore where
  rows key task h := by
    obtain ⟨rfl, rfl⟩ := (Table.get_of_put h).resolve_right nofun
    decide
  agrees key := by
    by_cases hkey : key = ⟨7, "report"⟩
    · rw [hkey]
      rfl
    · simp [sampleStore, TaskRegistry.taskAt, Table.get_put, hkey]
  limit P := (List.length_filter_le ..).trans (by decide)

/-- A task is added while another one is removed, and a refresh follows. -/
def sampleMoves : List (Move SchedulerCall SchedulerEnv) :=
  [.spawn (.addTask sampleTask), .advance 0 ⟨⟨10, true⟩, false⟩, .advance 0 ⟨⟨10, true⟩, false⟩,
    .spawn (.removeTask ⟨7, "report"⟩), .advance 1 ⟨⟨11, true⟩, false⟩, .advance 0 ⟨⟨12, true⟩, false⟩,
    .advance 0 ⟨⟨12, true⟩, false⟩, .advance 1 ⟨⟨13, true⟩, false⟩, .spawn .reload,
    .advance 2 ⟨⟨30, true⟩, false⟩, .advance 2 ⟨⟨30, true⟩, false⟩]

theorem registry_agrees_sample : ∃ p : Pool SchedulerStore SchedulerCall,
    run (program (SchedulerConfig.applyDefaults {})).step (Pool.idle sampleStore) sampleMoves = some p ∧
    p.store.registry.taskAt ⟨7, "backup"⟩ = some sampleTask ∧
    p.store.registry.taskAt ⟨7, "report"⟩ = none ∧
    (∀ key, p.store.registry.taskAt key =
      (p.store.rows.get key).filter fun task => 0 < task.interval) ∧
    ∀ pluginID,
      tasksOf p.store.rows pluginID ≤ (SchedulerConfig.applyDefaults {}).maxTasksPerPlugin := by
  refine ⟨_, rfl, rfl, rfl, ?_⟩
  exact registry_agrees (SchedulerConfig.applyDefaults {}) inAgreement_sampleStore sampleMoves
    (by decide) rfl (by decide)

/-- A refresh reads the table, a task is added, and the refresh merges what it has read: the task is
a row, and the registry does not have it. -/
theorem refresh_drops_added_task : ∃ p : Pool SchedulerStore SchedulerCall,
    run (program (SchedulerConfig.applyDefaults {})).step (Pool.idle {})
      [.spawn .reload, .advance 0 ⟨⟨10, true⟩, false⟩, .spawn (.addTask sampleTask),
        .advance 1 ⟨⟨11, true⟩, false⟩, .advance 1 ⟨⟨11, true⟩, false⟩, .advance 1 ⟨⟨11, true⟩, false⟩,
        .advance 1 ⟨⟨11, true⟩, false⟩, .advance 0 ⟨⟨12, true⟩, false⟩] = some p ∧
    (∀ c ∈ p.calls, c.finished = true) ∧ p.store.rows.get ⟨7, "backup"⟩ = some sampleTask ∧
    p.store.registry.taskAt ⟨7, "backup"⟩ = none :=
  ⟨_, rfl, by decide, rfl, rfl⟩

end SchedulerCall

end GameAP
