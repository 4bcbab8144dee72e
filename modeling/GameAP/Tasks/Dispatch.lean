import GameAP.Tasks.Interleaving

/-!
# A finished task stays finished

`Dispatch` saves a task as waiting, sends it to the daemon and then saves the same copy again;
`FlushPending` does the same with the copies of its search.  A success that the daemon reports in
between is overwritten by the older copy, and the task is sent a second time
(`finished_task_waits_again`).

The rows that status updates have finished stay finished (`finished_stays`) in runs that are
`Orderly`: a terminal status is saved only while no `Dispatch` or `FlushPending` holds a copy of the
task, no update with a non-terminal status is taken up for a task that is already terminal, and the
counter gives `Dispatch` an id that is not in use.
-/

namespace GameAP

open Runs

/-- The call holds a copy of task `k` that it is going to save as waiting or working. -/
def TaskCall.Outdated (k : ℕ) : TaskCall → Prop
  | .dispatchSend t => t.id = k
  | .dispatchSaveAgain t => t.id = k
  | .flushSend tasks => k ∈ tasks.map DaemonTask.id
  | .flushSave t rest => k ∈ (t :: rest).map DaemonTask.id
  | _ => False

instance (k : ℕ) : DecidablePred (TaskCall.Outdated k)
  | .dispatchSend t | .dispatchSaveAgain t => inferInstanceAs (Decidable (t.id = k))
  | .flushSend _ | .flushSave _ _ => inferInstanceAs (Decidable (k ∈ _))
  | .dispatchSave _ | .flushFind _ | .statusFind _ | .statusSave _ _ | .reconcileFind _ _
  | .reconcileAppend _ _ _ | .reconcileSave _ _ _ _ | .returned => .isFalse id

/-- The condition on the call that is about to step. -/
def Orderly (p : Pool Panel TaskCall) : TaskCall → Env → Prop
  | .dispatchSave t, _ => FreshID p.store (.dispatchSave t)
  | .statusFind update, _ => isTerminalStatus (protoTaskStatusToDomain update.status) = false →
      ∀ hd ∈ p.store.head update.taskID, isTerminalStatus hd.status = false
  | .statusSave t update, e => e.ok = true →
      isTerminalStatus (protoTaskStatusToDomain update.status) = true →
      ∀ c ∈ p.calls, ¬ c.Outdated t.id
  | _, _ => True

instance (p : Pool Panel TaskCall) : (c : TaskCall) → (e : Env) → Decidable (Orderly p c e)
  | .dispatchSave t, _ => inferInstanceAs (Decidable (FreshID p.store (.dispatchSave t)))
  | .statusFind _, _ => inferInstanceAs (Decidable (_ → ∀ _ ∈ _, _))
  | .statusSave _ _, _ => inferInstanceAs (Decidable (_ → _ → ∀ _ ∈ _, _))
  | .dispatchSend _, _ | .dispatchSaveAgain _, _ | .flushFind _, _ | .flushSend _, _
  | .flushSave _ _, _ | .reconcileFind _ _, _ | .reconcileAppend _ _ _, _
  | .reconcileSave _ _ _ _, _ | .returned, _ => .isTrue trivial

theorem Orderly.freshID {p : Pool Panel TaskCall} {c : TaskCall} {e : Env} (h : Orderly p c e) :
    FreshID p.store c := by
  cases c <;> first | exact h | trivial

namespace TaskHandler

variable {h : TaskHandler} {i k : ℕ} {s s' : Panel} {c c' : TaskCall} {e : Env} {t : DaemonTask}

/-- The tasks finished by status updates are stored with a terminal status. -/
def FinishedInv (s : Panel) : Prop :=
  ∀ k ∈ s.finished, ∃ hd, s.head k = some hd ∧ isTerminalStatus hd.status = true

/-- A call never holds a copy of a finished task that it would save as waiting or working. -/
structure UpToDate (s : Panel) (c : TaskCall) : Prop where
  outdated : ∀ k, c.Outdated k → k ∉ s.finished
  status : ∀ t update, c = .statusSave t update →
    isTerminalStatus (protoTaskStatusToDomain update.status) = false → t.id ∉ s.finished

theorem finished_next (hnext : h.next i s c e = some (s', c')) :
    s'.finished = s.finished ∨ ∃ t update, c = .statusSave t update ∧ e.ok = true ∧
      isTerminalStatus (protoTaskStatusToDomain update.status) = true ∧
      s' = h.saveStatus s e.now t update := by
  cases step_of_next hnext with
  | statusSave t update hok =>
    by_cases hterm : isTerminalStatus (protoTaskStatusToDomain update.status) = true
    · exact .inr ⟨t, update, rfl, hok, hterm, rfl⟩
    · exact .inl (if_neg hterm)
  | _ => exact .inl rfl

theorem UpToDate.terminal_of_writes (hc : UpToDate s c) (hw : c.writes = some t)
    (ht : t.id ∈ s.finished) : isTerminalStatus t.status = true := by
  cases c <;> simp only [TaskCall.writes, reduceCtorEq, Option.some.injEq] at hw <;> subst hw
  case dispatchSaveAgain => exact absurd ht (hc.outdated _ rfl)
  case flushSave => exact absurd ht (hc.outdated _ (List.mem_cons_self ..))
  case statusSave u update =>
    by_contra hterm
    exact hc.status u update rfl (Bool.not_eq_true _ ▸ hterm) ht
  case reconcileSave => rfl

theorem FinishedInv.next (hs : FinishedInv s) (hc : Held i s c) (hu : UpToDate s c)
    (hfresh : FreshID s c)
    (hnext : h.next i s c e = some (s', c')) : FinishedInv s' := by
  intro k hk
  rcases finished_next hnext with heq | ⟨t, update, rfl, -, hterm, rfl⟩
  · rw [heq] at hk
    obtain ⟨hd, hhd, hterm⟩ := hs k hk
    rcases head_next hc hnext with heq | ⟨t, hw, -, heq⟩ | ⟨t, rfl, -, heq⟩
    · exact ⟨hd, heq ▸ hhd, hterm⟩
    · rw [heq, Function.update_apply]
      split_ifs with hkt
      · exact ⟨t.head, rfl, hu.terminal_of_writes hw (hkt ▸ hk)⟩
      · exact ⟨hd, hhd, hterm⟩
    · exact ⟨hd, by rw [heq, Function.update_of_ne (hfresh.ne_of_head hhd), hhd], hterm⟩
  · have ht : t.id ≠ 0 := (hc.copies t (List.mem_singleton_self t)).1
    have hhead : (h.saveStatus s e.now t update).head = Function.update s.head t.id
        (some (t.withStatus (protoTaskStatusToDomain update.status)).head) :=
      DaemonTaskRepository.head_save
        (t := t.withStatus (protoTaskStatusToDomain update.status)) ht e.now
    rw [hhead, Function.update_apply]
    split_ifs with hkt
    · exact ⟨_, rfl, hterm⟩
    · have hk' : k ∈ insert t.id s.finished := by simpa [saveStatus, hterm] using hk
      exact hs k (Finset.mem_of_mem_insert_of_ne hk' hkt)

theorem FinishedInv.not_mem (hs : FinishedInv s)
    (hk : ∀ hd ∈ s.head k, isTerminalStatus hd.status = false) : k ∉ s.finished := by
  intro hfin
  obtain ⟨hd, hhd, hterm⟩ := hs k hfin
  rw [hk hd hhd] at hterm
  cases hterm

/-- The copies that a call is going to save as waiting or working: it held them before, or it has
just found them waiting, or it is `Dispatch` with its new row. -/
theorem outdated_next (hs : s.world.tasks.Consistent) (hc : Held i s c)
    (hnext : h.next i s c e = some (s', c')) (hk : c'.Outdated k) :
    c.Outdated k ∨ (∀ hd ∈ s.head k, isTerminalStatus hd.status = false) ∨
      ∃ t, c = .dispatchSave t ∧ k = s.world.tasks.freshID := by
  cases step_of_next hnext with
  | create t =>
    refine .inr (.inr ⟨t, rfl, ?_⟩)
    rw [← hk, Panel.save, s.world.tasks.save_of_new hc.carries.1]
  | sends | flushSend => exact .inl hk
  | flushFind nodeID =>
    obtain ⟨t, ht, rfl⟩ := List.mem_map.1 hk
    have hhead := Panel.head_of_mem_find hs ht
    obtain ⟨u, -, hm, rfl⟩ := hs.mem_find.1 ht
    have hst : u.status = .waiting := List.mem_singleton.1 (hm.status (List.cons_ne_nil _ _))
    refine .inr (.inl fun hd hhd => ?_)
    rw [hhead] at hhd
    cases hhd
    rw [DaemonTask.head, DaemonTask.withoutOutput_status, hst]
    rfl
  | saves _ _ _ hp | skips hp =>
    cases hp with
    | flush => exact .inl (List.mem_cons_of_mem _ hk)
    | dispatch | reconcile | skip => exact hk.elim
  | _ => exact hk.elim

theorem statusSave_next (hs : s.world.tasks.Consistent) {update : TaskStatusUpdate}
    (hnext : h.next i s c e = some (s', .statusSave t update)) :
    c = .statusFind update ∧ t.id = update.taskID ∧ s'.finished = s.finished := by
  cases step_of_next hnext with
  | statusFind _ hf =>
    obtain ⟨u, -, hm, rfl⟩ := hs.mem_find.1 hf
    exact ⟨rfl, List.mem_singleton.1 (hm.id (List.cons_ne_nil _ _)), rfl⟩
  | saves _ _ _ hp | skips hp => cases hp

theorem upToDate_self (hs : s.world.tasks.Consistent) (hfin : FinishedInv s) (hc : Held i s c)
    (hu : UpToDate s c)
    (hfresh : FreshID s c)
    (hfind : ∀ update, c = .statusFind update →
      isTerminalStatus (protoTaskStatusToDomain update.status) = false →
      ∀ hd ∈ s.head update.taskID, isTerminalStatus hd.status = false)
    (hnext : h.next i s c e = some (s', c')) : UpToDate s' c' := by
  refine ⟨fun k hk => ?_, fun t update hc' hterm => ?_⟩
  · rcases finished_next hnext with heq | ⟨t, update, rfl, -, -, rfl⟩
    · rw [heq]
      rcases outdated_next hs hc hnext hk with hk | hk | ⟨t, ht, rfl⟩
      · exact hu.outdated k hk
      · exact hfin.not_mem hk
      · subst ht
        exact hfin.not_mem fun hd hhd => absurd rfl (hfresh.ne_of_head hhd)
    · -- after the save of a status update the call has returned
      simp only [next, Option.some.injEq, Prod.mk.injEq] at hnext
      obtain ⟨-, rfl⟩ := hnext
      exact hk.elim
  · subst hc'
    obtain ⟨hcall, hid, heq⟩ := statusSave_next hs hnext
    rw [heq, hid]
    exact hfin.not_mem (hfind update hcall hterm)

theorem upToDate_other {j : ℕ} {d : TaskCall} (hc : Held i s c) (hj : j ≠ i) (hd : Held j s d)
    (hu : UpToDate s d)
    (hsave : ∀ t update, c = .statusSave t update → e.ok = true →
      isTerminalStatus (protoTaskStatusToDomain update.status) = true → ¬ d.Outdated t.id)
    (hnext : h.next i s c e = some (s', c')) : UpToDate s' d := by
  rcases finished_next hnext with heq | ⟨t, update, rfl, hok, hterm, rfl⟩
  · exact ⟨heq ▸ hu.outdated, heq ▸ hu.status⟩
  · have hfin : (h.saveStatus s e.now t update).finished = insert t.id s.finished := if_pos hterm
    refine ⟨fun k hk => ?_, fun u up hd' hup => ?_⟩
    · rw [hfin, Finset.mem_insert, not_or]
      refine ⟨?_, hu.outdated k hk⟩
      rintro rfl
      exact hsave t update rfl hok hterm hk
    · -- both calls would hold `statusMu`
      have h1 := hd.mutex u up hd'
      rw [hc.mutex t update rfl] at h1
      exact absurd (Option.some.inj h1).symm hj

def FinishedPool (p : Pool Panel TaskCall) : Prop :=
  HeldInv p ∧ PoolInv FinishedInv (fun _ => UpToDate) p

theorem finishedPool_step : StableUnder h.program.step (Guarded Orderly) FinishedPool := by
  intro p m p' hp hG hstep
  refine ⟨held_step p m p' hp.1 (hG.mono fun c e => Orderly.freshID) hstep, ?_⟩
  refine Program.inv_step (P := h.program) ?_ ?_ p m p' hp.2 (hG.and hp.1) hstep
  · intro p c _ hc
    -- a call that begins holds no copy yet
    have hcalls : ∀ c, start p.store c = true → (∀ k, ¬ c.Outdated k) ∧
        ∀ t update, c ≠ .statusSave t update := by
      intro c hc
      cases c <;> simp_all [start, TaskCall.Outdated]
    obtain ⟨hout, hstat⟩ := hcalls c hc
    exact ⟨fun k hk => absurd hk (hout k), fun t update hc' => absurd hc' (hstat t update)⟩
  · rintro p i e c s' c' hp ⟨hheld, hG⟩ hci hnext
    have hc := hheld.call i c hci
    have hu := hp.call i c hci
    refine ⟨hp.store.next hc hu hG.freshID hnext,
      upToDate_self hheld.store hp.store hc hu hG.freshID ?_ hnext, fun j d hj hd => ?_⟩
    · rintro update rfl
      exact hG
    · refine upToDate_other hc hj (hheld.call j d hd) (hp.call j d hd) ?_ hnext
      rintro t update rfl hok hterm
      exact hG hok hterm d (List.mem_of_getElem? hd)

/-- **A finished task stays finished** in every orderly interleaving of any number of calls. -/
theorem finished_stays (h : TaskHandler) {w : TaskWorld} (hw : w.tasks.Consistent)
    (received : Finset ℕ) (ms : List (Move TaskCall Env)) {p : Pool Panel TaskCall}
    (hG : Along h.program.step (Guarded Orderly) (Pool.idle { world := w, received := received }) ms)
    (hrun : run h.program.step (Pool.idle { world := w, received := received }) ms = some p) :
    ∀ k ∈ p.store.finished, ∃ t, p.store.world.tasks.row k = some t ∧
      isTerminalStatus t.status = true := by
  have hinit : FinishedPool (Pool.idle { world := w, received := received }) := by
    refine ⟨PoolInv.idle hw, PoolInv.idle ?_⟩
    intro k hk
    cases hk
  intro k hk
  obtain ⟨hd, hhd, hterm⟩ := (run_inv FinishedPool finishedPool_step hinit hG hrun).2.store k hk
  obtain ⟨t, ht, rfl⟩ := Panel.row_of_head hhd
  exact ⟨t, ht, hterm⟩

def emptyWorld : TaskWorld := ⟨.new, .new, [], []⟩

/-- `Dispatch` returns before the daemon reports the task as working and then as done. -/
def answeredAfterDispatch : List (Move TaskCall Env) :=
  [.spawn (.dispatchSave startRequest), .advance 0 { now := 1 }, .advance 0 { now := 2 },
    .advance 0 { now := 3 },
    .spawn (.statusFind ⟨1, .working, ""⟩), .advance 1 { now := 4 }, .advance 1 { now := 5 },
    .spawn (.statusFind ⟨1, .success, ""⟩), .advance 2 { now := 6 }, .advance 2 { now := 7 }]

theorem finished_stays_after_dispatch :
    ∃ p, run (program {}).step (Pool.idle { world := emptyWorld }) answeredAfterDispatch = some p ∧
      1 ∈ p.store.finished ∧ ∀ k ∈ p.store.finished,
        ∃ t, p.store.world.tasks.row k = some t ∧ isTerminalStatus t.status = true :=
  ⟨_, rfl, by decide, finished_stays {} (w := emptyWorld) DaemonTaskRepository.new_consistent ∅
    answeredAfterDispatch (by decide) rfl⟩

/-- In every interleaving the indexes are exact, a stored task stays stored for the same node, and
one status update at most is between its search and its save. -/
theorem tasks_kept (h : TaskHandler) {w : TaskWorld} (hw : w.tasks.Consistent)
    (received : Finset ℕ) (ms ms' : List (Move TaskCall Env)) {p q : Pool Panel TaskCall}
    (hG : Along h.program.step (Guarded fun p c _ => FreshID p.store c)
      (Pool.idle { world := w, received := received }) (ms ++ ms'))
    (hp : run h.program.step (Pool.idle { world := w, received := received }) ms = some p)
    (hq : run h.program.step p ms' = some q) :
    q.store.world.tasks.Consistent ∧
    (∀ k t, p.store.world.tasks.row k = some t → ∃ t', q.store.world.tasks.row k = some t' ∧
      t'.dedicatedServerID = t.dedicatedServerID) ∧
    ∀ (i j : ℕ) t t' u u', q.calls[i]? = some (.statusSave t u) →
      q.calls[j]? = some (.statusSave t' u') → i = j := by
  obtain ⟨hG, hG'⟩ := (along_append hp).1 hG
  have hpinv : HeldInv p := run_inv HeldInv held_step (PoolInv.idle hw) hG hp
  have hqinv : HeldInv q := run_inv HeldInv held_step hpinv hG' hq
  refine ⟨hqinv.store, fun k t ht => ?_, fun i j t t' u u' hi hj => ?_⟩
  · have hrel := run_rel HeldInv (fun p q => ∀ hd, p.store.head k = some hd →
        ∃ hd', q.store.head k = some hd' ∧ hd'.node = hd.node) (fun _ hd h => ⟨hd, h, rfl⟩) ?_
      held_step ?_ hpinv hG' hq
    · obtain ⟨hd, hhd, hnode⟩ := hrel _ (Panel.head_of_row ht)
      obtain ⟨t', ht', rfl⟩ := Panel.row_of_head hhd
      exact ⟨t', ht', hnode⟩
    · intro s t u hst htu hd h
      obtain ⟨hd', h', hnode⟩ := hst hd h
      obtain ⟨hd'', h'', hnode'⟩ := htu hd' h'
      exact ⟨hd'', h'', hnode'.trans hnode⟩
    · intro s m s' hs hm hstep hd h
      obtain ⟨c, rfl, -, rfl⟩ | ⟨i, e, c, s', c', rfl, hc, hn, rfl⟩ := Program.step_cases hstep
      · exact ⟨hd, h, rfl⟩
      · exact node_next (hs.call i c hc) (hm c hc) hn h
  · have hmutex := (hqinv.call i _ hi).mutex t u rfl
    rw [(hqinv.call j _ hj).mutex t' u' rfl] at hmutex
    exact (Option.some.inj hmutex).symm

theorem tasks_kept_after_dispatch : ∃ q : Pool Panel TaskCall, ∃ t,
    q.store.world.tasks.Consistent ∧ q.store.world.tasks.row 1 = some t ∧
      t.dedicatedServerID = startRequest.dedicatedServerID :=
  have h := tasks_kept {} (w := emptyWorld) DaemonTaskRepository.new_consistent ∅
    (answeredAfterDispatch.take 4) (answeredAfterDispatch.drop 4) (by decide) rfl rfl
  ⟨_, _, h.1, (h.2.1 1 _ rfl).choose_spec⟩

/-- The daemon is faster: it reports success before `Dispatch` saves its copy again. -/
def answeredDuringDispatch : List (Move TaskCall Env) :=
  [.spawn (.dispatchSave startRequest), .advance 0 { now := 1 }, .advance 0 { now := 2 },
    .spawn (.statusFind ⟨1, .success, ""⟩), .advance 1 { now := 3 }, .advance 1 { now := 4 },
    .advance 0 { now := 5 }]

theorem finished_task_waits_again :
    ¬ ∀ (h : TaskHandler) (w : TaskWorld) (received : Finset ℕ) (ms : List (Move TaskCall Env))
      (p : Pool Panel TaskCall), w.tasks.Consistent →
      run h.program.step (Pool.idle { world := w, received := received }) ms = some p →
      ∀ k ∈ p.store.finished, ∃ t, p.store.world.tasks.row k = some t ∧
        isTerminalStatus t.status = true := by
  intro hall
  obtain ⟨t, ht, hterm⟩ := hall {} emptyWorld ∅ answeredDuringDispatch _
    DaemonTaskRepository.new_consistent rfl 1 (by decide)
  cases ht
  exact absurd hterm (by decide)

end TaskHandler

end GameAP
