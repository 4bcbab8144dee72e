import GameAP.Tasks.Interleaving

/-!
# What a reconciliation overwrites

`ReconcileWorkingTasks` reads the working tasks of a node once and then saves them one by one as
failed, without `statusMu`.  A status update may finish the task in between, and the reconciliation
then replaces the reported outcome (`reconcile_replaces_success`).

`reconcile_changes`: in every interleaving it changes only tasks of its node that the daemon does
not hold, and it replaces no terminal status as long as no update persists success or canceled for a
task that a reconciliation still has in front of it (`Undisturbed`).
-/

namespace GameAP

open Runs DaemonTaskStatus List

/-- The node and the tasks in flight of a reconciliation. -/
def TaskCall.reconciles : TaskCall → Option (ℕ × List ℕ)
  | .reconcileFind nodeID inFlight => some (nodeID, inFlight)
  | .reconcileAppend nodeID inFlight _ => some (nodeID, inFlight)
  | .reconcileSave nodeID inFlight _ _ => some (nodeID, inFlight)
  | _ => none

/-- The tasks that a reconciliation is still going to mark as failed. -/
def TaskCall.abandoning : TaskCall → List DaemonTask
  | .reconcileAppend _ _ tasks => tasks
  | .reconcileSave _ _ t rest => t :: rest
  | _ => []

/-- The condition on the call that is about to step. -/
def Undisturbed (p : Pool Panel TaskCall) : TaskCall → Env → Prop
  | .dispatchSave t, _ => FreshID p.store (.dispatchSave t)
  | .statusSave t update, e => e.ok = true →
      protoTaskStatusToDomain update.status ∈ [success, .canceled] →
      ∀ c ∈ p.calls, t.id ∉ c.abandoning.map DaemonTask.id
  | _, _ => True

instance (p : Pool Panel TaskCall) : (c : TaskCall) → (e : Env) → Decidable (Undisturbed p c e)
  | .dispatchSave t, _ => inferInstanceAs (Decidable (FreshID p.store (.dispatchSave t)))
  | .statusSave _ _, _ => inferInstanceAs (Decidable (_ → _ → ∀ _ ∈ _, _))
  | .statusFind _, _ | .dispatchSend _, _ | .dispatchSaveAgain _, _ | .flushFind _, _
  | .flushSend _, _ | .flushSave _ _, _ | .reconcileFind _ _, _ | .reconcileAppend _ _ _, _
  | .reconcileSave _ _ _ _, _ | .returned, _ => .isTrue trivial

theorem Undisturbed.freshID {p : Pool Panel TaskCall} {c : TaskCall} {e : Env}
    (h : Undisturbed p c e) : FreshID p.store c := by
  cases c <;> first | exact h | trivial

/-- The tasks in front of a reconciliation belong to its node and are not in flight. -/
def Abandoned (c : TaskCall) : Prop :=
  ∀ N fl, c.reconciles = some (N, fl) → ∀ t ∈ c.abandoning, t.dedicatedServerID = N ∧ t.id ∉ fl

/-- None of them has a reported outcome other than an error. -/
def Unanswered (s : Panel) (c : TaskCall) : Prop :=
  ∀ t ∈ c.abandoning, ∀ hd ∈ s.head t.id, hd.status ∉ [success, .canceled]

namespace TaskHandler

variable {h : TaskHandler} {i : ℕ} {s s' : Panel} {c c' : TaskCall} {e : Env}

/-- What a reconciliation has in front of it: it had it before, or it has just found it working. -/
theorem abandoning_next (hs : s.world.tasks.Consistent) (hnext : h.next i s c e = some (s', c')) :
    (∀ t ∈ c'.abandoning, t ∈ c.abandoning) ∧ (c'.reconciles = none ∨ c'.reconciles = c.reconciles) ∨
    s' = s ∧ ∃ N fl, c'.reconciles = some (N, fl) ∧ ∀ t ∈ c'.abandoning,
      t.dedicatedServerID = N ∧ t.id ∉ fl ∧ s.head t.id = some ⟨N, .working⟩ := by
  cases step_of_next hnext with
  | reconcileFind nodeID inFlight =>
    refine .inr ⟨rfl, nodeID, inFlight, rfl, fun t ht => ?_⟩
    obtain ⟨hf, hfl⟩ := mem_filter.1 ht
    have hhead := Panel.head_of_mem_find hs hf
    obtain ⟨u, -, hm, rfl⟩ := hs.mem_find.1 hf
    have hnode : u.dedicatedServerID = nodeID :=
      mem_singleton.1 (hm.node (cons_ne_nil _ _))
    have hst : u.status = .working := mem_singleton.1 (hm.status (cons_ne_nil _ _))
    refine ⟨hnode, of_decide_eq_true hfl, ?_⟩
    rw [hhead, DaemonTask.head, DaemonTask.withoutOutput_dedicatedServerID,
      DaemonTask.withoutOutput_status, hnode, hst]
  | append => exact .inl ⟨fun u hu => hu, .inr rfl⟩
  | saves _ _ _ hp | skips hp =>
    cases hp with
    | reconcile | skip => exact .inl ⟨fun u hu => mem_cons_of_mem _ hu, .inr rfl⟩
    | dispatch | flush => simp [TaskCall.abandoning, TaskCall.reconciles]
  | _ => simp [TaskCall.abandoning, TaskCall.reconciles]

theorem abandoned_next (hs : s.world.tasks.Consistent) (hc : Abandoned c)
    (hnext : h.next i s c e = some (s', c')) : Abandoned c' := by
  intro N fl hrec t ht
  rcases abandoning_next hs hnext with ⟨hmem, hnone | hsame⟩ | ⟨-, N', fl', hrec', hfound⟩
  · rw [hnone] at hrec; cases hrec
  · exact hc N fl (hsame ▸ hrec) t (hmem t ht)
  · rw [hrec] at hrec'
    cases hrec'
    exact ⟨(hfound t ht).1, (hfound t ht).2.1⟩

theorem statusSave_of_writes (hc : c.Carries) {t : DaemonTask} (hw : c.writes = some t)
    (hst : t.status ∈ [success, .canceled]) :
    ∃ u update, c = .statusSave u update ∧
      t = u.withStatus (protoTaskStatusToDomain update.status) := by
  cases c <;> simp only [TaskCall.writes, reduceCtorEq, Option.some.injEq] at hw <;> subst hw
  case dispatchSaveAgain u => rw [show u.status = .waiting from hc] at hst; simp at hst
  case flushSave u rest => rw [show u.status = .working from hc] at hst; simp at hst
  case statusSave u update => exact ⟨u, update, rfl, rfl⟩
  case reconcileSave => simp at hst

variable {k : ℕ}

/-- A step changes the status of a row to success or canceled only as the save of a status
update. -/
theorem answered_next (hc : Held i s c) (hnext : h.next i s c e = some (s', c'))
    {hd' : TaskHead} (hhd' : s'.head k = some hd')
    (hst : hd'.status ∈ [success, .canceled]) :
    (∃ hd, s.head k = some hd ∧ hd.status = hd'.status) ∨
    ∃ t update, c = .statusSave t update ∧ t.id = k ∧ e.ok = true ∧
      protoTaskStatusToDomain update.status ∈ [success, .canceled] := by
  rcases head_next hc hnext with heq | ⟨t, hw, hok, heq⟩ | ⟨t, rfl, -, heq⟩
  · exact .inl ⟨hd', heq ▸ hhd', rfl⟩
  · rw [heq, Function.update_apply] at hhd'
    split_ifs at hhd' with hkt
    · cases hhd'
      obtain ⟨u, update, rfl, rfl⟩ := statusSave_of_writes hc.carries hw hst
      exact .inr ⟨u, update, rfl, hkt.symm, hok, hst⟩
    · exact .inl ⟨hd', hhd', rfl⟩
  · rw [heq, Function.update_apply] at hhd'
    split_ifs at hhd'
    · -- a request is waiting
      cases hhd'
      rw [DaemonTask.head, hc.carries.2] at hst
      simp at hst
    · exact .inl ⟨hd', hhd', rfl⟩

theorem unanswered_self (hs : s.world.tasks.Consistent) (hc : Held i s c) (hu : Unanswered s c)
    (hnext : h.next i s c e = some (s', c')) : Unanswered s' c' := by
  intro t ht hd' hhd' hst
  rcases abandoning_next hs hnext with ⟨hmem, -⟩ | ⟨rfl, N, fl, -, hfound⟩
  · have htc := hmem t ht
    rcases answered_next hc hnext hhd' hst with ⟨hd, hhd, heq⟩ | ⟨u, update, rfl, -⟩
    · exact hu t htc hd hhd (heq ▸ hst)
    · cases htc
  · rw [(hfound t ht).2.2] at hhd'
    cases hhd'
    simp at hst

theorem unanswered_other {d : TaskCall} (hc : Held i s c) (hu : Unanswered s d)
    (hsave : ∀ t update, c = .statusSave t update → e.ok = true →
      protoTaskStatusToDomain update.status ∈ [success, .canceled] →
      t.id ∉ d.abandoning.map DaemonTask.id)
    (hnext : h.next i s c e = some (s', c')) : Unanswered s' d := by
  intro t ht hd' hhd' hst
  rcases answered_next hc hnext hhd' hst with ⟨hd, hhd, heq⟩ | ⟨u, update, rfl, hid, hok, hup⟩
  · exact hu t ht hd hhd (heq ▸ hst)
  · exact hsave u update rfl hok hup (mem_map.2 ⟨t, ht, hid.symm⟩)

/-! ### The invariants of the interleavings -/

theorem abandoned_start (hc : start s c = true) : Abandoned c ∧ Unanswered s c := by
  have hnil : c.abandoning = [] := by
    cases c <;> simp_all [start, TaskCall.abandoning]
  refine ⟨fun N fl _ t ht => ?_, fun t ht => ?_⟩
  · rw [hnil] at ht; cases ht
  · rw [hnil] at ht; cases ht

section

variable (p : Pool Panel TaskCall)

def AbandonedPool : Prop :=
  HeldInv p ∧ PoolInv (fun _ => True) (fun _ _ => Abandoned) p

theorem abandonedPool_step :
    StableUnder h.program.step (Guarded fun p c _ => FreshID p.store c) AbandonedPool := by
  intro p m p' hp hG hstep
  refine ⟨held_step p m p' hp.1 hG hstep, ?_⟩
  refine Program.inv_step (P := h.program) ?_ ?_ p m p' hp.2 (hG.and hp.1) hstep
  · intro p c _ hc
    exact (abandoned_start hc).1
  · rintro p i e c s' c' hp ⟨hheld, -⟩ hci hnext
    exact ⟨trivial, abandoned_next hheld.store (hp.call i c hci) hnext, fun j d _ => hp.call j d⟩

def UnansweredPool : Prop :=
  HeldInv p ∧ PoolInv (fun _ => True) (fun _ => Unanswered) p

theorem unansweredPool_step : StableUnder h.program.step (Guarded Undisturbed) UnansweredPool := by
  intro p m p' hp hG hstep
  refine ⟨held_step p m p' hp.1 (hG.mono fun c e => Undisturbed.freshID) hstep, ?_⟩
  refine Program.inv_step (P := h.program) ?_ ?_ p m p' hp.2 (hG.and hp.1) hstep
  · intro p c _ hc
    exact (abandoned_start hc).2
  · rintro p i e c s' c' hp ⟨hheld, hG⟩ hci hnext
    refine ⟨trivial, unanswered_self hheld.store (hheld.call i c hci) (hp.call i c hci) hnext,
      fun j d _ hd => unanswered_other (hheld.call i c hci) (hp.call j d hd) ?_ hnext⟩
    rintro t update rfl hok hup
    exact hG hok hup d (mem_of_getElem? hd)

end

/-! ### A step of a reconciliation -/

section

variable {N : ℕ} {fl : List ℕ} (hrec : c.reconciles = some (N, fl)) (hc : Held i s c)
  (hnext : h.next i s c e = some (s', c'))
include hrec hc hnext

theorem row_reconcile (hk : ∀ t ∈ c.abandoning, t.id ≠ k) :
    s'.world.tasks.row k = s.world.tasks.row k := by
  cases step_of_next hnext with
  | ends | skips | reconcileFind => rfl
  | append nodeID inFlight t rest =>
    show (s.world.tasks.appendOutput _ _).row k = _
    rw [s.world.tasks.row_appendOutput, if_neg (hk t (mem_cons_self ..)).symm]
  | saves hw _ htasks hp =>
    rw [htasks]
    cases hp with
    | reconcile nodeID inFlight t rest =>
      cases hw
      have ht : t.id ≠ 0 := (hc.copies t (mem_cons_self ..)).1
      rw [s.world.tasks.row_save (t := (t.withStatus .error).withoutOutput) ht]
      exact Function.update_of_ne (hk t (mem_cons_self ..)).symm _ _
    | skip => cases hw
    | dispatch | flush => cases hrec
  | _ => cases hrec

theorem status_reconcile {hd : TaskHead} (hhd : s.head k = some hd) : ∃ hd', s'.head k = some hd' ∧
      (hd'.status = hd.status ∨ hd'.status = .error ∧ ∃ t ∈ c.abandoning, t.id = k) := by
  rcases head_next hc hnext with heq | ⟨t, hw, -, heq⟩ | ⟨t, rfl, -⟩
  · exact ⟨hd, heq ▸ hhd, .inl rfl⟩
  · rw [heq, Function.update_apply]
    split_ifs with hkt
    · refine ⟨t.head, rfl, .inr ?_⟩
      cases c with
      | reconcileSave nodeID inFlight u rest =>
        cases hw
        exact ⟨rfl, u, mem_cons_self .., hkt.symm⟩
      | reconcileFind | reconcileAppend => cases hw
      | _ => cases hrec
    · exact ⟨hd, hhd, .inl rfl⟩
  · cases hrec

end

/-- **Reconciliation**: in every interleaving a step of a reconciliation of node `N` changes only
tasks of `N` that are not in flight, and in an undisturbed one it keeps every terminal status. -/
theorem reconcile_changes (h : TaskHandler) {w : TaskWorld} (hw : w.tasks.Consistent)
    (received : Finset ℕ) (ms : List (Move TaskCall Env)) {p p' : Pool Panel TaskCall}
    (hfresh : Along h.program.step (Guarded fun p c _ => FreshID p.store c)
      (Pool.idle { world := w, received := received }) ms)
    (hrun : run h.program.step (Pool.idle { world := w, received := received }) ms = some p)
    {i : ℕ} {e : Env} (hstep : h.program.step p (.advance i e) = some p')
    {N : ℕ} {inFlight : List ℕ}
    (hrec : p.calls[i]?.bind TaskCall.reconciles = some (N, inFlight)) :
    (∀ k, p'.store.world.tasks.row k ≠ p.store.world.tasks.row k →
      k ∉ inFlight ∧ ∃ t, p.store.world.tasks.row k = some t ∧ t.dedicatedServerID = N) ∧
    (Along h.program.step (Guarded Undisturbed)
        (Pool.idle { world := w, received := received }) ms →
      ∀ k t, p.store.world.tasks.row k = some t → isTerminalStatus t.status = true →
        ∃ t', p'.store.world.tasks.row k = some t' ∧ t'.status = t.status) := by
  obtain ⟨c, hci, hrec⟩ := Option.bind_eq_some_iff.1 hrec
  obtain ⟨hheld, hab⟩ := run_inv AbandonedPool abandonedPool_step
    ⟨PoolInv.idle hw, PoolInv.idle trivial⟩ hfresh hrun
  have hc := hheld.call i c hci
  obtain ⟨c₁, s', c', hci', hnext, rfl⟩ := Program.step_advance hstep
  obtain rfl : c = c₁ := Option.some.inj (hci.symm.trans hci')
  refine ⟨fun k hk => ?_, fun hG k t hrow hterm => ?_⟩
  · by_cases hmem : ∃ t ∈ c.abandoning, t.id = k
    · obtain ⟨t, ht, rfl⟩ := hmem
      obtain ⟨hnode, hfl⟩ := hab.call i c hci N inFlight hrec t ht
      obtain ⟨-, hd, hhd, hn⟩ := hc.copies t (by cases c <;> first | exact ht | cases ht)
      obtain ⟨u, hu, rfl⟩ := Panel.row_of_head hhd
      exact ⟨hfl, u, hu, hn.trans hnode⟩
    · exact absurd (row_reconcile hrec hc hnext fun t ht hid => hmem ⟨t, ht, hid⟩) hk
  · have hhd := Panel.head_of_row hrow
    obtain ⟨hd', hhd', hst⟩ := status_reconcile hrec hc hnext hhd
    obtain ⟨t', ht', rfl⟩ := Panel.row_of_head hhd'
    refine ⟨t', ht', ?_⟩
    rcases hst with hst | ⟨hst, u, hu, rfl⟩
    · exact hst
    · -- the row was found working, and since then only an error can have been reported
      have hinv := run_inv UnansweredPool unansweredPool_step
        ⟨PoolInv.idle hw, PoolInv.idle trivial⟩ hG hrun
      have hno := hinv.2.call i c hci u hu t.head hhd
      change t'.status = .error at hst
      rw [hst]
      revert hterm hno
      simp only [DaemonTask.head]
      cases t.status <;> simp [isTerminalStatus]

/-- Node 1 has reported task 1 as working. -/
def workingWorld : TaskWorld :=
  applyStatus {} 2 oneTask { startRequest with id := 1 } ⟨1, .working, ""⟩

theorem workingWorld_consistent : workingWorld.tasks.Consistent :=
  oneTask_consistent.save (by decide) 2

/-- The daemon is gone; an update for a task that does not exist is handled in between. -/
def abandonedAndReconciled : List (Move TaskCall Env) :=
  [.spawn (.reconcileFind 1 []), .advance 0 { now := 3 }, .spawn (.statusFind ⟨2, .success, ""⟩),
    .advance 1 { now := 4 }, .advance 0 { now := 5 }]

theorem reconcile_changes_abandoned :
    ∃ p p', run (program {}).step (Pool.idle { world := workingWorld, received := {1, 2} })
        abandonedAndReconciled = some p ∧
      (program {}).step p (.advance 0 { now := 6 }) = some p' ∧
      (p'.store.world.tasks.row 1).map DaemonTask.status = some .error ∧
      (∀ k, p'.store.world.tasks.row k ≠ p.store.world.tasks.row k →
        k ∉ ([] : List ℕ) ∧ ∃ t, p.store.world.tasks.row k = some t ∧ t.dedicatedServerID = 1) ∧
      (∀ k t, p.store.world.tasks.row k = some t → isTerminalStatus t.status = true →
        ∃ t', p'.store.world.tasks.row k = some t' ∧ t'.status = t.status) := by
  refine ⟨_, _, rfl, rfl, by decide, ?_⟩
  have hspec := reconcile_changes {} workingWorld_consistent {1, 2} abandonedAndReconciled
    (by decide) rfl (i := 0) (e := { now := 6 }) rfl (N := 1) rfl
  exact ⟨hspec.1, hspec.2 (by decide)⟩

/-- The update to success is saved between the search of the reconciliation and its save. -/
def finishedWhileReconciled : List (Move TaskCall Env) :=
  [.spawn (.reconcileFind 1 []), .advance 0 { now := 3 }, .spawn (.statusFind ⟨1, .success, ""⟩),
    .advance 1 { now := 4 }, .advance 1 { now := 5 }, .advance 0 { now := 6 }]

theorem reconcile_replaces_success :
    ¬ ∀ (h : TaskHandler) (w : TaskWorld) (received : Finset ℕ) (ms : List (Move TaskCall Env))
      (p p' : Pool Panel TaskCall) (i : ℕ) (e : Env) (N : ℕ) (inFlight : List ℕ),
      w.tasks.Consistent →
      run h.program.step (Pool.idle { world := w, received := received }) ms = some p →
      h.program.step p (.advance i e) = some p' →
      p.calls[i]?.bind TaskCall.reconciles = some (N, inFlight) →
      ∀ k t, p.store.world.tasks.row k = some t → isTerminalStatus t.status = true →
        ∃ t', p'.store.world.tasks.row k = some t' ∧ t'.status = t.status := by
  intro hall
  obtain ⟨t', ht', hst⟩ := hall {} workingWorld {1} finishedWhileReconciled _ _ 0 { now := 7 } 1 []
    workingWorld_consistent rfl rfl rfl 1 _ rfl (by decide)
  cases ht'
  exact absurd hst (by decide)

end TaskHandler

end GameAP
