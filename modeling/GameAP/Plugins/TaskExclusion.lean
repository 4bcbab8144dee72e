import GameAP.Plugins.TaskRuns

/-!
# Every slot of a scheduled task is run once

`slots_run_once`: no two calls of the handler of one task overlap, and all calls for one slot of a
task belong to one run, provided that a call returns within its timeout, that no instance comes to a
slot after the lock of another one on it has run out, and that a call begins early enough to end
within the lock on the task; otherwise it overlaps with the next run (`late_call_overlaps`).

On one instance the locks are not needed: a slot that has been started lies behind the next slot of
the task, whatever happens to the registry (`Fired`).
-/

namespace GameAP

open Runs Tables Leases TaskRun List TaskRegistry Option

namespace Schedulers

variable {opts : SchedulerOptions} {s s' : Schedulers} {op : SchedulersOp} {i j : ℕ} {r r' : TaskRun}

/-! ### Slots on one instance -/

/-- The slots that were started have come and lie behind the next slots of their tasks, and none was
started twice on one instance. -/
structure Fired (s : Schedulers) : Prop where
  past : ∀ r ∈ s.runs, r.slot ≤ s.now
  ahead : ∀ r ∈ s.runs, ∀ st, (s.registries r.inst).get r.key = some st →
    st.nextAt = 0 ∨ r.slot < st.nextAt
  once : (s.runs.map ident).Nodup

theorem Fired.old (hs : Fired s) (hnow : s.now ≤ op.now)
    (hahead : ∀ inst, TaskRegistry.Ahead (s.registries inst) (s'.registries inst) op.now)
    (hr : r ∈ s.runs) : r.slot ≤ op.now ∧ ∀ st, (s'.registries r.inst).get r.key = some st →
      st.nextAt = 0 ∨ r.slot < st.nextAt := by
  have hpast : r.slot ≤ op.now := le_trans (hs.past r hr) hnow
  refine ⟨hpast, fun st hst => ?_⟩
  rcases hahead r.inst r.key st hst with ⟨st₀, hst₀, heq⟩ | hzero | hlt
  · rw [heq]
    exact hs.ahead r hr st₀ hst₀
  · exact .inl hzero
  · exact .inr (lt_of_le_of_lt hpast hlt)

theorem Fired.step (hs : Fired s) (h : s.step opts op = some s') : Fired s' := by
  obtain ⟨hle, hnow, hahead, hran⟩ := step_eq_some h
  cases hran with
  | same hlocks hruns =>
    refine ⟨?_, ?_, ?_⟩
    · rw [hruns, hnow]
      exact fun r hr => (hs.old hle hahead hr).1
    · rw [hruns]
      exact fun r hr => (hs.old hle hahead hr).2
    · rw [hruns]
      exact hs.once
  | fired inst hlocks hruns hreg =>
    refine ⟨?_, ?_, ?_⟩
    · rw [hruns, hnow]
      refine forall_mem_append.2 ⟨fun r hr => (hs.old hle hahead hr).1, fun r hr => ?_⟩
      obtain ⟨-, -, -, -, hslot, -⟩ := mem_started hr
      exact hslot
    · rw [hruns]
      refine forall_mem_append.2 ⟨fun r hr => (hs.old hle hahead hr).2, fun r hr st hst => ?_⟩
      rw [(mem_started hr).1, hreg] at hst
      exact started_ahead hr hst
    · rw [hruns, map_append]
      refine nodup_append.2 ⟨hs.once, nodup_started _ _ _, ?_⟩
      -- the slot that has come was ahead of the slots started before
      intro x hx y hy heq
      subst heq
      obtain ⟨r, hr, rfl⟩ := mem_map.1 hx
      obtain ⟨r', hr', heq⟩ := mem_map.1 hy
      obtain ⟨hinst, -, -, -, -, hne, st, hst, hslot⟩ := mem_started hr'
      simp only [ident, Prod.mk.injEq] at heq
      obtain ⟨hinst', hkey', hslot'⟩ := heq
      rw [← hinst, hkey', hinst'] at hst
      rcases hs.ahead r hr st hst with hzero | hlt
      · exact hne (hslot.symm.trans hzero)
      · exact absurd (hslot.trans hslot') (Nat.ne_of_gt hlt)
  | moved j e r r' hop hr hmoves hruns =>
    have hident := hmoves.ident
    have hold : ∀ r₁ ∈ s'.runs, ∃ r₀ ∈ s.runs, r₁.ident = r₀.ident := by
      intro r₁ hr₁
      rw [hruns] at hr₁
      rcases mem_or_eq_of_mem_set hr₁ with hr₁ | rfl
      · exact ⟨r₁, hr₁, rfl⟩
      · exact ⟨r, mem_of_getElem? hr, hident⟩
    refine ⟨fun r₁ hr₁ => ?_, fun r₁ hr₁ st hst => ?_, ?_⟩
    · obtain ⟨r₀, hr₀, heq⟩ := hold r₁ hr₁
      simp only [ident, Prod.mk.injEq] at heq
      rw [hnow, heq.2.2]
      exact (hs.old hle hahead hr₀).1
    · obtain ⟨r₀, hr₀, heq⟩ := hold r₁ hr₁
      simp only [ident, Prod.mk.injEq] at heq
      rw [heq.1, heq.2.1] at hst
      rw [heq.2.2]
      exact (hs.old hle hahead hr₀).2 st hst
    · have hmap : s'.runs.map ident = s.runs.map ident := by
        have hmem : (s.runs.map ident)[j]? = some r.ident := by
          rw [getElem?_map, hr, map_some]
        obtain ⟨hlt, hget⟩ := List.getElem?_eq_some_iff.1 hmem
        rw [hruns, map_set, hident, ← hget]
        exact set_getElem_self hlt
      rw [hmap]
      exact hs.once

/-! ### Locks -/

/-- What run `j` may rely on. -/
structure RunInv (opts : SchedulerOptions) (s : Schedulers) (j : ℕ) (r : TaskRun) : Prop where
  slot : ∀ t, r.slotUntil = some t →
    Holds lockOver s.now s.locks (slotKey r.key r.slot) ⟨.slot j, t⟩
  lock : ∀ t, r.phase.lockedUntil = some t → Holds lockOver s.now s.locks (runKey r.key) ⟨.run j, t⟩
  call : ∀ n t started, r.phase = .calling n t started →
    s.now ≤ started + r.timeout opts ∧ started + r.timeout opts < t
  taken : r.phase = .acquireRunLock ∨ r.phase.lockedUntil ≠ none ∨ r.invoked = true →
    r.slotUntil ≠ none

theorem RunInv.fresh (hphase : r.phase = .resolve) (hslot : r.slotUntil = none)
    (hinv : r.invoked = false) : RunInv opts s j r where
  slot t ht := by
    rw [hslot] at ht
    cases ht
  lock t ht := by
    rw [hphase] at ht
    cases ht
  call n t started ht := by
    rw [hphase] at ht
    cases ht
  taken h := by
    rw [hphase, hinv] at h
    simp [RunPhase.lockedUntil] at h

theorem RunInv.other {now : Time} {locks' : TaskLocks} {token : LockToken} (h : RunInv opts s j r)
    (hnow : s.now ≤ now) (hspares : Spares lockOver now token s.locks locks')
    (hslot : token ≠ .slot j) (hrun : token ≠ .run j)
    (hcall : ∀ n t started, r.phase = .calling n t started → now ≤ started + r.timeout opts)
    (hs'now : s'.now = now) (hlocks : s'.locks = locks') : RunInv opts s' j r where
  slot t ht := by
    rw [hs'now, hlocks]
    exact ((h.slot t ht).later lockOver_lasting hnow).of_spares hspares (Ne.symm hslot)
  lock t ht := by
    rw [hs'now, hlocks]
    exact ((h.lock t ht).later lockOver_lasting hnow).of_spares hspares (Ne.symm hrun)
  call n t started ht := by
    rw [hs'now]
    exact ⟨hcall n t started ht, (h.call n t started ht).2⟩
  taken := h.taken

variable {e : RunEnv}

theorem RunInv.self (h : RunInv opts s j r) (hmoves : r.Moves opts j s.locks e s'.locks r')
    (hnow : s.now ≤ e.now) (hs'now : s'.now = e.now)
    (hprompt : ∀ n t, r.phase = .attempt n t → e.cancelled = false → e.enabled = true →
      e.now + r.timeout opts < t) : RunInv opts s' j r' := by
  have hslot : ∀ locks', Spares lockOver e.now (.run j) s.locks locks' → ∀ t, r.slotUntil = some t →
      Holds lockOver e.now locks' (slotKey r.key r.slot) ⟨.slot j, t⟩ := fun locks' hspares t ht =>
    ((h.slot t ht).later lockOver_lasting hnow).of_spares hspares (by simp)
  obtain ⟨now', registries', locks', runs'⟩ := s'
  obtain rfl : now' = e.now := hs'now
  cases hmoves with
  | slot hphase hacq =>
    refine ⟨fun t ht => ?_, nofun, nofun, fun _ => some_ne_none _⟩
    cases ht
    rw [(acquire_eq_some hacq).1]
    exact .inl (Table.get_put_self _ _ _)
  | lock hphase hacq =>
    refine ⟨hslot _ (spares_acquire lockOver_lasting (le_refl _) hacq), fun t ht => ?_, nofun,
      fun _ => h.taken (.inl hphase)⟩
    cases ht
    rw [(acquire_eq_some hacq).1]
    exact .inl (Table.get_put_self _ _ _)
  | call hphase hcanc henab =>
    refine ⟨hslot _ (Spares.refl _ _ _ _), fun t ht => ?_, fun n t started ht => ?_, fun _ => ?_⟩
    · refine (h.lock t ?_).later lockOver_lasting hnow
      rw [hphase]
      exact ht
    · cases ht
      exact ⟨Nat.le_add_right _ _, hprompt _ _ hphase hcanc henab⟩
    · refine h.taken (.inr (.inl ?_))
      rw [hphase]
      exact some_ne_none _
  | refresh hphase hrefr =>
    refine ⟨hslot _ (spares_refresh hrefr), fun t ht => ?_, nofun, fun _ => ?_⟩
    · cases ht
      rw [(refresh_eq_some hrefr).1]
      exact .inl (Table.get_put_self _ _ _)
    · refine h.taken (.inr (.inl ?_))
      rw [hphase]
      exact some_ne_none _
  | release =>
    refine ⟨hslot _ spares_release, nofun, nofun, fun htaken => ?_⟩
    exact h.taken (.inr (.inr (by simpa [RunPhase.lockedUntil] using htaken)))
  | @quiet phase hnot hlock hcall =>
    refine ⟨hslot _ (Spares.refl _ _ _ _), fun t ht => ?_,
      fun n t started ht => absurd ht (hcall n t started), fun htaken => ?_⟩
    · exact (h.lock t (hlock t ht)).later lockOver_lasting hnow
    · rcases htaken with hphase | hlocked | hinv
      · exact absurd hphase hnot
      · obtain ⟨t, ht⟩ := ne_none_iff_exists'.1 hlocked
        refine h.taken (.inr (.inl ?_))
        rw [hlock t ht]
        exact some_ne_none t
      · exact h.taken (.inr (.inr hinv))

/-- The whole invariant: a slot is locked by one run at most. -/
structure SchedulersInv (opts : SchedulerOptions) (s : Schedulers) : Prop where
  fired : Fired s
  runs : ∀ j r, s.runs[j]? = some r → RunInv opts s j r
  slots : ∀ (i j : ℕ) (r r' : TaskRun), s.runs[i]? = some r → s.runs[j]? = some r' →
    r.key = r'.key → r.slot = r'.slot → r.slotUntil ≠ none → r'.slotUntil ≠ none → i = j

theorem SchedulersInv.slot_free (hs : SchedulersInv opts s)
    (htimely : s.Timely opts (.advance j e)) (hr : s.runs[j]? = some r)
    (hphase : r.phase = .acquireSlot) (hnow : s.now ≤ e.now)
    {locks' : TaskLocks} {l : Lease LockToken Time}
    (hacq : Leases.acquire lockOver s.locks (slotKey r.key r.slot) l e.now = some locks')
    (hr' : s.runs[i]? = some r') (hkey : r'.key = r.key) (hslot : r'.slot = r.slot) (hne : i ≠ j) :
    r'.slotUntil = none := by
  by_contra hsome
  obtain ⟨t, ht⟩ := ne_none_iff_exists'.1 hsome
  by_cases hinst : r'.inst = r.inst
  · -- one instance starts a slot once
    have hi : (s.runs.map ident)[i]? = some r'.ident := by
      rw [getElem?_map, hr', map_some]
    have hj : (s.runs.map ident)[j]? = some r.ident := by
      rw [getElem?_map, hr, map_some]
    have hident : r'.ident = r.ident := by
      simp only [ident, hinst, hkey, hslot]
    have hlt : i < (s.runs.map ident).length := (List.getElem?_eq_some_iff.1 hi).1
    exact hne ((getElem?_inj hlt hs.fired.once).1 (by rw [hi, hj, hident]))
  · -- the lock of the other instance has not run out
    have hlt := htimely.2 r hr hphase r' (mem_of_getElem? hr') hinst hkey hslot t ht
    have hholds := ((hs.runs i r' hr').slot t ht).later lockOver_lasting hnow
    rw [hkey, hslot] at hholds
    have hover := (acquire_eq_some hacq).2 _ (hholds.get (decide_eq_false (Nat.not_le.2 hlt)))
    exact absurd (of_decide_eq_true hover) (Nat.not_le.2 hlt)

theorem Timely.call_returns (h : s.Timely opts op)
    (hr : s.runs[j]? = some r) (n : ℕ) (t started : Time) (hphase : r.phase = .calling n t started) :
    op.now ≤ started + r.timeout opts := by
  refine h.1 r (mem_of_getElem? hr) _ ?_
  rw [returnsBy, hphase]
  rfl

section

variable {op : SchedulersOp} (hs : SchedulersInv opts s) (htimely : s.Timely opts op)
  (hle : s.now ≤ op.now) (hnow : s'.now = op.now) (hlocks : s'.locks = s.locks)
include hs htimely hle hnow hlocks

theorem SchedulersInv.kept (hr : s.runs[j]? = some r) : RunInv opts s' j r :=
  (hs.runs j r hr).other hle (Spares.refl _ _ (.slot (j + 1)) _) (by simp) (by simp)
    (htimely.call_returns hr) hnow hlocks

theorem SchedulersInv.fire (hfired : Fired s')
    {inst : ℕ} (hruns : s'.runs = s.runs ++ (s.registries inst).started inst op.now) :
    SchedulersInv opts s' := by
  have hnew : ∀ (j : ℕ) (r : TaskRun), s'.runs[j]? = some r → s.runs[j]? = some r ∨
      r.phase = .resolve ∧ r.slotUntil = none ∧ r.invoked = false := by
    intro j r hr
    rw [hruns, getElem?_append] at hr
    split_ifs at hr
    · exact .inl hr
    · obtain ⟨-, hphase, hslot, hinv, -⟩ := mem_started (mem_of_getElem? hr)
      exact .inr ⟨hphase, hslot, hinv⟩
  refine ⟨hfired, fun j r hr => ?_, fun i j r r' hr hr' hkey hslot hsome hsome' => ?_⟩
  · rcases hnew j r hr with hold | ⟨hphase, hslot, hinv⟩
    · exact hs.kept htimely hle hnow hlocks hold
    · exact RunInv.fresh hphase hslot hinv
  · rcases hnew i r hr with hold | ⟨-, hnone, -⟩
    · rcases hnew j r' hr' with hold' | ⟨-, hnone, -⟩
      · exact hs.slots i j r r' hold hold' hkey hslot hsome hsome'
      · exact absurd hnone hsome'
    · exact absurd hnone hsome

end

theorem SchedulersInv.moved_slots (hs : SchedulersInv opts s)
    (htimely : s.Timely opts (.advance j e)) (hle : s.now ≤ e.now) (hr : s.runs[j]? = some r)
    (hmoves : r.Moves opts j s.locks e s'.locks r') (hruns : s'.runs = s.runs.set j r') :
    ∀ (i k : ℕ) (r₁ r₂ : TaskRun), s'.runs[i]? = some r₁ → s'.runs[k]? = some r₂ → r₁.key = r₂.key →
      r₁.slot = r₂.slot → r₁.slotUntil ≠ none → r₂.slotUntil ≠ none → i = k := by
  have hident := hmoves.ident
  simp only [ident, Prod.mk.injEq] at hident
  -- no other run has had the lock on the slot of the run that moves
  have hother : ∀ (i : ℕ) (r₁ : TaskRun), i ≠ j → s.runs[i]? = some r₁ → r₁.key = r'.key →
      r₁.slot = r'.slot → r₁.slotUntil ≠ none → r'.slotUntil ≠ none → False := by
    intro i r₁ hij hold hkey hslot hsome hsome'
    rw [hident.2.1] at hkey
    rw [hident.2.2] at hslot
    rcases hmoves.slotUntil with heq | ⟨hphase, l, hacq⟩
    · rw [heq] at hsome'
      exact hij (hs.slots i j r₁ r hold hr hkey hslot hsome hsome')
    · exact hsome (hs.slot_free htimely hr hphase hle hacq hold hkey hslot hij)
  intro i k r₁ r₂ hr₁ hr₂ hkey hslot hsome₁ hsome₂
  rw [hruns] at hr₁ hr₂
  rcases getElem?_set_cases hr₁ with ⟨rfl, rfl⟩ | ⟨hij, hold₁⟩
  · rcases getElem?_set_cases hr₂ with ⟨rfl, rfl⟩ | ⟨hkj, hold₂⟩
    · rfl
    · exact (hother k r₂ hkj hold₂ hkey.symm hslot.symm hsome₂ hsome₁).elim
  · rcases getElem?_set_cases hr₂ with ⟨rfl, rfl⟩ | ⟨hkj, hold₂⟩
    · exact (hother i r₁ hij hold₁ hkey hslot hsome₁ hsome₂).elim
    · exact hs.slots i k r₁ r₂ hold₁ hold₂ hkey hslot hsome₁ hsome₂

theorem SchedulersInv.step (s : Schedulers) (op : SchedulersOp) (s' : Schedulers)
    (hs : SchedulersInv opts s) (hG : s.Timely opts op ∧ s.Prompt opts op)
    (h : s.step opts op = some s') : SchedulersInv opts s' := by
  obtain ⟨htimely, hprompt⟩ := hG
  have hfired := hs.fired.step h
  obtain ⟨hle, hnow, -, hran⟩ := step_eq_some h
  cases hran with
  | same hlocks hruns =>
    refine ⟨hfired, ?_, ?_⟩
    · rw [hruns]
      exact fun j r hr => hs.kept htimely hle hnow hlocks hr
    · rw [hruns]
      exact hs.slots
  | fired inst hlocks hruns hreg => exact hs.fire htimely hle hnow hlocks hfired hruns
  | moved j e r r' hop hr hmoves hruns =>
    subst hop
    refine ⟨hfired, fun i r₁ hr₁ => ?_, hs.moved_slots htimely hle hr hmoves hruns⟩
    rw [hruns] at hr₁
    rcases getElem?_set_cases hr₁ with ⟨rfl, rfl⟩ | ⟨hij, hold⟩
    · refine (hs.runs i r hr).self hmoves hle hnow fun n t hphase hcanc henab => ?_
      exact hprompt hcanc henab r hr t (by rw [hphase]; rfl)
    · obtain ⟨token, htoken, hspares⟩ := hmoves.spares
      refine (hs.runs i r₁ hold).other hle hspares ?_ ?_ (htimely.call_returns hold) hnow rfl
      all_goals rcases htoken with rfl | rfl <;> simp [Ne.symm hij]

theorem SchedulersInv.init : SchedulersInv opts {} where
  fired := ⟨fun r hr => (by cases hr), fun r hr => (by cases hr), nodup_nil⟩
  runs := fun j r hr => (by simp at hr)
  slots := fun i j r r' hr => (by simp at hr)

theorem SchedulersInv.calling_unique (hs : SchedulersInv opts s) (hr : s.runs[i]? = some r)
    (hr' : s.runs[j]? = some r') (hkey : r.key = r'.key) {n n' : ℕ} {t t' started started' : Time}
    (hcall : r.phase = .calling n t started) (hcall' : r'.phase = .calling n' t' started') : i = j := by
  have h := hs.runs i r hr
  have h' := hs.runs j r' hr'
  have hlock := h.lock t (by rw [hcall]; rfl)
  have hlock' := h'.lock t' (by rw [hcall']; rfl)
  obtain ⟨hle, hlt⟩ := h.call n t started hcall
  obtain ⟨hle', hlt'⟩ := h'.call n' t' started' hcall'
  rw [← hkey] at hlock'
  have htoken := hlock.eq_token hlock' (decide_eq_false (Nat.not_le.2 (lt_of_le_of_lt hle hlt)))
    (decide_eq_false (Nat.not_le.2 (lt_of_le_of_lt hle' hlt')))
  exact LockToken.run.inj htoken

/-! ### Every slot is run once -/

/-- If calls of the handler return within their timeout, no instance comes late to a slot and no
call begins late: no two calls of the handler of one task overlap, and all calls for a slot are made
by one run. -/
theorem slots_run_once (opts : SchedulerOptions) (ops : List SchedulersOp) {s : Schedulers}
    (hG : Along (step opts) (fun s op => s.Timely opts op ∧ s.Prompt opts op) {} ops)
    (hrun : run (step opts) {} ops = some s) :
    (∀ (i j : ℕ) (r r' : TaskRun) (n n' : ℕ) (t t' started started' : Time), s.runs[i]? = some r →
      s.runs[j]? = some r' → r.key = r'.key → r.phase = .calling n t started →
      r'.phase = .calling n' t' started' → i = j) ∧
    ∀ (i j : ℕ) (r r' : TaskRun), s.runs[i]? = some r → s.runs[j]? = some r' → r.key = r'.key →
      r.slot = r'.slot → r.invoked = true → r'.invoked = true → i = j := by
  have hs : SchedulersInv opts s :=
    run_inv (SchedulersInv opts) SchedulersInv.step SchedulersInv.init hG hrun
  refine ⟨fun i j r r' n n' t t' started started' hr hr' hkey hcall hcall' => ?_,
    fun i j r r' hr hr' hkey hslot hinv hinv' => ?_⟩
  · exact hs.calling_unique hr hr' hkey hcall hcall'
  · exact hs.slots i j r r' hr hr' hkey hslot ((hs.runs i r hr).taken (.inr (.inr hinv)))
      ((hs.runs j r' hr').taken (.inr (.inr hinv')))

def sampleTask : ScheduledTask :=
  { pluginID := 7, name := "backup", interval := seconds 120, errorPolicy := .retry, maxRetries := 1,
    retryDelay := seconds 5 }

/-- This many seconds after the epoch. -/
def clock (n : ℕ) : Time := unixEpoch + n * 1000000000

/-- Instance 0 runs the slot after two minutes and calls the handler again after a failure; the next
slot comes meanwhile on instance 1. -/
def retried : List SchedulersOp :=
  [.addTask 0 sampleTask (clock 0), .fire 0 (clock 120), .advance 0 { now := clock 120 },
    .advance 0 { now := clock 120 }, .advance 0 { now := clock 121 }, .advance 0 { now := clock 122 },
    .addTask 1 sampleTask (clock 130), .advance 0 { now := clock 180, outcome := .failed },
    .advance 0 { now := clock 181 }, .advance 0 { now := clock 186 }, .advance 0 { now := clock 187 },
    .fire 1 (clock 240), .advance 1 { now := clock 240 }, .advance 1 { now := clock 240 },
    .advance 1 { now := clock 241 }]

theorem slots_run_once_retried : ∃ s : Schedulers,
    run (step (SchedulerConfig.applyDefaults {})) {} retried = some s ∧
    ∀ (j : ℕ) (r : TaskRun) (n : ℕ) (t started : Time), s.runs[j]? = some r → r.key = ⟨7, "backup"⟩ →
      r.phase = .calling n t started → 0 = j := by
  refine ⟨_, rfl, fun j r n t started hr hkey hcall => ?_⟩
  exact (slots_run_once (SchedulerConfig.applyDefaults {}) retried (by decide) rfl).1 0 j _ r 2 n _ t _
    started rfl hr hkey.symm rfl hcall

/-- Instance 0 locks the task for the slot after two minutes and stands still.  Its lock has run out
when the next slot comes on instance 1, which calls the handler; then instance 0 goes on. -/
def stalled : List SchedulersOp :=
  [.addTask 0 sampleTask (clock 0), .fire 0 (clock 120), .advance 0 { now := clock 120 },
    .advance 0 { now := clock 120 }, .advance 0 { now := clock 121 }, .addTask 1 sampleTask (clock 130),
    .fire 1 (clock 240), .advance 1 { now := clock 240 }, .advance 1 { now := clock 240 },
    .advance 1 { now := clock 241 }, .advance 1 { now := clock 242 }, .advance 0 { now := clock 243 }]

theorem late_call_overlaps : ∃ s : Schedulers,
    run (step (SchedulerConfig.applyDefaults {})) {} stalled = some s ∧
    Along (step (SchedulerConfig.applyDefaults {}))
      (fun s op => s.Timely (SchedulerConfig.applyDefaults {}) op) {} stalled ∧
    ∃ r r' : TaskRun, s.runs = [r, r'] ∧ r.key = r'.key ∧
      r.phase = .calling 1 (clock 211) (clock 243) ∧ r'.phase = .calling 1 (clock 331) (clock 242) :=
  ⟨_, rfl, by decide, _, _, rfl, rfl, rfl, rfl⟩

end Schedulers

end GameAP
