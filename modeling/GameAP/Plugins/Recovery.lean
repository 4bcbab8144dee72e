import GameAP.Plugins.LoadState

/-!
# The recovery of disabled plugins

`plugin.Supervisor`, for one plugin: a plugin that was disabled at runtime is reloaded after a
delay, again and again until a reload succeeds or the attempts are exhausted.  The delays are left
out: a timer may fire at any time, but not once it was stopped.  An attempt begins when its timer
fires; that `Forget` comes between the two is not considered.

The count of the attempts starts over when the last successful reload is longer ago than `MaxDelay`,
and that time is kept when the plugin fails again.  `reloads_bounded` needs that no series of
attempts goes on past it (`InSeries`); in `reloads_unbounded` one does.
-/

namespace GameAP

open Runs

/-- `RecoveryOptions`, without what the delays are. -/
structure RecoveryOptions where
  initialDelay : ℤ := 0
  maxDelay : ℤ := 0
  maxAttempts : ℤ := 0
  disableReload : Bool := false

/-- `withDefaults`, which `NewSupervisor` applies. -/
def RecoveryOptions.withDefaults (o : RecoveryOptions) : RecoveryOptions :=
  let initialDelay := if o.initialDelay ≤ 0 then 30000000000 else o.initialDelay
  let maxDelay := if o.maxDelay ≤ 0 then 600000000000 else o.maxDelay
  { o with
    initialDelay
    maxDelay := if maxDelay < initialDelay then initialDelay else maxDelay
    maxAttempts := if o.maxAttempts ≤ 0 then 5 else o.maxAttempts }

/-- `time.Time.Sub`, which saturates. -/
def Time.sub (t u : Time) : ℤ :=
  let d : ℤ := t - u
  if d < -9223372036854775808 then -9223372036854775808
  else if 9223372036854775807 < d then 9223372036854775807
  else d

/-- A time that is not set is 0. -/
structure RecoveryEntry where
  attempts : ℕ := 0
  timer : Bool := false
  healthySince : Time := 0
  exhausted : Bool := false
  deriving DecidableEq

namespace RecoveryEntry

section

variable (o : RecoveryOptions) (now : Time) (e : RecoveryEntry)

def renewed : Bool :=
  e.healthySince ≠ 0 && o.withDefaults.maxDelay < now.sub e.healthySince

def nextAttempt : ℕ :=
  (if e.renewed o now then 0 else e.attempts) + 1

/-- `scheduleLocked`. -/
def schedule : RecoveryEntry :=
  if e.timer || e.exhausted then e
  else if o.withDefaults.maxAttempts < e.nextAttempt o now then
    { e with attempts := e.nextAttempt o now, exhausted := true }
  else { e with attempts := e.nextAttempt o now, timer := true }

end

end RecoveryEntry

/-- How `attempt` ends, after the lookup of the row or with the reload. -/
inductive AttemptEnd
  | notInstalled
  | lookupFailed
  | notInError
  | reloadFailed
  | reloaded

inductive RecoveryEvent
  /-- `OnPluginDisabled`, with the status that the lookup has found -/
  | disabled (status : Option PluginStatus) (now : Time)
  /-- the timer fires and an attempt begins -/
  | attempt
  | attemptEnd (outcome : AttemptEnd) (now : Time)
  | forget

/-- What the supervisor has of the plugin, and the attempts that are going on.  `series` counts
those that began since the last successful reload, or since the plugin was forgotten. -/
structure Recovery where
  entry : Option RecoveryEntry := none
  running : ℕ := 0
  series : ℕ := 0

namespace Recovery

/-- Schedules an attempt. -/
def schedule (o : RecoveryOptions) (now : Time) (s : Recovery) : Recovery :=
  { s with entry := some ((s.entry.getD {}).schedule o now) }

def forget (s : Recovery) : Recovery := { s with entry := none, series := 0 }

/-- The rest of `attempt`. -/
def attemptEnd (o : RecoveryOptions) (now : Time) (s : Recovery) : AttemptEnd → Recovery
  | .notInstalled | .notInError => s.forget
  | .lookupFailed | .reloadFailed => s.schedule o now
  | .reloaded => { s with entry := s.entry.map ({ · with healthySince := now }), series := 0 }

def step (o : RecoveryOptions) (s : Recovery) : RecoveryEvent → Option Recovery
  | .disabled none _ => some s
  | .disabled (some status) now =>
    some (if status.managed || o.disableReload then s else s.schedule o now)
  | .attempt => match s.entry with
    | some e => if e.timer then
        some { entry := some { e with timer := false }, running := s.running + 1, series := s.series + 1 }
      else none
    | none => none
  | .attemptEnd outcome now =>
    if s.running = 0 then none else some ({ s with running := s.running - 1 }.attemptEnd o now outcome)
  | .forget => some s.forget

/-- While a series goes on, the count does not start over. -/
def InSeries (o : RecoveryOptions) (s : Recovery) : RecoveryEvent → Prop
  | .disabled _ now | .attemptEnd .lookupFailed now | .attemptEnd .reloadFailed now =>
    s.series = 0 ∨ ∀ e ∈ s.entry, e.renewed o now = false
  | _ => True

/-- What holds of an entry with the attempts of its series. -/
structure Counted (o : RecoveryOptions) (series : ℕ) (e : RecoveryEntry) : Prop where
  counted : series + e.timer.toNat ≤ e.attempts
  bounded : ((series + e.timer.toNat : ℕ) : ℤ) ≤ o.withDefaults.maxAttempts
  exhausted : e.exhausted = false → (e.attempts : ℤ) ≤ o.withDefaults.maxAttempts

def Inv (o : RecoveryOptions) (s : Recovery) : Prop :=
  (s.entry = none → s.series = 0) ∧ ∀ e, s.entry = some e → Counted o s.series e

variable {o : RecoveryOptions} {s s' : Recovery} {e : RecoveryEntry} {now : Time}

theorem Counted.schedule {n : ℕ} (h : Counted o n e) (hn : n = 0 ∨ e.renewed o now = false) :
    Counted o n (e.schedule o now) := by
  have hlt (hle : n ≤ e.attempts) : n < e.nextAttempt o now := by
    unfold RecoveryEntry.nextAttempt
    rcases hn with rfl | hren
    · exact Nat.succ_pos _
    · simpa [hren, Nat.lt_succ_iff] using hle
  unfold RecoveryEntry.schedule
  split_ifs with hskip hmax
  · exact h
  all_goals
    obtain ⟨htimer, hlive⟩ : e.timer = false ∧ e.exhausted = false := by simpa using hskip
    obtain ⟨hcoun, hboun, -⟩ := h
    rw [htimer, Bool.toNat_false, Nat.add_zero] at hcoun hboun
    have hnext := hlt hcoun
  · exact ⟨htimer ▸ hnext.le, htimer ▸ hboun, nofun⟩
  · exact ⟨hnext, by simp only [Bool.toNat_true]; omega, fun _ => by dsimp only; omega⟩

theorem maxAttempts_nonneg (o : RecoveryOptions) : 0 ≤ o.withDefaults.maxAttempts := by
  simp only [RecoveryOptions.withDefaults]
  split_ifs <;> omega

theorem Inv.schedule (h : Inv o s)
    (hs : s.series = 0 ∨ ∀ e ∈ s.entry, e.renewed o now = false) : Inv o (s.schedule o now) := by
  have ho := maxAttempts_nonneg o
  refine ⟨nofun, fun e he => ?_⟩
  cases he
  show Counted o s.series _
  cases hentry : s.entry with
  | none =>
    have hzero := h.1 hentry
    exact Counted.schedule ⟨hzero.le, by simpa [hzero] using ho, fun _ => ho⟩ (.inl hzero)
  | some e => exact (h.2 e hentry).schedule (hs.imp_right fun hren => hren e hentry)

theorem inv_step (a : RecoveryEvent) (h : Inv o s) (ha : InSeries o s a)
    (hstep : step o s a = some s') : Inv o s' := by
  have hforget (r : Recovery) : Inv o r.forget := ⟨fun _ => rfl, nofun⟩
  cases a with
  | disabled status now =>
    cases status with
    | none => cases hstep; exact h
    | some status =>
      cases hstep
      split_ifs
      · exact h
      · exact h.schedule ha
  | attempt =>
    simp only [step] at hstep
    split at hstep
    · rename_i e hentry
      split_ifs at hstep with htimer
      cases hstep
      obtain ⟨hcoun, hboun, hexh⟩ := h.2 e hentry
      rw [htimer] at hcoun hboun
      exact ⟨nofun, fun _ he => by cases he; exact ⟨hcoun, hboun, hexh⟩⟩
    · cases hstep
  | attemptEnd outcome now =>
    simp only [step] at hstep
    split_ifs at hstep
    cases hstep
    cases outcome with
    | notInstalled | notInError => exact hforget _
    | lookupFailed | reloadFailed => exact Inv.schedule h ha
    | reloaded =>
      refine ⟨fun _ => rfl, fun e he => ?_⟩
      obtain ⟨e₀, he₀, rfl⟩ := Option.map_eq_some_iff.1 he
      obtain ⟨hcoun, hboun, hexh⟩ := h.2 e₀ he₀
      show Counted o 0 _
      exact ⟨by dsimp only; omega, by dsimp only; omega, hexh⟩
  | forget => cases hstep; exact hforget s

/-- If the count does not start over while a series goes on, a series has at most `MaxAttempts`
attempts, and once it has as many the next failure marks the plugin exhausted and arms no timer. -/
theorem reloads_bounded (o : RecoveryOptions) (events : List RecoveryEvent) {s : Recovery}
    (hseries : Along (step o) (InSeries o) {} events) (hrun : run (step o) {} events = some s) :
    (s.series : ℤ) ≤ o.withDefaults.maxAttempts ∧
    ∀ e, s.entry = some e → s.series = o.withDefaults.maxAttempts → e.timer = false ∧
      ∀ now, e.renewed o now = false →
        (e.schedule o now).exhausted = true ∧ (e.schedule o now).timer = false := by
  have hinv : Inv o s := run_inv _ (fun s a s' h ha hstep => inv_step a h ha hstep)
    ⟨fun _ => rfl, fun _ he => by cases he⟩ hseries hrun
  refine ⟨?_, fun e he hfull => ?_⟩
  · cases hentry : s.entry with
    | none => rw [hinv.1 hentry]; exact maxAttempts_nonneg o
    | some e =>
      have := (hinv.2 e hentry).bounded
      omega
  · obtain ⟨hcoun, hboun, -⟩ := hinv.2 e he
    have htimer : e.timer = false := by
      cases htimer : e.timer with
      | false => rfl
      | true => rw [htimer, Bool.toNat_true] at hboun; omega
    refine ⟨htimer, fun now hren => ?_⟩
    have hnext : e.nextAttempt o now = e.attempts + 1 := by
      simp [RecoveryEntry.nextAttempt, hren]
    have hmax : o.withDefaults.maxAttempts < e.nextAttempt o now := by omega
    unfold RecoveryEntry.schedule
    rw [if_pos hmax, htimer, Bool.false_or]
    split_ifs with hexh
    · exact ⟨hexh, htimer⟩
    · exact ⟨rfl, rfl⟩

/-- One attempt is allowed, and has begun. -/
theorem reloads_bounded_once :
    ∃ s e, run (step { maxAttempts := 1 }) {} [.disabled (some .active) 1, .attempt] = some s ∧
      s.entry = some e ∧ e.timer = false ∧ (e.schedule { maxAttempts := 1 } 2).exhausted = true := by
  refine ⟨_, _, rfl, rfl, ?_⟩
  have h := (reloads_bounded { maxAttempts := 1 } [.disabled (some .active) 1, .attempt]
    ⟨.inl rfl, trivial, trivial⟩ rfl).2 _ rfl rfl
  exact ⟨h.1, (h.2 2 rfl).1⟩

/-- A plugin is reloaded, and fails after `MaxDelay`, so that the count starts over at each failure:
of five attempts that are allowed in a row there are seven. -/
theorem reloads_unbounded :
    ∃ s, run (step {}) {} ([.disabled (some .active) 1, .attempt, .attemptEnd .reloaded 2,
        .disabled (some .active) 600000000003] ++
        (List.replicate 7 [.attempt, .attemptEnd .reloadFailed 600000000004]).flatten) = some s ∧
      (RecoveryOptions.withDefaults {}).maxAttempts = 5 ∧ s.series = 7 ∧
      s.entry = some { attempts := 1, timer := true, healthySince := 2 } :=
  ⟨_, rfl, rfl, rfl, rfl⟩

end Recovery

end GameAP
