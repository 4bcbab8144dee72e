import GameAP.Domain
import GameAP.Lib.Runs
import GameAP.Lib.Snapshots
import GameAP.Lib.Tables

/-!
# The load state of a plugin

The writers of the load state of one plugin row: the supervisor, which records that the runtime has
disabled the plugin, the reloads of the instances, and the operators who save the row.  Each of them
finds the row, works on its copy and writes it later, whatever the row has become.

A writer may so take the generation back or the status of the operator away
(`generation_goes_back`).  `load_state_kept` needs `Unchanged`: nothing is written to the row
between finding it and writing it, and no reload bumps the greatest generation.

Of the other columns only `config` is modelled, which stands for those that the operators edit.
-/

namespace GameAP

open Runs Snapshots Tables

inductive PluginStatus
  | active
  | disabled
  | error
  | updating
  deriving DecidableEq

/-- The statuses that belong to the operators. -/
def PluginStatus.managed : PluginStatus → Bool
  | .disabled | .updating => true
  | .active | .error => false

structure PluginLoadState where
  status : PluginStatus := .active
  lastError : Option String := none
  lastErrorAt : Option Time := none
  lastLoadedAt : Option Time := none
  generation : Int64 := 0
  deriving DecidableEq

/-- The row of a plugin. -/
structure Plugin extends PluginLoadState where
  config : String := ""
  deriving DecidableEq

namespace Plugin

variable (p : Plugin)

def loadState : PluginLoadState := p.toPluginLoadState

def markError (reason : String) (now : Time) : Plugin :=
  { p with status := .error, lastError := some reason, lastErrorAt := some now }

def markActive (now : Time) : Plugin :=
  { p with status := .active, lastError := none, lastErrorAt := none, lastLoadedAt := some now }

/-- The assignments of `UpdateLoadState`. -/
def withLoadState (state : PluginLoadState) : Plugin := { p with toPluginLoadState := state }

@[simp] theorem withLoadState_generation (state : PluginLoadState) :
    (p.withLoadState state).generation = state.generation := rfl

end Plugin

/-- A write to the row: `Save` by an operator, or `UpdateLoadState`, with the call that makes it. -/
inductive RowWrite
  | saved (i : ℕ) (status : PluginStatus)
  | updated (i : ℕ) (state : PluginLoadState)
  deriving DecidableEq

/-- The row, the lifecycle locks of the instances with the calls that hold them, and the history of
the row. -/
structure PluginStore where
  row : Option Plugin := none
  locks : Table ℕ ℕ := ∅
  history : List (Event RowWrite) := []

/-- How the build of a module ends. -/
inductive ModuleOutcome
  | loaded
  | failed
  | canceled
  | unloadFailed
  deriving DecidableEq

/-- The environment of a step: whether an operation that fails has taken effect, the text of an
error, how the build ends, and whether the attempts of the supervisor are exhausted. -/
structure PluginEnv extends Env where
  applied : Bool := false
  reason : String := ""
  outcome : ModuleOutcome := .loaded
  exhausted : Bool := false

def PluginEnv.effect (e : PluginEnv) : Bool := e.ok || e.applied

namespace PluginStore

variable (s : PluginStore)

/-- `findPlugin` by call `i`. -/
def find (i : ℕ) (e : PluginEnv) : PluginStore × Option Plugin :=
  if e.ok && s.row.isSome then ({ s with history := .read i :: s.history }, s.row) else (s, none)

/-- `UpdateLoadState` by call `i`; a row that is gone stays gone. -/
def updateLoadState (i : ℕ) (state : PluginLoadState) (e : PluginEnv) : PluginStore :=
  match s.row with
  | none => s
  | some p =>
    if e.effect then
      { s with row := some (p.withLoadState state), history := .write (.updated i state) :: s.history }
    else s

/-- `Save` by call `i`. -/
def save (i : ℕ) (p : Plugin) (e : PluginEnv) : PluginStore :=
  if e.effect then
    { s with row := some p, history := .write (.saved i p.status) :: s.history }
  else s

end PluginStore

/-- Where a call stands; each constructor is before a repository operation, the build of the module,
the scheduling of a reload or a lock. -/
inductive PluginCall
  | disabledFind (reason : String)
  | disabledSave (p : Plugin) (reason : String)
  | schedule (reason : String)
  | exhaustedFind (reason : String)
  | exhaustedSave (p : Plugin)
  | reloadLock (inst : ℕ) (bumpGeneration : Bool)
  | reloadFind (inst : ℕ) (bumpGeneration : Bool)
  | reloadApply (inst : ℕ) (p : Plugin)
  | reloadSave (inst : ℕ) (p : Plugin)
  | reloadUnlock (inst : ℕ)
  | operatorFind (status : PluginStatus) (config : String)
  | operatorSave (p : Plugin)
  | done

namespace PluginCall

/-- The text of the last error when the supervisor gives up. -/
def exhaustedText (maxAttempts : ℕ) (reason : String) : String :=
  reason ++ "; automatic reload attempts exhausted (" ++ toString maxAttempts ++ ")"

/-- One step of call `i`; `maxAttempts` is an option of the supervisor. -/
def next (maxAttempts i : ℕ) (s : PluginStore) (e : PluginEnv) :
    PluginCall → Option (PluginStore × PluginCall)
  | .disabledFind reason =>
    match s.find i e with
    | (s', none) => some (s', .done)
    | (s', some p) =>
      if p.status.managed then some (s', .done)
      else some (s', .disabledSave (p.markError reason e.now) reason)
  | .disabledSave p reason => some (s.updateLoadState i p.loadState e, .schedule reason)
  | .schedule reason => some (s, if e.exhausted then .exhaustedFind reason else .done)
  | .exhaustedFind reason =>
    -- the status is not looked at here
    match s.find i e with
    | (s', none) => some (s', .done)
    | (s', some p) => some (s', .exhaustedSave (p.markError (exhaustedText maxAttempts reason) e.now))
  | .exhaustedSave p => some (s.updateLoadState i p.loadState e, .done)
  | .reloadLock inst bumpGeneration =>
    if (s.locks.get inst).isSome then none
    else some ({ s with locks := s.locks.put inst i }, .reloadFind inst bumpGeneration)
  | .reloadFind inst bumpGeneration =>
    match s.find i e with
    | (s', none) => some (s', .reloadUnlock inst)
    | (s', some p) =>
      if p.status.managed then some (s', .reloadUnlock inst)
      else
        some (s', .reloadApply inst
          (if bumpGeneration then { p with generation := p.generation + 1 } else p))
  | .reloadApply inst p =>
    match e.outcome with
    | .loaded => some (s, .reloadSave inst (p.markActive e.now))
    | .failed => some (s, .reloadSave inst (p.markError e.reason e.now))
    | .canceled | .unloadFailed => some (s, .reloadUnlock inst)
  | .reloadSave inst p => some (s.updateLoadState i p.loadState e, .reloadUnlock inst)
  | .reloadUnlock inst => some ({ s with locks := s.locks.del inst }, .done)
  | .operatorFind status config =>
    match s.find i e with
    | (s', none) => some (s', .done)
    | (s', some p) => some (s', .operatorSave { p with status, config })
  | .operatorSave p => some (s.save i p e, .done)
  | .done => none

/-- Any number of plugins reported disabled, of reloads on any instance and of saves by
operators. -/
def program (maxAttempts : ℕ) : Program PluginStore PluginCall PluginEnv where
  start _ c := match c with
    | .disabledFind _ | .reloadLock _ _ => true
    | .operatorFind status _ => status.managed
    | _ => false
  next i s c e := next maxAttempts i s e c

/-- The call is about to write its copy. -/
def writes : PluginCall → Bool
  | .disabledSave _ _ | .exhaustedSave _ | .reloadSave _ _ | .operatorSave _ => true
  | .disabledFind _ | .schedule _ | .exhaustedFind _ | .reloadLock _ _ | .reloadFind _ _
  | .reloadApply _ _ | .reloadUnlock _ | .operatorFind _ _ | .done => false

/-- The copy that the call has made of the row. -/
def copy : PluginCall → Option Plugin
  | .disabledSave p _ | .exhaustedSave p | .reloadApply _ p | .reloadSave _ p | .operatorSave p => some p
  | .disabledFind _ | .schedule _ | .exhaustedFind _ | .reloadLock _ _ | .reloadFind _ _
  | .reloadUnlock _ | .operatorFind _ _ | .done => none

/-- The call is about to find the row and to bump its generation. -/
def bumps : PluginCall → Bool
  | .reloadFind _ bumpGeneration => bumpGeneration
  | _ => false

/-- A bump of the generation of the row does not wrap around. -/
def Room (s : PluginStore) (c : PluginCall) : Prop :=
  ∀ r ∈ s.row, c.bumps = true → r.generation < Int64.maxValue

/-- The condition on a step of call `i`: what it writes was computed from the row as it stands, and
there is room for a bump. -/
def Unchanged (p : Pool PluginStore PluginCall) (i : ℕ) (c : PluginCall) (_ : PluginEnv) : Prop :=
  (c.writes = true → fresh p.store.history i = true) ∧ Room p.store c

instance (s : PluginStore) (c : PluginCall) : Decidable (Room s c) :=
  inferInstanceAs (Decidable (∀ r ∈ s.row, _))

instance (p : Pool PluginStore PluginCall) (i : ℕ) (c : PluginCall) (e : PluginEnv) :
    Decidable (Unchanged p i c e) := inferInstanceAs (Decidable (_ ∧ _))

end PluginCall

/-- The calls that have replaced a status saved by an operator with `active` or `error`, with a copy
of the row from before that save. -/
def overrides : List (Event RowWrite) → List ℕ
  | [] => []
  | .read _ :: h | .write (.saved _ _) :: h => overrides h
  | .write (.updated i state) :: h =>
    match lastWrite h with
    | some (.saved _ status) =>
      if status.managed && !state.status.managed && !fresh h i then i :: overrides h else overrides h
    | some (.updated _ _) | none => overrides h

/-- The generation of the row does not go back, and a row does not go away. -/
def GenerationLe (r r' : Option Plugin) : Prop :=
  ∀ p ∈ r, ∃ p' ∈ r', p.generation ≤ p'.generation

/-! ### What a step can do -/

theorem overrides_write {h : List (Event RowWrite)} {i : ℕ} {w : RowWrite}
    (hw : ∀ j state, w = .updated j state → j = i) (hfresh : fresh h i = true) :
    overrides (.write w :: h) = overrides h := by
  cases w with
  | saved j status => rfl
  | updated j state =>
    obtain rfl : j = i := hw j state rfl
    simp only [overrides, hfresh, Bool.not_true, Bool.and_false]
    cases hlast : lastWrite h with
    | none => rfl
    | some w => cases w <;> rfl

namespace PluginCall

variable {maxAttempts i j : ℕ} {s s' : PluginStore} {e : PluginEnv} {c c' : PluginCall}

/-- The steps of call `i`: the row stays as it is, or it is found, or the copy is written. -/
inductive Step (i : ℕ) (s : PluginStore) : PluginCall → PluginStore → PluginCall → Prop
  | still {c c' : PluginCall} {s' : PluginStore} (hrow : s'.row = s.row)
    (hhistory : s'.history = s.history)
    (hcopy : ∀ p' ∈ c'.copy, ∃ p ∈ c.copy, p.generation ≤ p'.generation) : Step i s c s' c'
  | found {c c' : PluginCall} {p : Plugin} (hrow : s.row = some p)
    (hcopy : ∀ p' ∈ c'.copy, p.generation ≤ p'.generation) :
    Step i s c { s with history := .read i :: s.history } c'
  | wrote {c c' : PluginCall} {s' : PluginStore} {p r : Plugin} {w : RowWrite}
    (hwrites : c.writes = true) (hcopy : c.copy = some p) (hrow : s'.row = some r)
    (hgeneration : r.generation = p.generation) (hhistory : s'.history = .write w :: s.history)
    (hw : ∀ j state, w = .updated j state → j = i) (hnone : c'.copy = none) : Step i s c s' c'

theorem Step.idle (hnone : c'.copy = none) : Step i s c s c' :=
  .still rfl rfl fun p' hp' => by rw [hnone] at hp'; cases hp'

theorem find_cases (s : PluginStore) (i : ℕ) (e : PluginEnv) : s.find i e = (s, none) ∨
    ∃ p, s.row = some p ∧ s.find i e = ({ s with history := .read i :: s.history }, some p) := by
  unfold PluginStore.find
  cases hrow : s.row with
  | none => exact .inl (by simp)
  | some p =>
    split_ifs
    · exact .inr ⟨p, rfl, rfl⟩
    · exact .inl rfl

section

variable {p : Plugin} (hwrites : c.writes = true) (hcopy : c.copy = some p) (hnone : c'.copy = none)
include hwrites hcopy hnone

theorem step_updateLoadState : Step i s c (s.updateLoadState i p.loadState e) c' := by
  unfold PluginStore.updateLoadState
  cases hrow : s.row with
  | none => exact .idle hnone
  | some r =>
    split_ifs
    · refine .wrote hwrites hcopy rfl (r.withLoadState_generation _) rfl (fun j state hw => ?_) hnone
      cases hw
      rfl
    · exact .idle hnone

theorem step_save : Step i s c (s.save i p e) c' := by
  unfold PluginStore.save
  split_ifs
  · exact .wrote hwrites hcopy rfl rfl rfl nofun hnone
  · exact .idle hnone

end

theorem le_bump {g : Int64} (h : g < Int64.maxValue) : g ≤ g + 1 := by
  rw [Int64.lt_iff_toInt_lt] at h
  have hmax : Int64.maxValue.toInt = 2 ^ 63 - 1 := rfl
  have hone : (1 : Int64).toInt = 1 := rfl
  have hmin := g.le_toInt
  rw [Int64.le_iff_toInt_le, Int64.toInt_add, hone, Int.bmod_eq_of_le (by omega) (by omega)]
  omega

theorem step_of_next (hroom : Room s c) (h : next maxAttempts i s e c = some (s', c')) :
    Step i s c s' c' := by
  cases c with
  | disabledFind reason =>
    simp only [next] at h
    rcases find_cases s i e with hfind | ⟨p, hrow, hfind⟩
    · rw [hfind] at h
      cases h
      exact .idle rfl
    · rw [hfind] at h
      dsimp only at h
      split_ifs at h <;> cases h
      · exact .found hrow nofun
      · exact .found hrow fun p' hp' => by cases hp'; exact Int64.le_refl _
  | disabledSave | exhaustedSave | reloadSave =>
    cases h
    exact step_updateLoadState rfl rfl rfl
  | schedule reason =>
    cases h
    refine .idle ?_
    split_ifs <;> rfl
  | exhaustedFind | operatorFind =>
    simp only [next] at h
    rcases find_cases s i e with hfind | ⟨p, hrow, hfind⟩
    · rw [hfind] at h
      cases h
      exact .idle rfl
    · rw [hfind] at h
      cases h
      exact .found hrow fun p' hp' => by cases hp'; exact Int64.le_refl _
  | reloadLock inst bumpGeneration =>
    simp only [next] at h
    split_ifs at h
    cases h
    exact .still rfl rfl nofun
  | reloadFind inst bumpGeneration =>
    simp only [next] at h
    rcases find_cases s i e with hfind | ⟨p, hrow, hfind⟩
    · rw [hfind] at h
      cases h
      exact .idle rfl
    · rw [hfind] at h
      dsimp only at h
      split_ifs at h with _ hbump <;> cases h
      · exact .found hrow nofun
      · exact .found hrow fun p' hp' => by cases hp'; exact le_bump (hroom p hrow hbump)
      · exact .found hrow fun p' hp' => by cases hp'; exact Int64.le_refl _
  | reloadApply inst p =>
    simp only [next] at h
    cases houtc : e.outcome with
    | loaded | failed =>
      rw [houtc] at h
      cases h
      exact .still rfl rfl fun p' hp' => by cases hp'; exact ⟨p, rfl, Int64.le_refl _⟩
    | canceled | unloadFailed =>
      rw [houtc] at h
      cases h
      exact .idle rfl
  | reloadUnlock inst =>
    cases h
    exact .still rfl rfl nofun
  | operatorSave p =>
    cases h
    exact step_save rfl rfl rfl
  | done => cases h

/-! ### The invariant -/

/-- The copy of a call that has found the row since the last write is not behind the row. -/
def UpToDate (s : PluginStore) (j : ℕ) (x : Option PluginCall) : Prop :=
  ∀ c ∈ x, ∀ p ∈ c.copy, fresh s.history j = true → ∀ r ∈ s.row, r.generation ≤ p.generation

/-- Nothing was overridden, and the fresh copies are not behind. -/
abbrev LoadInv : Pool PluginStore PluginCall → Prop :=
  SlotsInv (fun s => overrides s.history = []) UpToDate

theorem overrides_of_step (hstep : Step i s c s' c') (hs : overrides s.history = [])
    (hG : c.writes = true → fresh s.history i = true) : overrides s'.history = [] := by
  cases hstep with
  | still hrow hhist hcopy => rw [hhist, hs]
  | found hrow hcopy => exact hs
  | wrote hwrites hcopy hrow hgen hhist hw hnone =>
    rw [hhist, overrides_write hw (hG hwrites), hs]

theorem upToDate_self (hstep : Step i s c s' c') (hc : UpToDate s i (some c)) :
    UpToDate s' i (some c') := by
  intro d hd p' hp' hfresh r hr
  cases hd
  cases hstep with
  | still hrow hhist hcopy =>
    rw [hhist] at hfresh
    rw [hrow] at hr
    obtain ⟨p, hp, hle⟩ := hcopy p' hp'
    exact Int64.le_trans (hc c rfl p hp hfresh r hr) hle
  | found hrow hcopy =>
    rw [hrow] at hr
    cases hr
    exact hcopy p' hp'
  | wrote hwrites hcopy hrow hgen hhist hw hnone =>
    rw [hnone] at hp'
    cases hp'

theorem upToDate_other (hstep : Step i s c s' c') {x : Option PluginCall} (hj : j ≠ i)
    (hx : UpToDate s j x) : UpToDate s' j x := by
  intro d hd p hp hfresh r hr
  cases hstep with
  | still hrow hhist hcopy =>
    rw [hhist] at hfresh
    rw [hrow] at hr
    exact hx d hd p hp hfresh r hr
  | found hrow hcopy =>
    rw [fresh_read_ne (Ne.symm hj)] at hfresh
    exact hx d hd p hp hfresh r hr
  | wrote hwrites hcopy hrow hgen hhist hw hnone =>
    -- a write of another call makes the copy old
    rw [hhist, fresh_write] at hfresh
    cases hfresh

theorem copy_of_start (h : (program maxAttempts).start s c = true) : c.copy = none := by
  cases c with
  | disabledSave | exhaustedSave | reloadApply | reloadSave | operatorSave => cases h
  | _ => rfl

theorem loadInv_step : StableUnder (program maxAttempts).step (GuardedAt Unchanged) LoadInv := by
  refine Program.slotsInv_step ?_ ?_
  · intro s i c _ hstart _ d hd q hq
    cases hd
    rw [copy_of_start hstart] at hq
    cases hq
  · intro p i e c s' c' hI hD hunch hnext
    have hstep := step_of_next hunch.2 hnext
    exact ⟨overrides_of_step hstep hI hunch.1, upToDate_self hstep hD,
      fun j hj => upToDate_other hstep hj⟩

theorem generationLe_refl (r : Option Plugin) : GenerationLe r r := fun p hp =>
  ⟨p, hp, Int64.le_refl _⟩

theorem generationLe_trans {r₁ r₂ r₃ : Option Plugin} (h : GenerationLe r₁ r₂)
    (h' : GenerationLe r₂ r₃) : GenerationLe r₁ r₃ := by
  intro p hp
  obtain ⟨p₂, hp₂, hle⟩ := h p hp
  obtain ⟨p₃, hp₃, hle'⟩ := h' p₂ hp₂
  exact ⟨p₃, hp₃, Int64.le_trans hle hle'⟩

theorem generationLe_of_step (hstep : Step i s c s' c') (hc : UpToDate s i (some c))
    (hG : c.writes = true → fresh s.history i = true) : GenerationLe s.row s'.row := by
  cases hstep with
  | still hrow hhist hcopy =>
    rw [hrow]
    exact generationLe_refl _
  | found hrow hcopy => exact generationLe_refl _
  | wrote hwrites hcopy hrow hgen hhist hw hnone =>
    intro q hq
    have hle := hc c rfl _ hcopy (hG hwrites) q hq
    exact ⟨_, hrow, hgen ▸ hle⟩

theorem generationLe_step (p : Pool PluginStore PluginCall) (m : Move PluginCall PluginEnv)
    (p' : Pool PluginStore PluginCall) (hp : LoadInv p) (hG : GuardedAt Unchanged p m)
    (h : (program maxAttempts).step p m = some p') : GenerationLe p.store.row p'.store.row := by
  obtain ⟨c, rfl, hc, rfl⟩ | ⟨i, e, c, s', c', rfl, hc, hn, rfl⟩ := Program.step_cases h
  · exact generationLe_refl _
  · have hslot := hp.slot i
    rw [hc] at hslot
    exact generationLe_of_step (step_of_next (hG c hc).2 hn) hslot (hG c hc).1

theorem loadInv_idle (row : Option Plugin) : LoadInv (Pool.idle { row }) :=
  ⟨rfl, fun j c hc => by simp [Pool.idle] at hc⟩

/-- Over every interleaving in which nothing is written to the row between a find and the write that
comes from it, and no generation wraps around, the generation never goes back, and no status of an
operator is replaced with a copy from before it was saved. -/
theorem load_state_kept (maxAttempts : ℕ) (row : Option Plugin)
    {ms ns : List (Move PluginCall PluginEnv)} {p q : Pool PluginStore PluginCall}
    (hp : run (program maxAttempts).step (Pool.idle { row }) ms = some p)
    (hq : run (program maxAttempts).step p ns = some q)
    (hG : Along (program maxAttempts).step (GuardedAt Unchanged) (Pool.idle { row }) (ms ++ ns)) :
    GenerationLe p.store.row q.store.row ∧ overrides q.store.history = [] := by
  obtain ⟨hms, hns⟩ := (along_append hp).1 hG
  have hpinv : LoadInv p := run_inv LoadInv loadInv_step (loadInv_idle row) hms hp
  refine ⟨?_, (run_inv LoadInv loadInv_step hpinv hns hq).store⟩
  exact run_rel LoadInv (fun p q => GenerationLe p.store.row q.store.row)
    (fun p => generationLe_refl _) (fun _ _ _ => generationLe_trans) loadInv_step generationLe_step
    hpinv hns hq

def activeRow : Option Plugin := some {}

def calm : PluginEnv := { now := 1 }

/-- The plugin is reported disabled and then reloaded with a new generation, one after the other. -/
def disableThenReload : List (Move PluginCall PluginEnv) :=
  [.spawn (.disabledFind "timeout"), .advance 0 calm, .advance 0 calm, .advance 0 calm,
   .spawn (.reloadLock 0 true), .advance 1 calm, .advance 1 calm, .advance 1 calm]

theorem load_state_kept_reload :
    ∃ p q, run (program 5).step (Pool.idle { row := activeRow }) disableThenReload = some p ∧
      run (program 5).step p [.advance 1 calm] = some q ∧
      q.store.row.map (·.generation) = some 1 ∧
      GenerationLe p.store.row q.store.row ∧ overrides q.store.history = [] := by
  refine ⟨_, _, rfl, rfl, rfl, ?_⟩
  exact @load_state_kept 5 activeRow disableThenReload [.advance 1 calm] _ _ rfl rfl (by decide)

def generationAfter (ms : List (Move PluginCall PluginEnv)) : Option Int64 :=
  (run (program 5).step (Pool.idle { row := activeRow }) ms).bind fun p =>
    p.store.row.map (·.generation)

/-- A plugin that is reported disabled while it is reloaded, up to the write of the reload. -/
def reloadWhileDisabled : List (Move PluginCall PluginEnv) :=
  [.spawn (.disabledFind "timeout"), .advance 0 calm, .spawn (.reloadLock 0 true), .advance 1 calm,
   .advance 1 calm, .advance 1 calm, .advance 1 calm]

/-- An operator disables the plugin while it is reported disabled. -/
def operatorWhileDisabled : List (Move PluginCall PluginEnv) :=
  [.spawn (.disabledFind "timeout"), .advance 0 calm, .spawn (.operatorFind .disabled ""),
   .advance 1 calm, .advance 1 calm, .advance 0 calm]

/-- The write of the supervisor takes the generation of the reload back, and replaces the status of
the operator. -/
theorem generation_goes_back : generationAfter reloadWhileDisabled = some 1 ∧
    generationAfter (reloadWhileDisabled ++ [.advance 0 calm]) = some 0 ∧
    (run (program 5).step (Pool.idle { row := activeRow }) operatorWhileDisabled).map
      (fun p => (p.store.row.map (·.status), overrides p.store.history)) =
        some (some .error, [0]) := by
  refine ⟨by decide, by decide, by decide⟩

end PluginCall

end GameAP
