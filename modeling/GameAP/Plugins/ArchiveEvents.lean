import GameAP.Daemon.Archive

/-!
# Archive events for plugins

`pluginarchive.Service`: a plugin that starts an archive operation registers for its events, and a
goroutine for each registration, `deliverLoop`, takes the events from two channels of capacity 1 and
calls the plugin.  A registration is named by the place of its `Register` call in the pool, and that
call goes on as the delivery loop.  A `select` with several ready cases may take any of them.

* a registration has at most one successful completion callback, and no callback after it;
* a loop that has a payload when `RemovePlugin` closes its stop channel, or finds one beside it,
  still calls the plugin (`callback_after_removal`);
* `quiet` is the exact condition at `RemovePlugin` for nothing more to be delivered
  (`deliveries_iff`).
-/

namespace GameAP

open Runs Tables Option

def ArchiveFormat.fromAPIName : String → ArchiveFormat
  | "zip" => .zip
  | "tar" => .tar
  | "tar_gz" => .tarGz
  | "tar_bz2" => .tarBz2
  | "tar_xz" => .tarXz
  | "tar_zstd" => .tarZstd
  | "gz" => .gz
  | "bz2" => .bz2
  | "xz" => .xz
  | "zstd" => .zstd
  | "7z" => .sevenZ
  | "rar" => .rar
  | _ => .unspecified

structure HandleArchiveProgressRequest where
  operationID : String
  nodeID : ℕ
  filesProcessed : ℕ
  filesTotal : ℕ
  bytesProcessed : ℕ
  bytesTotal : ℕ
  currentEntry : String
  deriving DecidableEq

structure HandleArchiveCompletedRequest where
  operationID : String
  nodeID : ℕ
  success : Bool
  error : Option String
  filesProcessed : ℕ
  bytesProcessed : ℕ
  archiveSize : ℕ
  skippedCount : ℕ
  format : ArchiveFormat
  deriving DecidableEq

/-- The request of `deliverProgress`. -/
def ArchiveProgressEvent.request (payload : ArchiveProgressEvent) : HandleArchiveProgressRequest :=
  { operationID := payload.operationID, nodeID := payload.nodeID,
    filesProcessed := payload.filesProcessed, filesTotal := payload.filesTotal,
    bytesProcessed := payload.bytesProcessed, bytesTotal := payload.bytesTotal,
    currentEntry := payload.currentEntry }

/-- The request of `deliverComplete`. -/
def ArchiveCompleteEvent.request (payload : ArchiveCompleteEvent) : HandleArchiveCompletedRequest :=
  { operationID := payload.operationID, nodeID := payload.nodeID, success := payload.success,
    error := if payload.error = "" then none else some payload.error,
    filesProcessed := payload.filesProcessed, bytesProcessed := payload.bytesProcessed,
    archiveSize := payload.archiveSize, skippedCount := payload.skippedCount,
    format := .fromAPIName payload.format }

/-- `registration`: a channel of capacity 1 is an option, and `stopCh` says whether it is closed. -/
structure ArchiveRegistration where
  pluginID : ℕ
  nodeID : ℕ
  reportProgress : Bool
  progressCh : Option ArchiveProgressEvent := none
  completeCh : Option ArchiveCompleteEvent := none
  stopCh : Bool := false
  deriving DecidableEq

/-- Closes the stop channel. -/
def ArchiveRegistration.stop (reg : ArchiveRegistration) : ArchiveRegistration :=
  { reg with stopCh := true }

/-- What is logged of a registration: a callback that starts, and a completion callback that has
returned without an error. -/
inductive ArchiveCallback
  | progress (request : HandleArchiveProgressRequest)
  | completed (request : HandleArchiveCompletedRequest)
  | succeeded
  deriving DecidableEq

def ArchiveCallback.isStart : ArchiveCallback → Bool
  | .progress _ | .completed _ => true
  | .succeeded => false

/-- `Options`, as far as they are not times. -/
structure ArchiveEventOptions where
  busyRetries : ℤ := 0

def ArchiveEventOptions.withDefaults (o : ArchiveEventOptions) : ArchiveEventOptions :=
  if o.busyRetries ≤ 0 then ⟨5⟩ else o

/-- How often `deliverComplete` calls a busy plugin. -/
def ArchiveEventOptions.attempts (o : ArchiveEventOptions) : ℕ :=
  1 + o.withDefaults.busyRetries.toNat

/-- `Service`, with the registrations that were ever made and the log of the callbacks.  `started`
says that `Start` has set `baseCtx`, and `disabled` has the plugins that a timeout has disabled. -/
structure ArchiveDispatcher where
  registrations : ℕ → Option ArchiveRegistration := fun _ => none
  regs : Table String ℕ := ∅
  stopped : Bool := false
  deliveryWG : ℕ := 0
  started : Bool := false
  cancelled : Bool := false
  callbacks : List (ℕ × ArchiveCallback) := []
  disabled : List (ℕ × String) := []

/-- What the environment chooses at a step: the case that a `select` takes, what `resolveHandler`
finds, how a guest call ends. -/
inductive DeliveryChoice
  | stopCh | ctxDone | timer | progressCh | completeCh
  | unreachable | reachable
  | success | busy | failed (timedOut : Bool)
  deriving DecidableEq

/-- Where a call is.  `bound` says whether the context that was read is the one of `Start`. -/
inductive DeliveryCall
  | register (pluginID : ℕ) (operationID : String) (nodeID : ℕ) (reportProgress : Bool)
  | deliverLoop (operationID : String)
  | select (operationID : String) (bound : Bool)
  | deliverProgress (operationID : String) (bound : Bool) (payload : ArchiveProgressEvent)
  | callProgress (operationID : String) (bound : Bool) (payload : ArchiveProgressEvent)
  | inProgress (operationID : String) (bound : Bool)
  | deliverComplete (operationID : String) (payload : ArchiveCompleteEvent)
  | callCompleted (operationID : String) (bound : Bool) (payload : ArchiveCompleteEvent) (attempt : ℕ)
  | inCompleted (operationID : String) (bound : Bool) (payload : ArchiveCompleteEvent) (attempt : ℕ)
  | retry (operationID : String) (bound : Bool) (payload : ArchiveCompleteEvent) (attempt : ℕ)
  | dropIf (operationID : String)
  | wgDone
  | onProgress (payload : ArchiveProgressEvent)
  | sendProgress (reg : ℕ) (payload : ArchiveProgressEvent) (rounds : ℕ)
  | evictProgress (reg : ℕ) (payload : ArchiveProgressEvent) (rounds : ℕ)
  | onComplete (payload : ArchiveCompleteEvent)
  | notifyCompleted (operationID : String) (result : ArchiveCompleteEvent)
  | sendComplete (reg : ℕ) (payload : ArchiveCompleteEvent)
  | removePlugin (pluginID : ℕ)
  | start
  | cancel
  | stop
  | wait
  | returned
  deriving DecidableEq

namespace ArchiveDispatcher

variable (s : ArchiveDispatcher)

def modify (r : ℕ) (f : ArchiveRegistration → ArchiveRegistration) : ArchiveDispatcher :=
  { s with registrations := Function.update s.registrations r ((s.registrations r).map f) }

def log (r : ℕ) (callback : ArchiveCallback) : ArchiveDispatcher :=
  { s with callbacks := (r, callback) :: s.callbacks }

/-- Some operation has the registration. -/
def inMap (r : ℕ) : Bool := s.regs.entries.any fun e => e.2 = r

/-- Close the stop channels of some of the registrations in the map. -/
def stopWhere (f : ArchiveRegistration → Bool) : ArchiveDispatcher :=
  { s with registrations := fun r =>
      (s.registrations r).map fun reg => if s.inMap r && f reg then reg.stop else reg }

/-- The predecessor of an operation is stopped. -/
def stopOld (operationID : String) : ArchiveDispatcher :=
  match s.regs.get operationID with
  | some old => s.modify old ArchiveRegistration.stop
  | none => s

/-- The section of `Register` under the lock. -/
def addRegistration (r : ℕ) (operationID : String) (reg : ArchiveRegistration) : ArchiveDispatcher :=
  { s.stopOld operationID with
    registrations := Function.update (s.stopOld operationID).registrations r (some reg)
    regs := s.regs.put operationID r
    deliveryWG := s.deliveryWG + 1 }

def removePlugin (pluginID : ℕ) : ArchiveDispatcher :=
  { s.stopWhere fun reg => reg.pluginID = pluginID with
    regs := s.regs.delWhere fun op =>
      (s.regs.get op).any fun r => (s.registrations r).any fun reg => reg.pluginID = pluginID }

def dropIf (operationID : String) (r : ℕ) : ArchiveDispatcher :=
  if s.regs.get operationID = some r then { s with regs := s.regs.del operationID } else s

/-- `baseCtx.Done()`, for the context that was read. -/
def ctxDone (bound : Bool) : Bool := bound && s.cancelled

def isStopped (r : ℕ) : Bool := (s.registrations r).any fun reg => reg.stopCh

/-- The registration to which a progress event goes. -/
def reporting (operationID : String) : Option ℕ :=
  (s.regs.get operationID).filter fun r => (s.registrations r).any fun reg => reg.reportProgress

def sendTo : Option ℕ → (ℕ → DeliveryCall) → DeliveryCall
  | some r, send => send r
  | none, _ => .returned

def progressFull (r : ℕ) : Bool := (s.registrations r).any fun reg => reg.progressCh.isSome

/-- A send on the completion channel in a `select` with a default branch. -/
def trySendComplete (payload : ArchiveCompleteEvent) (reg : ArchiveRegistration) :
    ArchiveRegistration :=
  if reg.completeCh.isSome then reg else { reg with completeCh := some payload }

/-- `handleGuestCallError`, as far as it is not logging. -/
def handleGuestCallError (r : ℕ) (timedOut : Bool) (kind : String) : ArchiveDispatcher :=
  match s.registrations r with
  | some reg =>
    if timedOut && !s.ctxDone s.started then
      { s with disabled := (reg.pluginID, "archive callback timed out" ++ " (" ++ kind ++ ")") ::
          s.disabled }
    else s
  | none => s

/-- The `select` of `deliverLoop`. -/
def select (r : ℕ) (operationID : String) (bound : Bool) :
    DeliveryChoice → Option (ArchiveDispatcher × DeliveryCall)
  | .stopCh => if s.isStopped r then some (s, .dropIf operationID) else none
  | .ctxDone => if s.ctxDone bound then some (s, .dropIf operationID) else none
  | .timer => some (s, .dropIf operationID)
  | .progressCh => ((s.registrations r).bind (·.progressCh)).map fun payload =>
      (s.modify r fun reg => { reg with progressCh := none },
        .deliverProgress operationID bound payload)
  | .completeCh => ((s.registrations r).bind (·.completeCh)).map fun payload =>
      (s.modify r fun reg => { reg with completeCh := none }, .deliverComplete operationID payload)
  | _ => none

/-- The end of a progress callback. -/
def endProgress (r : ℕ) (operationID : String) (bound : Bool) :
    DeliveryChoice → Option (ArchiveDispatcher × DeliveryCall)
  | .success | .busy => some (s, .select operationID bound)
  | .failed timedOut =>
    some (s.handleGuestCallError r timedOut "archive progress", .select operationID bound)
  | _ => none

/-- The end of a completion callback. -/
def endCompleted (o : ArchiveEventOptions) (r : ℕ) (operationID : String) (bound : Bool)
    (payload : ArchiveCompleteEvent) (attempt : ℕ) :
    DeliveryChoice → Option (ArchiveDispatcher × DeliveryCall)
  | .success => some (s.log r .succeeded, .dropIf operationID)
  | .failed timedOut =>
    some (s.handleGuestCallError r timedOut "archive completion", .dropIf operationID)
  | .busy =>
    some (s, if attempt + 1 = o.attempts then .dropIf operationID
      else .retry operationID bound payload attempt)
  | _ => none

/-- The `select` between two attempts. -/
def retry (r : ℕ) (operationID : String) (bound : Bool) (payload : ArchiveCompleteEvent)
    (attempt : ℕ) : DeliveryChoice → Option (ArchiveDispatcher × DeliveryCall)
  | .stopCh => if s.isStopped r then some (s, .dropIf operationID) else none
  | .ctxDone => if s.ctxDone bound then some (s, .dropIf operationID) else none
  | .timer => some (s, .callCompleted operationID bound payload (attempt + 1))
  | _ => none

/-- One step of the call at `i`. -/
def next (o : ArchiveEventOptions) (i : ℕ) (s : ArchiveDispatcher) :
    DeliveryCall → DeliveryChoice → Option (ArchiveDispatcher × DeliveryCall)
  | .register pluginID op nodeID reportProgress, _ =>
    if pluginID = 0 ∨ op = "" ∨ s.stopped then some (s, .returned)
    else some (s.addRegistration i op { pluginID, nodeID, reportProgress }, .deliverLoop op)
  | .deliverLoop op, _ => some (s, .select op s.started)
  | .select op bound, e => s.select i op bound e
  | .deliverProgress op bound payload, e =>
    some (s, if e = .reachable then .callProgress op bound payload else .select op bound)
  | .callProgress op bound payload, _ =>
    some (s.log i (.progress payload.request), .inProgress op bound)
  | .inProgress op bound, e => s.endProgress i op bound e
  | .deliverComplete op payload, e =>
    some (s, if e = .reachable then .callCompleted op s.started payload 0 else .dropIf op)
  | .callCompleted op bound payload attempt, _ =>
    some (s.log i (.completed payload.request), .inCompleted op bound payload attempt)
  | .inCompleted op bound payload attempt, e => s.endCompleted o i op bound payload attempt e
  | .retry op bound payload attempt, e => s.retry i op bound payload attempt e
  | .dropIf op, _ => some (s.dropIf op i, .wgDone)
  | .wgDone, _ => some ({ s with deliveryWG := s.deliveryWG - 1 }, .returned)
  | .onProgress payload, _ =>
    some (s, sendTo (s.reporting payload.operationID) (.sendProgress · payload 1))
  | .sendProgress r payload rounds, _ =>
    if s.progressFull r then some (s, .evictProgress r payload rounds)
    else some (s.modify r fun reg => { reg with progressCh := some payload }, .returned)
  | .evictProgress r payload rounds, _ =>
    some (s.modify r fun reg => { reg with progressCh := none },
      if rounds = 0 then .returned else .sendProgress r payload (rounds - 1))
  | .onComplete payload, _ =>
    some (s, sendTo (s.regs.get payload.operationID) (.sendComplete · payload))
  | .notifyCompleted op result, _ => some (s, sendTo (s.regs.get op) (.sendComplete · result))
  | .sendComplete r payload, _ => some (s.modify r (trySendComplete payload), .returned)
  | .removePlugin pluginID, _ => some (s.removePlugin pluginID, .returned)
  | .start, _ => some ({ s with started := true }, .returned)
  | .cancel, _ => some ({ s with cancelled := true }, .returned)
  | .stop, _ => some ({ s.stopWhere fun _ => true with stopped := true }, .wait)
  | .wait, _ => if s.deliveryWG = 0 then some (s, .returned) else none
  | .returned, _ => none

/-- The calls that come from outside. -/
def program (o : ArchiveEventOptions) : Program ArchiveDispatcher DeliveryCall DeliveryChoice where
  start _ c := match c with
    | .register .. | .onProgress _ | .onComplete _ | .notifyCompleted .. | .removePlugin _ | .start
    | .cancel | .stop => true
    | _ => false
  next i s c e := s.next o i c e

end ArchiveDispatcher

namespace DeliveryCall

/-- The call is the delivery loop of a registration. -/
def isLoop : DeliveryCall → Bool
  | .deliverLoop _ | .select .. | .deliverProgress .. | .callProgress .. | .inProgress ..
  | .deliverComplete .. | .callCompleted .. | .inCompleted .. | .retry .. | .dropIf _ | .wgDone
  | .returned => true
  | _ => false

/-- The loop has left, or leaves now. -/
def ended : DeliveryCall → Bool
  | .dropIf _ | .wgDone | .returned => true
  | _ => false

/-- The next step calls the plugin. -/
def calls : DeliveryCall → Bool
  | .callProgress .. | .callCompleted .. => true
  | _ => false

/-- The loop is going to wait for a payload, and has none. -/
def waits : DeliveryCall → Bool
  | .deliverLoop _ | .select .. | .inProgress .. => true
  | _ => false

/-- The loop calls the plugin no more, whatever comes. -/
def finishes (o : ArchiveEventOptions) : DeliveryCall → Bool
  | .inCompleted _ _ _ attempt => attempt + 1 = o.attempts
  | c => c.ended

/-- The call has found the registration and is still going to send. -/
def holds (r : ℕ) : DeliveryCall → Bool
  | .sendProgress r' _ _ | .sendComplete r' _ => r' = r
  | .evictProgress r' _ rounds => r' = r && rounds != 0
  | _ => false

end DeliveryCall

/-- Something is in one of the channels. -/
def ArchiveRegistration.queued (reg : ArchiveRegistration) : Bool :=
  reg.progressCh.isSome || reg.completeCh.isSome

open DeliveryCall

namespace ArchiveDispatcher

variable {o : ArchiveEventOptions} {i r : ℕ} {s s' : ArchiveDispatcher} {c c' : DeliveryCall}
  {e : DeliveryChoice} {p p' : Pool ArchiveDispatcher DeliveryCall}

/-! ### What a step does to a registration -/

def queued (s : ArchiveDispatcher) (r : ℕ) : Bool :=
  (s.registrations r).any ArchiveRegistration.queued

/-- The callbacks of a registration that were started. -/
def starts (s : ArchiveDispatcher) (r : ℕ) : List (ℕ × ArchiveCallback) :=
  s.callbacks.filter fun cb => cb.1 = r && cb.2.isStart

theorem inMap_eq_true_iff : s.inMap r = true ↔ ∃ op, s.regs.get op = some r := by
  simp only [inMap, List.any_eq_true, decide_eq_true_eq]
  constructor
  · rintro ⟨⟨op, r'⟩, hmem, rfl⟩
    exact ⟨op, Table.get_eq_some_iff.2 hmem⟩
  · rintro ⟨op, hop⟩
    exact ⟨⟨op, r⟩, Table.get_eq_some_iff.1 hop, rfl⟩

/-- What a step of the call at `i` does to the registration `r`, other than calling the plugin. -/
structure Locally (i r : ℕ) (c c' : DeliveryCall) (s s' : ArchiveDispatcher) : Prop where
  inMap : s'.inMap r = true → s.inMap r = true ∨ r = i ∧ c.isLoop = false
  isSome : (s'.registrations r).isSome = true →
    (s.registrations r).isSome = true ∨ r = i ∧ c'.isLoop = true
  queued : s'.queued r = true → s.queued r = true ∨ c.holds r = true
  holds : c'.holds r = true → c.holds r = true ∨ s.inMap r = true
  isLoop : c.isLoop = true → c'.isLoop = true

/-- What a step adds to the log: a callback of the loop at `i` that starts, or the success of
one. -/
def Logs (i : ℕ) (c c' : DeliveryCall) (s s' : ArchiveDispatcher) : Prop :=
  s'.callbacks = s.callbacks ∨
    (∃ cb, s'.callbacks = (i, cb) :: s.callbacks ∧ cb.isStart = true ∧ c.calls = true) ∨
    (s'.callbacks = (i, .succeeded) :: s.callbacks ∧ c.ended = false ∧ c'.ended = true)

section

variable (hholds : c'.holds r = true → c.holds r = true ∨ s.inMap r = true)
  (hloop : c.isLoop = true → c'.isLoop = true)
include hholds hloop

theorem Locally.of_map (f : ArchiveRegistration → ArchiveRegistration)
    (hmap : s'.registrations r = (s.registrations r).map f)
    (hf : ∀ reg, (f reg).queued = true → reg.queued = true ∨ c.holds r = true)
    (hinMap : s'.inMap r = true → s.inMap r = true) : Locally i r c c' s s' where
  inMap h := .inl (hinMap h)
  isSome h := .inl (by simpa [hmap] using h)
  queued h := by
    unfold ArchiveDispatcher.queued at h ⊢
    rw [hmap] at h
    cases hreg : s.registrations r with
    | none => simp [hreg] at h
    | some reg => simpa using hf reg (by simpa [hreg] using h)
  holds := hholds
  isLoop := hloop

theorem Locally.of_registrations_eq (hreg : s'.registrations = s.registrations)
    (hinMap : s'.inMap r = true → s.inMap r = true) : Locally i r c c' s s' :=
  .of_map hholds hloop id (by rw [hreg, map_id]; rfl) (fun _ => .inl) hinMap

theorem Locally.of_stopWhere (f : ArchiveRegistration → Bool)
    (hregi : s'.registrations = (s.stopWhere f).registrations)
    (hinMap : s'.inMap r = true → s.inMap r = true) : Locally i r c c' s s' := by
  refine .of_map hholds hloop (fun reg => if s.inMap r && f reg then reg.stop else reg) ?_
    (fun reg hreg => .inl ?_) hinMap
  · rw [hregi]
    rfl
  · split_ifs at hreg <;> exact hreg

end

theorem registrations_modify (s : ArchiveDispatcher) (r' : ℕ)
    (f : ArchiveRegistration → ArchiveRegistration) (r : ℕ) :
    (s.modify r' f).registrations r =
      (s.registrations r).map fun reg => if r = r' then f reg else reg := by
  unfold modify
  by_cases hr : r = r'
  · subst hr
    simp
  · simp [hr]

theorem Locally.of_modify (r' : ℕ) (f : ArchiveRegistration → ArchiveRegistration)
    (hf : ∀ reg, (f reg).queued = true → reg.queued = true ∨ c.holds r' = true)
    (hholds : c'.holds r = true → c.holds r = true ∨ s.inMap r = true)
    (hloop : c.isLoop = true → c'.isLoop = true) : Locally i r c c' s (s.modify r' f) := by
  refine .of_map hholds hloop _ (registrations_modify s r' f r) (fun reg hreg => ?_) id
  split_ifs at hreg with hr
  · subst hr
    exact hf reg hreg
  · exact .inl hreg

theorem registrations_stopOld (s : ArchiveDispatcher) (op : String) (r : ℕ) :
    ∃ f, (s.stopOld op).registrations r = (s.registrations r).map f ∧
      ∀ reg, (f reg).queued = reg.queued := by
  unfold stopOld
  cases hop : s.regs.get op with
  | none => exact ⟨id, by simp, fun _ => rfl⟩
  | some old =>
    refine ⟨_, registrations_modify s old _ r, fun reg => ?_⟩
    split_ifs <;> rfl

theorem holds_sendTo {x : Option ℕ} {send : ℕ → DeliveryCall}
    (hsend : ∀ r', (send r').holds r = true → r' = r)
    (h : (sendTo x send).holds r = true) : x = some r := by
  cases x with
  | none => cases h
  | some r' => rw [hsend r' h]

variable {op : String} {bound : Bool}

theorem select_cases (h : s.select i op bound e = some (s', c')) : (s' = s ∧ c' = .dropIf op) ∨
    (∃ payload, (s.registrations i).bind (·.progressCh) = some payload ∧
      s' = s.modify i (fun reg => { reg with progressCh := none }) ∧
      c' = .deliverProgress op bound payload) ∨
    (∃ payload, (s.registrations i).bind (·.completeCh) = some payload ∧
      s' = s.modify i (fun reg => { reg with completeCh := none }) ∧
      c' = .deliverComplete op payload) := by
  cases e with
  | stopCh | ctxDone =>
    simp only [select] at h
    split_ifs at h
    cases h
    exact .inl ⟨rfl, rfl⟩
  | timer =>
    cases h
    exact .inl ⟨rfl, rfl⟩
  | progressCh =>
    obtain ⟨payload, hpayl, heq⟩ := map_eq_some_iff.1 h
    cases heq
    exact .inr (.inl ⟨payload, hpayl, rfl, rfl⟩)
  | completeCh =>
    obtain ⟨payload, hpayl, heq⟩ := map_eq_some_iff.1 h
    cases heq
    exact .inr (.inr ⟨payload, hpayl, rfl, rfl⟩)
  | _ => cases h

theorem handleGuestCallError_frame (s : ArchiveDispatcher) (r : ℕ) (timedOut : Bool) (kind : String) :
    (s.handleGuestCallError r timedOut kind).registrations = s.registrations ∧
    (s.handleGuestCallError r timedOut kind).regs = s.regs ∧
    (s.handleGuestCallError r timedOut kind).callbacks = s.callbacks := by
  unfold handleGuestCallError
  split
  · split_ifs <;> exact ⟨rfl, rfl, rfl⟩
  · exact ⟨rfl, rfl, rfl⟩

theorem endProgress_cases (h : s.endProgress i op bound e = some (s', c')) :
    s'.registrations = s.registrations ∧ s'.regs = s.regs ∧ s'.callbacks = s.callbacks ∧
      c' = .select op bound := by
  cases e with
  | success | busy =>
    cases h
    exact ⟨rfl, rfl, rfl, rfl⟩
  | failed timedOut =>
    cases h
    obtain ⟨h₁, h₂, h₃⟩ := handleGuestCallError_frame s i timedOut "archive progress"
    exact ⟨h₁, h₂, h₃, rfl⟩
  | _ => cases h

variable {payload : ArchiveCompleteEvent} {attempt : ℕ}

theorem endCompleted_cases (h : s.endCompleted o i op bound payload attempt e = some (s', c')) :
    s'.registrations = s.registrations ∧ s'.regs = s.regs ∧
    ((s'.callbacks = (i, .succeeded) :: s.callbacks ∧ c' = .dropIf op) ∨
      (s'.callbacks = s.callbacks ∧ (c' = .dropIf op ∨
        attempt + 1 ≠ o.attempts ∧ c' = .retry op bound payload attempt))) := by
  cases e with
  | success =>
    cases h
    exact ⟨rfl, rfl, .inl ⟨rfl, rfl⟩⟩
  | busy =>
    cases h
    refine ⟨rfl, rfl, .inr ⟨rfl, ?_⟩⟩
    split_ifs with hlast
    · exact .inl rfl
    · exact .inr ⟨hlast, rfl⟩
  | failed timedOut =>
    cases h
    obtain ⟨h₁, h₂, h₃⟩ := handleGuestCallError_frame s i timedOut "archive completion"
    exact ⟨h₁, h₂, .inr ⟨h₃, .inl rfl⟩⟩
  | _ => cases h

theorem retry_cases (h : s.retry i op bound payload attempt e = some (s', c')) :
    s' = s ∧ (c' = .dropIf op ∨ c' = .callCompleted op bound payload (attempt + 1)) := by
  cases e with
  | stopCh | ctxDone =>
    simp only [retry] at h
    split_ifs at h
    cases h
    exact ⟨rfl, .inl rfl⟩
  | timer =>
    cases h
    exact ⟨rfl, .inr rfl⟩
  | _ => cases h

theorem inMap_dropIf (h : (s.dropIf op i).inMap r = true) : s.inMap r = true := by
  unfold dropIf at h
  split_ifs at h
  · obtain ⟨op', hop⟩ := inMap_eq_true_iff.1 h
    rw [Table.get_del] at hop
    split_ifs at hop
    exact inMap_eq_true_iff.2 ⟨op', hop⟩
  · exact h

variable {pluginID : ℕ} {ms : List (Move DeliveryCall DeliveryChoice)}

theorem inMap_removePlugin (h : (s.removePlugin pluginID).inMap r = true) :
    s.inMap r = true ∧ (s.registrations r).any (fun reg => reg.pluginID = pluginID) = false := by
  obtain ⟨op, hop⟩ := inMap_eq_true_iff.1 h
  simp only [removePlugin, Table.get_delWhere] at hop
  split_ifs at hop with hdel
  rw [hop] at hdel
  exact ⟨inMap_eq_true_iff.2 ⟨op, hop⟩, by simpa using hdel⟩

theorem locally_register {nodeID : ℕ} {reportProgress : Bool} (r : ℕ) :
    Locally i r (.register pluginID op nodeID reportProgress) (.deliverLoop op) s
      (s.addRegistration i op { pluginID, nodeID, reportProgress }) := by
  by_cases hr : r = i
  · subst hr
    refine ⟨fun _ => .inr ⟨rfl, rfl⟩, fun _ => .inr ⟨rfl, rfl⟩, fun h => ?_, fun h => ?_, fun h => ?_⟩
    · simp [queued, addRegistration, ArchiveRegistration.queued] at h
    · cases h
    · cases h
  · obtain ⟨f, hmap, hf⟩ := registrations_stopOld s op r
    refine .of_map nofun nofun f ?_ (fun reg hreg => .inl (hf reg ▸ hreg)) (fun h => ?_)
    · simpa [addRegistration, Function.update_of_ne hr] using hmap
    · obtain ⟨op', hop⟩ := inMap_eq_true_iff.1 h
      simp only [addRegistration, Table.get_put] at hop
      split_ifs at hop with heq
      · exact absurd (some.inj hop).symm hr
      · exact inMap_eq_true_iff.2 ⟨op', hop⟩

section

variable (h : next o i s c e = some (s', c'))
include h

theorem next_cases (r : ℕ) : Locally i r c c' s s' ∧ Logs i c c' s s' := by
  have hquiet : s'.registrations = s.registrations → s'.regs = s.regs →
      (c'.holds r = true → c.holds r = true ∨ s.inMap r = true) →
      (c.isLoop = true → c'.isLoop = true) → Locally i r c c' s s' :=
    fun hregi hregs hholds hloop =>
      .of_registrations_eq hholds hloop hregi (by rw [inMap, hregs]; exact id)
  cases c with
  | register pluginID op nodeID reportProgress =>
    simp only [next] at h
    split_ifs at h <;> cases h
    · exact ⟨hquiet rfl rfl nofun fun _ => rfl, .inl rfl⟩
    · refine ⟨locally_register r, .inl ?_⟩
      unfold addRegistration stopOld
      cases s.regs.get op <;> rfl
  | deliverLoop | wgDone | start | cancel =>
    cases h
    exact ⟨hquiet rfl rfl nofun fun _ => rfl, .inl rfl⟩
  | callProgress | callCompleted =>
    cases h
    exact ⟨hquiet rfl rfl nofun fun _ => rfl, .inr (.inl ⟨_, rfl, rfl, rfl⟩)⟩
  | select op bound =>
    obtain ⟨rfl, rfl⟩ | ⟨payload, -, rfl, rfl⟩ | ⟨payload, -, rfl, rfl⟩ := select_cases h
    · exact ⟨hquiet rfl rfl nofun fun _ => rfl, .inl rfl⟩
    all_goals
      refine ⟨.of_modify i _ (fun reg hreg => .inl ?_) nofun fun _ => rfl, .inl rfl⟩
      simp_all [ArchiveRegistration.queued]
  | deliverProgress | deliverComplete =>
    cases h
    refine ⟨hquiet rfl rfl ?_ fun _ => ?_, .inl rfl⟩ <;> split_ifs <;>
      simp [holds, isLoop]
  | inProgress op bound =>
    obtain ⟨h₁, h₂, h₃, rfl⟩ := endProgress_cases h
    exact ⟨hquiet h₁ h₂ nofun fun _ => rfl, .inl h₃⟩
  | inCompleted op bound payload attempt =>
    obtain ⟨h₁, h₂, ⟨h₃, rfl⟩ | ⟨h₃, rfl | ⟨-, rfl⟩⟩⟩ := endCompleted_cases h
    · exact ⟨hquiet h₁ h₂ nofun fun _ => rfl, .inr (.inr ⟨h₃, rfl, rfl⟩)⟩
    all_goals exact ⟨hquiet h₁ h₂ nofun fun _ => rfl, .inl h₃⟩
  | retry op bound payload attempt =>
    obtain ⟨rfl, rfl | rfl⟩ := retry_cases h <;>
      exact ⟨hquiet rfl rfl nofun fun _ => rfl, .inl rfl⟩
  | dropIf op =>
    cases h
    refine ⟨.of_registrations_eq nofun (fun _ => rfl) ?_ inMap_dropIf, .inl ?_⟩ <;> unfold dropIf <;>
      split_ifs <;> rfl
  | onProgress payload =>
    cases h
    refine ⟨hquiet rfl rfl (fun h => .inr ?_) nofun, .inl rfl⟩
    have hr := holds_sendTo (fun r' h => by simpa [holds] using h) h
    exact inMap_eq_true_iff.2 ⟨_, (filter_eq_some_iff.1 hr).1⟩
  | sendProgress r' payload rounds =>
    simp only [next] at h
    split_ifs at h <;> cases h
    · refine ⟨hquiet rfl rfl (fun h => .inl ?_) nofun, .inl rfl⟩
      simp only [holds, Bool.and_eq_true] at h ⊢
      exact h.1
    · exact ⟨.of_modify r' _ (fun reg _ => .inr (by simp [holds])) nofun nofun, .inl rfl⟩
  | evictProgress r' payload rounds =>
    cases h
    refine ⟨.of_modify r' _ (fun reg hreg => .inl ?_) (fun h => .inl ?_) nofun, .inl rfl⟩
    · simp_all [ArchiveRegistration.queued]
    · split_ifs at h with hrounds
      · cases h
      · simpa [holds, hrounds] using h
  | onComplete | notifyCompleted =>
    cases h
    refine ⟨hquiet rfl rfl (fun h => .inr ?_) nofun, .inl rfl⟩
    have hr := holds_sendTo (fun r' h => by simpa [holds] using h) h
    exact inMap_eq_true_iff.2 ⟨_, hr⟩
  | sendComplete r' payload =>
    cases h
    exact ⟨.of_modify r' _ (fun reg _ => .inr (by simp [holds])) nofun nofun, .inl rfl⟩
  | removePlugin pluginID =>
    cases h
    exact ⟨.of_stopWhere nofun nofun _ rfl fun h => (inMap_removePlugin h).1, .inl rfl⟩
  | stop =>
    cases h
    exact ⟨.of_stopWhere nofun nofun _ rfl id, .inl rfl⟩
  | wait =>
    simp only [next] at h
    split_ifs at h
    cases h
    exact ⟨hquiet rfl rfl nofun nofun, .inl rfl⟩
  | returned => cases h

theorem ended_next (hended : c.ended = true) : c'.ended = true := by
  cases c with
  | dropIf | wgDone =>
    cases h
    rfl
  | returned => cases h
  | _ => cases hended

end

theorem starts_next (h : next o i s c e = some (s', c')) (hr : r = i → c.calls = false) :
    s'.starts r = s.starts r := by
  unfold starts
  obtain hlog | ⟨cb, hlog, -, hcalls⟩ | ⟨hlog, -, -⟩ := (next_cases h 0).2
  · rw [hlog]
  · have hne : i ≠ r := by
      rintro rfl
      rw [hr rfl] at hcalls
      cases hcalls
    rw [hlog, List.filter_cons_of_neg (by simp [hne])]
  · rw [hlog, List.filter_cons_of_neg (by simp [ArchiveCallback.isStart])]

/-! ### At most one successful completion callback -/

/-- Nothing is logged for a registration after its completion callback has succeeded.  The log has
the latest first. -/
def Concluded (log : List (ℕ × ArchiveCallback)) : Prop :=
  log.Pairwise fun later earlier => earlier.2 = .succeeded → later.1 ≠ earlier.1

theorem Concluded.cons {log : List (ℕ × ArchiveCallback)} (h : Concluded log)
    (hi : (i, .succeeded) ∉ log) (cb : ArchiveCallback) : Concluded ((i, cb) :: log) := by
  refine List.pairwise_cons.2 ⟨fun earlier hmem hsucc hsame => hi ?_, h⟩
  have heq : (i, ArchiveCallback.succeeded) = earlier := Prod.ext hsame hsucc.symm
  rwa [heq]

/-- The loop of a registration exists; it has left when the completion callback has succeeded. -/
def LoopAt (s : ArchiveDispatcher) (r : ℕ) (c : Option DeliveryCall) : Prop :=
  ((s.registrations r).isSome = true → c.any DeliveryCall.isLoop = true) ∧
  ((r, .succeeded) ∈ s.callbacks → c.any DeliveryCall.ended = true)

theorem loopAt_step :
    Stable (program o).step (SlotsInv (fun s => Concluded s.callbacks) LoopAt) := by
  refine (Program.slotsInv_step ?_ ?_).stable guardedAt_true
  · intro s i c _ _ hloop
    refine ⟨fun h => ?_, fun h => ?_⟩
    · cases hloop.1 h
    · cases hloop.2 h
  · intro p i e c s' c' hlog hloop _ hn
    obtain ⟨hlocal, hlogs⟩ := next_cases hn i
    -- the loop is still going, so that no callback has succeeded
    have hfresh : c.ended = false → (i, .succeeded) ∉ p.store.callbacks := by
      intro hended hmem
      exact absurd (hended.symm.trans (hloop.2 hmem)) (by simp)
    refine ⟨?_, ⟨fun hsome => ?_, fun hmem => ?_⟩, fun j hj hloop => ?_⟩
    · obtain heq | ⟨cb, heq, -, hcalls⟩ | ⟨heq, hended, -⟩ := hlogs
      · rwa [heq]
      · rw [heq]
        refine hlog.cons (hfresh ?_) cb
        cases c <;> first | rfl | cases hcalls
      · rw [heq]
        exact hlog.cons (hfresh hended) _
    · rcases hlocal.isSome hsome with hsome | ⟨-, hc'⟩
      · exact hlocal.isLoop (hloop.1 hsome)
      · exact hc'
    · obtain heq | ⟨cb, heq, hstart, -⟩ | ⟨-, -, hc'⟩ := hlogs
      · rw [heq] at hmem
        exact ended_next hn (hloop.2 hmem)
      · rw [heq] at hmem
        rcases List.mem_cons.1 hmem with hmem | hmem
        · cases hmem
          cases hstart
        · exact ended_next hn (hloop.2 hmem)
      · exact hc'
    · have hlocal := (next_cases hn j).1
      refine ⟨fun hsome => hloop.1 ((hlocal.isSome hsome).resolve_right fun h => hj h.1),
        fun hmem => ?_⟩
      -- what is new in the log belongs to `i`
      have hold : (j, .succeeded) ∈ p.store.callbacks := by
        obtain heq | ⟨cb, heq, -⟩ | ⟨heq, -⟩ := hlogs <;> rw [heq] at hmem
        · exact hmem
        all_goals exact (List.mem_cons.1 hmem).resolve_left fun h => hj (congrArg Prod.fst h)
      exact hloop.2 hold

theorem loopAt_run (h : run (program o).step (Pool.idle {}) ms = some p) :
    SlotsInv (fun s => Concluded s.callbacks) LoopAt p := by
  refine run_inv_all (SlotsInv (fun s => Concluded s.callbacks) LoopAt) loopAt_step ?_ h
  refine ⟨List.Pairwise.nil, fun j => ⟨fun h => ?_, fun h => ?_⟩⟩ <;> cases h

/-! ### After the removal of a plugin -/

/-- Nothing more is delivered for the registration: its loop ends whatever comes, or it waits while
nothing is in the channels and nobody is about to send. -/
def quiet (o : ArchiveEventOptions) (p : Pool ArchiveDispatcher DeliveryCall) (r : ℕ) : Bool :=
  p.calls[r]?.any fun c =>
    c.finishes o || c.waits && !p.store.queued r && p.calls.all fun d => !d.holds r

theorem quiet_eq_true_iff : quiet o p r = true ↔ ∃ c, p.calls[r]? = some c ∧ (c.finishes o = true ∨
    c.waits = true ∧ ¬ p.store.queued r = true ∧ ∀ d ∈ p.calls, ¬ d.holds r = true) := by
  simp [quiet, any_eq_true, and_assoc]

theorem finishes_next (h : next o i s c e = some (s', c')) (hc : c.finishes o = true) :
    c'.finishes o = true := by
  cases c with
  | inCompleted op bound payload attempt =>
    obtain ⟨-, -, ⟨-, rfl⟩ | ⟨-, rfl | ⟨hne, rfl⟩⟩⟩ := endCompleted_cases h
    · rfl
    · rfl
    · exact absurd (of_decide_eq_true hc) hne
  | dropIf | wgDone =>
    cases h
    rfl
  | returned => cases h
  | _ => cases hc

theorem waits_next (h : next o r s c e = some (s', c')) (hc : c.waits = true)
    (hque : ¬ s.queued r = true) : c'.waits = true ∨ c'.finishes o = true := by
  cases c with
  | deliverLoop =>
    cases h
    exact .inl rfl
  | select op bound =>
    have hempty : ∀ reg, s.registrations r = some reg →
        reg.progressCh = none ∧ reg.completeCh = none := by
      intro reg hreg
      simpa [queued, hreg, ArchiveRegistration.queued] using hque
    obtain ⟨-, rfl⟩ | ⟨payload, hpayl, -, -⟩ | ⟨payload, hpayl, -, -⟩ := select_cases h
    · exact .inr rfl
    · obtain ⟨reg, hreg, hch⟩ := bind_eq_some_iff.1 hpayl
      rw [(hempty reg hreg).1] at hch
      cases hch
    · obtain ⟨reg, hreg, hch⟩ := bind_eq_some_iff.1 hpayl
      rw [(hempty reg hreg).2] at hch
      cases hch
  | inProgress op bound =>
    obtain ⟨-, -, -, rfl⟩ := endProgress_cases h
    exact .inl rfl
  | _ => cases hc

/-- The registration is out of the map, and quiet. -/
def Silent (o : ArchiveEventOptions) (r : ℕ) (p : Pool ArchiveDispatcher DeliveryCall) : Prop :=
  p.store.inMap r = false ∧ quiet o p r = true

theorem silent_spawn (hp : Silent o r p) (hstart : (program o).start p.store c = true) :
    Silent o r ⟨p.store, p.calls ++ [c]⟩ := by
  obtain ⟨hmap, hquiet⟩ := hp
  obtain ⟨d, hd, hplace⟩ := quiet_eq_true_iff.1 hquiet
  have hholds : ¬ c.holds r = true := by
    cases c <;> first | exact Bool.false_ne_true | cases hstart
  refine ⟨hmap, quiet_eq_true_iff.2 ⟨d, ?_, hplace.imp_right fun ⟨hwaits, hque, hall⟩ => ?_⟩⟩
  · exact (List.getElem?_append_left (List.getElem?_eq_some_iff.1 hd).1).trans hd
  · exact ⟨hwaits, hque, List.forall_mem_append.2 ⟨hall, List.forall_mem_singleton.2 hholds⟩⟩

theorem silent_advance (hp : Silent o r p) (hc : p.calls[i]? = some c)
    (hn : next o i p.store c e = some (s', c')) :
    Silent o r ⟨s', p.calls.set i c'⟩ ∧ s'.starts r = p.store.starts r := by
  obtain ⟨hmap, hquiet⟩ := hp
  obtain ⟨d, hd, hplace⟩ := quiet_eq_true_iff.1 hquiet
  have hlocal := (next_cases hn r).1
  have hsame : r = i → c = d := by
    rintro rfl
    exact some.inj (hc.symm.trans hd)
  obtain ⟨hloop, hcalls⟩ : d.isLoop = true ∧ d.calls = false := by
    rcases hplace with h | ⟨h, -⟩ <;> cases d <;> first | exact ⟨rfl, rfl⟩ | cases h
  have hout := Bool.eq_false_iff.1 hmap
  have hmap' : s'.inMap r = false := by
    rw [Bool.eq_false_iff]
    intro htrue
    obtain ⟨hr, hnot⟩ := (hlocal.inMap htrue).resolve_left hout
    rw [hsame hr, hloop] at hnot
    cases hnot
  refine ⟨⟨hmap', quiet_eq_true_iff.2 ?_⟩, starts_next hn fun hr => hsame hr ▸ hcalls⟩
  -- where the loop is after the step
  obtain ⟨d', hd', hplace'⟩ : ∃ d', (p.calls.set i c')[r]? = some d' ∧ (d'.finishes o = true ∨
      d'.waits = true ∧ ¬ p.store.queued r = true ∧ ∀ x ∈ p.calls, ¬ x.holds r = true) := by
    by_cases hr : r = i
    · subst hr
      obtain rfl := hsame rfl
      refine ⟨c', List.getElem?_set_self (List.getElem?_eq_some_iff.1 hc).1, ?_⟩
      rcases hplace with hfin | ⟨hwaits, hque, hall⟩
      · exact .inl (finishes_next hn hfin)
      · exact (waits_next hn hwaits hque).symm.imp_right fun h => ⟨h, hque, hall⟩
    · exact ⟨d, (List.getElem?_set_ne (Ne.symm hr)).trans hd, hplace⟩
  refine ⟨d', hd', hplace'.imp_right fun ⟨hwaits, hque, hall⟩ => ⟨hwaits, ?_, fun x hx => ?_⟩⟩
  · exact fun htrue => (hlocal.queued htrue).elim hque (hall c (List.mem_of_getElem? hc))
  · rcases List.mem_or_eq_of_mem_set hx with hx | rfl
    · exact hall x hx
    · exact fun htrue => (hlocal.holds htrue).elim (hall c (List.mem_of_getElem? hc)) hout

theorem silent_run (hp : Silent o r p)
    (h : run (program o).step p ms = some p') : p'.store.starts r = p.store.starts r := by
  refine (run_inv_all (fun q => Silent o r q ∧ q.store.starts r = p.store.starts r)
    (fun q m q' hq hstep => ?_) ⟨hp, rfl⟩ h).2
  obtain ⟨c, rfl, hstart, rfl⟩ | ⟨i, e, c, s', c', rfl, hc, hn, rfl⟩ := Program.step_cases hstep
  · exact ⟨silent_spawn hq.1 hstart, hq.2⟩
  · obtain ⟨hsilent, hstarts⟩ := silent_advance hq.1 hc hn
    exact ⟨hsilent, hstarts.trans hq.2⟩

/-! ### A loop that is not quiet -/

/-- Some continuation starts a callback for the registration. -/
def CanStart (o : ArchiveEventOptions) (r : ℕ) (p : Pool ArchiveDispatcher DeliveryCall) : Prop :=
  ∃ ms p', run (program o).step p ms = some p' ∧ p'.store.starts r ≠ p.store.starts r

theorem CanStart.advance (hc : p.calls[i]? = some c) (e : DeliveryChoice)
    (hn : next o i p.store c e = some (s', c')) (hstarts : r = i → c.calls = false)
    (h : CanStart o r ⟨s', p.calls.set i c'⟩) : CanStart o r p := by
  obtain ⟨ms, p', hrun, hne⟩ := h
  have hstep : (program o).step p (.advance i e) = some ⟨s', p.calls.set i c'⟩ := by
    simp [Program.step, program, hc, hn]
  refine ⟨.advance i e :: ms, p', ?_, ?_⟩
  · rw [run_cons, hstep, Option.bind_some, hrun]
  · rwa [starts_next hn hstarts] at hne

theorem CanStart.self (hc : p.calls[r]? = some c) (e : DeliveryChoice)
    (hn : next o r p.store c e = some (s', c')) (hcalls : c.calls = false)
    (h : ∀ q : Pool ArchiveDispatcher DeliveryCall, q.store = s' → q.calls[r]? = some c' →
      CanStart o r q) :
    CanStart o r p :=
  .advance hc e hn (fun _ => hcalls)
    (h _ rfl (List.getElem?_set_self (List.getElem?_eq_some_iff.1 hc).1))

theorem canStart_of_calls (hc : p.calls[r]? = some c) (hcalls : c.calls = true) : CanStart o r p := by
  have hlog : ∃ cb s' c', cb.isStart = true ∧ next o r p.store c .success = some (s', c') ∧
      s'.callbacks = (r, cb) :: p.store.callbacks := by
    cases c with
    | callProgress | callCompleted => exact ⟨_, _, _, rfl, rfl, rfl⟩
    | _ => cases hcalls
  obtain ⟨cb, s', c', hstart, hn, hcall⟩ := hlog
  refine ⟨[.advance r .success], ⟨s', p.calls.set r c'⟩, ?_, ?_⟩
  · simp [run, Program.step, program, hc, hn]
  · simp only [starts, hcall]
    rw [List.filter_cons_of_pos (by simp [hstart])]
    exact List.cons_ne_self _ _

theorem canStart_of_next (hc : p.calls[r]? = some c) (e : DeliveryChoice)
    (hn : next o r p.store c e = some (s', c')) (hcalls : c.calls = false) (hcalls' : c'.calls = true) :
    CanStart o r p :=
  .self hc e hn hcalls fun _ _ hq => canStart_of_calls hq hcalls'

theorem canStart_inCompleted (hc : p.calls[r]? = some (.inCompleted op bound payload attempt))
    (hmore : attempt + 1 ≠ o.attempts) : CanStart o r p := by
  have hn : next o r p.store (.inCompleted op bound payload attempt) .busy =
      some (p.store, .retry op bound payload attempt) := by
    simp [next, endCompleted, hmore]
  exact .self hc .busy hn rfl fun _ _ hq => canStart_of_next hq .timer rfl rfl rfl

/-- The `select` takes a payload that is there, whether or not the stop channel is closed. -/
theorem canStart_select (hc : p.calls[r]? = some (.select op bound))
    (hque : p.store.queued r = true) : CanStart o r p := by
  obtain ⟨reg, hreg, hch⟩ := (any_eq_true _ _).1 hque
  simp only [ArchiveRegistration.queued, Bool.or_eq_true, isSome_iff_exists] at hch
  rcases hch with ⟨payload, hpayl⟩ | ⟨payload, hpayl⟩
  · have hn : next o r p.store (.select op bound) .progressCh =
        some (p.store.modify r fun reg => { reg with progressCh := none },
          .deliverProgress op bound payload) := by
      simp [next, select, hreg, hpayl]
    exact .self hc .progressCh hn rfl fun _ _ hq => canStart_of_next hq .reachable rfl rfl rfl
  · have hn : next o r p.store (.select op bound) .completeCh =
        some (p.store.modify r fun reg => { reg with completeCh := none },
          .deliverComplete op payload) := by
      simp [next, select, hreg, hpayl]
    exact .self hc .completeCh hn rfl fun _ _ hq => canStart_of_next hq .reachable rfl rfl rfl

/-- A feeder that has found the registration sends a payload to the loop. -/
theorem canStart_holds (hc : p.calls[r]? = some (.select op bound))
    (hsome : (p.store.registrations r).isSome = true) (hi : p.calls[i]? = some c)
    (hholds : c.holds r = true) : CanStart o r p := by
  obtain ⟨reg, hreg⟩ := isSome_iff_exists.1 hsome
  by_cases hque : p.store.queued r = true
  · exact canStart_select hc hque
  have hne : i ≠ r := by
    rintro rfl
    rw [hc] at hi
    cases hi
    cases hholds
  -- the step that fills a channel
  have hfill : ∀ (q : Pool ArchiveDispatcher DeliveryCall) (d d' : DeliveryCall)
      (s' : ArchiveDispatcher),
      q.calls[r]? = some (.select op bound) → q.calls[i]? = some d →
      next o i q.store d .success = some (s', d') → s'.queued r = true → CanStart o r q := by
    intro q d d' s' hr hd hn hfull
    have hr' : (q.calls.set i d')[r]? = some (.select op bound) :=
      (List.getElem?_set_ne hne).trans hr
    exact .advance hd .success hn (fun h => absurd h.symm hne) (canStart_select hr' hfull)
  have hempty : reg.progressCh = none ∧ reg.completeCh = none := by
    simpa [queued, hreg, ArchiveRegistration.queued] using hque
  cases c with
  | sendProgress r' payload rounds =>
    obtain rfl : r' = r := by simpa [holds] using hholds
    refine hfill p _ .returned (p.store.modify r' fun reg => { reg with progressCh := some payload })
      hc hi ?_ ?_
    · simp [next, progressFull, hreg, hempty]
    · simp [queued, registrations_modify, hreg, ArchiveRegistration.queued]
  | sendComplete r' payload =>
    obtain rfl : r' = r := by simpa [holds] using hholds
    refine hfill p _ .returned (p.store.modify r' (trySendComplete payload)) hc hi rfl ?_
    simp [queued, registrations_modify, hreg, trySendComplete, hempty, ArchiveRegistration.queued]
  | evictProgress r' payload rounds =>
    obtain ⟨rfl, hrounds⟩ : r' = r ∧ rounds ≠ 0 := by simpa [holds] using hholds
    have hn : next o i p.store (.evictProgress r' payload rounds) .success =
        some (p.store.modify r' fun reg => { reg with progressCh := none },
          .sendProgress r' payload (rounds - 1)) := by
      simp [next, hrounds]
    refine .advance hi .success hn (fun h => absurd h.symm hne) ?_
    refine hfill _ (.sendProgress r' payload (rounds - 1)) .returned
      ((p.store.modify r' fun reg => { reg with progressCh := none }).modify r'
        fun reg => { reg with progressCh := some payload }) ?_ ?_ ?_ ?_
    · exact (List.getElem?_set_ne hne).trans hc
    · exact List.getElem?_set_self (List.getElem?_eq_some_iff.1 hi).1
    · simp [next, progressFull, registrations_modify, hreg]
    · simp [queued, registrations_modify, hreg, ArchiveRegistration.queued]
  | _ => cases hholds

theorem canStart_waits (hc : p.calls[r]? = some c) (hwaits : c.waits = true)
    (hsome : (p.store.registrations r).isSome = true)
    (hpayl : p.store.queued r = true ∨ ∃ d ∈ p.calls, d.holds r = true) : CanStart o r p := by
  have hselect : ∀ op bound, c.holds r = false →
      CanStart o r ⟨p.store, p.calls.set r (.select op bound)⟩ := by
    intro op bound hnot
    have hr : (p.calls.set r (.select op bound))[r]? = some (.select op bound) :=
      List.getElem?_set_self (List.getElem?_eq_some_iff.1 hc).1
    rcases hpayl with hque | ⟨d, hd, hholds⟩
    · exact canStart_select hr hque
    · obtain ⟨i, hi⟩ := List.mem_iff_getElem?.1 hd
      refine canStart_holds hr hsome ((List.getElem?_set_ne ?_).trans hi) hholds
      rintro rfl
      cases hc.symm.trans hi
      exact absurd (hnot.symm.trans hholds) Bool.false_ne_true
  cases c with
  | select op bound =>
    rcases hpayl with hque | ⟨d, hd, hholds⟩
    · exact canStart_select hc hque
    · obtain ⟨i, hi⟩ := List.mem_iff_getElem?.1 hd
      exact canStart_holds hc hsome hi hholds
  | deliverLoop op => exact .advance hc .success rfl (fun _ => rfl) (hselect op _ rfl)
  | inProgress op bound => exact .advance hc .success rfl (fun _ => rfl) (hselect op bound rfl)
  | _ => cases hwaits

theorem canStart_of_not_quiet (hc : p.calls[r]? = some c) (hloop : c.isLoop = true)
    (hsome : (p.store.registrations r).isSome = true) (hquiet : quiet o p r = false) :
    CanStart o r p := by
  have hnot : ¬(c.finishes o = true ∨
      c.waits = true ∧ ¬ p.store.queued r = true ∧ ∀ d ∈ p.calls, ¬ d.holds r = true) := by
    intro hplace
    exact absurd (hquiet.symm.trans (quiet_eq_true_iff.2 ⟨c, hc, hplace⟩)) (by simp)
  obtain ⟨hfin, hbusy⟩ := not_or.1 hnot
  have hpayl : c.waits = true →
      p.store.queued r = true ∨ ∃ d ∈ p.calls, d.holds r = true := by
    intro hwaits
    by_contra hnone
    exact hbusy ⟨hwaits, by simpa using hnone⟩
  cases c with
  | deliverLoop | select | inProgress => exact canStart_waits hc rfl hsome (hpayl rfl)
  | deliverProgress | deliverComplete => exact canStart_of_next hc .reachable rfl rfl rfl
  | callProgress | callCompleted => exact canStart_of_calls hc rfl
  | inCompleted => exact canStart_inCompleted hc fun h => hfin (decide_eq_true h)
  | retry => exact canStart_of_next hc .timer rfl rfl rfl
  | dropIf | wgDone | returned => exact absurd rfl hfin
  | _ => cases hloop

theorem queued_removePlugin (s : ArchiveDispatcher) (pluginID r : ℕ) :
    (s.removePlugin pluginID).queued r = s.queued r := by
  simp only [queued, removePlugin, stopWhere, any_map]
  congr 1
  funext reg
  split_ifs <;> rfl

theorem quiet_removePlugin (hi : p.calls[i]? = some (.removePlugin pluginID)) (hr : r ≠ i) :
    quiet o ⟨p.store.removePlugin pluginID, p.calls.set i .returned⟩ r = quiet o p r := by
  have hall : ((p.calls.set i .returned).all fun d => !d.holds r) =
      p.calls.all fun d => !d.holds r := by
    have hcount := countP_set_add hi .returned (holds r)
    simp only [holds, Bool.toNat_false, Nat.add_zero] at hcount
    rw [Bool.eq_iff_iff]
    simp only [List.all_eq_true, Bool.not_eq_true', ← Bool.not_eq_true]
    rw [← List.countP_eq_zero, ← List.countP_eq_zero, hcount]
  simp only [quiet, queued_removePlugin, hall, List.getElem?_set_ne (Ne.symm hr)]

/-- Nothing follows the successful completion callback of a registration.  After `RemovePlugin` no
callback of an earlier registration is started exactly if it was quiet when the plugin was
removed. -/
theorem deliveries_iff (o : ArchiveEventOptions) (ms : List (Move DeliveryCall DeliveryChoice))
    {p : Pool ArchiveDispatcher DeliveryCall}
    (h : run (program o).step (Pool.idle {}) ms = some p) :
    Concluded p.store.callbacks ∧
    ∀ i pluginID e p', p.calls[i]? = some (.removePlugin pluginID) →
      (program o).step p (.advance i e) = some p' →
      ∀ r reg, p.store.registrations r = some reg → reg.pluginID = pluginID →
        ((∀ ms' p'', run (program o).step p' ms' = some p'' →
          p''.store.starts r = p'.store.starts r) ↔ quiet o p r = true) := by
  obtain ⟨hlog, hslot⟩ := loopAt_run h
  refine ⟨hlog, fun i pluginID e p' hi hstep r reg hreg hplug => ?_⟩
  obtain ⟨c, s', c', hc, hn, rfl⟩ := Program.step_advance hstep
  obtain rfl : DeliveryCall.removePlugin pluginID = c := some.inj (hi.symm.trans hc)
  cases hn
  have hsome : (p.store.registrations r).isSome = true := by rw [hreg]; rfl
  obtain ⟨d, hd, hloop⟩ := (any_eq_true _ _).1 ((hslot r).1 hsome)
  have hr : r ≠ i := by
    rintro rfl
    rw [hi] at hd
    cases hd
    cases hloop
  rw [← quiet_removePlugin hi hr]
  constructor
  · intro hnone
    by_contra hquiet
    obtain ⟨ms', p'', hrun, hne⟩ := canStart_of_not_quiet (o := o)
      (p := ⟨p.store.removePlugin pluginID, p.calls.set i .returned⟩)
      ((List.getElem?_set_ne (Ne.symm hr)).trans hd) hloop
      (by simpa [removePlugin, stopWhere] using hsome) (Bool.eq_false_iff.2 hquiet)
    exact hne (hnone ms' p'' hrun)
  · intro hquiet ms' p'' hrun
    refine silent_run ⟨?_, hquiet⟩ hrun
    -- the registration is of the plugin, so it is no longer in the map
    rw [Bool.eq_false_iff]
    intro hmap
    have hany := (inMap_removePlugin hmap).2
    simp [hreg, hplug] at hany

/-- Plugin 7 registers, and is removed while its loop waits and nothing has come. -/
theorem deliveries_iff_waiting :
    ∃ p p', run (program {}).step (Pool.idle {}) [.spawn (.register 7 "op" 1 true),
        .advance 0 .success, .advance 0 .success, .spawn (.removePlugin 7)] = some p ∧
      (program {}).step p (.advance 1 .success) = some p' ∧
      ∀ ms' p'', run (program {}).step p' ms' = some p'' → p''.store.starts 0 = [] := by
  refine ⟨_, _, rfl, rfl, ?_⟩
  exact ((deliveries_iff {} [.spawn (.register 7 "op" 1 true), .advance 0 .success,
    .advance 0 .success, .spawn (.removePlugin 7)] rfl).2 1 7 .success _ rfl rfl 0 _ rfl rfl).2
    (by decide)

/-- The payload of a progress message. -/
def someProgress : ArchiveProgressEvent := ⟨"op", 1, 0, "create", 1, 2, 10, 20, "a.txt"⟩

/-- A progress event is in the channel when the plugin is removed.  `RemovePlugin` has returned, and
then the `select` takes the event and the plugin is called. -/
theorem callback_after_removal :
    ∃ p p', run (program {}).step (Pool.idle {}) [.spawn (.register 7 "op" 1 true),
        .advance 0 .success, .advance 0 .success, .spawn (.onProgress someProgress),
        .advance 1 .success, .advance 1 .success, .spawn (.removePlugin 7),
        .advance 2 .success] = some p ∧
      p.calls[2]? = some .returned ∧ p.store.isStopped 0 = true ∧ p.store.starts 0 = [] ∧
      run (program {}).step p [.advance 0 .progressCh, .advance 0 .reachable, .advance 0 .success] =
        some p' ∧ p'.store.starts 0 = [(0, .progress someProgress.request)] :=
  ⟨_, _, rfl, rfl, rfl, rfl, rfl, rfl⟩

end ArchiveDispatcher

end GameAP
