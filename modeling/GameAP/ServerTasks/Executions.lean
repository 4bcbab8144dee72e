import GameAP.Lib.Runs
import GameAP.Repositories.ServerTaskExecutions

/-!
# Executions of server tasks

`servertaskdispatcher.Dispatcher`: the daemon reports the start, the output and the end of each
execution, and on reconnect the executions that are still in flight.  The end of an execution is
acknowledged, and the daemon then forgets its result.

Messages may come in any order, more than once, or not at all.  An end that comes before the start
finds no row and is acknowledged without being stored (`acked_without_row`).  If an end finds its
row and reports a status in which executions end (`Recorded`), then what is acknowledged is stored,
and the row is never running again (`acked_persists`).
-/

namespace GameAP

open Runs Option

/-- `proto.ServerTaskExecutionStatus`. -/
inductive ProtoExecutionStatus
  | running
  | success
  | failed
  | canceled
  | skipped
  | timedOut
  | other (n : ℤ)
  deriving DecidableEq

def protoServerTaskExecutionStatusToDomain : ProtoExecutionStatus → ExecutionStatus
  | .running => .running
  | .success => .success
  | .failed => .failed
  | .canceled => .canceled
  | .skipped => .skipped
  | .timedOut => .timedOut
  | .other _ => .unknown

/-- `proto.ServerTaskCommand`. -/
inductive ProtoServerTaskCommand
  | start
  | stop
  | restart
  | update
  | reinstall
  | other (n : ℤ)
  deriving DecidableEq

def protoServerTaskCommandToDomain : ProtoServerTaskCommand → ServerTaskCommand
  | .start => .start
  | .stop => .stop
  | .restart => .restart
  | .update => .update
  | .reinstall => .reinstall
  | .other _ => .unknown

/-- `proto.ServerTaskExecutionStarted`. -/
structure ExecutionStarted where
  executionID : String
  taskID : ℕ
  taskVersion : ℕ := 0
  serverID : ℕ
  nodeID : ℕ
  command : ProtoServerTaskCommand
  startedAt : Option Time := none
  deriving DecidableEq

/-- `proto.ServerTaskExecutionFinished`; the duration is in nanoseconds. -/
structure ExecutionFinished where
  executionID : String
  taskID : ℕ
  status : ProtoExecutionStatus
  exitCode : ℤ := 0
  errorMessage : String := ""
  finishedAt : Option Time := none
  duration : Option ℤ := none
  outputInline : Bytes := []
  outputStreamed : Bool := false
  outputStoragePath : String := ""
  deriving DecidableEq

/-- `proto.ServerTaskExecutionLog`. -/
structure ExecutionLog where
  executionID : String
  sequence : ℕ := 0
  chunk : Bytes
  isFinal : Bool := false
  deriving DecidableEq

/-- The errors that the handlers return. -/
inductive ExecutionError
  | parseExecutionID
  | persistStarted
  | persistFinish
  | markAbandoned
  deriving DecidableEq

def outputInlineMaxBytes : ℕ := 64 * 1024

def runeStart (b : UInt8) : Bool := b &&& 0xC0 ≠ 0x80

def truncateTail (s : Bytes) (maxBytes : ℕ) : Bytes :=
  if maxBytes = 0 ∨ s.length ≤ maxBytes then s
  else (s.drop (s.length - maxBytes)).dropWhile fun b => !runeStart b

/-- The patch that `HandleExecutionFinished` builds. -/
def finishPatch (now : Time) (evt : ExecutionFinished) : FinishPatch where
  status := protoServerTaskExecutionStatusToDomain evt.status
  finishedAt := evt.finishedAt.getD now
  exitCode := if evt.exitCode ≠ 0 ∨ evt.status = .success then some evt.exitCode else none
  errorMessage := if evt.errorMessage ≠ "" then some evt.errorMessage else none
  durationMS := evt.duration.map (·.tdiv 1000000)
  outputInline := if evt.outputInline ≠ [] then
    some (truncateTail evt.outputInline outputInlineMaxBytes) else none
  outputStoragePath := if evt.outputStreamed ∧ evt.outputStoragePath ≠ "" then
    some evt.outputStoragePath else none

/-- The row that `HandleExecutionStarted` asks for. -/
def startedExecution (now : Time) (id : XID) (evt : ExecutionStarted) : ServerTaskExecution where
  executionID := id
  serverTaskID := evt.taskID
  serverID := evt.serverID
  nodeID := evt.nodeID
  command := protoServerTaskCommandToDomain evt.command
  taskVersion := evt.taskVersion
  status := .running
  startedAt := evt.startedAt.getD now

/-- The repository and the acknowledgements sent so far, each with the node it was sent to. -/
structure ExecutionWorld where
  execs : ServerTaskExecutionRepository
  acks : List (ℕ × String) := []

namespace ExecutionWorld

def new : ExecutionWorld := { execs := .new }

variable [XIDReader] (w : ExecutionWorld)

/-- The row of an execution. -/
def row (id : XID) : Option ServerTaskExecution := w.execs.row id

def handleExecutionStarted (e : Env) (evt : ExecutionStarted) :
    ExecutionWorld × Except ExecutionError Unit :=
  match xidFromString evt.executionID with
  | none => (w, .error .parseExecutionID)
  | some id =>
    if e.ok then
      ({ w with execs := w.execs.create e.now (startedExecution e.now id evt) }, .ok ())
    else (w, .error .persistStarted)

def handleExecutionFinished (e : Env) (nodeID : ℕ) (evt : ExecutionFinished) :
    ExecutionWorld × Except ExecutionError Unit :=
  match xidFromString evt.executionID with
  | none => (w, .error .parseExecutionID)
  | some id =>
    if e.ok then
      ({ execs := w.execs.updateFinish e.now id (finishPatch e.now evt)
         acks := w.acks ++ [(nodeID, evt.executionID)] }, .ok ())
    else (w, .error .persistFinish)

/-- A failed append is only logged. -/
def handleExecutionLog (e : Env) (evt : ExecutionLog) :
    ExecutionWorld × Except ExecutionError Unit :=
  if evt.chunk = [] ∧ evt.isFinal = false then (w, .ok ())
  else
    match xidFromString evt.executionID with
    | none => (w, .error .parseExecutionID)
    | some id =>
      (if e.ok then
          { w with execs := w.execs.appendOutputInline e.now id evt.chunk outputInlineMaxBytes }
        else w, .ok ())

/-- A malformed id is skipped. -/
def reconcileWorkingExecutions (e : Env) (nodeID : ℕ) (inFlightExecIDs : List String)
    (reason : String) : ExecutionWorld × Except ExecutionError ℕ :=
  let reason := if reason = "" then "daemon_restart" else reason
  if e.ok then
    let r := w.execs.markAbandoned e.now nodeID (inFlightExecIDs.filterMap xidFromString) reason
    ({ w with execs := r.1 }, .ok r.2)
  else (w, .error .markAbandoned)

end ExecutionWorld

/-- What reaches the dispatcher, with the clock and the outcome of the repository. -/
inductive ExecutionMessage
  | started (e : Env) (evt : ExecutionStarted)
  | finished (e : Env) (nodeID : ℕ) (evt : ExecutionFinished)
  | log (e : Env) (evt : ExecutionLog)
  | reconcile (e : Env) (nodeID : ℕ) (inFlightExecIDs : List String) (reason : String)

namespace ExecutionWorld

section

variable [XIDReader]

def step (w : ExecutionWorld) : ExecutionMessage → Option ExecutionWorld
  | .started e evt => some (w.handleExecutionStarted e evt).1
  | .finished e nodeID evt => some (w.handleExecutionFinished e nodeID evt).1
  | .log e evt => some (w.handleExecutionLog e evt).1
  | .reconcile e nodeID ids reason => some (w.reconcileWorkingExecutions e nodeID ids reason).1

def reported (evt : ExecutionFinished) : ExecutionStatus :=
  protoServerTaskExecutionStatusToDomain evt.status

/-- When the end of an execution is written, there is a row to write it to, and the reported status
is one in which executions end. -/
def Recorded (w : ExecutionWorld) : ExecutionMessage → Prop
  | .finished e _ evt => e.ok = true → ∀ id ∈ xidFromString evt.executionID,
      (w.row id).isSome = true ∧ (reported evt).isTerminal = true
  | _ => True

instance (w : ExecutionWorld) : (m : ExecutionMessage) → Decidable (w.Recorded m)
  | .finished e _ _ => inferInstanceAs (Decidable (e.ok = true → ∀ _ ∈ _, _))
  | .started _ _ | .log _ _ | .reconcile _ _ _ _ => .isTrue trivial

/-- The execution is stored and not running. -/
def Ended (id : XID) (w : ExecutionWorld) : Prop :=
  ∃ exec, w.row id = some exec ∧ exec.status ≠ .running

/-! ### What one message does -/

variable {w w' : ExecutionWorld} {id : XID}

omit [XIDReader] in
theorem isTerminal_ne_running {s : ExecutionStatus} (h : s.isTerminal = true) : s ≠ .running := by
  rintro rfl
  cases h

theorem Ended.started (h : w.Ended id) (e : Env) (evt : ExecutionStarted) :
    (w.handleExecutionStarted e evt).1.Ended id := by
  obtain ⟨exec, hexec, hstat⟩ := h
  unfold handleExecutionStarted
  cases hid : xidFromString evt.executionID with
  | none => exact ⟨exec, hexec, hstat⟩
  | some k =>
    split_ifs with hok
    · refine ⟨exec, ?_, hstat⟩
      refine (w.execs.row_create _ _ id).trans ?_
      rw [if_neg]
      · exact hexec
      · rintro ⟨-, hnone⟩
        rw [row, hnone] at hexec
        cases hexec
    · exact ⟨exec, hexec, hstat⟩

variable {e : Env} {nodeID : ℕ} {evt : ExecutionFinished} {k : XID}

theorem row_finished (hok : e.ok = true) (hk : xidFromString evt.executionID = some k) (j : XID) :
    (w.handleExecutionFinished e nodeID evt).1.row j =
      if j = k then (w.row k).map (·.finish e.now (finishPatch e.now evt)) else w.row j := by
  simp only [handleExecutionFinished, hk, hok, if_true]
  exact w.execs.row_updateFinish _ _ _ j

theorem finished_cases (w : ExecutionWorld) (e : Env) (nodeID : ℕ) (evt : ExecutionFinished) :
    (∃ k, xidFromString evt.executionID = some k ∧ e.ok = true) ∨
      (w.handleExecutionFinished e nodeID evt).1 = w := by
  unfold handleExecutionFinished
  cases hid : xidFromString evt.executionID with
  | none => exact .inr rfl
  | some k =>
    by_cases hok : e.ok = true
    · exact .inl ⟨k, rfl, hok⟩
    · refine .inr ?_
      dsimp only
      rw [if_neg hok]

/-- The end of an execution that is recorded leaves no execution running that had ended. -/
theorem Ended.finished (h : w.Ended id) (hG : w.Recorded (.finished e nodeID evt)) :
    (w.handleExecutionFinished e nodeID evt).1.Ended id := by
  rcases finished_cases w e nodeID evt with ⟨k, hk, hok⟩ | hsame
  · by_cases hid : id = k
    · subst hid
      obtain ⟨exec, hexec, -⟩ := h
      refine ⟨exec.finish e.now (finishPatch e.now evt), ?_, ?_⟩
      · rw [row_finished hok hk, if_pos rfl, hexec, map_some]
      · exact isTerminal_ne_running (hG hok id hk).2
    · obtain ⟨exec, hexec, hstat⟩ := h
      refine ⟨exec, ?_, hstat⟩
      rw [row_finished hok hk, if_neg hid, hexec]
  · rw [hsame]
    exact h

theorem Ended.log (h : w.Ended id) (e : Env) (evt : ExecutionLog) :
    (w.handleExecutionLog e evt).1.Ended id := by
  unfold handleExecutionLog
  by_cases hempty : evt.chunk = [] ∧ evt.isFinal = false
  · rw [if_pos hempty]
    exact h
  · rw [if_neg hempty]
    cases hid : xidFromString evt.executionID with
    | none => exact h
    | some k =>
      split_ifs
      · obtain ⟨exec, hexec, hstat⟩ := h
        have hsame := w.execs.status_appendOutputInline e.now k evt.chunk outputInlineMaxBytes id
        rw [show w.execs.row id = some exec from hexec, map_some] at hsame
        obtain ⟨exec', hexec', heq⟩ := map_eq_some_iff.1 hsame
        exact ⟨exec', hexec', heq ▸ hstat⟩
      · exact h

theorem Ended.reconcile (h : w.Ended id) (e : Env) (nodeID : ℕ) (ids : List String)
    (reason : String) : (w.reconcileWorkingExecutions e nodeID ids reason).1.Ended id := by
  unfold reconcileWorkingExecutions
  by_cases hok : e.ok = true
  · obtain ⟨exec, hexec, hstat⟩ := h
    have hkept (keep : List XID) :
        ServerTaskExecutionRepository.isAbandoned nodeID keep exec = false := by
      simp [ServerTaskExecutionRepository.isAbandoned, hstat]
    rw [if_pos hok]
    refine ⟨exec, ?_, hstat⟩
    refine (Tables.Table.get_mapValues w.execs.execs _ id).trans ?_
    rw [show w.execs.execs.get id = some exec from hexec, map_some, hkept]
    rfl
  · rw [if_neg hok]
    exact h

theorem ended_step (id : XID) (w : ExecutionWorld) (m : ExecutionMessage) (w' : ExecutionWorld)
    (h : w.Ended id) (hG : w.Recorded m) (hstep : w.step m = some w') : w'.Ended id := by
  cases m with
  | started e evt =>
    cases hstep
    exact h.started e evt
  | finished e nodeID evt =>
    cases hstep
    exact h.finished hG
  | log e evt =>
    cases hstep
    exact h.log e evt
  | reconcile e nodeID ids reason =>
    cases hstep
    exact h.reconcile e nodeID ids reason

/-! ### Acknowledged results -/

/-- The daemon may forget the result that it reported. -/
def Acknowledges (w w' : ExecutionWorld) (nodeID : ℕ) (evt : ExecutionFinished) : Prop :=
  w'.acks = w.acks ++ [(nodeID, evt.executionID)]

instance (nodeID : ℕ) (evt : ExecutionFinished) : Decidable (Acknowledges w w' nodeID evt) :=
  inferInstanceAs (Decidable (_ = _))

/-- The row of an acknowledged message holds the reported end exactly when the message was
recorded. -/
theorem stored_iff_recorded (hk : xidFromString evt.executionID = some k) (hok : e.ok = true) :
    (∃ exec, (w.handleExecutionFinished e nodeID evt).1.row k = some exec ∧
        exec.status = reported evt ∧ exec.status.isTerminal = true) ↔
      w.Recorded (.finished e nodeID evt) := by
  rw [row_finished hok hk, if_pos rfl]
  constructor
  · rintro ⟨exec, hexec, hstat, hterm⟩ - j hj
    obtain rfl : k = j := some.inj (hk.symm.trans hj)
    obtain ⟨old, hold, -⟩ := map_eq_some_iff.1 hexec
    exact ⟨by rw [hold]; rfl, hstat ▸ hterm⟩
  · intro hG
    obtain ⟨hrow, hterm⟩ := hG hok k hk
    obtain ⟨old, hold⟩ := isSome_iff_exists.1 hrow
    exact ⟨old.finish e.now (finishPatch e.now evt), by rw [hold, map_some], rfl, hterm⟩

/-- **An acknowledged result is stored and stays**, whatever comes later, if every written end finds
its row and reports a terminal status. -/
theorem acked_persists {w₀ w₁ w₂ w₃ : ExecutionWorld} {as bs : List ExecutionMessage} {e : Env}
    {nodeID : ℕ} {evt : ExecutionFinished}
    (hG : Along step Recorded w₀ (as ++ .finished e nodeID evt :: bs))
    (h₁ : run step w₀ as = some w₁) (h₂ : w₁.step (.finished e nodeID evt) = some w₂)
    (hack : Acknowledges w₁ w₂ nodeID evt) (h₃ : run step w₂ bs = some w₃) :
    ∃ id, xidFromString evt.executionID = some id ∧
      (∃ exec, w₂.row id = some exec ∧ exec.status = reported evt ∧ exec.status.isTerminal = true) ∧
      ∃ exec, w₃.row id = some exec ∧ exec.status ≠ .running := by
  obtain ⟨-, hrest⟩ := (along_append h₁).1 hG
  obtain ⟨hfin, hbs⟩ := (along_cons_of_step h₂).1 hrest
  cases h₂
  obtain ⟨id, hid, hok⟩ := (finished_cases ..).resolve_right fun hsame => by
    rw [hsame] at hack
    simpa using congrArg List.length hack
  obtain ⟨exec, hexec, hstat, hterm⟩ := (stored_iff_recorded hid hok).2 hfin
  refine ⟨id, hid, ⟨exec, hexec, hstat, hterm⟩, ?_⟩
  exact run_inv (Ended id) (ended_step id) ⟨exec, hexec, isTerminal_ne_running hterm⟩ hbs h₃

end

/-- The value of a digit of base 32. -/
def xidDigit (c : Char) : Option ℕ :=
  if '0' ≤ c ∧ c ≤ '9' then some (c.toNat - '0'.toNat)
  else if 'a' ≤ c ∧ c ≤ 'v' then some (c.toNat - 'a'.toNat + 10)
  else none

/-- Twenty digits, of which the last one carries a single bit. -/
instance : XIDReader where
  xidFromString s :=
    if s.toList.length ≠ 20 then none
    else
      (s.toList.foldl (fun acc c => acc.bind fun n => (xidDigit c).map (n * 32 + ·)) (some 0)).bind
        fun n => if n % 16 = 0 then some (n / 16) else none

def sampleStarted : ExecutionStarted where
  executionID := "9m4e2mr0ui3e8a215n4g"
  taskID := 3
  serverID := 5
  nodeID := 2
  command := .restart

def sampleFinished : ExecutionFinished where
  executionID := "9m4e2mr0ui3e8a215n4g"
  taskID := 3
  status := .success

/-- Started, finished, started again, and the daemon reconnects without it. -/
theorem acked_persists_after_restart : ∃ w₂ w₃ id,
      run step new [.started ⟨1, true⟩ sampleStarted, .finished ⟨2, true⟩ 2 sampleFinished] =
        some w₂ ∧
      run step w₂ [.started ⟨3, true⟩ sampleStarted, .reconcile ⟨4, true⟩ 2 [] ""] = some w₃ ∧
      (∃ exec, w₂.row id = some exec ∧ exec.status = .success) ∧
      ∃ exec, w₃.row id = some exec ∧ exec.status ≠ .running := by
  have hG : Along step Recorded new
      ([.started ⟨1, true⟩ sampleStarted] ++ .finished ⟨2, true⟩ 2 sampleFinished ::
        [.started ⟨3, true⟩ sampleStarted, .reconcile ⟨4, true⟩ 2 [] ""]) := by decide
  obtain ⟨id, -, ⟨exec, hexec, hstat, -⟩, hlater⟩ := acked_persists hG rfl rfl (by decide) rfl
  exact ⟨_, _, id, rfl, rfl, ⟨exec, hexec, hstat⟩, hlater⟩

/-- The end overtakes the start: it is acknowledged although nothing is stored, and the start then
stores an execution that is running. -/
theorem acked_without_row : ∃ w₁ w₂ id,
      run step new [.finished ⟨1, true⟩ 2 sampleFinished] = some w₁ ∧
      run step w₁ [.started ⟨2, true⟩ sampleStarted] = some w₂ ∧
      xidFromString sampleFinished.executionID = some id ∧
      Acknowledges new w₁ 2 sampleFinished ∧
      w₁.row id = none ∧ (w₂.row id).map ServerTaskExecution.status = some .running :=
  ⟨_, _, _, rfl, rfl, rfl, by decide, by decide, by decide⟩

end ExecutionWorld

end GameAP
