import GameAP.Domain
import GameAP.Lib.Tables

/-!
# The in-memory repository of server task executions

`inmemory.ServerTaskExecutionRepository`: one row for each execution of a scheduled server task, by
execution id.  The three operations that write rows treat a missing or an existing row differently:
`Create` leaves an existing row as it is, `UpdateFinish` does nothing without a row and otherwise
writes whatever status it is given, and `MarkAbandoned` touches running rows only.
-/

namespace GameAP

open Tables

/-- `xid.ID`, as a number of 96 bits. -/
abbrev XID := ℕ

/-- `xid.FromString`, which reads the text of an id; nothing else is assumed of it. -/
class XIDReader where
  xidFromString : String → Option XID

export XIDReader (xidFromString)

/-- `domain.ServerTaskExecutionStatus`; `unknown` is the empty string. -/
inductive ExecutionStatus
  | running
  | success
  | failed
  | canceled
  | skipped
  | timedOut
  | unknown
  deriving DecidableEq

/-- The statuses in which an execution ends. -/
def ExecutionStatus.isTerminal : ExecutionStatus → Bool
  | .success | .failed | .canceled | .skipped | .timedOut => true
  | .running | .unknown => false

/-- `unknown` is the empty string. -/
inductive ServerTaskCommand
  | start
  | stop
  | restart
  | update
  | reinstall
  | unknown
  deriving DecidableEq

structure ServerTaskExecution where
  id : ℕ := 0
  executionID : XID
  serverTaskID : ℕ
  serverID : ℕ
  nodeID : ℕ
  command : ServerTaskCommand
  taskVersion : ℕ
  status : ExecutionStatus
  exitCode : Option ℤ := none
  errorMessage : Option String := none
  startedAt : Time
  finishedAt : Option Time := none
  durationMS : Option ℤ := none
  outputInline : Option Bytes := none
  outputStoragePath : Option String := none
  createdAt : Time := 0
  updatedAt : Time := 0
  deriving DecidableEq

/-- `repositories.ServerTaskExecutionFinishPatch`. -/
structure FinishPatch where
  status : ExecutionStatus
  exitCode : Option ℤ := none
  errorMessage : Option String := none
  finishedAt : Time
  durationMS : Option ℤ := none
  outputInline : Option Bytes := none
  outputStoragePath : Option String := none
  deriving DecidableEq

/-- The rows by execution id. -/
structure ServerTaskExecutionRepository where
  execs : Table XID ServerTaskExecution
  nextID : ℕ

namespace ServerTaskExecutionRepository

def new : ServerTaskExecutionRepository := ⟨∅, 0⟩

variable (r : ServerTaskExecutionRepository)

/-- The row of an id. -/
def row (id : XID) : Option ServerTaskExecution := r.execs.get id

/-- `nextID.Add(1)` on a `uint32` counter. -/
def freshID : ℕ := (r.nextID + 1) % 2 ^ 32

/-- The row that `Create` stores. -/
def initial (now : Time) (exec : ServerTaskExecution) : ServerTaskExecution :=
  { exec with
    createdAt := if exec.createdAt = 0 then now else exec.createdAt
    updatedAt := if exec.updatedAt = 0 then now else exec.updatedAt
    status := if exec.status = .unknown then .running else exec.status
    id := r.freshID }

def create (now : Time) (exec : ServerTaskExecution) : ServerTaskExecutionRepository :=
  match r.execs.get exec.executionID with
  | some _ => r
  | none => ⟨r.execs.put exec.executionID (r.initial now exec), r.freshID⟩

end ServerTaskExecutionRepository

/-- The patch on a row: a field that the patch does not set keeps its value. -/
def ServerTaskExecution.finish (now : Time) (exec : ServerTaskExecution) (patch : FinishPatch) :
    ServerTaskExecution :=
  let finishedAt := if patch.finishedAt = 0 then now else patch.finishedAt
  { exec with
    status := patch.status
    exitCode := patch.exitCode.or exec.exitCode
    errorMessage := patch.errorMessage.or exec.errorMessage
    finishedAt := some finishedAt
    durationMS := patch.durationMS.or exec.durationMS
    outputInline := patch.outputInline.or exec.outputInline
    outputStoragePath := patch.outputStoragePath.or exec.outputStoragePath
    updatedAt := finishedAt }

/-- An execution that the daemon no longer knows. -/
def ServerTaskExecution.abandon (now : Time) (reason : String) (exec : ServerTaskExecution) :
    ServerTaskExecution :=
  { exec with
    status := .failed
    errorMessage := some reason
    finishedAt := some now
    updatedAt := now }

namespace ServerTaskExecutionRepository

variable (r : ServerTaskExecutionRepository) (now : Time) (id : XID)

def updateFinish (now : Time) (id : XID) (patch : FinishPatch) : ServerTaskExecutionRepository :=
  match r.execs.get id with
  | none => r
  | some exec => { r with execs := r.execs.put id (exec.finish now patch) }

/-- The front is cut off byte by byte. -/
def appendOutputInline (now : Time) (id : XID) (chunk : Bytes) (maxBytes : ℕ) :
    ServerTaskExecutionRepository :=
  if chunk = [] then r
  else
    match r.execs.get id with
    | none => r
    | some exec =>
      let combined := exec.outputInline.getD [] ++ chunk
      let kept := if 0 < maxBytes ∧ maxBytes < combined.length then
        combined.drop (combined.length - maxBytes) else combined
      { r with execs := r.execs.put id { exec with outputInline := some kept, updatedAt := now } }

/-- The rows that `MarkAbandoned` changes. -/
def isAbandoned (nodeID : ℕ) (keep : List XID) (exec : ServerTaskExecution) : Bool :=
  exec.nodeID = nodeID ∧ exec.status = .running ∧ exec.executionID ∉ keep

/-- `MarkAbandoned`, with the number of rows it changed. -/
def markAbandoned (now : Time) (nodeID : ℕ) (keep : List XID) (reason : String) :
    ServerTaskExecutionRepository × ℕ :=
  ({ r with execs := r.execs.mapValues fun _ exec =>
      if isAbandoned nodeID keep exec then exec.abandon now reason else exec },
    (r.execs.entries.filter fun e => isAbandoned nodeID keep e.2).length)

/-! ### Rows after an operation -/

theorem row_create (exec : ServerTaskExecution) (k : XID) : (r.create now exec).row k =
      if k = exec.executionID ∧ r.row k = none then some (r.initial now exec) else r.row k := by
  unfold create row
  cases hrow : r.execs.get exec.executionID with
  | some old =>
    rw [if_neg]
    rintro ⟨rfl, hnone⟩
    rw [hrow] at hnone
    cases hnone
  | none =>
    rw [Table.get_put]
    by_cases hk : k = exec.executionID
    · subst hk
      rw [if_pos rfl, if_pos ⟨rfl, hrow⟩]
    · rw [if_neg hk, if_neg fun h => hk h.1]

theorem row_updateFinish (patch : FinishPatch) (k : XID) :
    (r.updateFinish now id patch).row k =
      if k = id then (r.row id).map (·.finish now patch) else r.row k := by
  unfold updateFinish row
  cases hrow : r.execs.get id with
  | none =>
    split_ifs with hk
    · subst hk
      exact hrow
    · rfl
  | some exec => exact Table.get_put r.execs id k _

theorem status_appendOutputInline (chunk : Bytes) (maxBytes : ℕ) (k : XID) :
    ((r.appendOutputInline now id chunk maxBytes).row k).map ServerTaskExecution.status =
      (r.row k).map ServerTaskExecution.status := by
  unfold appendOutputInline row
  split_ifs
  · rfl
  · cases hrow : r.execs.get id with
    | none => rfl
    | some exec =>
      simp only [Table.get_put]
      by_cases hk : k = id
      · subst hk
        rw [if_pos rfl, hrow]
        rfl
      · rw [if_neg hk]

end ServerTaskExecutionRepository

end GameAP
