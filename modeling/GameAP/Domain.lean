import Mathlib.Algebra.Ring.Nat
import Mathlib.Tactic.Common

/-!
# The panel's domain types

Daemon tasks, game servers, nodes and the wire values that the daemon reports.  An identifier
(`uint` or `uint64` in the source) is a natural number, a nullable column (`*uint`, `*string`,
`*time.Time`) is an `Option`, and an instant counts nanoseconds after Go's zero time, so `0` is
`time.Time{}`.
-/

namespace GameAP

/-- An instant; `0` is the zero time. -/
abbrev Time := ℕ

def nanosPerMilli : ℕ := 1000000

/-- The Unix epoch. -/
def unixEpoch : Time := 62135596800 * 1000000000

/-- `UnixMilli`, which is negative before the epoch. -/
def Time.unixMilli (t : Time) : ℤ := (t - unixEpoch : ℤ) / nanosPerMilli

/-- `time.UnixMilli`; there is nothing before the zero time. -/
def Time.ofUnixMilli (ms : ℤ) : Time := (unixEpoch + ms * nanosPerMilli).toNat

/-- What the environment chooses at a step of an operation: the time, and whether the repository,
the stream or the storage that it uses succeeds. -/
structure Env where
  now : Time
  ok : Bool := true
  deriving DecidableEq

/-- The content of a file. -/
abbrev Bytes := List UInt8

abbrev UUID := Vector UInt8 16

/-- `unicode.ToLower`, as far as it leads to ASCII: two letters outside ASCII become `k` and `i`. -/
def lowerRune (c : Char) : Char :=
  if c = '\u212A' then 'k' else if c = '\u0130' then 'i' else c.toLower

inductive DaemonTaskStatus
  | waiting
  | working
  | error
  | success
  | canceled
  deriving DecidableEq

inductive DaemonTaskType
  | serverStart
  | serverStop
  | serverRestart
  | serverUpdate
  | serverInstall
  | serverDelete
  | serverMove
  | cmdExec
  deriving DecidableEq

/-- A row of the task table. -/
structure DaemonTask where
  id : ℕ
  runAftID : Option ℕ := none
  createdAt : Option Time := none
  updatedAt : Option Time := none
  dedicatedServerID : ℕ
  serverID : Option ℕ := none
  task : DaemonTaskType
  data : Option String := none
  cmd : Option String := none
  output : Option String := none
  status : DaemonTaskStatus
  deriving DecidableEq

namespace DaemonTask

section

variable (t : DaemonTask) (s : DaemonTaskStatus)

/-- The copy of a row that `Find` hands out. -/
def withoutOutput : DaemonTask := { t with output := none }

def withStatus (s : DaemonTaskStatus) : DaemonTask := { t with status := s }

@[simp] theorem withoutOutput_id : t.withoutOutput.id = t.id := rfl
@[simp] theorem withoutOutput_status : t.withoutOutput.status = t.status := rfl
@[simp] theorem withoutOutput_dedicatedServerID :
    t.withoutOutput.dedicatedServerID = t.dedicatedServerID := rfl

@[simp] theorem withStatus_id : (t.withStatus s).id = t.id := rfl
@[simp] theorem withStatus_status : (t.withStatus s).status = s := rfl

end

end DaemonTask

inductive ServerInstalledStatus
  | notInstalled
  | installed
  | installationInProg
  deriving DecidableEq

/-- `domain.Server`, with the columns that the modelled code reads or filters by. -/
structure Server where
  id : ℕ
  enabled : Bool := true
  installed : ServerInstalledStatus
  blocked : Bool := false
  name : String := ""
  gameID : String := ""
  dsID : ℕ
  gameModID : ℕ := 0
  createdAt : Option Time := none
  updatedAt : Option Time := none
  deletedAt : Option Time := none
  deriving DecidableEq

/-- `proto.DaemonTaskStatus`, an open enumeration: `other` is `UNSPECIFIED` or any number that
this version of the panel does not know. -/
inductive ProtoTaskStatus
  | waiting
  | working
  | error
  | success
  | canceled
  | other (n : ℤ)
  deriving DecidableEq

def protoTaskStatusToDomain : ProtoTaskStatus → DaemonTaskStatus
  | .waiting => .waiting
  | .working => .working
  | .error => .error
  | .success => .success
  | .canceled => .canceled
  | .other _ => .waiting

structure TaskStatusUpdate where
  taskID : ℕ
  status : ProtoTaskStatus
  message : String := ""
  deriving DecidableEq

/-- The bytes of the chunk are kept as the text they are stored as. -/
structure TaskOutput where
  taskID : ℕ
  outputChunk : String
  isFinal : Bool := false
  deriving DecidableEq

def isTerminalStatus (s : DaemonTaskStatus) : Bool :=
  s == .success || s == .error || s == .canceled

inductive NodeOS
  | linux
  | windows
  | macos
  | other
  deriving DecidableEq

/-- The text of the system. -/
def NodeOS.text : NodeOS → String
  | .linux => "linux"
  | .windows => "windows"
  | .macos => "macos"
  | .other => "other"

/-- A host on which a daemon runs. -/
structure Node where
  id : ℕ
  enabled : Bool := true
  name : String := ""
  os : NodeOS := .linux
  workPath : String := ""
  gdaemonAPIKey : String := ""
  gdaemonAPIToken : Option String := none
  createdAt : Option Time := none
  updatedAt : Option Time := none
  deletedAt : Option Time := none
  deriving DecidableEq

end GameAP
