import GameAP.Domain
import GameAP.Lib.Tables

/-!
# The session registry of an instance

`session.Registry`: the daemon sessions that this panel instance holds (`localSessions`) and, for
every other node that some instance announced, the name of that instance (`globalNodes`).  An
operation that changes `localSessions` announces it afterwards on the pub/sub bus; the functions
here return what is to be announced and leave the publishing to their caller, because other
operations may run in between.

Instance names are of an arbitrary type `ι` with decidable equality.
-/

namespace GameAP

open Tables

/-- `session.Session`.  Sessions are compared by address in the source, so a session has an
identity `addr` of its own. -/
structure Session where
  addr : ℕ
  nodeID : ℕ
  version : String := ""
  connectedAt : Time
  deriving DecidableEq

structure DaemonSessionPayload (ι : Type) where
  nodeID : ℕ
  instanceID : ι
  version : String
  connectedAt : Time
  deriving DecidableEq

/-- The types of the messages on the session channels. -/
inductive SessionMessageType
  | daemonConnected
  | daemonClosed
  | other
  deriving DecidableEq

/-- A message of the bus: `none` is a payload that cannot be parsed. -/
structure SessionMessage (ι : Type) where
  type : SessionMessageType
  payload : Option (DaemonSessionPayload ι)
  deriving DecidableEq

structure Registry (ι : Type) where
  instanceID : ι
  localSessions : Table ℕ Session
  globalNodes : Table ℕ ι

namespace Registry

variable {ι : Type}

/-- `NewRegistry`. -/
def new (instanceID : ι) : Registry ι := ⟨instanceID, ∅, ∅⟩

variable (r : Registry ι) {t : Session} (s : Session) (msg : SessionMessage ι) (nodeID : ℕ) (n : ℕ)

/-- `Register` up to the announcement. -/
def register (s : Session) : Registry ι :=
  { r with localSessions := r.localSessions.put s.nodeID s }

/-- The announcement of `Register`. -/
def sessionConnected (now : Time) (s : Session) : SessionMessage ι :=
  ⟨.daemonConnected, some ⟨s.nodeID, r.instanceID, s.version, now⟩⟩

/-- `Unregister` up to the announcement: the session it removed, if there was one. -/
def unregister (nodeID : ℕ) : Registry ι × Option Session :=
  match r.localSessions.get nodeID with
  | none => (r, none)
  | some s => ({ r with localSessions := r.localSessions.del nodeID }, some s)

/-- `UnregisterSession` up to the announcement.  A session that is no longer the registered one is
left alone. -/
def unregisterSession (s : Session) : Registry ι × Option Session :=
  match r.localSessions.get s.nodeID with
  | none => (r, none)
  | some current =>
    if current.addr ≠ s.addr then (r, none)
    else ({ r with localSessions := r.localSessions.del s.nodeID }, some s)

/-- The announcement of `publishSessionClosed`. -/
def sessionClosed (s : Session) : SessionMessage ι :=
  ⟨.daemonClosed, some ⟨s.nodeID, r.instanceID, s.version, s.connectedAt⟩⟩

def getSession (nodeID : ℕ) : Option Session := r.localSessions.get nodeID

def isConnected (nodeID : ℕ) : Bool := (r.getSession nodeID).isSome

def isConnectedAnywhere (nodeID : ℕ) : Bool :=
  r.isConnected nodeID || (r.globalNodes.get nodeID).isSome

/-- `handleSessionEvent`.  A closed session is forgotten whichever instance held it. -/
def handleSessionEvent [DecidableEq ι] (msg : SessionMessage ι) : Registry ι :=
  match msg.type, msg.payload with
  | .daemonConnected, some payload =>
    if payload.instanceID = r.instanceID then r
    else { r with globalNodes := r.globalNodes.put payload.nodeID payload.instanceID }
  | .daemonClosed, some payload => { r with globalNodes := r.globalNodes.del payload.nodeID }
  | _, _ => r

/-! ### What the operations do to the two maps -/

@[simp] theorem unregister_globalNodes : (r.unregister nodeID).1.globalNodes = r.globalNodes := by
  unfold unregister
  split <;> rfl

@[simp] theorem unregister_instanceID : (r.unregister nodeID).1.instanceID = r.instanceID := by
  unfold unregister
  split <;> rfl

@[simp] theorem unregisterSession_globalNodes :
    (r.unregisterSession s).1.globalNodes = r.globalNodes := by
  unfold unregisterSession
  split
  · rfl
  · split_ifs <;> rfl

@[simp] theorem unregisterSession_instanceID :
    (r.unregisterSession s).1.instanceID = r.instanceID := by
  unfold unregisterSession
  split
  · rfl
  · split_ifs <;> rfl

@[simp] theorem handleSessionEvent_instanceID [DecidableEq ι] :
    (r.handleSessionEvent msg).instanceID = r.instanceID := by
  unfold handleSessionEvent
  split
  · split_ifs <;> rfl
  · rfl
  · rfl

@[simp] theorem handleSessionEvent_getSession [DecidableEq ι] :
    (r.handleSessionEvent msg).getSession n = r.getSession n := by
  unfold handleSessionEvent
  split
  · split_ifs <;> rfl
  · rfl
  · rfl

theorem getSession_register :
    (r.register s).getSession n = if n = s.nodeID then some s else r.getSession n :=
  Table.get_put r.localSessions s.nodeID n s

theorem getSession_of_unregisterSession {s : Session} {n : ℕ}
    (h : (r.unregisterSession s).1.getSession n = some t) : r.getSession n = some t := by
  unfold unregisterSession at h
  split at h
  · exact h
  · split_ifs at h
    · exact h
    · exact Table.get_of_del h

end Registry

end GameAP
