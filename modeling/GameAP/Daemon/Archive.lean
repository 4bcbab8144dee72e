import GameAP.Lib.Runs
import GameAP.Lib.Tables

/-!
# Archive operations on the instance that owns the session

`daemon.ArchiveService` as far as it starts operations on a daemon: `startOp` on the instance that
owns the session of the node, and `handleDispatchRequest` for the start requests of other instances.
Both launch `runOwned`, which sends the request, waits for the response and publishes the completion
event.  Start requests may be delivered more than once, late and in any order.

A start request is not executed while the relay entry of its operation exists, but the entry goes
with the response (`restarted_after_completion`).  `started_once_iff`: every operation is sent at
most once and has exactly one completion event precisely when no request is handled after its
operation has finished (`Unfinished`).  A timeout is one of the results that the environment may
choose.
-/

namespace GameAP

open Runs Tables List

/-- The formats of archives. -/
inductive ArchiveFormat
  | unspecified | zip | tar | tarGz | tarBz2 | tarXz | tarZstd | gz | bz2 | xz | zstd | sevenZ | rar
  deriving DecidableEq

def ArchiveFormat.toAPIName : ArchiveFormat → String
  | .unspecified => ""
  | .zip => "zip"
  | .tar => "tar"
  | .tarGz => "tar_gz"
  | .tarBz2 => "tar_bz2"
  | .tarXz => "tar_xz"
  | .tarZstd => "tar_zstd"
  | .gz => "gz"
  | .bz2 => "bz2"
  | .xz => "xz"
  | .zstd => "zstd"
  | .sevenZ => "7z"
  | .rar => "rar"

structure ArchiveRelayMeta where
  nodeID : ℕ
  serverID : ℕ := 0
  kind : String := ""
  initiator : String := ""
  deriving DecidableEq

/-- What the daemon has to do is not looked at. -/
structure ArchiveRequest where
  requestID : String
  deriving DecidableEq

/-- The answer of a daemon. -/
structure ArchiveResponse where
  success : Bool := true
  error : String := ""
  filesProcessed : ℕ := 0
  bytesProcessed : ℕ := 0
  archiveSize : ℕ := 0
  skippedCount : ℕ := 0
  format : ArchiveFormat := .unspecified
  skipped : List String := []
  deriving DecidableEq

structure ArchiveProgress where
  requestID : String
  filesProcessed : ℕ := 0
  filesTotal : ℕ := 0
  bytesProcessed : ℕ := 0
  bytesTotal : ℕ := 0
  currentEntry : String := ""
  deriving DecidableEq

/-- `messages.ArchiveCompleteEventPayload`. -/
structure ArchiveCompleteEvent where
  operationID : String
  nodeID : ℕ
  serverID : ℕ
  kind : String
  success : Bool := false
  error : String := ""
  filesProcessed : ℕ := 0
  bytesProcessed : ℕ := 0
  archiveSize : ℕ := 0
  skippedCount : ℕ := 0
  format : String := ""
  skipped : List String := []
  deriving DecidableEq

/-- `messages.ArchiveProgressEventPayload`. -/
structure ArchiveProgressEvent where
  operationID : String
  nodeID : ℕ
  serverID : ℕ
  kind : String
  filesProcessed : ℕ
  filesTotal : ℕ
  bytesProcessed : ℕ
  bytesTotal : ℕ
  currentEntry : String
  deriving DecidableEq

/-- The `Action` of a dispatched request. -/
inductive ArchiveAction
  | start
  | cancel
  | other (name : String)
  deriving DecidableEq

/-- `messages.DaemonArchiveRequestPayload`; `data` is `none` when it cannot be decoded. -/
structure ArchiveRequestPayload where
  nodeID : ℕ
  requestID : String
  instanceID : String
  action : ArchiveAction := .start
  serverID : ℕ := 0
  kind : String := ""
  initiator : String := ""
  data : Option ArchiveRequest
  deriving DecidableEq

/-- `messages.DaemonArchiveResponsePayload` and the instance it is for. -/
structure ArchiveAck where
  instanceID : String
  requestID : String
  error : String
  deriving DecidableEq

/-- The relay entries, the ids that were sent to a daemon, the operations whose `runOwned` was
launched, and what was published.  The latest comes first. -/
structure ArchiveService where
  relays : Table String ArchiveRelayMeta := ∅
  sent : List String := []
  started : List String := []
  completed : List ArchiveCompleteEvent := []
  progress : List ArchiveProgressEvent := []
  acks : List ArchiveAck := []

/-- What the environment decides: whether the node is connected and can archive, the new id, the
error of `Send`, the text of another error, and how `RequestArchive` ends. -/
structure ArchiveEnv where
  connected : Bool := true
  capable : Bool := true
  newID : String := ""
  sendErr : Option String := none
  errText : String := ""
  result : Except String ArchiveResponse := .ok {}

/-- Where a call stands. -/
inductive ArchiveCall
  | handleDispatchRequest (payload : ArchiveRequestPayload)
  | startDispatched (payload : ArchiveRequestPayload)
  | tryAddRelay (payload : ArchiveRequestPayload) (req : ArchiveRequest)
  | startOp (relay : ArchiveRelayMeta)
  | addRelay (relay : ArchiveRelayMeta)
  | runOwned (opID : String) (relay : ArchiveRelayMeta) (req : ArchiveRequest)
  | await (opID : String) (relay : ArchiveRelayMeta)
  | removeRelay (opID : String) (relay : ArchiveRelayMeta) (result : Except String ArchiveResponse)
  | publishEvent (opID : String) (relay : ArchiveRelayMeta) (result : Except String ArchiveResponse)
  | handleArchiveProgress (nodeID : ℕ) (progress : ArchiveProgress)
  | returned

namespace ArchiveService

variable (s : ArchiveService)

def archiveEventSkippedCap : ℕ := 100

def errArchiveNotSupported : String := "node does not support archive operations"

/-- The completion event that `runOwned` publishes. -/
def complete (opID : String) (relay : ArchiveRelayMeta) :
    Except String ArchiveResponse → ArchiveCompleteEvent
  | .error err =>
    { operationID := opID, nodeID := relay.nodeID, serverID := relay.serverID, kind := relay.kind,
      error := err }
  | .ok resp =>
    { operationID := opID, nodeID := relay.nodeID, serverID := relay.serverID, kind := relay.kind,
      success := resp.success, error := resp.error, filesProcessed := resp.filesProcessed,
      bytesProcessed := resp.bytesProcessed, archiveSize := resp.archiveSize,
      skippedCount := resp.skippedCount, format := resp.format.toAPIName,
      skipped := resp.skipped.take archiveEventSkippedCap }

def ack (payload : ArchiveRequestPayload) (error : String) : ArchiveService :=
  { s with acks := ⟨payload.instanceID, payload.requestID, error⟩ :: s.acks }

/-- `go s.runOwned`, after the relay entry was added. -/
def launch (opID : String) (relay : ArchiveRelayMeta) : ArchiveService :=
  { s with relays := s.relays.put opID relay, started := opID :: s.started }

/-- The entry that `startDispatched` makes. -/
def relayOf (payload : ArchiveRequestPayload) : ArchiveRelayMeta :=
  { nodeID := payload.nodeID, serverID := payload.serverID, kind := payload.kind,
    initiator := payload.initiator }

def progressEvent (relay : ArchiveRelayMeta) (p : ArchiveProgress) : ArchiveProgressEvent :=
  { operationID := p.requestID, nodeID := relay.nodeID, serverID := relay.serverID,
    kind := relay.kind, filesProcessed := p.filesProcessed, filesTotal := p.filesTotal,
    bytesProcessed := p.bytesProcessed, bytesTotal := p.bytesTotal, currentEntry := p.currentEntry }

/-- The node that sent the message is not compared with the one of the operation. -/
def handleArchiveProgress (_nodeID : ℕ) (p : ArchiveProgress) : ArchiveService :=
  match s.relays.get p.requestID with
  | none => s
  | some relay => { s with progress := progressEvent relay p :: s.progress }

/-- One step of a call. -/
def next : ArchiveCall → ArchiveEnv → Option (ArchiveService × ArchiveCall)
  | .handleDispatchRequest payload, e =>
    if !e.connected then some (s, .returned)
    else match payload.action with
      | .start => some (s, .startDispatched payload)
      | .cancel => some (s.ack payload e.errText, .returned)
      | .other name => some (s.ack payload ("unsupported archive action: " ++ name), .returned)
  | .startDispatched payload, e =>
    if !e.capable then some (s.ack payload errArchiveNotSupported, .returned)
    else match payload.data with
      | none => some (s.ack payload ("unmarshal archive request: " ++ e.errText), .returned)
      | some req => some (s, .tryAddRelay payload req)
  | .tryAddRelay payload req, _ =>
    if (s.relays.get payload.requestID).isSome then some (s.ack payload "", .returned)
    else some ((s.launch payload.requestID (relayOf payload)).ack payload "",
      .runOwned payload.requestID (relayOf payload) req)
  | .startOp relay, e =>
    if e.connected && e.capable then some (s, .addRelay relay) else some (s, .returned)
  | .addRelay relay, e =>
    -- an id of `idgen.New` was not used before
    if s.started.contains e.newID then none
    else some (s.launch e.newID relay, .runOwned e.newID relay ⟨e.newID⟩)
  | .runOwned opID relay req, e =>
    if req.requestID = "" then
      some (s, .removeRelay opID relay (.error "archive request id is required"))
    else if !e.connected then some (s, .removeRelay opID relay (.error "node not connected"))
    else match e.sendErr with
      | some err => some ({ s with sent := req.requestID :: s.sent },
          .removeRelay opID relay (.error ("send archive request: " ++ err)))
      | none => some ({ s with sent := req.requestID :: s.sent }, .await opID relay)
  | .await opID relay, e => some (s, .removeRelay opID relay e.result)
  | .removeRelay opID relay result, _ =>
    some ({ s with relays := s.relays.del opID }, .publishEvent opID relay result)
  | .publishEvent opID relay result, _ =>
    some ({ s with completed := complete opID relay result :: s.completed }, .returned)
  | .handleArchiveProgress nodeID p, _ => some (s.handleArchiveProgress nodeID p, .returned)
  | .returned, _ => none

/-- The id in the request that `startOp` of another instance has published is the operation id. -/
def wellFormed (payload : ArchiveRequestPayload) : Bool :=
  payload.data.all fun req => req.requestID = payload.requestID

def program : Program ArchiveService ArchiveCall ArchiveEnv where
  start _ c := match c with
    | .handleDispatchRequest payload => wellFormed payload
    | .startOp _ | .handleArchiveProgress .. => true
    | _ => false
  next _ s c e := s.next c e

end ArchiveService

namespace ArchiveCall

/-- The call is to send the request of the operation. -/
def pending (opID : String) : ArchiveCall → Bool
  | .runOwned op .. => op = opID
  | _ => false

/-- The call runs the operation, and the relay entry is there. -/
def holds (opID : String) : ArchiveCall → Bool
  | .runOwned op .. | .await op _ | .removeRelay op .. => op = opID
  | _ => false

/-- The call has removed the relay entry and is to publish the completion event. -/
def publishing (opID : String) : ArchiveCall → Bool
  | .publishEvent op .. => op = opID
  | _ => false

/-- The call runs the operation: its completion event is still to come. -/
def active (opID : String) (c : ArchiveCall) : Bool := c.holds opID || c.publishing opID

/-- The request that a call is to send has the id of the operation. -/
def Named : ArchiveCall → Prop
  | .handleDispatchRequest payload | .startDispatched payload =>
    ArchiveService.wellFormed payload = true
  | .tryAddRelay payload req => req.requestID = payload.requestID
  | .runOwned opID _ req => req.requestID = opID
  | _ => True

end ArchiveCall

open ArchiveCall

namespace ArchiveService

variable {s s' : ArchiveService} {c c' : ArchiveCall} {e : ArchiveEnv}

/-! ### What a step does -/

/-- The fields that the operations are counted with. -/
def ledger (s : ArchiveService) :
    Table String ArchiveRelayMeta × List String × List String × List ArchiveCompleteEvent :=
  (s.relays, s.sent, s.started, s.completed)

theorem ledger_eq_iff : s'.ledger = s.ledger ↔ s'.relays = s.relays ∧ s'.sent = s.sent ∧
    s'.started = s.started ∧ s'.completed = s.completed := by
  simp [ledger]

@[simp] theorem ledger_handleArchiveProgress (nodeID : ℕ) (p : ArchiveProgress) :
    (s.handleArchiveProgress nodeID p).ledger = s.ledger := by
  unfold handleArchiveProgress
  split <;> rfl

/-- The call runs no operation. -/
def Idle (c : ArchiveCall) : Prop := ∀ opID, c.holds opID = false ∧ c.publishing opID = false

/-- What a step can do to the operations. -/
inductive Step (s : ArchiveService) : ArchiveCall → ArchiveService → ArchiveCall → Prop
  | idle {c s' c' : _} (hledger : ledger s' = s.ledger) (hc : Idle c) (hc' : Idle c') :
    Step s c s' c'
  | launch {c s' opID relay req : _} (hc : Idle c)
    (hledger : ledger s' = (s.launch opID relay).ledger)
    (hnew : (∃ payload, c = .tryAddRelay payload req ∧ payload.requestID = opID ∧
      s.relays.get opID = none) ∨ opID ∉ s.started) : Step s c s' (.runOwned opID relay req)
  | refuse {s' opID relay req result : _} (hledger : ledger s' = s.ledger) :
    Step s (.runOwned opID relay req) s' (.removeRelay opID relay result)
  | send {opID relay req c' : _}
    (hc' : c' = .await opID relay ∨ ∃ result, c' = .removeRelay opID relay result) :
    Step s (.runOwned opID relay req) { s with sent := req.requestID :: s.sent } c'
  | answer {opID relay result : _} : Step s (.await opID relay) s (.removeRelay opID relay result)
  | unrelay {opID relay result : _} : Step s (.removeRelay opID relay result)
      { s with relays := s.relays.del opID } (.publishEvent opID relay result)
  | publish {opID relay result : _} : Step s (.publishEvent opID relay result)
      { s with completed := complete opID relay result :: s.completed } .returned

theorem next_cases (h : s.next c e = some (s', c')) : Step s c s' c' ∧ (c.Named → c'.Named) := by
  cases c with
  | handleDispatchRequest payload =>
    simp only [next] at h
    split_ifs at h
    · cases h
      exact ⟨.idle rfl (fun _ => ⟨rfl, rfl⟩) fun _ => ⟨rfl, rfl⟩, fun _ => trivial⟩
    · split at h <;> cases h <;> refine ⟨.idle rfl (fun _ => ⟨rfl, rfl⟩) fun _ => ⟨rfl, rfl⟩, ?_⟩
      · exact id
      all_goals exact fun _ => trivial
  | startDispatched payload =>
    simp only [next] at h
    split_ifs at h
    · cases h
      exact ⟨.idle rfl (fun _ => ⟨rfl, rfl⟩) fun _ => ⟨rfl, rfl⟩, fun _ => trivial⟩
    · split at h <;> cases h <;> refine ⟨.idle rfl (fun _ => ⟨rfl, rfl⟩) fun _ => ⟨rfl, rfl⟩, ?_⟩
      · exact fun _ => trivial
      · rename_i req hdata
        simp [ArchiveCall.Named, wellFormed, hdata]
  | tryAddRelay payload req =>
    simp only [next] at h
    split_ifs at h with hrelay <;> cases h
    · exact ⟨.idle rfl (fun _ => ⟨rfl, rfl⟩) fun _ => ⟨rfl, rfl⟩, fun _ => trivial⟩
    · exact ⟨.launch (fun _ => ⟨rfl, rfl⟩) rfl (.inl ⟨payload, rfl, rfl, by simpa using hrelay⟩), id⟩
  | startOp relay =>
    simp only [next] at h
    split_ifs at h <;> cases h <;>
      exact ⟨.idle rfl (fun _ => ⟨rfl, rfl⟩) fun _ => ⟨rfl, rfl⟩, fun _ => trivial⟩
  | addRelay relay =>
    simp only [next] at h
    split_ifs at h with hnew
    cases h
    exact ⟨.launch (fun _ => ⟨rfl, rfl⟩) rfl (.inr (by simpa using hnew)), fun _ => rfl⟩
  | runOwned opID relay req =>
    simp only [next] at h
    split_ifs at h
    · cases h; exact ⟨.refuse rfl, fun _ => trivial⟩
    · cases h; exact ⟨.refuse rfl, fun _ => trivial⟩
    · split at h <;> cases h
      · exact ⟨.send (.inr ⟨_, rfl⟩), fun _ => trivial⟩
      · exact ⟨.send (.inl rfl), fun _ => trivial⟩
  | await => cases h; exact ⟨.answer, fun _ => trivial⟩
  | removeRelay => cases h; exact ⟨.unrelay, fun _ => trivial⟩
  | publishEvent => cases h; exact ⟨.publish, fun _ => trivial⟩
  | handleArchiveProgress nodeID p =>
    cases h
    exact ⟨.idle (ledger_handleArchiveProgress nodeID p) (fun _ => ⟨rfl, rfl⟩) fun _ => ⟨rfl, rfl⟩,
      fun _ => trivial⟩
  | returned => cases h

/-! ### Counting the operations -/

/-- How many completion events of the operation have been published. -/
def events (s : ArchiveService) (opID : String) : ℕ :=
  s.completed.countP fun ev => ev.operationID = opID

/-- The calls agree with the store: each launched run has published its event or is still to do so,
the relay entry of an operation is there while one call runs it, and each run sends at most once. -/
structure Tallied (p : Pool ArchiveService ArchiveCall) : Prop where
  named : ∀ c ∈ p.calls, c.Named
  started : ∀ opID, p.store.events opID + p.calls.countP (ArchiveCall.active opID) =
    p.store.started.count opID
  relays : ∀ opID, p.calls.countP (ArchiveCall.holds opID) = (p.store.relays.get opID).isSome.toNat
  sent : ∀ opID, p.store.sent.count opID + p.calls.countP (ArchiveCall.pending opID) ≤
    p.store.started.count opID

theorem Idle.active (h : Idle c) (opID : String) : c.active opID = false := by
  simp [ArchiveCall.active, h opID]

theorem Idle.pending (h : Idle c) (opID : String) : c.pending opID = false := by
  cases c with
  | runOwned => exact (h opID).1
  | _ => rfl

@[simp] theorem complete_operationID (opID : String) (relay : ArchiveRelayMeta)
    (result : Except String ArchiveResponse) : (complete opID relay result).operationID = opID := by
  cases result <;> rfl

theorem events_cons (s : ArchiveService) (ev : ArchiveCompleteEvent) (opID : String) :
    events { s with completed := ev :: s.completed } opID =
      s.events opID + (decide (ev.operationID = opID)).toNat := by
  by_cases h : ev.operationID = opID <;> simp [events, h]

theorem count_cons_toNat (x opID : String) (l : List String) :
    (x :: l).count opID = l.count opID + (decide (x = opID)).toNat := by
  by_cases h : x = opID <;> simp [h]

section

variable (m : Table String ArchiveRelayMeta) (opID opID' : String)

theorem isSome_put (relay : ArchiveRelayMeta) (h : m.get opID = none) :
    ((m.put opID relay).get opID').isSome.toNat =
      (m.get opID').isSome.toNat + (decide (opID = opID')).toNat := by
  rw [Table.get_put]
  split_ifs with heq
  · subst heq
    simp [h]
  · simp [Ne.symm heq]

theorem isSome_del (h : (m.get opID).isSome) :
    ((m.del opID).get opID').isSome.toNat + (decide (opID = opID')).toNat =
      (m.get opID').isSome.toNat := by
  rw [Table.get_del]
  split_ifs with heq
  · subst heq
    simp [h]
  · simp [Ne.symm heq]

end

theorem tallied_idle : Tallied (Pool.idle {}) where
  named _ hc := by cases hc
  started _ := rfl
  relays _ := rfl
  sent _ := Nat.le_refl _

variable {p p' q : Pool ArchiveService ArchiveCall} {i : ℕ}
  {ms : List (Move ArchiveCall ArchiveEnv)} {payload : ArchiveRequestPayload} {req : ArchiveRequest}

/-- A step of one call keeps the counts when what it adds to the store it takes from its own
tasks. -/
theorem Tallied.of_balance (hp : Tallied p)
    (hc : p.calls[i]? = some c) (hnamed : ∀ d ∈ p.calls.set i c', d.Named)
    (hstar : ∀ opID, s'.events opID + (c'.active opID).toNat + p.store.started.count opID =
      p.store.events opID + (c.active opID).toNat + s'.started.count opID)
    (hrel : ∀ opID, (c'.holds opID).toNat + (p.store.relays.get opID).isSome.toNat =
      (c.holds opID).toNat + (s'.relays.get opID).isSome.toNat)
    (hsent : ∀ opID, s'.sent.count opID + (c'.pending opID).toNat + p.store.started.count opID ≤
      p.store.sent.count opID + (c.pending opID).toNat + s'.started.count opID) :
    Tallied ⟨s', p.calls.set i c'⟩ := by
  refine ⟨hnamed, fun opID => ?_, fun opID => ?_, fun opID => ?_⟩
  · have hset := countP_set_add hc c' (active opID)
    have hbef := hp.started opID
    have hbal := hstar opID
    simp only
    omega
  · have hset := countP_set_add hc c' (holds opID)
    have hbef := hp.relays opID
    have hbal := hrel opID
    simp only
    omega
  · have hset := countP_set_add hc c' (pending opID)
    have hbef := hp.sent opID
    have hbal := hsent opID
    simp only
    omega

theorem Tallied.relay_eq_none (hp : Tallied p) {opID : String}
    (hnew : opID ∉ p.store.started) : p.store.relays.get opID = none := by
  have hzero := count_eq_zero.2 hnew
  have hstar := hp.started opID
  have hrel := hp.relays opID
  have hle : p.calls.countP (holds opID) ≤ p.calls.countP (active opID) :=
    countP_mono_left fun c _ hc => by simp [active, hc]
  cases hget : p.store.relays.get opID with
  | none => rfl
  | some relay =>
    rw [hget] at hrel
    simp only [Option.isSome_some, Bool.toNat_true] at hrel
    omega

theorem Tallied.relay_isSome (hp : Tallied p)
    (hc : p.calls[i]? = some c) {opID : String} (hholds : c.holds opID = true) :
    (p.store.relays.get opID).isSome := by
  have hle := toNat_le_countP hc (holds opID)
  have hrel := hp.relays opID
  rw [hholds] at hle
  cases hget : p.store.relays.get opID with
  | none =>
    rw [hget] at hrel
    simp only [Option.isSome_none, Bool.toNat_false, Bool.toNat_true] at hrel hle
    omega
  | some relay => rfl

theorem tallied_step : Stable program.step Tallied := by
  intro p m p' hp h
  have hnamed : ∀ c ∈ p'.calls, c.Named := by
    refine Program.calls_step (fun s c hstart => ?_) (fun i s c e s' c' hc hn => ?_) p m p' hp.named h
    · cases c <;> first | exact hstart | trivial
    · exact (next_cases hn).2 hc
  obtain ⟨c, rfl, hstart, rfl⟩ | ⟨i, e, c, s', c', rfl, hc, hn, rfl⟩ := Program.step_cases h
  · have hidle : Idle c := by
      cases c <;> first | exact fun _ => ⟨rfl, rfl⟩ | cases hstart
    refine ⟨hnamed, fun opID => ?_, fun opID => ?_, fun opID => ?_⟩
    · simpa [countP_append, hidle.active opID] using hp.started opID
    · simpa [countP_append, hidle opID] using hp.relays opID
    · simpa [countP_append, hidle.pending opID] using hp.sent opID
  cases (next_cases hn).1 with
  | idle hledger hidle hidle' =>
    obtain ⟨hrel, hsent, hstar, hcomp⟩ := ledger_eq_iff.1 hledger
    refine hp.of_balance hc hnamed (fun opID => ?_) (fun opID => ?_) (fun opID => ?_)
    · simp [events, hstar, hcomp, hidle.active, hidle'.active]
    · simp [hrel, hidle opID, hidle' opID]
    · simp [hsent, hstar, hidle.pending, hidle'.pending]
  | @launch _ _ op _ _ hidle hledger hnew =>
    obtain ⟨hrel, hsent, hstar, hcomp⟩ := ledger_eq_iff.1 hledger
    have hnone : p.store.relays.get op = none := by
      rcases hnew with ⟨_, _, _, hnone⟩ | hnew
      · exact hnone
      · exact hp.relay_eq_none hnew
    refine hp.of_balance hc hnamed (fun opID => ?_) (fun opID => ?_) (fun opID => ?_)
    · rw [hidle.active opID]
      simp only [events, hstar, hcomp, launch, count_cons_toNat, active,
        holds, publishing, Bool.or_false, Bool.toNat_false]
      omega
    · rw [(hidle opID).1]
      simp only [hrel, launch, isSome_put _ _ _ _ hnone, holds, Bool.toNat_false]
      omega
    · simp only [hsent, hstar, launch, count_cons_toNat, pending]
      omega
  | refuse hledger =>
    obtain ⟨hrel, hsent, hstar, hcomp⟩ := ledger_eq_iff.1 hledger
    refine hp.of_balance hc hnamed (fun opID => ?_) (fun opID => ?_) (fun opID => ?_)
    · simp [events, hstar, hcomp, active, holds,
        publishing]
    · simp [hrel, holds]
    · simp [hsent, hstar, pending]
  | @send opID relay req _ hc' =>
    -- the request is sent under the id of the operation
    have hid : req.requestID = opID := hp.named _ (mem_of_getElem? hc)
    refine hp.of_balance hc hnamed (fun opID => ?_) (fun opID => ?_) (fun opID => ?_)
    · rcases hc' with rfl | ⟨result, rfl⟩ <;>
        simp [events, active, holds, publishing]
    · rcases hc' with rfl | ⟨result, rfl⟩ <;> simp [holds]
    · rcases hc' with rfl | ⟨result, rfl⟩ <;>
        simp only [count_cons_toNat, hid, pending] <;> simp
  | @unrelay op =>
    have hsome : (p.store.relays.get op).isSome := hp.relay_isSome hc (by simp [holds])
    refine hp.of_balance hc hnamed (fun opID => ?_) (fun opID => ?_) (fun opID => ?_)
    · simp [events, active, holds, publishing]
    · have := isSome_del p.store.relays op opID hsome
      simp only [holds]
      simp
      omega
    · simp [pending]
  | answer | publish =>
    refine hp.of_balance hc hnamed (fun opID => ?_) (fun opID => ?_) (fun opID => ?_)
    · simp [events_cons, active, holds, publishing]
    · simp [holds]
    · simp [pending]

/-- The operation of a request that is handled has not finished: no completion event was published,
and none is about to be. -/
def Unfinished (p : Pool ArchiveService ArchiveCall) (c : ArchiveCall) (_ : ArchiveEnv) : Prop :=
  match c with
  | .tryAddRelay payload _ => (∀ ev ∈ p.store.completed, ev.operationID ≠ payload.requestID) ∧
      ∀ d ∈ p.calls, d.publishing payload.requestID = false
  | _ => True

instance (p : Pool ArchiveService ArchiveCall) (c : ArchiveCall) (e : ArchiveEnv) :
    Decidable (Unfinished p c e) := by
  unfold Unfinished
  split <;> infer_instance

theorem countP_active (opID : String) (calls : List ArchiveCall) :
    calls.countP (active opID) =
      calls.countP (holds opID) + calls.countP (publishing opID) := by
  induction calls with
  | nil => rfl
  | cons c calls ih =>
    have hc : (if c.active opID then 1 else 0) =
        (if c.holds opID then 1 else 0) + if c.publishing opID then 1 else 0 := by
      cases c <;> simp [active, holds, publishing]
    simp only [countP_cons, ih, hc]
    omega

/-- What is left of an operation whose request is handled is what holds its relay entry. -/
theorem unfinished_iff : Unfinished p (.tryAddRelay payload req) e ↔
      p.store.events payload.requestID +
        p.calls.countP (publishing payload.requestID) = 0 := by
  simp [Unfinished, events, countP_eq_zero]

/-- No operation is launched twice. -/
structure Once (p : Pool ArchiveService ArchiveCall) : Prop where
  tallied : Tallied p
  launched : ∀ opID, p.store.started.count opID ≤ 1

theorem once_step : StableUnder program.step (Guarded Unfinished) Once := by
  intro p m p' hp hG h
  refine ⟨tallied_step p m p' hp.tallied h, ?_⟩
  obtain ⟨c, rfl, -, rfl⟩ | ⟨i, e, c, s', c', rfl, hc, hn, rfl⟩ := Program.step_cases h
  · exact hp.launched
  cases (next_cases hn).1 with
  | idle hledger | refuse hledger =>
    rw [(ledger_eq_iff.1 hledger).2.2.1]
    exact hp.launched
  | @launch _ _ op _ _ _ hledger hnew =>
    have hzero : p.store.started.count op = 0 := by
      rcases hnew with ⟨payload, rfl, rfl, hnone⟩ | hnew
      · have hunf := unfinished_iff.1 (hG _ hc)
        have hstar := hp.tallied.started payload.requestID
        have hrel := hp.tallied.relays payload.requestID
        rw [countP_active] at hstar
        simp only [hnone, Option.isSome_none, Bool.toNat_false] at hrel
        omega
      · exact count_eq_zero.2 hnew
    intro opID
    rw [(ledger_eq_iff.1 hledger).2.2.1]
    simp only [launch, count_cons_toNat]
    by_cases heq : op = opID
    · subst heq
      simp [hzero]
    · simpa [heq] using hp.launched opID
  | _ => exact hp.launched

theorem started_step {m : Move ArchiveCall ArchiveEnv}
    (h : program.step p m = some p') : p.store.started <:+ p'.store.started := by
  obtain ⟨c, rfl, -, rfl⟩ | ⟨i, e, c, s', c', rfl, hc, hn, rfl⟩ := Program.step_cases h
  · exact suffix_refl _
  cases (next_cases hn).1 with
  | idle hledger | refuse hledger => rw [(ledger_eq_iff.1 hledger).2.2.1]
  | launch _ hledger =>
    rw [(ledger_eq_iff.1 hledger).2.2.1]
    exact suffix_cons ..
  | _ => exact suffix_refl _

theorem started_run (h : run program.step p ms = some q) : p.store.started <:+ q.store.started :=
  run_inv_all (fun q => p.store.started <:+ q.store.started)
    (fun _ _ _ hq h => hq.trans (started_step h)) (suffix_refl _) h

/-- A request that is handled when its operation has finished makes a second run, or there is one
already. -/
theorem launched_again (hp : Tallied p) (hc : p.calls[i]? = some (.tryAddRelay payload req))
    (hfin : ¬ Unfinished p (.tryAddRelay payload req) e)
    (h : program.step p (.advance i e) = some p') :
    2 ≤ p'.store.started.count payload.requestID := by
  rw [unfinished_iff] at hfin
  have hstar := hp.started payload.requestID
  have hrel := hp.relays payload.requestID
  rw [countP_active] at hstar
  obtain ⟨c, s', c', hc', hn, rfl⟩ := Program.step_advance h
  obtain rfl : tryAddRelay payload req = c := Option.some.inj (hc ▸ hc')
  simp only [program, next] at hn
  split_ifs at hn with hrelay <;> cases hn
  · simp only [hrelay, Bool.toNat_true] at hrel
    simp only [ack]
    omega
  · simp only [ack, launch, count_cons_toNat, decide_true, Bool.toNat_true]
    omega

theorem unfinished_of_once (hp : Tallied p) (h : run program.step p ms = some q)
    (hq : ∀ opID, q.store.started.count opID ≤ 1) :
    Along program.step (Guarded Unfinished) p ms := by
  induction ms generalizing p with
  | nil => trivial
  | cons m ms ih =>
    obtain ⟨p', hstep, hrun⟩ := Option.bind_eq_some_iff.1 h
    rw [along_cons_of_step hstep]
    refine ⟨?_, ih (tallied_step p m p' hp hstep) hrun⟩
    cases m with
    | spawn c => trivial
    | advance i e =>
      intro c hc
      cases c with
      | tryAddRelay payload req =>
        by_contra hfin
        have htwice := launched_again hp hc hfin hstep
        have hle := (started_run hrun).sublist.count_le payload.requestID
        have := hq payload.requestID
        omega
      | _ => trivial

/-- A run handles no request of a finished operation exactly when every operation is sent at most
once and has one completion event, published or to be published by the one call that runs it. -/
theorem started_once_iff (ms : List (Move ArchiveCall ArchiveEnv))
    {p : Pool ArchiveService ArchiveCall} (h : run program.step (Pool.idle {}) ms = some p) :
    Along program.step (Guarded Unfinished) (Pool.idle {}) ms ↔
      ∀ opID, p.store.sent.count opID ≤ 1 ∧ (opID ∈ p.store.started →
        p.store.events opID + p.calls.countP (ArchiveCall.active opID) = 1) := by
  have htall : Tallied p := run_inv_all Tallied tallied_step tallied_idle h
  constructor
  · intro hG opID
    have honce : Once p := run_inv Once once_step ⟨tallied_idle, fun _ => Nat.zero_le _⟩ hG h
    have hle := honce.launched opID
    have hsent := htall.sent opID
    have hstar := htall.started opID
    refine ⟨by omega, fun hmem => ?_⟩
    have hpos := List.count_pos_iff.2 hmem
    omega
  · intro hp
    refine unfinished_of_once tallied_idle h fun opID => ?_
    by_cases hmem : opID ∈ p.store.started
    · rw [← htall.started opID, (hp opID).2 hmem]
    · rw [List.count_eq_zero.2 hmem]
      exact Nat.zero_le 1

/-- Two deliveries of one start request, and the order in which the two calls step. -/
def redelivered (order : List ℕ) : List (Move ArchiveCall ArchiveEnv) :=
  let payload : ArchiveRequestPayload :=
    { nodeID := 7, requestID := "op", instanceID := "b", data := some ⟨"op"⟩ }
  .spawn (.handleDispatchRequest payload) :: .spawn (.handleDispatchRequest payload) ::
    order.map fun i => .advance i {}

/-- The second delivery is handled while the operation runs. -/
theorem started_once_iff_running :
    ∃ p, run program.step (Pool.idle {}) (redelivered [0, 0, 0, 1, 1, 1, 0, 0, 0, 0]) = some p ∧
      p.store.sent = ["op"] ∧ p.store.completed.length = 1 ∧
      ∀ opID, p.store.sent.count opID ≤ 1 ∧ (opID ∈ p.store.started →
        p.store.events opID + p.calls.countP (ArchiveCall.active opID) = 1) := by
  refine ⟨_, rfl, rfl, rfl, ?_⟩
  exact (started_once_iff (redelivered [0, 0, 0, 1, 1, 1, 0, 0, 0, 0]) rfl).1 (by decide)

/-- The second delivery is handled after the operation has finished: it is sent again, and there are
two completion events. -/
theorem restarted_after_completion : ∃ p, run program.step (Pool.idle {})
        (redelivered [0, 0, 0, 0, 0, 0, 0, 1, 1, 1, 1, 1, 1, 1]) = some p ∧
      p.store.sent = ["op", "op"] ∧ p.store.events "op" = 2 :=
  ⟨_, rfl, rfl, by decide⟩

/-- Every launched run has published one completion event or is going to, one run at most is in
progress for an operation, and no run sends twice. -/
theorem completions_conserved (ms : List (Move ArchiveCall ArchiveEnv))
    {p : Pool ArchiveService ArchiveCall} (h : run program.step (Pool.idle {}) ms = some p)
    (opID : String) :
    p.store.events opID + p.calls.countP (ArchiveCall.active opID) = p.store.started.count opID ∧
      p.calls.countP (ArchiveCall.holds opID) ≤ 1 ∧
      p.store.sent.count opID ≤ p.store.started.count opID := by
  have htall : Tallied p := run_inv_all Tallied tallied_step tallied_idle h
  refine ⟨htall.started opID, ?_, ?_⟩
  · rw [htall.relays]
    exact Bool.toNat_le _
  · have := htall.sent opID
    omega

theorem completions_conserved_redelivered : ∃ p, run program.step (Pool.idle {})
      (redelivered [0, 0, 0, 0, 0, 0, 0, 1, 1, 1]) = some p ∧ p.store.events "op" = 1 ∧
      p.store.events "op" + p.calls.countP (ArchiveCall.active "op") = p.store.started.count "op" :=
  ⟨_, rfl, by decide, (completions_conserved (redelivered [0, 0, 0, 0, 0, 0, 0, 1, 1, 1]) rfl _).1⟩

end ArchiveService

end GameAP
