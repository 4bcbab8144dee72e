import GameAP.Daemon.Archive
import GameAP.Lib.Noninterference

/-!
# Requests to the nodes and the messages that answer them

The instances of the panel ask the daemons for metrics and run archive operations on them.
`MetricsHandler` keeps a waiter for each request and `ArchiveService` a relay entry, both with the
node that the request is for, but the handlers look up the record by the id in a message alone.

* `view N s` is what the state holds about node `N`;
* a message leaves the views of all other nodes alone exactly if it names no record of another node
  (`Own`), and in a run of such messages the view of a node is that of the run without the messages
  of the other nodes (`own_streams_only`);
* `series_of_sender` needs no condition: what is published names only servers of the sender.

Messages of the bus are delivered late or more than once here.  A response is taken to be decoded as
it was encoded, and a publisher and a server repository are present.
-/

namespace GameAP

open Noninterference Tables ArchiveService List

/-! ### Records of a node -/

section OfNode

variable {κ ρ : Type*} [DecidableEq κ] {f : ρ → ℕ} {N : ℕ} {m : Table κ ρ} {k k' : κ} {r : ρ}

/-- The record under a key, if it belongs to node `N`. -/
def ofNode (f : ρ → ℕ) (N : ℕ) (m : Table κ ρ) (k : κ) : Option ρ :=
  (m.get k).filter fun r => f r = N

theorem ofNode_eq_some_iff : ofNode f N m k = some r ↔ m.get k = some r ∧ f r = N := by
  simp [ofNode, Option.filter_eq_some_iff]

theorem ofNode_eq_none_iff : ofNode f N m k = none ↔ ∀ r, m.get k = some r → f r ≠ N := by
  simp [ofNode, Option.filter_eq_none_iff]

theorem ofNode_put (k k' : κ) (r : ρ) : ofNode f N (m.put k r) k' =
    if k' = k then if f r = N then some r else none else ofNode f N m k' := by
  unfold ofNode
  rw [Table.get_put]
  split_ifs with h hr
  · simp [hr]
  · simp [hr]
  · rfl

theorem ofNode_del (k k' : κ) :
    ofNode f N (m.del k) k' = if k' = k then none else ofNode f N m k' := by
  unfold ofNode
  rw [Table.get_del]
  split_ifs with h
  · rfl
  · rfl

theorem ofNode_del_of_none (h : ofNode f N m k = none) : ofNode f N (m.del k) = ofNode f N m := by
  funext k'
  rw [ofNode_del]
  split_ifs with hk
  · rw [hk, h]
  · rfl

theorem get_put_of_fresh (hfresh : ¬ (m.get k).isSome = true) {r' : ρ} (h : m.get k' = some r') :
    (m.put k r).get k' = some r' := by
  have hne : k' ≠ k := by
    rintro rfl
    exact hfresh (by simp [h])
  rw [Table.get_put_ne m hne, h]

end OfNode

/-! ### The state -/

/-- Its labels, and what is measured. -/
structure MetricSeries where
  labels : List (String × String)
  samples : List ℕ := []
  deriving DecidableEq

/-- `s.GetLabels()["server_id"]`. -/
def MetricSeries.serverID (s : MetricSeries) : Option String := s.labels.lookup "server_id"

/-- The answer of a daemon. -/
structure MetricsResponse where
  series : List MetricSeries
  deriving DecidableEq

/-- A waiter without a requesting instance is one of a poll. -/
structure MetricsWaiter (ι : Type) where
  nodeID : ℕ
  remoteInstanceID : Option ι
  deriving DecidableEq

/-- A call of `GetHistory` and its result channel. -/
structure HistoryWaiter where
  nodeID : ℕ
  result : Option MetricsResponse := none
  deriving DecidableEq

/-- What `HandleMetricsResponse` publishes: on the live channel of the sender, or as a reply to an
instance.  `forNode` is the node of the waiter that was answered. -/
structure MetricsPublication (ι : Type) where
  target : Option ι
  requestID : String
  sender : ℕ
  forNode : ℕ
  resp : MetricsResponse
  deriving DecidableEq

/-- A call of `GetHistory` has returned. -/
structure HistoryReturn (ι : Type) where
  instanceID : ι
  requestID : String
  nodeID : ℕ
  outcome : String ⊕ MetricsResponse
  deriving DecidableEq

/-- The instances.  `issued` has the request ids with the node and, for `GetHistory`, the instance
that asks; `servers` is what the server repository finds for a node. -/
structure Telemetry (ι : Type) where
  issued : Table String (ℕ × Option ι) := ∅
  servers : ℕ → Option (List ℕ)
  waiters : Table (ι × String) (MetricsWaiter ι) := ∅
  history : Table (ι × String) HistoryWaiter := ∅
  published : List (MetricsPublication ι) := []
  returned : List (HistoryReturn ι) := []
  archives : ι → ArchiveService := fun _ => {}

/-- The messages of a daemon that are about a request. -/
inductive DaemonReport
  | metricsResponse (requestID : String) (resp : MetricsResponse)
  | archiveProgress (p : ArchiveProgress)
  deriving DecidableEq

/-- What happens: a message arrives at an instance on the stream of a node, or an instance does
something of its own. -/
inductive TelemetryStep (ι : Type)
  | message (i : ι) (sender : ℕ) (msg : DaemonReport)
  | runPollOnce (i : ι) (nodeID : ℕ) (requestID : String)
  | getHistory (i : ι) (nodeID : ℕ) (requestID : String)
  | handleMetricsRequest (i : ι) (requestID : String)
  | removeWaiter (i : ι) (requestID : String)
  | handleHistoryReply (reply : MetricsPublication ι)
  | returnHistory (i : ι) (requestID : String) (err : Option String)
  | startArchive (i : ι) (opID : String) (relay : ArchiveRelayMeta)
  | finishArchive (i : ι) (opID : String)
  | setServers (servers : ℕ → Option (List ℕ))

/-! ### The handlers -/

/-- `none` when the lookup fails. -/
def filterUntrustedSeries (servers : ℕ → Option (List ℕ)) (nodeID : ℕ) (resp : MetricsResponse) :
    Option MetricsResponse :=
  if resp.series.all fun s => s.serverID.isNone then some resp
  else (servers nodeID).map fun ids =>
    ⟨resp.series.filter fun s => s.serverID.all fun raw => ids.any fun id => toString id = raw⟩

namespace Telemetry

variable {ι : Type} [DecidableEq ι] (s : Telemetry ι)

/-- The waiter is removed, then the response is filtered and published. -/
def handleMetricsResponse (i : ι) (nodeID : ℕ) (requestID : String) (resp : MetricsResponse) :
    Telemetry ι :=
  match s.waiters.get (i, requestID) with
  | none => s
  | some waiter =>
    { s with
      waiters := s.waiters.del (i, requestID)
      published := match filterUntrustedSeries s.servers nodeID resp with
        | none => s.published
        | some resp =>
          if resp.series.isEmpty then s.published
          else { target := waiter.remoteInstanceID, requestID, sender := nodeID,
                 forNode := waiter.nodeID, resp } :: s.published }

/-- `runPollOnce` registers a waiter for a new id. -/
def runPollOnce (i : ι) (nodeID : ℕ) (requestID : String) : Telemetry ι :=
  if (s.issued.get requestID).isSome then s
  else { s with
    issued := s.issued.put requestID (nodeID, none)
    waiters := s.waiters.put (i, requestID) ⟨nodeID, none⟩ }

/-- `GetHistory` up to the wait. -/
def getHistory (i : ι) (nodeID : ℕ) (requestID : String) : Telemetry ι :=
  if (s.issued.get requestID).isSome then s
  else { s with
    issued := s.issued.put requestID (nodeID, some i)
    history := s.history.put (i, requestID) { nodeID }
    waiters := s.waiters.put (i, requestID) ⟨nodeID, some i⟩ }

/-- `handleMetricsRequest` on an instance that has the session: it registers a waiter for the
instance that asks. -/
def handleMetricsRequest (i : ι) (requestID : String) : Telemetry ι :=
  match s.issued.get requestID with
  | some (nodeID, some requester) =>
    if requester = i then s
    else { s with waiters := s.waiters.put (i, requestID) ⟨nodeID, some requester⟩ }
  | _ => s

/-- `CancelWaiter` and `expireWaiter`. -/
def removeWaiter (i : ι) (requestID : String) : Telemetry ι :=
  { s with waiters := s.waiters.del (i, requestID) }

/-- The first reply goes into the result channel. -/
def handleHistoryReply (reply : MetricsPublication ι) : Telemetry ι :=
  if s.published.contains reply then
    match reply.target with
    | none => s
    | some i =>
      match s.history.get (i, reply.requestID) with
      | none => s
      | some h => { s with
          history := s.history.put (i, reply.requestID)
            { h with result := h.result <|> some reply.resp } }
  else s

/-- `GetHistory` returns, with an error or with what is in its channel. -/
def returnHistory (i : ι) (requestID : String) (err : Option String) : Telemetry ι :=
  match s.history.get (i, requestID) with
  | none => s
  | some h =>
    match err.map Sum.inl <|> h.result.map Sum.inr with
    | none => s
    | some outcome => { s with
        history := s.history.del (i, requestID)
        waiters := s.waiters.del (i, requestID)
        returned := { instanceID := i, requestID, nodeID := h.nodeID, outcome } :: s.returned }

/-- The archive service of an instance has changed. -/
def setArchive (i : ι) (a : ArchiveService) : Telemetry ι :=
  { s with archives := Function.update s.archives i a }

/-- One message or call. -/
def step : TelemetryStep ι → Telemetry ι
  | .message i sender (.metricsResponse requestID resp) =>
    s.handleMetricsResponse i sender requestID resp
  | .message i sender (.archiveProgress p) =>
    s.setArchive i ((s.archives i).handleArchiveProgress sender p)
  | .runPollOnce i nodeID requestID => s.runPollOnce i nodeID requestID
  | .getHistory i nodeID requestID => s.getHistory i nodeID requestID
  | .handleMetricsRequest i requestID => s.handleMetricsRequest i requestID
  | .removeWaiter i requestID => s.removeWaiter i requestID
  | .handleHistoryReply reply => s.handleHistoryReply reply
  | .returnHistory i requestID err => s.returnHistory i requestID err
  | .startArchive i opID relay => s.setArchive i ((s.archives i).launch opID relay)
  | .finishArchive i opID =>
    s.setArchive i { s.archives i with relays := (s.archives i).relays.del opID }
  | .setServers servers => { s with servers }

/-! ### What is known about a node -/

/-- What the state holds about one node. -/
@[ext] structure View (ι : Type) where
  issued : Table String (ℕ × Option ι)
  servers : ℕ → Option (List ℕ)
  waiters : ι × String → Option (MetricsWaiter ι)
  history : ι × String → Option HistoryWaiter
  published : List (MetricsPublication ι)
  returned : List (HistoryReturn ι)
  relays : ι → String → Option ArchiveRelayMeta
  progress : ι → List ArchiveProgressEvent

open HistoryWaiter

def view (N : ℕ) : View ι where
  issued := s.issued
  servers := s.servers
  waiters := ofNode MetricsWaiter.nodeID N s.waiters
  history := ofNode nodeID N s.history
  published := s.published.filter fun pub => pub.forNode = N
  returned := s.returned.filter fun r => r.nodeID = N
  relays i := ofNode ArchiveRelayMeta.nodeID N (s.archives i).relays
  progress i := (s.archives i).progress.filter fun ev => ev.nodeID = N

/-- Everything but the messages of the other nodes. -/
def visibleTo (N : ℕ) : TelemetryStep ι → Bool
  | .message _ sender _ => sender = N
  | _ => true

/-- A message names no record of another node. -/
def Own (s : Telemetry ι) : TelemetryStep ι → Prop
  | .message i sender (.metricsResponse requestID _) =>
    ∀ waiter ∈ s.waiters.get (i, requestID), waiter.nodeID = sender
  | .message i sender (.archiveProgress p) =>
    ∀ relay ∈ (s.archives i).relays.get p.requestID, relay.nodeID = sender
  | _ => True

instance : (a : TelemetryStep ι) → Decidable (Own s a)
  | .message i sender (.metricsResponse requestID _) =>
    inferInstanceAs (Decidable (∀ waiter ∈ s.waiters.get (i, requestID), waiter.nodeID = sender))
  | .message i sender (.archiveProgress p) =>
    inferInstanceAs (Decidable (∀ relay ∈ (s.archives i).relays.get p.requestID,
      relay.nodeID = sender))
  | .runPollOnce .. | .getHistory .. | .handleMetricsRequest .. | .removeWaiter ..
  | .handleHistoryReply _ | .returnHistory .. | .startArchive .. | .finishArchive ..
  | .setServers _ => .isTrue trivial

variable {s} {N : ℕ} {i : ι} {requestID : String}

/-! ### Ids belong to one node -/

/-- Every record and every publication is for the node that its id was issued for. -/
structure Issued (s : Telemetry ι) : Prop where
  waiters : ∀ i id w, s.waiters.get (i, id) = some w → ∃ r, s.issued.get id = some (w.nodeID, r)
  history : ∀ i id h, s.history.get (i, id) = some h → ∃ r, s.issued.get id = some (h.nodeID, r)
  published : ∀ pub ∈ s.published, ∃ r, s.issued.get pub.requestID = some (pub.forNode, r)

/-- The records of a table, and the nodes that their ids were issued for. -/
def IssuedFor {ρ : Type} (issued : Table String (ℕ × Option ι)) (f : ρ → ℕ)
    (m : Table (ι × String) ρ) : Prop :=
  ∀ i id w, m.get (i, id) = some w → ∃ r, issued.get id = some (f w, r)

section

variable {ρ : Type} {issued : Table String (ℕ × Option ι)} {f : ρ → ℕ} {m : Table (ι × String) ρ}
  (h : IssuedFor issued f m)
include h

theorem IssuedFor.put {w : ρ} (hw : ∃ r, issued.get requestID = some (f w, r)) :
    IssuedFor issued f (m.put (i, requestID) w) := by
  intro j id w' hget
  rcases Table.get_of_put hget with ⟨⟨⟩, rfl⟩ | hget
  · exact hw
  · exact h j id w' hget

theorem IssuedFor.del (k : ι × String) : IssuedFor issued f (m.del k) :=
  fun j id w hget => h j id w (Table.get_of_del hget)

theorem IssuedFor.issue (hfresh : ¬ (issued.get requestID).isSome = true) (v : ℕ × Option ι) :
    IssuedFor (issued.put requestID v) f m :=
  fun j id w hget => (h j id w hget).imp fun _ => get_put_of_fresh hfresh

end

theorem issued_init (servers : ℕ → Option (List ℕ)) : Issued ({ servers } : Telemetry ι) where
  waiters _ _ _ h := by cases h
  history _ _ _ h := by cases h
  published _ h := by cases h

theorem Issued.handleMetricsResponse (hs : Issued s) (i : ι) (nodeID : ℕ) (requestID : String)
    (resp : MetricsResponse) : Issued (s.handleMetricsResponse i nodeID requestID resp) := by
  unfold Telemetry.handleMetricsResponse
  split
  · exact hs
  · rename_i waiter hw
    refine ⟨IssuedFor.del hs.waiters _, hs.history, fun pub hpub => ?_⟩
    split at hpub
    · exact hs.published pub hpub
    · split_ifs at hpub
      · exact hs.published pub hpub
      · rcases mem_cons.1 hpub with rfl | hpub
        · exact hs.waiters i requestID waiter hw
        · exact hs.published pub hpub

theorem Issued.step (hs : Issued s) (a : TelemetryStep ι) : Issued (s.step a) := by
  have hwait : IssuedFor s.issued MetricsWaiter.nodeID s.waiters := hs.waiters
  have hhist : IssuedFor s.issued nodeID s.history := hs.history
  cases a with
  | message i sender msg =>
    cases msg with
    | metricsResponse requestID resp => exact hs.handleMetricsResponse i sender requestID resp
    | archiveProgress p => exact { hs with }
  | runPollOnce i nodeID requestID =>
    simp only [Telemetry.step, Telemetry.runPollOnce]
    split_ifs with hfresh
    · exact hs
    · exact ⟨(hwait.issue hfresh _).put ⟨none, Table.get_put_self ..⟩, hhist.issue hfresh _,
        fun pub hpub => (hs.published pub hpub).imp fun _ => get_put_of_fresh hfresh⟩
  | getHistory i nodeID requestID =>
    simp only [Telemetry.step, Telemetry.getHistory]
    split_ifs with hfresh
    · exact hs
    · exact ⟨(hwait.issue hfresh _).put ⟨some i, Table.get_put_self ..⟩,
        (hhist.issue hfresh _).put ⟨some i, Table.get_put_self ..⟩,
        fun pub hpub => (hs.published pub hpub).imp fun _ => get_put_of_fresh hfresh⟩
  | handleMetricsRequest i requestID =>
    simp only [Telemetry.step, Telemetry.handleMetricsRequest]
    split
    · rename_i nodeID requester hiss
      split_ifs
      · exact hs
      · exact ⟨hwait.put ⟨some requester, hiss⟩, hs.history, hs.published⟩
    · exact hs
  | removeWaiter i requestID => exact ⟨hwait.del _, hs.history, hs.published⟩
  | handleHistoryReply reply =>
    simp only [Telemetry.step, Telemetry.handleHistoryReply]
    split_ifs
    · split
      · exact hs
      · split
        · exact hs
        · rename_i i _ _ h hh
          exact ⟨hs.waiters, hhist.put (hs.history i _ h hh), hs.published⟩
    · exact hs
  | returnHistory i requestID err =>
    simp only [Telemetry.step, Telemetry.returnHistory]
    split
    · exact hs
    · split
      · exact hs
      · exact ⟨hwait.del _, hhist.del _, hs.published⟩
  | startArchive | finishArchive | setServers => exact { hs with }

/-! ### States that look the same to a node -/

section Consistent

variable {t : Telemetry ι}

/-- The records of the node are the same, one field of the view after the other. -/
structure Alike (N : ℕ) (s t : Telemetry ι) : Prop where
  issued : s.issued = t.issued
  servers : s.servers = t.servers
  waiters : ofNode MetricsWaiter.nodeID N s.waiters = ofNode MetricsWaiter.nodeID N t.waiters
  history : ofNode nodeID N s.history = ofNode nodeID N t.history
  published : (s.published.filter fun pub => pub.forNode = N) =
    t.published.filter fun pub => pub.forNode = N
  returned : (s.returned.filter fun r => r.nodeID = N) = t.returned.filter fun r => r.nodeID = N
  relays : ∀ i, ofNode ArchiveRelayMeta.nodeID N (s.archives i).relays =
    ofNode ArchiveRelayMeta.nodeID N (t.archives i).relays
  progress : ∀ i, ((s.archives i).progress.filter fun ev => ev.nodeID = N) =
    (t.archives i).progress.filter fun ev => ev.nodeID = N

theorem view_eq_iff : view s N = view t N ↔ Alike N s t := by
  simp only [View.ext_iff, view]
  constructor
  · rintro ⟨h₁, h₂, h₃, h₄, h₅, h₆, h₇, h₈⟩
    exact ⟨h₁, h₂, h₃, h₄, h₅, h₆, congrFun h₇, congrFun h₈⟩
  · rintro ⟨h₁, h₂, h₃, h₄, h₅, h₆, h₇, h₈⟩
    exact ⟨h₁, h₂, h₃, h₄, h₅, h₆, funext h₇, funext h₈⟩

section

variable {κ ρ : Type*} [DecidableEq κ] {f : ρ → ℕ} {m m' : Table κ ρ}
  (h : ofNode f N m = ofNode f N m') (k : κ)
include h

theorem ofNode_put_congr (r : ρ) : ofNode f N (m.put k r) = ofNode f N (m'.put k r) := by
  funext k'
  rw [ofNode_put, ofNode_put, h]

theorem ofNode_del_congr : ofNode f N (m.del k) = ofNode f N (m'.del k) := by
  funext k'
  rw [ofNode_del, ofNode_del, h]

end

theorem Alike.setArchive (h : Alike N s t) {a b : ArchiveService}
    (hrel : ofNode ArchiveRelayMeta.nodeID N a.relays = ofNode ArchiveRelayMeta.nodeID N b.relays)
    (hprog : (a.progress.filter fun ev => ev.nodeID = N) =
      b.progress.filter fun ev => ev.nodeID = N) :
    Alike N (s.setArchive i a) (t.setArchive i b) := by
  refine { h with relays := fun j => ?_, progress := fun j => ?_ }
  · by_cases hj : j = i
    · subst hj
      simpa [Telemetry.setArchive] using hrel
    · simpa [Telemetry.setArchive, Function.update_of_ne hj] using h.relays j
  · by_cases hj : j = i
    · subst hj
      simpa [Telemetry.setArchive] using hprog
    · simpa [Telemetry.setArchive, Function.update_of_ne hj] using h.progress j

/-! ### The messages of other nodes -/

theorem view_handleMetricsResponse (nodeID : ℕ) (resp : MetricsResponse)
    (h : ofNode MetricsWaiter.nodeID N s.waiters (i, requestID) = none) :
    view (s.handleMetricsResponse i nodeID requestID resp) N = view s N := by
  unfold handleMetricsResponse
  split
  · rfl
  · rename_i waiter hw
    have hne : waiter.nodeID ≠ N := ofNode_eq_none_iff.1 h waiter hw
    ext1
    case waiters => exact ofNode_del_of_none h
    case published =>
      simp only [view]
      split
      · rfl
      · split_ifs
        · rfl
        · rw [filter_cons_of_neg (by simpa using hne)]
    all_goals rfl

theorem view_archiveProgress (nodeID : ℕ) (p : ArchiveProgress)
    (h : ofNode ArchiveRelayMeta.nodeID N (s.archives i).relays p.requestID = none) :
    view (s.setArchive i ((s.archives i).handleArchiveProgress nodeID p)) N = view s N := by
  have hrel : ((s.archives i).handleArchiveProgress nodeID p).relays = (s.archives i).relays :=
    (ledger_eq_iff.1 (ledger_handleArchiveProgress nodeID p)).1
  have hprog : ((s.archives i).handleArchiveProgress nodeID p).progress.filter
      (fun ev => ev.nodeID = N) = (s.archives i).progress.filter fun ev => ev.nodeID = N := by
    unfold handleArchiveProgress
    split
    · rfl
    · rename_i relay hrelay
      have hne : relay.nodeID ≠ N := ofNode_eq_none_iff.1 h relay hrelay
      exact filter_cons_of_neg (by simp [progressEvent, hne])
  have hself : s.setArchive i (s.archives i) = s := by rw [setArchive, Function.update_eq_self]
  have halike : Alike N (s.setArchive i _) (s.setArchive i (s.archives i)) :=
    .setArchive (view_eq_iff.1 rfl) (congrArg _ hrel) hprog
  rw [view_eq_iff.2 halike, hself]

theorem view_message_iff (sender : ℕ) (msg : DaemonReport) :
    view (s.step (.message i sender msg)) N = view s N ↔ match msg with
      | .metricsResponse requestID _ =>
        ofNode MetricsWaiter.nodeID N s.waiters (i, requestID) = none
      | .archiveProgress p =>
        ofNode ArchiveRelayMeta.nodeID N (s.archives i).relays p.requestID = none := by
  cases msg with
  | metricsResponse requestID resp =>
    refine ⟨fun heq => ?_, view_handleMetricsResponse sender resp⟩
    -- a waiter of the node would be gone
    have hwait := congrFun (congrArg View.waiters heq) (i, requestID)
    simp only [view, step, handleMetricsResponse] at hwait ⊢
    split at hwait
    · rename_i hnone
      exact ofNode_eq_none_iff.2 fun w hw => by rw [hnone] at hw; cases hw
    · rw [← hwait, ofNode_del, if_pos rfl]
  | archiveProgress p =>
    refine ⟨fun heq => ofNode_eq_none_iff.2 fun relay hrelay hN => ?_,
      view_archiveProgress sender p⟩
    -- there would be one event more
    have hprog := congrArg List.length (congrFun (congrArg View.progress heq) i)
    simp only [view, step, setArchive, Function.update_self, handleArchiveProgress,
      hrelay] at hprog
    rw [filter_cons_of_pos (by simp [progressEvent, hN])] at hprog
    simp at hprog

theorem own_message_iff (i : ι) (sender : ℕ) (msg : DaemonReport) :
    (∀ N, N ≠ sender → view (s.step (.message i sender msg)) N = view s N) ↔
      Own s (.message i sender msg) := by
  simp only [view_message_iff]
  cases msg with
  | metricsResponse | archiveProgress =>
    simp only [ofNode_eq_none_iff]
    refine ⟨fun h r hr => ?_, fun h N hN r hr => h r hr ▸ hN.symm⟩
    by_contra hne
    exact h _ hne r hr rfl

/-! ### Steps of two states that look the same -/

/-- A response on the stream of the node answers its waiter in both states, or in neither. -/
theorem Alike.handleMetricsResponse (h : Alike N s t) (nodeID : ℕ) (resp : MetricsResponse) :
    Alike N (s.handleMetricsResponse i nodeID requestID resp)
      (t.handleMetricsResponse i nodeID requestID resp) := by
  cases hw : ofNode MetricsWaiter.nodeID N s.waiters (i, requestID) with
  | none =>
    rw [← view_eq_iff, view_handleMetricsResponse nodeID resp hw,
      view_handleMetricsResponse nodeID resp (congrFun h.waiters _ ▸ hw), view_eq_iff.2 h]
  | some waiter =>
    obtain ⟨hs, hN⟩ := ofNode_eq_some_iff.1 hw
    obtain ⟨ht, -⟩ := ofNode_eq_some_iff.1 (congrFun h.waiters _ ▸ hw)
    simp only [Telemetry.handleMetricsResponse, hs, ht]
    refine { h with waiters := ofNode_del_congr h.waiters _, published := ?_ }
    simp only [h.servers]
    cases filterUntrustedSeries t.servers nodeID resp with
    | none => exact h.published
    | some kept =>
      simp only
      split_ifs
      · exact h.published
      · simp only [filter_cons, hN, h.published]

theorem ofNode_handleHistoryReply (hs : Issued s) (reply : MetricsPublication ι) (k : ι × String) :
    ofNode nodeID N (s.handleHistoryReply reply).history k =
      if reply ∈ (s.published.filter fun pub => pub.forNode = N) ∧ reply.target = some k.1 ∧
          reply.requestID = k.2 then
        (ofNode nodeID N s.history k).map fun h =>
          { h with result := h.result <|> some reply.resp }
      else ofNode nodeID N s.history k := by
  obtain ⟨i, id⟩ := k
  by_cases hcond : reply ∈ s.published ∧ reply.target = some i ∧ reply.requestID = id
  · -- the reply is for this call
    obtain ⟨hmem, htarget, rfl⟩ := hcond
    simp only [handleHistoryReply, contains_iff_mem.2 hmem, if_true, htarget, mem_filter,
      hmem, true_and, and_true, decide_eq_true_eq]
    cases hh : s.history.get (i, reply.requestID) with
    | none => simp [ofNode, hh]
    | some h =>
      -- the reply is for the node of the call that waits for it
      obtain ⟨r, hr⟩ := hs.published reply hmem
      obtain ⟨r', hr'⟩ := hs.history i reply.requestID h hh
      obtain ⟨hnode, -⟩ := Prod.mk.inj (Option.some.inj (hr.symm.trans hr'))
      rw [hnode]
      by_cases hN : h.nodeID = N
      all_goals simp [ofNode, hh, hN, Option.filter_some]
  · have hneg : ¬ (reply ∈ (s.published.filter fun pub => pub.forNode = N) ∧
        reply.target = some (i, id).1 ∧ reply.requestID = (i, id).2) :=
      fun h => hcond ⟨(mem_filter.1 h.1).1, h.2⟩
    unfold handleHistoryReply
    split_ifs with hmem
    · split
      · rfl
      · rename_i j htarget
        split
        · rfl
        · rw [ofNode_put, if_neg]
          intro hk
          cases hk
          exact hcond ⟨contains_iff_mem.1 hmem, htarget, rfl⟩
    · rfl

theorem handleHistoryReply_eq (reply : MetricsPublication ι) : s.handleHistoryReply reply =
    { s with history := (s.handleHistoryReply reply).history } := by
  unfold handleHistoryReply
  split_ifs
  · split
    · rfl
    · split <;> rfl
  · rfl

theorem Alike.handleHistoryReply (h : Alike N s t) (hs : Issued s) (ht : Issued t)
    (reply : MetricsPublication ι) :
    Alike N (s.handleHistoryReply reply) (t.handleHistoryReply reply) := by
  rw [handleHistoryReply_eq, handleHistoryReply_eq reply (s := t)]
  refine { h with history := funext fun k => ?_ }
  simp only [ofNode_handleHistoryReply hs, ofNode_handleHistoryReply ht, h.published, h.history]

theorem view_returnHistory (hs : Issued s) (err : Option String)
    (h : ofNode nodeID N s.history (i, requestID) = none) :
    view (s.returnHistory i requestID err) N = view s N := by
  unfold returnHistory
  split
  · rfl
  · rename_i call hcall
    have hne : call.nodeID ≠ N := ofNode_eq_none_iff.1 h call hcall
    split
    · rfl
    · -- a waiter under the same id is for the same node
      have hwaiter : ofNode MetricsWaiter.nodeID N s.waiters (i, requestID) = none := by
        refine ofNode_eq_none_iff.2 fun w hw hN => ?_
        obtain ⟨r, hr⟩ := hs.waiters i requestID w hw
        obtain ⟨r', hr'⟩ := hs.history i requestID call hcall
        rw [hr] at hr'
        exact hne ((congrArg Prod.fst (Option.some.inj hr')).symm.trans hN)
      refine view_eq_iff.2 ⟨rfl, rfl, ofNode_del_of_none hwaiter, ofNode_del_of_none h, rfl, ?_,
        fun _ => rfl, fun _ => rfl⟩
      exact filter_cons_of_neg (by simpa using hne)

theorem Alike.returnHistory (h : Alike N s t) (hs : Issued s) (ht : Issued t)
    (err : Option String) :
    Alike N (s.returnHistory i requestID err) (t.returnHistory i requestID err) := by
  cases hcall : ofNode nodeID N s.history (i, requestID) with
  | none =>
    rw [← view_eq_iff, view_returnHistory hs err hcall,
      view_returnHistory ht err (congrFun h.history _ ▸ hcall), view_eq_iff.2 h]
  | some call =>
    obtain ⟨hcs, hN⟩ := ofNode_eq_some_iff.1 hcall
    obtain ⟨hct, -⟩ := ofNode_eq_some_iff.1 (congrFun h.history _ ▸ hcall)
    simp only [Telemetry.returnHistory, hcs, hct]
    split
    · exact h
    · refine { h with
        waiters := ofNode_del_congr h.waiters _
        history := ofNode_del_congr h.history _
        returned := ?_ }
      simp only [filter_cons, hN, h.returned]

theorem Alike.archiveProgress (h : Alike N s t) (nodeID : ℕ) (p : ArchiveProgress) :
    Alike N (s.setArchive i ((s.archives i).handleArchiveProgress nodeID p))
      (t.setArchive i ((t.archives i).handleArchiveProgress nodeID p)) := by
  cases hrelay : ofNode ArchiveRelayMeta.nodeID N (s.archives i).relays p.requestID with
  | none =>
    rw [← view_eq_iff, view_archiveProgress nodeID p hrelay,
      view_archiveProgress nodeID p (congrFun (h.relays i) _ ▸ hrelay), view_eq_iff.2 h]
  | some relay =>
    obtain ⟨hrs, hN⟩ := ofNode_eq_some_iff.1 hrelay
    obtain ⟨hrt, -⟩ := ofNode_eq_some_iff.1 (congrFun (h.relays i) _ ▸ hrelay)
    simp only [handleArchiveProgress, hrs, hrt]
    refine h.setArchive (h.relays i) ?_
    simp only [filter_cons, h.progress i]

theorem Alike.step (h : Alike N s t) (hs : Issued s) (ht : Issued t) (a : TelemetryStep ι) :
    Alike N (s.step a) (t.step a) := by
  cases a with
  | message i sender msg =>
    cases msg with
    | metricsResponse requestID resp => exact h.handleMetricsResponse sender resp
    | archiveProgress p => exact h.archiveProgress sender p
  | runPollOnce i nodeID requestID =>
    simp only [Telemetry.step, runPollOnce, h.issued]
    split_ifs
    · exact h
    · exact { h with issued := rfl, waiters := ofNode_put_congr h.waiters _ _ }
  | getHistory i nodeID requestID =>
    simp only [Telemetry.step, getHistory, h.issued]
    split_ifs
    · exact h
    · exact { h with
        issued := rfl
        waiters := ofNode_put_congr h.waiters _ _
        history := ofNode_put_congr h.history _ _ }
  | handleMetricsRequest i requestID =>
    simp only [Telemetry.step, handleMetricsRequest, h.issued]
    split
    · split_ifs
      · exact h
      · exact { h with issued := rfl, waiters := ofNode_put_congr h.waiters _ _ }
    · exact h
  | removeWaiter i requestID => exact { h with waiters := ofNode_del_congr h.waiters _ }
  | handleHistoryReply reply => exact h.handleHistoryReply hs ht reply
  | returnHistory i requestID err => exact h.returnHistory hs ht err
  | startArchive i opID relay =>
    exact h.setArchive (ofNode_put_congr (h.relays i) opID relay) (h.progress i)
  | finishArchive i opID => exact h.setArchive (ofNode_del_congr (h.relays i) opID) (h.progress i)
  | setServers servers => exact { h with servers := rfl }

end Consistent

/-! ### What is published -/

theorem filterUntrustedSeries_spec {servers : ℕ → Option (List ℕ)} {nodeID : ℕ}
    {resp kept : MetricsResponse} (h : filterUntrustedSeries servers nodeID resp = some kept)
    {series : MetricSeries} (hmem : series ∈ kept.series) {raw : String}
    (hraw : series.serverID = some raw) :
    ∃ ids, servers nodeID = some ids ∧ ∃ id ∈ ids, toString id = raw := by
  unfold filterUntrustedSeries at h
  split_ifs at h with hnone
  · cases h
    have := all_eq_true.1 hnone series hmem
    simp [hraw] at this
  · obtain ⟨ids, hids, rfl⟩ := Option.map_eq_some_iff.1 h
    have hkept := (mem_filter.1 hmem).2
    simp only [hraw, Option.all_some, any_eq_true, decide_eq_true_eq] at hkept
    exact ⟨ids, hids, hkept⟩

/-- A publication of `HandleMetricsResponse` is under the node of the stream, and its series name
only servers of that node. -/
theorem series_of_sender (s : Telemetry ι) (i : ι) (sender : ℕ) (msg : DaemonReport) :
    ∃ new, (s.step (.message i sender msg)).published = new ++ s.published ∧ ∀ pub ∈ new,
      pub.sender = sender ∧ ∀ series ∈ pub.resp.series, ∀ raw, series.serverID = some raw →
        ∃ ids, s.servers sender = some ids ∧ ∃ id ∈ ids, toString id = raw := by
  cases msg with
  | archiveProgress p => exact ⟨[], rfl, nofun⟩
  | metricsResponse requestID resp =>
    simp only [step, handleMetricsResponse]
    split
    · exact ⟨[], rfl, nofun⟩
    · cases hkept : filterUntrustedSeries s.servers sender resp with
      | none => exact ⟨[], rfl, nofun⟩
      | some kept =>
        simp only
        split_ifs
        · exact ⟨[], rfl, nofun⟩
        · refine ⟨[_], rfl, fun pub hpub => ?_⟩
          rw [mem_singleton.1 hpub]
          exact ⟨rfl, fun series hmem raw hraw => filterUntrustedSeries_spec hkept hmem hraw⟩

/-! ### Noninterference -/

/-- When every message names only records of its sender, the view of a node is that of the run
without the messages of the other nodes. -/
theorem view_after (servers : ℕ → Option (List ℕ)) (as : List (TelemetryStep ι))
    (hG : Throughout step Own { servers } as) (N : ℕ) :
    view (after step { servers } as) N =
      view (after step { servers } (as.filter (visibleTo N))) N := by
  refine unwinding Issued (fun s => view s N) (fun s a hs => hs.step a)
    (fun s a _ hvis hown => ?_) (fun s t a hs ht _ h => view_eq_iff.2 ((view_eq_iff.1 h).step hs ht a))
    (issued_init servers) (issued_init servers) rfl hG
  cases a with
  | message i sender msg =>
    have hne : sender ≠ N := by simpa [visibleTo] using hvis
    exact (own_message_iff i sender msg).2 hown N hne.symm
  | _ => simp [visibleTo] at hvis

/-- A message is seen by no other node exactly when it names none of their records, what is
published for it names only servers of its sender, and if all messages have named only records of
their senders, what is known about a node depends on its own stream only. -/
theorem own_streams_only (servers : ℕ → Option (List ℕ)) (as : List (TelemetryStep ι)) :
    (∀ i sender msg, (∀ N, N ≠ sender →
        view ((after step { servers } as).step (.message i sender msg)) N =
          view (after step { servers } as) N) ↔
      Own (after step { servers } as) (.message i sender msg)) ∧
    (∀ i sender msg, ∃ new, ((after step { servers } as).step (.message i sender msg)).published =
        new ++ (after step { servers } as).published ∧ ∀ pub ∈ new, pub.sender = sender ∧
        ∀ series ∈ pub.resp.series, ∀ raw, series.serverID = some raw →
          ∃ ids, (after step { servers } as).servers sender = some ids ∧
            ∃ id ∈ ids, toString id = raw) ∧
    (Throughout step Own { servers } as → ∀ N, view (after step { servers } as) N =
      view (after step { servers } (as.filter (visibleTo N))) N) :=
  ⟨own_message_iff, series_of_sender _, view_after servers as⟩

/-- Node 8 answers a request that was made to node 7: the call of `GetHistory`, a poll, or with the
progress of an archive operation. -/
def answers (sender : ℕ) : List (TelemetryStep Unit) :=
  [.getHistory () 7 "h", .runPollOnce () 7 "p", .startArchive () "op" { nodeID := 7 },
    .message () sender (.metricsResponse "h" ⟨[⟨[], [1]⟩]⟩),
    .message () sender (.metricsResponse "p" ⟨[⟨[], [2]⟩]⟩),
    .message () sender (.archiveProgress { requestID := "op", filesProcessed := 3 }),
    .handleHistoryReply ⟨some (), "h", sender, 7, ⟨[⟨[], [1]⟩]⟩⟩, .returnHistory () "h" none]

/-- Node 7 answers itself. -/
theorem own_streams_only_answers : view (after step { servers := fun _ => some [] } (answers 7)) 7 =
      view (after step { servers := fun _ => some [] } ((answers 7).filter (visibleTo 7))) 7 :=
  (own_streams_only (fun _ => some []) (answers 7)).2.2 (by decide) 7

/-- With the messages of node 8 the call for node 7 returns what node 8 has sent, and there is a
progress event for node 7; without them there is nothing. -/
theorem other_node_answers : (∃ s, s = after step { servers := fun _ => some [] } (answers 8) ∧
      s.returned = [⟨(), "h", 7, .inr ⟨[⟨[], [1]⟩]⟩⟩] ∧
      s.waiters.get ((), "p") = none ∧
      (s.archives ()).progress.map (fun ev => (ev.nodeID, ev.filesProcessed)) = [(7, 3)]) ∧
    ∃ s, s = after step { servers := fun _ => some [] } ((answers 8).filter (visibleTo 7)) ∧
      s.returned = [] ∧ s.waiters.get ((), "p") = some ⟨7, none⟩ ∧
      (s.archives ()).progress = [] :=
  ⟨⟨_, rfl, by decide, by decide, by decide⟩, ⟨_, rfl, by decide, by decide, by decide⟩⟩

end Telemetry

end GameAP
