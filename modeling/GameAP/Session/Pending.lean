import GameAP.Domain
import GameAP.Lib.Channels
import GameAP.Lib.Runs
import GameAP.Lib.Tables

/-!
# Requests that wait for a daemon's response

`session.Session` keeps a channel for every request that waits for an answer.  A caller of the
gateway (`RequestFileRead` and the methods like it) draws a request id, registers a channel under
it, sends the request and waits on the channel; the handler of the daemon's stream resolves the
request when the response comes; the caller's deferred cancellation and the end of the session
remove what is left.

Three operations take a channel out of the map, each under the lock, and close it: the cancellation
and `Close` while they hold the lock, `ResolvePendingRequest` after it has released it and sent the
response.  There is one step for every critical section and every channel operation outside of one.

* `SessionState` has three ghosts: `issuedTo` is the call that drew a request id, `madeFor` the
  request of a channel, and `holder` the call that has a channel to itself, outside the map;
* `PendingCall` lists the places between the steps, `requests` is the program;
* `requests_safe`: no channel is closed twice or written to after it was closed, no step of an
  operation of the session has to wait (a second `Close` waits for the first, which does not), and a
  channel carries at most one response, one to its own request.
-/

namespace GameAP

open Channels Runs Tables Function Heap

/-- A response of the daemon. -/
structure FileReadResponse where
  requestID : String
  success : Bool
  content : Bytes
  transferID : String
  error : String
  deriving DecidableEq

/-- `proto.DaemonMessage`, as far as it answers a request: a file that was read, or a response of
another kind. -/
inductive DaemonMessage
  | fileReadResponse (r : FileReadResponse)
  | otherResponse (requestID : String)
  deriving DecidableEq

/-- The request that the message answers. -/
def DaemonMessage.requestID : DaemonMessage → String
  | .fileReadResponse r => r.requestID
  | .otherResponse requestID => requestID

def DaemonMessage.getFileReadResponse : DaemonMessage → Option FileReadResponse
  | .fileReadResponse r => some r
  | .otherResponse _ => none

/-- `sync.Once`, with the call that runs the function. -/
inductive Once
  | idle
  | running (call : ℕ)
  | done
  deriving DecidableEq

/-- What the calls on one session share. -/
structure SessionState where
  /-- The registry holds this session for its node. -/
  registered : Bool := true
  pendingReqs : Table String ℕ := ∅
  channels : Heap DaemonMessage := {}
  closed : Bool := false
  done : Channel Unit := { capacity := 0 }
  closeOnce : Once := .idle
  panicked : Bool := false
  /-- `failPendingRequests` has run. -/
  failed : Bool := false
  issuedTo : Table String ℕ := ∅
  madeFor : ℕ → String := fun _ => ""
  holder : ℕ → Option ℕ := fun _ => none

namespace SessionState

variable (s : SessionState)

/-- Put back the channel that an operation returned; without one the operation has panicked. -/
def put (ch : ℕ) : Option (Channel DaemonMessage) → SessionState
  | none => { s with panicked := true }
  | some c => { s with channels := s.channels.set ch c }

/-- `close(ch)` for the channel of a request. -/
def closeChan (ch : ℕ) : SessionState := s.put ch (s.channels.chan ch).close

/-- `delete(s.pendingReqs, requestID)` and `close(ch)`. -/
def drop (requestID : String) (ch : ℕ) : SessionState :=
  { s with pendingReqs := s.pendingReqs.del requestID }.closeChan ch

def cancelPendingRequest (requestID : String) : SessionState :=
  match s.pendingReqs.get requestID with
  | none => s
  | some ch => s.drop requestID ch

def failPendingRequests : SessionState :=
  { s.pendingReqs.entries.foldl (fun s e => s.drop e.1 e.2) s with failed := true }

/-- `close(s.done)`. -/
def closeDone : SessionState :=
  match s.done.close with
  | none => { s with panicked := true }
  | some c => { s with done := c }

end SessionState

/-- The environment of a step: the id that `idgen` draws, the error of `Stream.Send` and whether
the context of the caller is done. -/
structure RequestEnv where
  newID : String := ""
  sendErr : Option String := none
  ctxErr : Option String := none
  deriving DecidableEq

/-- The places between the steps of the calls. -/
inductive PendingCall
  -- `RequestFileRead`
  | getSession
  | newID
  | makeChan (requestID : String)
  | register (requestID : String) (ch : ℕ)
  | send (requestID : String) (ch : ℕ)
  | wait (requestID : String) (ch : ℕ)
  | deferredCancel (requestID : String) (ch : ℕ) (result : Except String FileReadResponse)
  | answered (requestID : String) (ch : ℕ) (result : Except String FileReadResponse)
  | notConnected (error : String)
  -- `ResolvePendingRequest`
  | resolve (msg : DaemonMessage)
  | offer (ch : ℕ) (msg : DaemonMessage)
  | closeChan (ch : ℕ)
  | resolved (ok : Bool)
  -- `CancelPendingRequest`
  | cancel (requestID : String)
  | cancelled
  -- the cleanup of `Connect`, and `Close`
  | unregisterSession
  | close
  | storeClosed
  | closeDone
  | failPendingRequests
  | onceDone
  | closed
  deriving DecidableEq

namespace PendingCall

/-- The calls that may begin: a request, a response of the daemon, a cancellation, the cleanup of a
stream, and `Close` by itself. -/
def starts : PendingCall → Bool
  | .getSession | .resolve _ | .cancel _ | .unregisterSession | .close => true
  | _ => false

/-- What `RequestFileRead` makes of the value that it receives. -/
def readResult : Option DaemonMessage → Except String FileReadResponse
  | none => .error "request cancelled"
  | some msg =>
    match msg.getFileReadResponse with
    | none => .error "unexpected response type"
    | some r => .ok r

/-- One step of call `i`. -/
def next (i : ℕ) (s : SessionState) : PendingCall → RequestEnv → Option (SessionState × PendingCall)
  | .getSession, _ =>
    some (s, if s.registered then .newID else .notConnected "node not connected")
  | .newID, e =>
    -- `idgen.New` never returns the same id twice
    match s.issuedTo.get e.newID with
    | some _ => none
    | none => some ({ s with issuedTo := s.issuedTo.put e.newID i }, .makeChan e.newID)
  | .makeChan requestID, _ =>
    let ch := s.channels.next
    some ({ s with
      channels := s.channels.make 1
      madeFor := update s.madeFor ch requestID
      holder := update s.holder ch (some i) }, .register requestID ch)
  | .register requestID ch, _ =>
    some ({ s with
      pendingReqs := s.pendingReqs.put requestID ch
      holder := update s.holder ch none }, .send requestID ch)
  | .send requestID ch, e =>
    match e.sendErr with
    | some err => some (s, .deferredCancel requestID ch (.error ("send file read request: " ++ err)))
    | none => some (s, .wait requestID ch)
  | .wait requestID ch, e =>
    match e.ctxErr with
    | some err => some (s, .deferredCancel requestID ch (.error err))
    | none =>
      (s.channels.chan ch).recv.map fun r =>
        ({ s with channels := s.channels.set ch r.2 }, .deferredCancel requestID ch (readResult r.1))
  | .deferredCancel requestID ch result, _ =>
    some (s.cancelPendingRequest requestID, .answered requestID ch result)
  | .resolve msg, _ =>
    match s.pendingReqs.get msg.requestID with
    | none => some (s, .resolved false)
    | some ch =>
      some ({ s with
        pendingReqs := s.pendingReqs.del msg.requestID
        holder := update s.holder ch (some i) }, .offer ch msg)
  | .offer ch msg, _ => some (s.put ch ((s.channels.chan ch).trySend msg), .closeChan ch)
  | .closeChan ch, _ =>
    some ({ s.closeChan ch with holder := update s.holder ch none }, .resolved true)
  | .cancel requestID, _ => some (s.cancelPendingRequest requestID, .cancelled)
  | .unregisterSession, _ => some ({ s with registered := false }, .close)
  | .close, _ =>
    match s.closeOnce with
    | .idle => some ({ s with closeOnce := .running i }, .storeClosed)
    | .running _ => none
    | .done => some (s, .closed)
  | .storeClosed, _ => some ({ s with closed := true }, .closeDone)
  | .closeDone, _ => some (s.closeDone, .failPendingRequests)
  | .failPendingRequests, _ => some (s.failPendingRequests, .onceDone)
  | .onceDone, _ => some ({ s with closeOnce := .done }, .closed)
  | .answered .., _ | .notConnected _, _ | .resolved _, _ | .cancelled, _ | .closed, _ => none

end PendingCall

open PendingCall

/-- Requests, responses, cancellations and the end of one session. -/
def requests : Program SessionState PendingCall RequestEnv where
  start _ c := c.starts
  next := next

/-! ### What is known of the session -/

/-- Open, with room in the buffer, and nothing was sent on it. -/
structure Unused (c : Channel DaemonMessage) : Prop where
  isOpen : c.closed = false
  sent : c.sent = []
  capacity : 0 < c.capacity

namespace SessionState

variable {s s' : SessionState} {i : ℕ}

/-- A channel in the map is unused and nobody holds it; what a channel carries answers its request;
`done` is open until the first `Close`. -/
structure Inv (s : SessionState) : Prop where
  calm : s.panicked = false
  pending : ∀ id ch, s.pendingReqs.get id = some ch → ch < s.channels.next ∧ s.madeFor ch = id ∧
    s.holder ch = none ∧ Unused (s.channels.chan ch)
  carries : ∀ ch < s.channels.next, (s.channels.chan ch).sent.length ≤ 1 ∧
    ∀ m ∈ (s.channels.chan ch).sent, m.requestID = s.madeFor ch
  done : s.closeOnce = .idle → s.done.closed = false

/-- What a step of call `i` leaves to the other calls: the requests of the channels, the channels
that another call holds, and the right to run the body of `Close`. -/
structure OthersKeep (i : ℕ) (s s' : SessionState) : Prop where
  next : s.channels.next ≤ s'.channels.next
  madeFor : ∀ ch < s.channels.next, s'.madeFor ch = s.madeFor ch
  held : ∀ ch < s.channels.next, ∀ j ≠ i, s.holder ch = some j → s'.holder ch = some j ∧
    (s'.channels.chan ch).sent = (s.channels.chan ch).sent ∧
    (s'.channels.chan ch).closed = (s.channels.chan ch).closed ∧
    (s'.channels.chan ch).capacity = (s.channels.chan ch).capacity
  once : ∀ j ≠ i, s.closeOnce = .running j → s'.closeOnce = .running j ∧ s'.done = s.done
  returned : s.closeOnce = .done → s'.closeOnce = .done

theorem OthersKeep.of_same (hchan : s'.channels = s.channels) (hmade : s'.madeFor = s.madeFor)
    (hhold : s'.holder = s.holder) (honce : s'.closeOnce = s.closeOnce)
    (hdone : s'.done = s.done) : OthersKeep i s s' where
  next := by rw [hchan]
  madeFor ch _ := by rw [hmade]
  held ch _ j _ hj := by rw [hchan, hhold]; exact ⟨hj, rfl, rfl, rfl⟩
  once j _ hj := by rw [honce, hdone]; exact ⟨hj, rfl⟩
  returned h := by rw [honce]; exact h

/-! ### Taking entries out of the map -/

/-- Some entries of the map were taken out and their channels closed; nothing else has changed. -/
structure Drops (s s' : SessionState) : Prop where
  rest : { s' with pendingReqs := s.pendingReqs, channels := s.channels } = s
  next : s'.channels.next = s.channels.next
  kept : ∀ id ch, s'.pendingReqs.get id = some ch →
    s.pendingReqs.get id = some ch ∧ s'.channels.chan ch = s.channels.chan ch
  dropped : ∀ id ch, s.pendingReqs.get id = some ch → s'.pendingReqs.get id = none →
    (s'.channels.chan ch).closed = true
  chan : ∀ ch, s'.channels.chan ch = s.channels.chan ch ∨
    ∃ id, s.pendingReqs.get id = some ch ∧
      s'.channels.chan ch = { s.channels.chan ch with closed := true }

theorem Drops.refl (s : SessionState) : Drops s s :=
  ⟨rfl, rfl, fun _ _ h => ⟨h, rfl⟩, fun _ _ h h' => by simp [h] at h', fun _ => .inl rfl⟩

theorem Drops.trans {s'' : SessionState} (h : Drops s s') (h' : Drops s' s'') : Drops s s'' where
  rest := by
    have hrest := h'.rest
    rw [← h.rest, ← hrest]
  next := h'.next.trans h.next
  kept id ch hch := by
    obtain ⟨hch', heq'⟩ := h'.kept id ch hch
    obtain ⟨hch, heq⟩ := h.kept id ch hch'
    exact ⟨hch, heq'.trans heq⟩
  dropped id ch hch hnone := by
    cases hget : s'.pendingReqs.get id with
    | none =>
      -- closed by the first part, and a channel is not opened again
      have hcl := h.dropped id ch hch hget
      rcases h'.chan ch with heq | ⟨_, _, heq⟩
      · rw [heq]; exact hcl
      · rw [heq]
    | some ch' =>
      obtain ⟨hch', _⟩ := h.kept id ch' hget
      rw [hch] at hch'
      cases hch'
      exact h'.dropped id ch hget hnone
  chan ch := by
    rcases h'.chan ch with heq' | ⟨id, hid, heq'⟩
    · rw [heq']
      exact h.chan ch
    · obtain ⟨hch, heq⟩ := h.kept id ch hid
      exact .inr ⟨id, hch, by rw [heq', heq]⟩

theorem Drops.closeOnce (h : Drops s s') : s'.closeOnce = s.closeOnce :=
  (congrArg SessionState.closeOnce h.rest :)

theorem Drops.madeFor (h : Drops s s') : s'.madeFor = s.madeFor :=
  (congrArg SessionState.madeFor h.rest :)

theorem Drops.holder (h : Drops s s') : s'.holder = s.holder :=
  (congrArg SessionState.holder h.rest :)

theorem Drops.done (h : Drops s s') : s'.done = s.done := (congrArg SessionState.done h.rest :)

theorem Drops.inv (hs : s.Inv) (h : Drops s s') : s'.Inv where
  calm := (congrArg SessionState.panicked h.rest).trans hs.calm
  pending id ch hch := by
    obtain ⟨hch, heq⟩ := h.kept id ch hch
    rw [h.next, h.madeFor, h.holder, heq]
    exact hs.pending id ch hch
  carries ch hlt := by
    rw [h.next] at hlt
    have hsent : (s'.channels.chan ch).sent = (s.channels.chan ch).sent := by
      rcases h.chan ch with heq | ⟨_, _, heq⟩ <;> rw [heq]
    rw [hsent, h.madeFor]
    exact hs.carries ch hlt
  done hidle := by
    rw [h.done]
    exact hs.done (h.closeOnce ▸ hidle)

theorem Drops.frame (hs : s.Inv) (h : Drops s s') : OthersKeep i s s' where
  next := h.next.ge
  madeFor ch _ := by rw [h.madeFor]
  held ch _ j _ hj := by
    rcases h.chan ch with heq | ⟨id, hid, _⟩
    · rw [heq, h.holder]
      exact ⟨hj, rfl, rfl, rfl⟩
    · -- nobody holds a channel of the map
      obtain ⟨_, _, hnone, _⟩ := hs.pending id ch hid
      rw [hnone] at hj
      cases hj
  once j _ hj := by rw [h.closeOnce, h.done]; exact ⟨hj, rfl⟩
  returned hret := by rw [h.closeOnce]; exact hret

theorem drops_drop (hs : s.Inv) {id : String} {ch : ℕ} (hid : s.pendingReqs.get id = some ch) :
    Drops s (s.drop id ch) := by
  obtain ⟨_, hmade, _, hnew⟩ := hs.pending id ch hid
  have heq : s.drop id ch = { s with
      pendingReqs := s.pendingReqs.del id
      channels := s.channels.set ch { s.channels.chan ch with closed := true } } := by
    simp only [drop, closeChan, Channel.close_open hnew.isOpen, put]
  rw [heq]
  refine ⟨rfl, rfl, fun id' ch' hid' => ?_, fun id' ch' hid' hnone => ?_, fun ch' => ?_⟩
  · rw [Table.get_del] at hid'
    split_ifs at hid' with hne
    refine ⟨hid', set_chan_ne _ _ ?_⟩
    rintro rfl
    -- a channel belongs to one request only
    exact hne ((hs.pending id' ch' hid').2.1.symm.trans hmade)
  · rw [Table.get_del] at hnone
    split_ifs at hnone with heq
    · rw [heq, hid] at hid'
      cases hid'
      simp
    · rw [hid'] at hnone
      cases hnone
  · by_cases hch : ch' = ch
    · subst hch
      exact .inr ⟨id, hid, set_chan_self ..⟩
    · exact .inl (set_chan_ne _ _ hch)

theorem drops_cancelPendingRequest (hs : s.Inv) (id : String) :
    Drops s (s.cancelPendingRequest id) := by
  unfold cancelPendingRequest
  cases hid : s.pendingReqs.get id with
  | none => exact .refl s
  | some ch => exact drops_drop hs hid

theorem drops_foldl (l : List (Sigma fun _ : String => ℕ)) (hl : l.NodupKeys) (hs : s.Inv)
    (hmem : ∀ e ∈ l, s.pendingReqs.get e.1 = some e.2) :
    Drops s (l.foldl (fun s e => s.drop e.1 e.2) s) ∧
      ∀ e ∈ l, (l.foldl (fun s e => s.drop e.1 e.2) s).pendingReqs.get e.1 = none := by
  induction l generalizing s with
  | nil => exact ⟨.refl s, nofun⟩
  | cons e l ih =>
    obtain ⟨hnotin, hl⟩ := List.nodupKeys_cons.1 hl
    have hdrop := drops_drop hs (hmem e List.mem_cons_self)
    have hget (id : String) : (s.drop e.1 e.2).pendingReqs.get id =
        if id = e.1 then none else s.pendingReqs.get id := by
      rw [← Table.get_del]
      simp only [drop, closeChan, put]
      split <;> rfl
    have hrest : ∀ f ∈ l, (s.drop e.1 e.2).pendingReqs.get f.1 = some f.2 := by
      intro f hf
      rw [hget, if_neg, hmem f (List.mem_cons_of_mem e hf)]
      intro heq
      exact hnotin (heq ▸ List.mem_map_of_mem hf)
    obtain ⟨hdrops, hnone⟩ := ih hl (hdrop.inv hs) hrest
    refine ⟨hdrop.trans hdrops, fun f hf => ?_⟩
    rcases List.mem_cons.1 hf with rfl | hf
    · -- nothing comes back into the map
      refine Option.eq_none_iff_forall_ne_some.2 fun ch hch => ?_
      have := (hdrops.kept _ _ hch).1
      rw [hget, if_pos rfl] at this
      cases this
    · exact hnone f hf

theorem drops_failPendingRequests (hs : s.Inv) :
    ∃ s₁, s.failPendingRequests = { s₁ with failed := true } ∧ Drops s s₁ ∧
      ∀ id, s₁.pendingReqs.get id = none := by
  obtain ⟨hdrops, hnone⟩ := drops_foldl s.pendingReqs.entries s.pendingReqs.nodupKeys hs
    fun e he => Table.get_eq_some_iff.2 he
  refine ⟨_, rfl, hdrops, fun id => ?_⟩
  refine Option.eq_none_iff_forall_ne_some.2 fun ch hch => ?_
  have hmem := Table.get_eq_some_iff.1 (hdrops.kept id ch hch).1
  rw [hnone _ hmem] at hch
  cases hch

end SessionState

/-! ### What is known of the calls -/

namespace PendingCall

open SessionState

variable {s s' : SessionState} {i j : ℕ} {c c' : PendingCall} {e : RequestEnv} {requestID : String}

/-- What a call may rely on at each of its places. -/
def Holds (i : ℕ) (s : SessionState) : PendingCall → Prop
  | .register requestID ch => ch < s.channels.next ∧ s.madeFor ch = requestID ∧
    s.holder ch = some i ∧ Unused (s.channels.chan ch)
  | .send requestID ch | .wait requestID ch | .deferredCancel requestID ch _
  | .answered requestID ch _ => ch < s.channels.next ∧ s.madeFor ch = requestID
  | .offer ch msg => ch < s.channels.next ∧ s.madeFor ch = msg.requestID ∧
    s.holder ch = some i ∧ Unused (s.channels.chan ch)
  | .closeChan ch => ch < s.channels.next ∧ s.holder ch = some i ∧
    (s.channels.chan ch).closed = false
  | .storeClosed | .closeDone => s.closeOnce = .running i ∧ s.done.closed = false
  | .failPendingRequests | .onceDone => s.closeOnce = .running i
  | .closed => s.closeOnce = .done
  | _ => True

theorem Holds.frame (hji : j ≠ i) (hframe : OthersKeep i s s') (h : Holds j s c) :
    Holds j s' c := by
  have hlt {ch : ℕ} (hch : ch < s.channels.next) : ch < s'.channels.next :=
    Nat.lt_of_lt_of_le hch hframe.next
  have hnew {ch : ℕ} (hch : ch < s.channels.next) (hj : s.holder ch = some j)
      (hu : Unused (s.channels.chan ch)) : Unused (s'.channels.chan ch) := by
    obtain ⟨_, hsent, hcl, hcap⟩ := hframe.held ch hch j hji hj
    exact ⟨hcl.trans hu.isOpen, hsent.trans hu.sent, hcap.symm ▸ hu.capacity⟩
  cases c with
  | register requestID ch | offer ch msg =>
    obtain ⟨hch, hmade, hj, hu⟩ := h
    exact ⟨hlt hch, (hframe.madeFor ch hch).trans hmade, (hframe.held ch hch j hji hj).1,
      hnew hch hj hu⟩
  | closeChan ch =>
    obtain ⟨hch, hj, hopen⟩ := h
    obtain ⟨hj', _, hcl, _⟩ := hframe.held ch hch j hji hj
    exact ⟨hlt hch, hj', hcl.trans hopen⟩
  | send requestID ch | wait requestID ch | deferredCancel requestID ch result
  | answered requestID ch result =>
    exact ⟨hlt h.1, (hframe.madeFor ch h.1).trans h.2⟩
  | storeClosed | closeDone =>
    obtain ⟨honce, hdone⟩ := hframe.once j hji h.1
    exact ⟨honce, hdone ▸ h.2⟩
  | failPendingRequests | onceDone => exact (hframe.once j hji h).1
  | closed => exact hframe.returned h
  | _ => trivial

/-- The steps, none of which panics. -/
inductive Step (i : ℕ) (s : SessionState) (e : RequestEnv) :
    PendingCall → SessionState → PendingCall → Prop
  | connected : Step i s e .getSession s .newID
  | notConnected (err : String) : Step i s e .getSession s (.notConnected err)
  | newID (hfresh : s.issuedTo.get e.newID = none) : Step i s e .newID
    { s with issuedTo := s.issuedTo.put e.newID i } (.makeChan e.newID)
  | makeChan (id : String) : Step i s e (.makeChan id)
    { s with
      channels := s.channels.make 1
      madeFor := update s.madeFor s.channels.next id
      holder := update s.holder s.channels.next (some i) } (.register id s.channels.next)
  | register (id : String) (ch : ℕ) : Step i s e (.register id ch)
    { s with
      pendingReqs := s.pendingReqs.put id ch
      holder := update s.holder ch none } (.send id ch)
  | sent (id : String) (ch : ℕ) (hsent : e.sendErr = none) : Step i s e (.send id ch) s (.wait id ch)
  | notSent (id : String) (ch : ℕ) (err : String) :
    Step i s e (.send id ch) s (.deferredCancel id ch (.error err))
  | ctxDone (id : String) (ch : ℕ) (err : String) :
    Step i s e (.wait id ch) s (.deferredCancel id ch (.error err))
  | received {id ch result v c₁ : _} (hrecv : (s.channels.chan ch).recv = some (v, c₁)) :
    Step i s e (.wait id ch) { s with channels := s.channels.set ch c₁ } (.deferredCancel id ch result)
  | deferredCancel {id ch result s' : _} (hdrops : Drops s s') :
    Step i s e (.deferredCancel id ch result) s' (.answered id ch result)
  | unknown (msg : DaemonMessage) : Step i s e (.resolve msg) s (.resolved false)
  | resolve {msg ch : _} (hget : s.pendingReqs.get msg.requestID = some ch) : Step i s e (.resolve msg)
    { s with
      pendingReqs := s.pendingReqs.del msg.requestID
      holder := update s.holder ch (some i) } (.offer ch msg)
  | offer (ch : ℕ) (msg : DaemonMessage) : Step i s e (.offer ch msg)
    { s with channels := s.channels.set ch { s.channels.chan ch with sent := [msg] } } (.closeChan ch)
  | closeChan (ch : ℕ) : Step i s e (.closeChan ch)
    { s with
      channels := s.channels.set ch { s.channels.chan ch with closed := true }
      holder := update s.holder ch none } (.resolved true)
  | cancel {id s' : _} (hdrops : Drops s s') : Step i s e (.cancel id) s' .cancelled
  | unregisterSession : Step i s e .unregisterSession { s with registered := false } .close
  | close (hidle : s.closeOnce = .idle) :
    Step i s e .close { s with closeOnce := .running i } .storeClosed
  | returned (hdone : s.closeOnce = .done) : Step i s e .close s .closed
  | storeClosed : Step i s e .storeClosed { s with closed := true } .closeDone
  | closeDone : Step i s e .closeDone { s with done := { s.done with closed := true } }
    .failPendingRequests
  | failPendingRequests {s₁ : _} (hdrops : Drops s s₁) (hnone : ∀ id, s₁.pendingReqs.get id = none) :
    Step i s e .failPendingRequests { s₁ with failed := true } .onceDone
  | onceDone : Step i s e .onceDone { s with closeOnce := .done } .closed

theorem step_of_next (hs : s.Inv) (hc : Holds i s c) (h : next i s c e = some (s', c')) :
    Step i s e c s' c' := by
  cases c with
  | getSession =>
    cases h
    split_ifs
    exacts [.connected, .notConnected _]
  | newID =>
    simp only [next] at h
    split at h <;> cases h
    exact .newID ‹_›
  | makeChan | register | unregisterSession | storeClosed | onceDone =>
    cases h
    constructor
  | send =>
    simp only [next] at h
    split at h <;> cases h
    exacts [.notSent .., .sent _ _ ‹_›]
  | wait =>
    simp only [next] at h
    split at h
    · cases h
      exact .ctxDone ..
    · obtain ⟨r, hrecv, h⟩ := Option.map_eq_some_iff.1 h
      cases h
      exact .received hrecv
  | deferredCancel id =>
    cases h
    exact .deferredCancel (drops_cancelPendingRequest hs id)
  | cancel id =>
    cases h
    exact .cancel (drops_cancelPendingRequest hs id)
  | resolve =>
    simp only [next] at h
    split at h <;> cases h
    exacts [.unknown _, .resolve ‹_›]
  | offer ch msg =>
    obtain ⟨_, _, _, hnew⟩ := hc
    simp only [next, Channel.trySend_first hnew.isOpen hnew.sent hnew.capacity, put] at h
    cases h
    exact .offer ch msg
  | closeChan ch =>
    simp only [next, SessionState.closeChan, Channel.close_open hc.2.2, put] at h
    cases h
    exact .closeChan ch
  | close =>
    simp only [next] at h
    split at h <;> cases h
    exacts [.close ‹_›, .returned ‹_›]
  | closeDone =>
    simp only [next, SessionState.closeDone, Channel.close_open hc.2] at h
    cases h
    exact .closeDone
  | failPendingRequests =>
    obtain ⟨s₁, heq, hdrops, hnone⟩ := drops_failPendingRequests hs
    simp only [next, heq] at h
    cases h
    exact .failPendingRequests hdrops hnone
  | _ => cases h

/-- What a step must establish. -/
def Good (i : ℕ) (s : SessionState) (s' : SessionState) (c' : PendingCall) : Prop :=
  s'.Inv ∧ Holds i s' c' ∧ OthersKeep i s s'

/-! ### The steps of a request -/

theorem good_makeChan (hs : s.Inv)
    (h : Step i s e (.makeChan requestID) s' c') : Good i s s' c' := by
  cases h
  have hne {ch : ℕ} (hch : ch < s.channels.next) : ch ≠ s.channels.next := Nat.ne_of_lt hch
  refine ⟨⟨hs.calm, fun id ch hid => ?_, fun ch hch => ?_, hs.done⟩,
    ⟨Nat.lt_succ_self _, ?_, ?_, ?_⟩, ⟨Nat.le_succ _, fun ch hch => ?_, fun ch hch j _ hj => ?_,
      fun j _ hj => ⟨hj, rfl⟩, id⟩⟩
  · obtain ⟨hlt, hmade, hhold, hnew⟩ := hs.pending id ch hid
    refine ⟨Nat.lt_succ_of_lt hlt, ?_, ?_, ?_⟩
    · exact (update_of_ne (hne hlt) ..).trans hmade
    · exact (update_of_ne (hne hlt) ..).trans hhold
    · exact (make_chan_of_lt _ 1 hlt).symm ▸ hnew
  · rcases Nat.lt_succ_iff_lt_or_eq.1 hch with hlt | rfl
    · simp only [make_chan_of_lt _ 1 hlt, update_of_ne (hne hlt)]
      exact hs.carries ch hlt
    · simp
  · exact update_self ..
  · exact update_self ..
  · simp only [make_chan_self]
    exact ⟨rfl, rfl, Nat.one_pos⟩
  · exact update_of_ne (hne hch) ..
  · refine ⟨(update_of_ne (hne hch) ..).trans hj, ?_⟩
    rw [make_chan_of_lt _ 1 hch]
    exact ⟨rfl, rfl, rfl⟩

variable {ch : ℕ} {msg : DaemonMessage}

section

variable (hs : s.Inv)
include hs

theorem good_register (hc : Holds i s (.register requestID ch))
    (h : Step i s e (.register requestID ch) s' c') : Good i s s' c' := by
  cases h
  obtain ⟨hlt, hmade, hhold, hnew⟩ := hc
  refine ⟨⟨hs.calm, fun id ch' hid => ?_, hs.carries, hs.done⟩, ⟨hlt, hmade⟩,
    ⟨le_rfl, fun _ _ => rfl, fun ch' _ j hji hj => ⟨?_, rfl, rfl, rfl⟩, fun j _ hj => ⟨hj, rfl⟩, id⟩⟩
  · simp only [Table.get_put] at hid
    split_ifs at hid with heq
    · cases hid
      exact ⟨hlt, hmade.trans heq.symm, update_self .., hnew⟩
    · obtain ⟨hlt', hmade', hhold', hunus'⟩ := hs.pending id ch' hid
      refine ⟨hlt', hmade', ?_, hunus'⟩
      by_cases hch : ch' = ch
      · subst hch; exact update_self ..
      · exact (update_of_ne hch ..).trans hhold'
  · refine (update_of_ne ?_ ..).trans hj
    rintro rfl
    rw [hhold] at hj
    cases hj
    exact hji rfl

theorem good_received (hc : Holds i s (.wait requestID ch))
    {v : Option DaemonMessage} {c₁ : Channel DaemonMessage} {result : Except String FileReadResponse}
    (hrecv : (s.channels.chan ch).recv = some (v, c₁)) :
    Good i s { s with channels := s.channels.set ch c₁ } (.deferredCancel requestID ch result) := by
  obtain ⟨hsent, hcl, hcap⟩ := Channel.recv_frame hrecv
  -- whichever channel is looked at, receiving changes none of these
  have hsame (ch' : ℕ) : ((s.channels.set ch c₁).chan ch').sent = (s.channels.chan ch').sent ∧
      ((s.channels.set ch c₁).chan ch').closed = (s.channels.chan ch').closed ∧
      ((s.channels.set ch c₁).chan ch').capacity = (s.channels.chan ch').capacity := by
    by_cases hch : ch' = ch
    · subst hch
      rw [set_chan_self]
      exact ⟨hsent, hcl, hcap⟩
    · rw [set_chan_ne _ _ hch]
      exact ⟨rfl, rfl, rfl⟩
  refine ⟨⟨hs.calm, fun id ch' hid => ?_, fun ch' hlt => ?_, hs.done⟩, hc,
    ⟨le_rfl, fun _ _ => rfl, fun ch' _ j _ hj => ⟨hj, hsame ch'⟩, fun j _ hj => ⟨hj, rfl⟩, id⟩⟩
  · obtain ⟨hlt, hmade, hhold, hnew⟩ := hs.pending id ch' hid
    obtain ⟨hsent', hclos', hcap'⟩ := hsame ch'
    exact ⟨hlt, hmade, hhold, hclos'.trans hnew.isOpen, hsent'.trans hnew.sent,
      hcap'.symm ▸ hnew.capacity⟩
  · rw [(hsame ch').1]
    exact hs.carries ch' hlt

/-! ### The steps of a response -/

theorem good_resolve (hget : s.pendingReqs.get msg.requestID = some ch) :
    Good i s { s with
      pendingReqs := s.pendingReqs.del msg.requestID
      holder := update s.holder ch (some i) } (.offer ch msg) := by
  obtain ⟨hlt, hmade, hhold, hnew⟩ := hs.pending _ ch hget
  refine ⟨⟨hs.calm, fun id ch' hid => ?_, hs.carries, hs.done⟩,
    ⟨hlt, hmade, update_self .., hnew⟩,
    ⟨le_rfl, fun _ _ => rfl, fun ch' _ j hji hj => ⟨?_, rfl, rfl, rfl⟩, fun j _ hj => ⟨hj, rfl⟩,
      id⟩⟩
  · simp only [Table.get_del] at hid
    split_ifs at hid with hne
    obtain ⟨hlt', hmade', hhold', hunus'⟩ := hs.pending id ch' hid
    refine ⟨hlt', hmade', (update_of_ne ?_ ..).trans hhold', hunus'⟩
    -- the channel that was taken is the channel of this request only
    rintro rfl
    exact hne (hmade'.symm.trans hmade)
  · refine (update_of_ne ?_ ..).trans hj
    rintro rfl
    rw [hhold] at hj
    cases hj

theorem good_held (hhold : s.holder ch = some i)
    (c₁ : Channel DaemonMessage) (holder' : Option ℕ) (hlen : c₁.sent.length ≤ 1)
    (hsent : ∀ m ∈ c₁.sent, m.requestID = s.madeFor ch)
    (hc' : Holds i { s with
      channels := s.channels.set ch c₁, holder := update s.holder ch holder' } c') :
    Good i s { s with
      channels := s.channels.set ch c₁, holder := update s.holder ch holder' } c' := by
  refine ⟨⟨hs.calm, fun id ch' hid => ?_, fun ch' hlt => ?_, hs.done⟩, hc',
    ⟨le_rfl, fun _ _ => rfl, fun ch' _ j hji hj => ?_, fun j _ hj => ⟨hj, rfl⟩, id⟩⟩
  · obtain ⟨hlt, hmade, hnone, hnew⟩ := hs.pending id ch' hid
    have hne : ch' ≠ ch := by
      rintro rfl
      rw [hhold] at hnone
      cases hnone
    refine ⟨hlt, hmade, (update_of_ne hne ..).trans hnone, ?_⟩
    exact (set_chan_ne _ _ hne).symm ▸ hnew
  · by_cases hch : ch' = ch
    · subst hch
      simp only [set_chan_self]
      exact ⟨hlen, hsent⟩
    · simp only [set_chan_ne _ _ hch]
      exact hs.carries ch' hlt
  · have hne : ch' ≠ ch := by
      rintro rfl
      rw [hhold] at hj
      cases hj
      exact hji rfl
    refine ⟨(update_of_ne hne ..).trans hj, ?_⟩
    rw [set_chan_ne _ _ hne]
    exact ⟨rfl, rfl, rfl⟩

theorem good_offer (hc : Holds i s (.offer ch msg)) :
    Good i s { s with channels := s.channels.set ch { s.channels.chan ch with sent := [msg] } }
      (.closeChan ch) := by
  obtain ⟨hlt, hmade, hhold, hnew⟩ := hc
  have heq : update s.holder ch (some i) = s.holder := by
    rw [← hhold, update_eq_self]
  have hgood : Good i s _ (.closeChan ch) :=
    good_held hs hhold { s.channels.chan ch with sent := [msg] } (some i) le_rfl
      (by simpa using hmade.symm) ⟨hlt, update_self .., by simpa using hnew.isOpen⟩
  rwa [heq] at hgood

/-! ### The steps of `Close` -/

theorem good_close (hidle : s.closeOnce = .idle) :
    Good i s { s with closeOnce := .running i } .storeClosed := by
  refine ⟨⟨hs.calm, hs.pending, hs.carries, nofun⟩, ⟨rfl, hs.done hidle⟩,
    ⟨le_rfl, fun _ _ => rfl, fun _ _ _ _ hj => ⟨hj, rfl, rfl, rfl⟩, fun j _ hj => ?_,
      fun hret => ?_⟩⟩
  · rw [hidle] at hj
    cases hj
  · rw [hidle] at hret
    cases hret

end

/-- The body of `Close` runs once, so other calls do not care about the state of `done`. -/
theorem frame_of_running (hrun : s.closeOnce = .running i) (hchan : s'.channels = s.channels)
    (hmade : s'.madeFor = s.madeFor) (hhold : s'.holder = s.holder) : OthersKeep i s s' where
  next := by rw [hchan]
  madeFor ch _ := by rw [hmade]
  held ch _ j _ hj := by rw [hchan, hhold]; exact ⟨hj, rfl, rfl, rfl⟩
  once j hji hj := by
    rw [hrun] at hj
    cases hj
    exact absurd rfl hji
  returned hret := by
    rw [hrun] at hret
    cases hret

/-- **Every step keeps what is known.** -/
theorem good_next (hs : s.Inv) (hc : Holds i s c) (h : next i s c e = some (s', c')) :
    Good i s s' c' := by
  cases step_of_next hs hc h with
  | makeChan id => exact good_makeChan hs (.makeChan (e := e) id)
  | register id ch => exact good_register hs hc (.register (e := e) id ch)
  | received hrecv => exact good_received hs hc hrecv
  | deferredCancel hdrops =>
    have hframe : OthersKeep i s s' := hdrops.frame hs
    exact ⟨hdrops.inv hs, ⟨Nat.lt_of_lt_of_le hc.1 hframe.next,
      (hframe.madeFor _ hc.1).trans hc.2⟩, hframe⟩
  | cancel hdrops => exact ⟨hdrops.inv hs, trivial, hdrops.frame hs⟩
  | resolve hget => exact good_resolve hs hget
  | offer ch msg => exact good_offer hs hc
  | closeChan ch =>
    obtain ⟨hlen, hsent⟩ := hs.carries ch hc.1
    exact good_held hs hc.2.1 _ none hlen hsent trivial
  | close hidle => exact good_close hs hidle
  | returned hdone => exact ⟨hs, hdone, .of_same rfl rfl rfl rfl rfl⟩
  | closeDone =>
    refine ⟨{ hs with done := fun hidle => ?_ }, hc.1, frame_of_running hc.1 rfl rfl rfl⟩
    rw [hc.1] at hidle
    cases hidle
  | failPendingRequests hdrops =>
    have hinv := hdrops.inv hs
    have hframe := hdrops.frame (i := i) hs
    exact ⟨{ hinv with }, hdrops.closeOnce.trans hc, { hframe with }⟩
  | onceDone => exact ⟨{ hs with done := nofun }, rfl, frame_of_running hc rfl rfl rfl⟩
  | _ => exact ⟨{ hs with }, hc, .of_same rfl rfl rfl rfl rfl⟩

/-! ### Who holds a channel and who runs `Close` -/

/-- Inside the function of `closeOnce.Do`. -/
def inClose : PendingCall → Bool
  | .storeClosed | .closeDone | .failPendingRequests | .onceDone => true
  | _ => false

/-- The channel that the call has to itself. -/
def ownChan : PendingCall → Option ℕ
  | .register _ ch | .offer ch _ | .closeChan ch => some ch
  | _ => none

/-- The call that the store names as the holder of a channel or as the one that runs the body of
`Close` is there, at a place where it does this. -/
structure Slot (s : SessionState) (i : ℕ) (c : Option PendingCall) : Prop where
  close : s.closeOnce = .running i → ∃ d ∈ c, d.inClose = true
  chan : ∀ ch, s.holder ch = some i → ∃ d ∈ c, d.ownChan = some ch

theorem slot_new (i : ℕ) : Slot {} i none := ⟨nofun, nofun⟩

section

variable (i : ℕ) (s : SessionState) (c : PendingCall) (s' : SessionState) (c' : PendingCall)

/-- A step may begin the body of `Close` or end it; any other one stays inside or outside. -/
def CloseStep : Prop :=
  s'.closeOnce = s.closeOnce ∧ c'.inClose = c.inClose ∨
    s'.closeOnce = .running i ∧ c'.inClose = true ∨ s'.closeOnce = .done ∧ c = .onceDone

/-- A step may take a channel for itself or give its own one away. -/
def ChanStep : Prop :=
  s'.holder = s.holder ∧ c'.ownChan = c.ownChan ∨
    (∃ ch, s'.holder = update s.holder ch (some i) ∧ c.ownChan = none ∧
      c'.ownChan = some ch) ∨
    ∃ ch, s'.holder = update s.holder ch none ∧ c.ownChan = some ch ∧ c'.ownChan = none

end

theorem step_steps (h : Step i s e c s' c') : CloseStep i s c s' c' ∧ ChanStep i s c s' c' := by
  cases h with
  | makeChan | resolve => exact ⟨.inl ⟨rfl, rfl⟩, .inr (.inl ⟨_, rfl, rfl, rfl⟩)⟩
  | register | closeChan => exact ⟨.inl ⟨rfl, rfl⟩, .inr (.inr ⟨_, rfl, rfl, rfl⟩)⟩
  | deferredCancel hdrops | cancel hdrops | failPendingRequests hdrops =>
    exact ⟨.inl ⟨hdrops.closeOnce, rfl⟩, .inl ⟨hdrops.holder, rfl⟩⟩
  | close => exact ⟨.inr (.inl ⟨rfl, rfl⟩), .inl ⟨rfl, rfl⟩⟩
  | onceDone => exact ⟨.inr (.inr ⟨rfl, rfl⟩), .inl ⟨rfl, rfl⟩⟩
  | _ => exact ⟨.inl ⟨rfl, rfl⟩, .inl ⟨rfl, rfl⟩⟩

theorem Slot.step (hslot : Slot s i (some c)) (h : Step i s e c s' c') : Slot s' i (some c') := by
  obtain ⟨hclose, hchan⟩ := step_steps h
  constructor
  · intro hrun
    rcases hclose with ⟨honce, hin⟩ | ⟨_, hin⟩ | ⟨hdone, _⟩
    · obtain ⟨d, hd, hd'⟩ := hslot.close (honce ▸ hrun)
      cases hd
      exact ⟨c', rfl, hin.trans hd'⟩
    · exact ⟨c', rfl, hin⟩
    · rw [hdone] at hrun
      cases hrun
  · intro ch hch
    rcases hchan with ⟨hhold, hown⟩ | ⟨ch₁, hhold, hnone, hown⟩ | ⟨ch₁, hhold, hown, _⟩
    · obtain ⟨d, hd, hd'⟩ := hslot.chan ch (hhold ▸ hch)
      cases hd
      exact ⟨c', rfl, hown.trans hd'⟩
    · by_cases heq : ch = ch₁
      · subst heq
        exact ⟨c', rfl, hown⟩
      · rw [hhold, update_of_ne heq] at hch
        obtain ⟨d, hd, hd'⟩ := hslot.chan ch hch
        cases hd
        rw [hnone] at hd'
        cases hd'
    · -- the channel that was given away has no holder, and there was no other one
      by_cases heq : ch = ch₁
      · subst heq
        rw [hhold, update_self] at hch
        cases hch
      · rw [hhold, update_of_ne heq] at hch
        obtain ⟨d, hd, hd'⟩ := hslot.chan ch hch
        cases hd
        rw [hown] at hd'
        cases hd'
        exact absurd rfl heq

theorem Slot.other {x : Option PendingCall} (hji : j ≠ i) (hslot : Slot s j x)
    (h : Step i s e c s' c') : Slot s' j x := by
  obtain ⟨hclose, hchan⟩ := step_steps h
  constructor
  · intro hrun
    rcases hclose with ⟨honce, _⟩ | ⟨honce, _⟩ | ⟨honce, _⟩
    · exact hslot.close (honce ▸ hrun)
    · rw [honce] at hrun
      cases hrun
      exact absurd rfl hji
    · rw [honce] at hrun
      cases hrun
  · intro ch hch
    have hupdate {ch₁ : ℕ} {o : Option ℕ} (ho : o ≠ some j)
        (hhold : s'.holder = update s.holder ch₁ o) : s.holder ch = some j := by
      rw [hhold] at hch
      by_cases heq : ch = ch₁
      · subst heq
        rw [update_self] at hch
        exact absurd hch ho
      · rwa [update_of_ne heq] at hch
    rcases hchan with ⟨hhold, _⟩ | ⟨ch₁, hhold, _⟩ | ⟨ch₁, hhold, _⟩
    · exact hslot.chan ch (hhold ▸ hch)
    · refine hslot.chan ch (hupdate ?_ hhold)
      intro heq
      cases heq
      exact hji rfl
    · exact hslot.chan ch (hupdate (Option.some_ne_none j).symm hhold)

end PendingCall

/-! ### All interleavings -/

/-- What is known of the session and of every call, and the calls that the store names are there. -/
structure RequestsInv (p : Pool SessionState PendingCall) : Prop where
  pool : PoolInv SessionState.Inv Holds p
  slots : ∀ j, Slot p.store j p.calls[j]?

theorem requestsInv_new : RequestsInv (Pool.idle {}) :=
  ⟨.idle ⟨rfl, nofun, nofun, fun _ => rfl⟩, fun j => slot_new j⟩

theorem requestsInv_step : Stable requests.step RequestsInv := by
  intro p m p' hp h
  have hguard : GuardedAt (fun p i c _ => Holds i p.store c) p m := by
    cases m with
    | spawn c => trivial
    | advance i e => exact fun c hc => hp.pool.call i c hc
  constructor
  · refine Program.inv_step (G := fun _ _ _ => True) (fun p c _ hc => ?_)
      (fun p i e c s' c' hp _ hc hn => ?_) p m p' hp.pool (guarded_true p m) h
    · cases c <;> trivial
    · obtain ⟨hinv, hholds, hframe⟩ := good_next hp.store (hp.call i c hc) hn
      exact ⟨hinv, hholds, fun j d hji hd => (hp.call j d hd).frame hji hframe⟩
  · refine (Program.slotsInv_step (I := SessionState.Inv) (fun s i c _ _ hslot => ?_)
      (fun p i e c s' c' hs hslot hc hn => ?_) p m p' ⟨hp.pool.store, hp.slots⟩ hguard h).slot
    · refine ⟨fun hrun => ?_, fun ch hch => ?_⟩
      · obtain ⟨_, hnone, _⟩ := hslot.close hrun
        cases hnone
      · obtain ⟨_, hnone, _⟩ := hslot.chan ch hch
        cases hnone
    · have hstep := step_of_next hs hc hn
      exact ⟨(good_next hs hc hn).1, hslot.step hstep, fun j hji hslot => hslot.other hji hstep⟩

namespace PendingCall

/-- A place inside an operation of the session. -/
def inSession : PendingCall → Bool
  | .makeChan _ | .register .. | .deferredCancel .. | .resolve _ | .offer .. | .closeChan _
  | .cancel _ | .close | .storeClosed | .closeDone | .failPendingRequests | .onceDone => true
  | _ => false

/-- The id and the channel of a requester. -/
def channel : PendingCall → Option (String × ℕ)
  | .register requestID ch | .send requestID ch | .wait requestID ch
  | .deferredCancel requestID ch _ | .answered requestID ch _ => some (requestID, ch)
  | _ => none

/-- The call can make its next step, whatever the environment does. -/
def Ready (c : PendingCall) (s : SessionState) (i : ℕ) : Prop := ∀ e, (next i s c e).isSome = true

theorem ready_of_inSession {s : SessionState} {i : ℕ} {c : PendingCall} (h : c.inSession = true)
    (hclose : c = .close → ∀ j, s.closeOnce ≠ .running j) : c.Ready s i := by
  intro e
  cases c with
  | resolve msg =>
    simp only [next]
    split <;> rfl
  | close =>
    simp only [next]
    split
    · rfl
    · exact absurd ‹_› (hclose rfl _)
    · rfl
  | _ => first | rfl | cases h

end PendingCall

/-- In every interleaving no channel operation panics; every operation of the session can go on,
except that a `Close` may wait for another one; and a channel carries at most one response, one to
its own request. -/
theorem requests_safe {ms : List (Move PendingCall RequestEnv)} {p : Pool SessionState PendingCall}
    (h : run requests.step (Pool.idle {}) ms = some p) :
    p.store.panicked = false ∧
    (∀ (i : ℕ) (c : PendingCall), p.calls[i]? = some c → c.inSession = true → c.Ready p.store i ∨
      c = .close ∧ ∃ (j : ℕ) (d : PendingCall), p.calls[j]? = some d ∧ d.inClose = true ∧
        d.Ready p.store j) ∧
    ∀ (i : ℕ) (c : PendingCall) requestID ch, p.calls[i]? = some c →
      c.channel = some (requestID, ch) →
      (p.store.channels.chan ch).sent.length ≤ 1 ∧
      ∀ m ∈ (p.store.channels.chan ch).sent, m.requestID = requestID := by
  have hp := run_inv_all RequestsInv requestsInv_step requestsInv_new h
  refine ⟨hp.pool.store.calm, fun i c hc hin => ?_, fun i c requestID ch hc hch => ?_⟩
  · by_cases hrun : ∃ j, c = .close ∧ p.store.closeOnce = .running j
    · obtain ⟨j, hclose, hrun⟩ := hrun
      obtain ⟨d, hd, hin⟩ := (hp.slots j).close hrun
      refine .inr ⟨hclose, j, d, hd, hin, fun e => ?_⟩
      cases d <;> first | rfl | cases hin
    · exact .inl (ready_of_inSession hin fun hclose j hj => hrun ⟨j, hclose, hj⟩)
  · have hknown : ch < p.store.channels.next ∧ p.store.madeFor ch = requestID := by
      have hholds := hp.pool.call i c hc
      cases c with
      | register =>
        cases hch
        exact ⟨hholds.1, hholds.2.1⟩
      | send | wait | deferredCancel | answered =>
        cases hch
        exact hholds
      | _ => cases hch
    obtain ⟨hlt, rfl⟩ := hknown
    exact hp.pool.store.carries ch hlt

/-- A request whose response arrives while the session ends. -/
def answeredDuringClose : List (Move PendingCall RequestEnv) :=
  [.spawn .getSession, .advance 0 {}, .advance 0 { newID := "r1" }, .advance 0 {}, .advance 0 {},
    .advance 0 {}, .spawn (.resolve (.otherResponse "r1")), .advance 1 {}, .spawn .unregisterSession,
    .advance 2 {}, .advance 2 {}, .advance 2 {}, .advance 2 {}, .advance 2 {}, .advance 1 {}]

theorem requests_safe_during_close :
    ∃ p, run requests.step (Pool.idle {}) answeredDuringClose = some p ∧
      p.calls[0]? = some (.wait "r1" 0) ∧ (p.store.channels.chan 0).sent = [.otherResponse "r1"] ∧
      (p.store.channels.chan 0).sent.length ≤ 1 ∧ p.store.panicked = false :=
  have h : run requests.step (Pool.idle {}) answeredDuringClose = some _ := rfl
  ⟨_, h, rfl, rfl, ((requests_safe h).2.2 0 _ "r1" 0 rfl rfl).1, (requests_safe h).1⟩

end GameAP
