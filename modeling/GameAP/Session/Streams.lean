import GameAP.Lib.Runs
import GameAP.Session.Registry

/-!
# The messages on the stream of a daemon

`Connect` registers the session of a daemon, builds the acknowledgement and sends it on the stream
itself, and from the first of these steps on every component that finds the session in the registry
may send on the same stream.  Components send through `Session.Send`, which holds `sendMu`.

* `InSequence a log` is what the daemon relies on: the first message of stream `a` is its
  `RegisterAck`, and no send begins before the previous one has ended;
* `Locked` is what the lock gives by itself: the sends of the components do not overlap each other;
* `AckSent` is the condition on a component that is about to send.  A run meets it at every step
  exactly when all streams are in sequence (`in_sequence_iff`); `component_overtakes_ack` is a run
  that does not.

The goroutine of `flushPendingTasksAsync` and the outbound worker of a session are components like
the others.  `Close` is left out: `Send` does not look at the closed flag.
-/

namespace GameAP

open Runs Tables

/-- What a `GatewayMessage` carries. -/
inductive GatewayPayload
  | registerAck
  | other (content : ℕ)
  deriving DecidableEq

/-- A message to a daemon. -/
structure GatewayMessage where
  requestID : String
  payload : GatewayPayload
  deriving DecidableEq

/-- It is a `RegisterAck`. -/
def GatewayMessage.isAck (m : GatewayMessage) : Bool := m.payload = .registerAck

/-- A send on a stream begins, or it has ended. -/
structure StreamEvent where
  stream : ℕ
  ended : Bool
  message : GatewayMessage
  deriving DecidableEq

/-- The registry, the lock `sendMu` of every session (the call that holds it) and what has happened
on the streams, the latest event first.  A session and its stream have the same address. -/
structure Gateway (ι : Type) where
  registry : Registry ι
  sendMu : ℕ → Option ℕ := fun _ => none
  log : List StreamEvent := []

/-- Where a call is.  `connect` to `unregister` are the steps of `Connect`; `getSession` to `unlock`
those of a component that sends messages to a node, one after the other. -/
inductive GatewayCall
  | connect (requestID : String) (nodeID : ℕ) (version : String)
  | buildAck (requestID : String) (s : Session)
  | sendAck (requestID : String) (s : Session)
  | sendingAck (requestID : String) (s : Session)
  | flush (s : Session)
  | handleMessages (s : Session)
  | unregister (s : Session)
  | getSession (nodeID : ℕ) (messages : List (String × ℕ))
  | lock (s : Session) (messages : List (String × ℕ))
  | send (s : Session) (requestID : String) (content : ℕ) (messages : List (String × ℕ))
  | sending (s : Session) (requestID : String) (content : ℕ) (messages : List (String × ℕ))
  | unlock (s : Session) (messages : List (String × ℕ))
  | returned
  deriving DecidableEq

namespace Gateway

variable {ι : Type} (g : Gateway ι)

/-- `stream.Send` is entered or left. -/
def record (a : ℕ) (ended : Bool) (m : GatewayMessage) : Gateway ι :=
  { g with log := ⟨a, ended, m⟩ :: g.log }

/-- The acknowledgement of `Connect`. -/
def ack (requestID : String) : GatewayMessage := ⟨requestID, .registerAck⟩

def message (requestID : String) (content : ℕ) : GatewayMessage := ⟨requestID, .other content⟩

/-- One step of a call.  The session that call `i` of `Connect` makes has the address `i`. -/
def next (i : ℕ) : GatewayCall → Env → Option (Gateway ι × GatewayCall)
  | .connect requestID nodeID version, e =>
    let s : Session := { addr := i, nodeID, version, connectedAt := e.now }
    -- a failed `Register` leaves the session in the registry
    some ({ g with registry := g.registry.register s },
      if e.ok then .buildAck requestID s else .returned)
  | .buildAck requestID s, e => some (g, if e.ok then .sendAck requestID s else .unregister s)
  | .sendAck requestID s, _ => some (g.record s.addr false (ack requestID), .sendingAck requestID s)
  | .sendingAck requestID s, e =>
    some (g.record s.addr true (ack requestID), if e.ok then .flush s else .unregister s)
  | .flush s, _ => some (g, .handleMessages s)
  | .handleMessages s, _ => some (g, .unregister s)
  | .unregister s, _ => some ({ g with registry := (g.registry.unregisterSession s).1 }, .returned)
  | .getSession nodeID messages, _ =>
    match g.registry.getSession nodeID with
    | none => some (g, .returned)
    | some s => some (g, .lock s messages)
  | .lock _ [], _ => some (g, .returned)
  | .lock s ((requestID, content) :: messages), _ =>
    if (g.sendMu s.addr).isSome then none
    else some ({ g with sendMu := Function.update g.sendMu s.addr (some i) },
      .send s requestID content messages)
  | .send s requestID content messages, _ =>
    some (g.record s.addr false (message requestID content), .sending s requestID content messages)
  | .sending s requestID content messages, e =>
    -- a component gives up after an error
    some (g.record s.addr true (message requestID content), .unlock s (if e.ok then messages else []))
  | .unlock s messages, _ =>
    some ({ g with sendMu := Function.update g.sendMu s.addr none }, .lock s messages)
  | .returned, _ => none

/-- The calls of an instance: daemons connect, and components send. -/
def program (ι : Type) : Program (Gateway ι) GatewayCall Env where
  start _ c := match c with
    | .connect .. | .getSession .. => true
    | _ => false
  next i g c e := g.next i c e

/-! ### Counting the events of a stream -/

/-- How many sends of stream `a` have begun or have ended, those of the acknowledgement or those of
the components. -/
def count (ended isAck : Bool) (a : ℕ) (log : List StreamEvent) : ℕ :=
  log.countP fun ev => ev.stream = a && ev.ended = ended && ev.message.isAck = isAck

/-- The sends of stream `a` that have begun, or those that have ended. -/
def total (ended : Bool) (a : ℕ) (log : List StreamEvent) : ℕ :=
  count ended true a log + count ended false a log

/-- The first message on stream `a` is an acknowledgement, and a send begins when all earlier ones
have ended. -/
def InSequence (a : ℕ) : List StreamEvent → Prop
  | [] => True
  | ev :: log => InSequence a log ∧ (ev.stream = a → ev.ended = false →
      (total false a log = 0 → ev.message.isAck = true) ∧ total false a log = total true a log)

instance decidableInSequence (a : ℕ) : ∀ log, Decidable (InSequence a log)
  | [] => .isTrue trivial
  | ev :: log =>
    have := decidableInSequence a log
    inferInstanceAs (Decidable (InSequence a log ∧ (ev.stream = a → ev.ended = false →
      (total false a log = 0 → ev.message.isAck = true) ∧ total false a log = total true a log)))

variable {g} {a : ℕ} {log : List StreamEvent}

theorem count_cons (ended isAck : Bool) (ev : StreamEvent) :
    count ended isAck a (ev :: log) = count ended isAck a log +
      if ev.stream = a ∧ ev.ended = ended ∧ ev.message.isAck = isAck then 1 else 0 := by
  simp [count, List.countP_cons, and_assoc]

@[simp] theorem isAck_ack (requestID : String) : (ack requestID).isAck = true := rfl

@[simp] theorem isAck_message (requestID : String) (content : ℕ) :
    (message requestID content).isAck = false := rfl

theorem InSequence.ack_begun (h : InSequence a log) (hpos : 0 < total false a log) :
    0 < count false true a log := by
  induction log with
  | nil => simp [total, count] at hpos
  | cons ev log ih =>
    obtain ⟨hlog, hev⟩ := h
    rw [count_cons]
    by_cases hbef : total false a log = 0
    · -- the event is the first one that begins a send
      simp only [total, count_cons] at hpos hbef
      by_cases hthis : ev.stream = a ∧ ev.ended = false
      · have hack := (hev hthis.1 hthis.2).1 hbef
        simp [hthis, hack]
      · have hnot : ∀ isAck, ¬ (ev.stream = a ∧ ev.ended = false ∧ ev.message.isAck = isAck) :=
          fun isAck h => hthis ⟨h.1, h.2.1⟩
        rw [if_neg (hnot true), if_neg (hnot false)] at hpos
        omega
    · have := ih hlog (Nat.pos_of_ne_zero hbef)
      omega

/-! ### What the lock gives -/

/-- A stream has at most one acknowledgement; while nobody holds the lock of a session, all sends of
components on its stream have ended. -/
structure Balanced (g : Gateway ι) : Prop where
  acks : ∀ a, count true true a g.log ≤ count false true a g.log ∧ count false true a g.log ≤ 1
  free : ∀ a, g.sendMu a = none → count false false a g.log = count true false a g.log

/-- What is known where a call is.  The acknowledgement of stream `j` is sent by call `j` alone, and
the sends of components by the call that holds the lock. -/
def Place (g : Gateway ι) (j : ℕ) : Option GatewayCall → Prop
  | none | some (.connect ..) => count false true j g.log = 0
  | some (.buildAck _ s) | some (.sendAck _ s) => s.addr = j ∧ count false true j g.log = 0
  | some (.sendingAck _ s) =>
    s.addr = j ∧ count false true j g.log = 1 ∧ count true true j g.log = 0
  | some (.send s ..) | some (.unlock s _) =>
    g.sendMu s.addr = some j ∧ count false false s.addr g.log = count true false s.addr g.log
  | some (.sending s ..) =>
    g.sendMu s.addr = some j ∧ count false false s.addr g.log = count true false s.addr g.log + 1
  | _ => True

/-- A step of call `i` leaves the acknowledgements of the other calls alone, and the streams whose
lock another call holds. -/
structure KeepsOthers (i : ℕ) (g g' : Gateway ι) : Prop where
  acks : ∀ ended j, j ≠ i → count ended true j g'.log = count ended true j g.log
  locks : ∀ a j, j ≠ i → g.sendMu a = some j → g'.sendMu a = some j ∧
    ∀ ended, count ended false a g'.log = count ended false a g.log

variable {i b : ℕ} {g' : Gateway ι}

theorem KeepsOthers.place {j : ℕ} {x : Option GatewayCall}
    (h : KeepsOthers i g g') (hj : j ≠ i) (hx : Place g j x) : Place g' j x := by
  unfold Place at hx ⊢
  split at hx
  · rwa [h.acks false j hj]
  · rwa [h.acks false j hj]
  · exact ⟨hx.1, (h.acks false j hj).trans hx.2⟩
  · exact ⟨hx.1, (h.acks false j hj).trans hx.2⟩
  · exact ⟨hx.1, (h.acks false j hj).trans hx.2.1, (h.acks true j hj).trans hx.2.2⟩
  case h_9 => trivial
  all_goals
    obtain ⟨hlock, hcount⟩ := h.locks _ j hj hx.1
    exact ⟨hlock, by rw [hcount, hcount, hx.2]⟩

/-- What a step of call `i` keeps: the balance, its own place and the places of the others. -/
structure StepKeeps (i : ℕ) (g g' : Gateway ι) (c' : GatewayCall) : Prop where
  balanced : Balanced g'
  place : Place g' i (some c')
  others : KeepsOthers i g g'

variable {c' : GatewayCall} {requestID : String} {ended : Bool}

theorem StepKeeps.of_quiet (hg : Balanced g)
    (hlog : g'.log = g.log) (hmu : g'.sendMu = g.sendMu) (hplace : Place g' i (some c')) :
    StepKeeps i g g' c' where
  balanced := ⟨by rw [hlog]; exact hg.acks, by rw [hlog, hmu]; exact hg.free⟩
  place := hplace
  others := ⟨fun _ _ _ => by rw [hlog], fun _ _ _ hlock => ⟨by rw [hmu]; exact hlock,
    fun _ => by rw [hlog]⟩⟩

theorem StepKeeps.of_ack (hg : Balanced g)
    (hacks : count true true i (g.record i ended (ack requestID)).log ≤
        count false true i (g.record i ended (ack requestID)).log ∧
      count false true i (g.record i ended (ack requestID)).log ≤ 1)
    (hplace : Place (g.record i ended (ack requestID)) i (some c')) :
    StepKeeps i g (g.record i ended (ack requestID)) c' := by
  have hcomp : ∀ ended' a, count ended' false a (g.record i ended (ack requestID)).log =
      count ended' false a g.log := by
    intro ended' a
    simp [record, count_cons]
  have hoth : ∀ ended' j, j ≠ i → count ended' true j (g.record i ended (ack requestID)).log =
      count ended' true j g.log := by
    intro ended' j hj
    simp [record, count_cons, hj.symm]
  refine ⟨⟨fun a => ?_, fun a ha => ?_⟩, hplace, ⟨hoth, fun a j _ hlock => ⟨hlock, ?_⟩⟩⟩
  · by_cases ha : a = i
    · subst ha; exact hacks
    · rw [hoth true a ha, hoth false a ha]
      exact hg.acks a
  · rw [hcomp, hcomp]
    exact hg.free a ha
  · exact fun ended' => hcomp ended' a

theorem StepKeeps.of_message {content : ℕ} (hg : Balanced g) (hlock : g.sendMu b = some i)
    (hplace : Place (g.record b ended (message requestID content)) i (some c')) :
    StepKeeps i g (g.record b ended (message requestID content)) c' := by
  have hacks : ∀ ended' a, count ended' true a (g.record b ended (message requestID content)).log =
      count ended' true a g.log := by
    intro ended' a
    simp [record, count_cons]
  have hoth : ∀ ended' a, g.sendMu a ≠ some i →
      count ended' false a (g.record b ended (message requestID content)).log =
        count ended' false a g.log := by
    intro ended' a ha
    have hab : b ≠ a := by
      rintro rfl
      exact ha hlock
    simp [record, count_cons, hab]
  refine ⟨⟨fun a => ?_, fun a ha => ?_⟩, hplace, ⟨fun ended' j _ => hacks ended' j, ?_⟩⟩
  · rw [hacks, hacks]
    exact hg.acks a
  · have hne : g.sendMu a ≠ some i := by
      rw [show g.sendMu a = none from ha]
      simp
    rw [hoth false a hne, hoth true a hne]
    exact hg.free a ha
  · intro a j hj ha
    have hne : g.sendMu a ≠ some i := by
      rw [ha]
      simpa using hj
    exact ⟨ha, fun ended' => hoth ended' a hne⟩

theorem StepKeeps.of_lock {x : Option ℕ} (hg : Balanced g)
    (hmine : g.sendMu b = none ∨ g.sendMu b = some i)
    (hbal : count false false b g.log = count true false b g.log)
    (hplace : Place { g with sendMu := Function.update g.sendMu b x } i (some c')) :
    StepKeeps i g { g with sendMu := Function.update g.sendMu b x } c' := by
  refine ⟨⟨hg.acks, fun a ha => ?_⟩, hplace, ⟨fun _ _ _ => rfl, fun a j hj ha => ⟨?_, fun _ => rfl⟩⟩⟩
  · by_cases hab : a = b
    · subst hab; exact hbal
    · exact hg.free a (by simpa [Function.update_of_ne hab] using ha)
  · have hab : a ≠ b := by
      rintro rfl
      rcases hmine with h | h
      · rw [h] at ha; cases ha
      · rw [h] at ha
        exact hj (Option.some.inj ha).symm
    simpa [Function.update_of_ne hab] using ha

variable {c : GatewayCall} {e : Env}

theorem next_keeps (hg : Balanced g)
    (hc : Place g i (some c)) (h : g.next i c e = some (g', c')) : StepKeeps i g g' c' := by
  cases c with
  | connect requestID nodeID version =>
    cases h
    refine .of_quiet hg rfl rfl ?_
    split_ifs
    · exact ⟨rfl, hc⟩
    · trivial
  | buildAck requestID s =>
    cases h
    refine .of_quiet hg rfl rfl ?_
    split_ifs
    · exact hc
    · trivial
  | sendAck requestID s =>
    cases h
    obtain ⟨rfl, hzero⟩ := hc
    have hbegun : count false true s.addr (g.record s.addr false (ack requestID)).log = 1 := by
      simp [record, count_cons, hzero]
    have hended : count true true s.addr (g.record s.addr false (ack requestID)).log = 0 := by
      have := (hg.acks s.addr).1
      simp only [record, count_cons]
      simp; omega
    exact .of_ack hg (by omega) ⟨rfl, hbegun, hended⟩
  | sendingAck requestID s =>
    cases h
    obtain ⟨rfl, hbegun, hended⟩ := hc
    have hbegun' : count false true s.addr (g.record s.addr true (ack requestID)).log = 1 := by
      simp [record, count_cons, hbegun]
    have hended' : count true true s.addr (g.record s.addr true (ack requestID)).log = 1 := by
      simp [record, count_cons, hended]
    refine .of_ack hg (by omega) ?_
    split_ifs <;> trivial
  | flush | handleMessages | unregister => cases h; exact .of_quiet hg rfl rfl trivial
  | getSession nodeID messages =>
    simp only [next] at h
    split at h <;> cases h
    all_goals exact .of_quiet hg rfl rfl trivial
  | lock s messages =>
    cases messages with
    | nil => cases h; exact .of_quiet hg rfl rfl trivial
    | cons m messages =>
      simp only [next] at h
      split_ifs at h with hmu
      cases h
      have hfree : g.sendMu s.addr = none := by simpa using hmu
      have hbal := hg.free s.addr hfree
      exact .of_lock hg (.inl hfree) hbal ⟨by simp, hbal⟩
  | send | sending =>
    cases h
    refine .of_message hg hc.1 ⟨hc.1, ?_⟩
    simp [record, count_cons, hc.2]
  | unlock s messages => cases h; exact .of_lock hg (.inr hc.1) hc.2 trivial
  | returned => cases h

/-- The state of all calls is one that the lock allows. -/
abbrev Locked (p : Pool (Gateway ι) GatewayCall) : Prop := SlotsInv Balanced Place p

theorem locked_idle (r : Registry ι) :
    Locked (Pool.idle { registry := r } : Pool (Gateway ι) GatewayCall) :=
  ⟨⟨fun a => by simp [Pool.idle, count], fun a _ => by simp [Pool.idle, count]⟩,
    fun j => by simp [Pool.idle, Place, count]⟩

theorem locked_step : Stable (program ι).step Locked := by
  refine (Program.slotsInv_step (fun g i c _ hstart hnone => ?_)
    fun p i e c g' c' hI hD _ hn => ?_).stable guardedAt_true
  · cases c <;> first | exact hnone | trivial
  · obtain ⟨hbalanced, hplace, hothers⟩ := next_keeps hI hD hn
    exact ⟨hbalanced, hplace, fun j hj hx => hothers.place hj hx⟩

/-! ### The condition -/

/-- A component begins to send on a stream whose acknowledgement has been sent. -/
def AckSent (p : Pool (Gateway ι) GatewayCall) (c : GatewayCall) (_ : Env) : Prop :=
  match c with
  | .send s .. => 0 < count true true s.addr p.store.log
  | _ => True

instance (p : Pool (Gateway ι) GatewayCall) (c : GatewayCall) (e : Env) :
    Decidable (AckSent p c e) := by
  unfold AckSent
  split <;> infer_instance

/-- What a call writes to the log in its next step. -/
def event : GatewayCall → Option StreamEvent
  | .sendAck requestID s => some ⟨s.addr, false, ack requestID⟩
  | .sendingAck requestID s => some ⟨s.addr, true, ack requestID⟩
  | .send s requestID content _ => some ⟨s.addr, false, message requestID content⟩
  | .sending s requestID content _ => some ⟨s.addr, true, message requestID content⟩
  | _ => none

theorem next_log (h : g.next i c e = some (g', c')) : g'.log = (event c).toList ++ g.log := by
  cases c with
  | getSession nodeID messages =>
    simp only [next] at h
    split at h <;> cases h <;> rfl
  | lock s messages =>
    cases messages with
    | nil => cases h; rfl
    | cons m messages =>
      simp only [next] at h
      split_ifs at h
      cases h
      rfl
  | returned => cases h
  | _ => cases h; rfl

/-- All streams are in sequence, and components have sent nothing on a stream whose acknowledgement
has not been sent. -/
structure Sequenced (g : Gateway ι) : Prop where
  inSequence : ∀ a, InSequence a g.log
  silent : ∀ a, count true true a g.log = 0 → ∀ ended, count ended false a g.log = 0

theorem Sequenced.cons {ev : StreamEvent} (hs : Sequenced g) (hlog : g'.log = ev :: g.log)
    (hbegin : ev.ended = false → (total false ev.stream g.log = 0 → ev.message.isAck = true) ∧
      total false ev.stream g.log = total true ev.stream g.log)
    (hack : ev.message.isAck = false → 0 < count true true ev.stream g.log) : Sequenced g' := by
  refine ⟨fun a => ?_, fun a ha ended => ?_⟩
  · rw [hlog]
    refine ⟨hs.inSequence a, ?_⟩
    rintro rfl
    exact hbegin
  · rw [hlog, count_cons] at ha ⊢
    rw [hs.silent a (by omega) ended, if_neg]
    rintro ⟨rfl, -, hmess⟩
    have := hack hmess
    omega

theorem Sequenced.next (hs : Sequenced g) (hg : Balanced g) (hc : Place g i (some c))
    (hack : ∀ s requestID content messages, c = .send s requestID content messages →
      0 < count true true s.addr g.log) (h : g.next i c e = some (g', c')) : Sequenced g' := by
  have hlog := next_log h
  cases c with
  | sendAck requestID s =>
    -- the acknowledgement: nothing has been sent before
    have hzero : count false true s.addr g.log = 0 := hc.1 ▸ hc.2
    have hended : count true true s.addr g.log = 0 := by
      have := (hg.acks s.addr).1
      omega
    refine hs.cons hlog (fun _ => ⟨fun _ => rfl, ?_⟩) nofun
    simp only [total, hzero, hended, hs.silent _ hended]
  | sendingAck requestID s => exact hs.cons hlog nofun nofun
  | send s requestID content messages =>
    -- a component that holds the lock, after the acknowledgement
    have hsent := hack s requestID content messages rfl
    have hacks := hg.acks s.addr
    have hbal := hc.2
    refine hs.cons hlog (fun _ => ?_) fun _ => hsent
    simp only [total] at hbal ⊢
    exact ⟨fun hnone => by omega, by omega⟩
  | sending s requestID content messages =>
    refine hs.cons hlog nofun fun _ => Nat.pos_of_ne_zero fun hzero => ?_
    have hnone := hs.silent s.addr hzero false
    have hbegun := hc.2
    omega
  | _ => exact ⟨hlog ▸ hs.inSequence, hlog ▸ hs.silent⟩

theorem sequenced_step : StableUnder (program ι).step (Guarded AckSent)
    fun p => Locked p ∧ Sequenced p.store := by
  intro p m p' hp hG h
  refine ⟨locked_step p m p' hp.1 h, ?_⟩
  obtain ⟨c, rfl, -, rfl⟩ | ⟨i, e, c, g', c', rfl, hc, hn, rfl⟩ := Program.step_cases h
  · exact hp.2
  · have hplace := hp.1.slot i
    rw [hc] at hplace
    refine hp.2.next hp.1.store hplace ?_ hn
    rintro s requestID content messages rfl
    exact hG _ hc

/-! ### The condition is necessary -/

theorem InSequence.of_suffix {log' : List StreamEvent} (hsuf : log' <:+ log)
    (h : InSequence a log) : InSequence a log' := by
  induction log with
  | nil =>
    rw [List.suffix_nil.1 hsuf]
    trivial
  | cons ev log ih =>
    rcases List.suffix_cons_iff.1 hsuf with rfl | hsuf
    · exact h
    · exact ih hsuf h.1

section

variable {p q : Pool (Gateway ι) GatewayCall} {ms : List (Move GatewayCall Env)}

theorem log_suffix_run (h : run (program ι).step p ms = some q) : p.store.log <:+ q.store.log := by
  refine run_inv_all (fun q => p.store.log <:+ q.store.log) (fun q m q' hq h => ?_)
    (List.suffix_refl _) h
  obtain ⟨c, rfl, -, rfl⟩ | ⟨i, e, c, g', c', rfl, -, hn, rfl⟩ := Program.step_cases h
  · exact hq
  · exact hq.trans ⟨_, (next_log hn).symm⟩

/-- In a run whose streams end up in sequence, every component has waited for the
acknowledgement. -/
theorem ackSent_of_inSequence (hp : Locked p) (h : run (program ι).step p ms = some q)
    (hq : ∀ a, InSequence a q.store.log) : Along (program ι).step (Guarded AckSent) p ms := by
  induction ms generalizing p with
  | nil => trivial
  | cons m ms ih =>
    obtain ⟨p', hstep, hrun⟩ := Option.bind_eq_some_iff.1 h
    rw [along_cons_of_step hstep]
    refine ⟨?_, ih (locked_step p m p' hp hstep) hrun⟩
    cases m with
    | spawn c => trivial
    | advance i e =>
      intro c hc
      cases c with
      | send s requestID content messages =>
        obtain ⟨c, g', c', hc', hn, rfl⟩ := Program.step_advance hstep
        obtain rfl : GatewayCall.send s requestID content messages = c :=
          Option.some.inj (Option.mem_def.1 hc ▸ hc')
        cases hn
        have hplace := hp.slot i
        rw [hc'] at hplace
        -- the begin of the send is in the log, hence in sequence
        obtain ⟨hbef, hbegin⟩ := (hq s.addr).of_suffix (log_suffix_run hrun)
        obtain ⟨hfirst, hended⟩ := hbegin rfl rfl
        have hsome : 0 < total false s.addr p.store.log := by
          refine Nat.pos_of_ne_zero fun hzero => ?_
          cases hfirst hzero
        have hack := hbef.ack_begun hsome
        have hbal := hplace.2
        simp only [total] at hended
        change 0 < count true true s.addr p.store.log
        omega
      | _ => trivial

end

/-- The streams are in sequence exactly in the runs in which every component that sends on a stream
begins after the acknowledgement of the stream has been sent. -/
theorem in_sequence_iff (instanceID : ι) (ms : List (Move GatewayCall Env))
    {p : Pool (Gateway ι) GatewayCall}
    (h : run (program ι).step (Pool.idle { registry := Registry.new instanceID }) ms = some p) :
    (∀ a, InSequence a p.store.log) ↔ Along (program ι).step (Guarded AckSent)
      (Pool.idle { registry := Registry.new instanceID }) ms := by
  constructor
  · exact ackSent_of_inSequence (locked_idle _) h
  · intro hG
    have hidle : Sequenced (Pool.idle { registry := Registry.new instanceID } :
        Pool (Gateway ι) GatewayCall).store :=
      ⟨fun _ => trivial, fun _ _ _ => rfl⟩
    exact (run_inv (fun p => Locked p ∧ Sequenced p.store) sequenced_step
      ⟨locked_idle _, hidle⟩ hG h).2.inSequence

/-- A daemon connects, and a component sends to it in the meantime. -/
def connectAndSend (order : List ℕ) : List (Move GatewayCall Env) :=
  .spawn (.connect "r" 7 "1.0") :: .spawn (.getSession 7 [("q", 1)]) ::
    order.map fun i => .advance i ⟨0, true⟩

/-- The component begins to send after the acknowledgement. -/
theorem in_sequence_iff_waits :
    ∃ p, run (program Unit).step (Pool.idle { registry := Registry.new () })
      (connectAndSend [0, 1, 0, 0, 1, 0, 1, 1]) = some p ∧
      p.store.log = [⟨0, true, message "q" 1⟩, ⟨0, false, message "q" 1⟩, ⟨0, true, ack "r"⟩,
        ⟨0, false, ack "r"⟩] ∧ ∀ a, InSequence a p.store.log := by
  refine ⟨_, rfl, rfl, ?_⟩
  exact (in_sequence_iff () (connectAndSend [0, 1, 0, 0, 1, 0, 1, 1]) rfl).2 (by decide)

/-- The component finds the session before the acknowledgement is sent: its message is the first
one, or it is sent while the acknowledgement is being sent. -/
theorem component_overtakes_ack :
    (∃ p, run (program Unit).step (Pool.idle { registry := Registry.new () })
      (connectAndSend [0, 1, 1, 1]) = some p ∧
      p.store.log = [⟨0, false, message "q" 1⟩] ∧ ¬ InSequence 0 p.store.log) ∧
    ∃ p, run (program Unit).step (Pool.idle { registry := Registry.new () })
      (connectAndSend [0, 0, 0, 1, 1, 1]) = some p ∧
      p.store.log = [⟨0, false, message "q" 1⟩, ⟨0, false, ack "r"⟩] ∧
      ¬ InSequence 0 p.store.log :=
  ⟨⟨_, rfl, rfl, by decide⟩, ⟨_, rfl, rfl, by decide⟩⟩

/-- In every run a stream has one acknowledgement at most, and two calls that are sending on one
stream under its lock are the same call. -/
theorem sends_exclusive (instanceID : ι) (ms : List (Move GatewayCall Env))
    {p : Pool (Gateway ι) GatewayCall}
    (h : run (program ι).step (Pool.idle { registry := Registry.new instanceID }) ms = some p) :
    (∀ a, count false true a p.store.log ≤ 1) ∧
    ∀ (i j : ℕ) s s' r r' m m' ms ms', p.calls[i]? = some (.sending s r m ms) →
      p.calls[j]? = some (.sending s' r' m' ms') → s.addr = s'.addr → i = j := by
  have hp : Locked p := run_inv_all Locked locked_step (locked_idle _) h
  refine ⟨fun a => (hp.store.acks a).2, fun i j s s' r r' m m' ms ms' hi hj heq => ?_⟩
  have hlock : Place p.store i (some _) := hi ▸ hp.slot i
  have hlock' : Place p.store j (some _) := hj ▸ hp.slot j
  have hsame := hlock'.1
  rw [← heq, hlock.1] at hsame
  exact Option.some.inj hsame

theorem sends_exclusive_waits : ∃ p, run (program Unit).step
      (Pool.idle { registry := Registry.new () }) (connectAndSend [0, 1, 0, 0, 1, 0, 1, 1]) = some p ∧
      p.store.log.length = 4 ∧ ∀ a, count false true a p.store.log ≤ 1 :=
  ⟨_, rfl, rfl, (sends_exclusive () (connectAndSend [0, 1, 0, 0, 1, 0, 1, 1]) rfl).1⟩

end Gateway

end GameAP
