import GameAP.Session.Pending

/-!
# Requests at the end of a session

`Close` fails every request in the map.  But neither `RegisterPendingRequest` nor `Send` looks at
the closed flag: a caller that got the session before may register after `failPendingRequests` has
run, and when the stream still accepts its message it waits for a response that nobody will give
(`waits_after_close`).

`no_waiter_after_close` needs `SentInTime`: once `failPendingRequests` has run, no `Send` succeeds
for a request that is still in the map.
-/

namespace GameAP

open Channels Runs Tables

namespace PendingCall

open SessionState

variable {s s' : SessionState} {i j : ℕ} {c c' : PendingCall} {e : RequestEnv} {id : String} {ch : ℕ}

/-- A request is sent before the pending ones are failed, or it is no longer pending. -/
def SentInTime (p : Pool SessionState PendingCall) (c : PendingCall) (e : RequestEnv) : Prop :=
  match c with
  | .send requestID ch =>
    e.sendErr = none → p.store.failed = false ∨ p.store.pendingReqs.get requestID ≠ some ch
  | _ => True

instance (p : Pool SessionState PendingCall) (c : PendingCall) (e : RequestEnv) :
    Decidable (SentInTime p c e) := by
  unfold SentInTime
  split <;> infer_instance

/-- Nobody can make a step, as long as no context is cancelled. -/
def Quiescent (p : Pool SessionState PendingCall) : Prop :=
  ∀ (i : ℕ) (c : PendingCall), p.calls[i]? = some c → ∀ e : RequestEnv, e.ctxErr = none →
    next i p.store c e = none

/-- The channel of a request is closed, or some call has it, or it is in the map. -/
def Tracked (s : SessionState) (id : String) (ch : ℕ) : Prop :=
  (s.channels.chan ch).closed = true ∨ (∃ j, s.holder ch = some j) ∨ s.pendingReqs.get id = some ch

theorem Tracked.congr (h : Tracked s id ch)
    (hcl : (s.channels.chan ch).closed = true → (s'.channels.chan ch).closed = true)
    (hhold : s'.holder ch = s.holder ch)
    (hget : s'.pendingReqs.get id = s.pendingReqs.get id) : Tracked s' id ch := by
  rcases h with h | ⟨j, hj⟩ | h
  · exact .inl (hcl h)
  · exact .inr (.inl ⟨j, hhold.trans hj⟩)
  · exact .inr (.inr (hget.trans h))

/-- What is known of the requests.  A caller that waits is not one that `Close` has overlooked. -/
def Awaits (i : ℕ) (s : SessionState) : PendingCall → Prop
  | .makeChan id | .register id _ => s.issuedTo.get id = some i
  | .send id ch => s.issuedTo.get id = some i ∧ Tracked s id ch
  | .wait id ch => s.issuedTo.get id = some i ∧ Tracked s id ch ∧
    (s.failed = true → s.pendingReqs.get id ≠ some ch)
  | .onceDone => s.failed = true
  | _ => True

/-- `Close` returns after it has failed the pending requests. -/
def FailedFirst (s : SessionState) : Prop := s.closeOnce = .done → s.failed = true

/-! ### Steps of other calls -/

/-- What a step of call `i` does to the request of another call. -/
structure Leaves (id : String) (ch : ℕ) (s s' : SessionState) : Prop where
  issued : s'.issuedTo.get id = s.issuedTo.get id
  tracked : ch < s.channels.next → s.madeFor ch = id → Tracked s id ch → Tracked s' id ch
  late : (s.failed = true → s.pendingReqs.get id ≠ some ch) → s'.failed = true →
    s'.pendingReqs.get id ≠ some ch

theorem Leaves.of_same (hiss : s'.issuedTo = s.issuedTo) (hchan : s'.channels = s.channels)
    (hhold : s'.holder = s.holder) (hpend : s'.pendingReqs = s.pendingReqs)
    (hfail : s'.failed = s.failed) : Leaves id ch s s' where
  issued := by rw [hiss]
  tracked _ _ h := h.congr (by rw [hchan]; exact fun h => h) (by rw [hhold]) (by rw [hpend])
  late h := by
    rw [hfail, hpend]
    exact h

theorem Leaves.of_drops (h : Drops s s') : Leaves id ch s s' where
  issued := (congrArg (fun t : SessionState => t.issuedTo.get id) h.rest :)
  tracked _ _ htrac := by
    rcases htrac with hcl | ⟨j, hj⟩ | hget
    · left
      rcases h.chan ch with heq | ⟨_, _, heq⟩
      · rw [heq]; exact hcl
      · rw [heq]
    · exact .inr (.inl ⟨j, h.holder ▸ hj⟩)
    · cases hget' : s'.pendingReqs.get id with
      | none => exact .inl (h.dropped id ch hget hget')
      | some ch' =>
        have hch := (h.kept id ch' hget').1
        rw [hget] at hch
        cases hch
        exact .inr (.inr hget')
  late hlate hfail hget := by
    have hsame : s'.failed = s.failed := (congrArg SessionState.failed h.rest :)
    exact hlate (hsame ▸ hfail) (h.kept id ch hget).1

variable {ch' : ℕ} {c₁ : Channel DaemonMessage}

theorem closed_set {h : Heap DaemonMessage} (hkeeps : (h.chan ch').closed = true → c₁.closed = true)
    (hcl : (h.chan ch).closed = true) : ((h.set ch' c₁).chan ch).closed = true := by
  by_cases heq : ch = ch'
  · subst heq
    rw [Heap.set_chan_self]
    exact hkeeps hcl
  · rw [Heap.set_chan_ne _ _ heq]
    exact hcl

theorem Leaves.set_chan (hkeeps : (s.channels.chan ch').closed = true → c₁.closed = true) :
    Leaves id ch s { s with channels := s.channels.set ch' c₁ } where
  issued := rfl
  tracked _ _ htrac := htrac.congr (closed_set hkeeps) rfl rfl
  late h := h

theorem Leaves.take {requestID : String} (hget' : s.pendingReqs.get requestID = some ch') :
    Leaves id ch s { s with
      pendingReqs := s.pendingReqs.del requestID
      holder := Function.update s.holder ch' (some i) } where
  issued := rfl
  tracked _ _ htrac := by
    by_cases heq : ch = ch'
    · subst heq
      exact .inr (.inl ⟨i, Function.update_self ..⟩)
    · rcases htrac with hcl | ⟨k, hk⟩ | hget
      · exact .inl hcl
      · exact .inr (.inl ⟨k, (Function.update_of_ne heq ..).trans hk⟩)
      · refine .inr (.inr ((Table.get_del_ne _ ?_).trans hget))
        rintro rfl
        rw [hget'] at hget
        cases hget
        exact heq rfl
  late hlate hfail hget := by
    exact hlate hfail (Table.get_of_del hget)

theorem leaves_step (hji : j ≠ i) (hholds : Holds i s c) (hawaits : Awaits i s c)
    (hiss : s.issuedTo.get id = some j) (h : Step i s e c s' c') : Leaves id ch s s' := by
  cases h with
  | newID hfresh =>
    refine ⟨Table.get_put_ne _ ?_ _, fun _ _ h => h, fun h => h⟩
    rintro rfl
    rw [hiss] at hfresh
    cases hfresh
  | makeChan =>
    refine ⟨rfl, fun hlt _ htrac => ?_, fun h => h⟩
    refine htrac.congr ?_ (Function.update_of_ne (Nat.ne_of_lt hlt) ..) rfl
    rw [Heap.make_chan_of_lt _ 1 hlt]
    exact fun h => h
  | register requestID ch' =>
    -- the two requests have different ids, so they have different channels
    have howner : s.issuedTo.get requestID = some i := hawaits
    have hid : id ≠ requestID := by
      rintro rfl
      rw [hiss] at howner
      cases howner
      exact hji rfl
    have hget : (s.pendingReqs.put requestID ch').get id = s.pendingReqs.get id :=
      Table.get_put_ne _ hid _
    refine ⟨rfl, fun _ hmade htrac => ?_, fun hlate hfail => ?_⟩
    · have hne : ch ≠ ch' := by
        rintro rfl
        exact hid (hmade.symm.trans hholds.2.1)
      exact htrac.congr (fun h => h) (Function.update_of_ne hne ..) hget
    · rw [hget]
      exact hlate hfail
  | received hrecv => exact .set_chan fun hcl => (Channel.recv_frame hrecv).2.1.trans hcl
  | deferredCancel hdrops | cancel hdrops => exact .of_drops hdrops
  | resolve hget' => exact .take hget'
  | offer => exact .set_chan fun hcl => hcl
  | closeChan ch' =>
    refine ⟨rfl, fun _ _ htrac => ?_, fun h => h⟩
    by_cases heq : ch = ch'
    · subst heq
      left
      rw [Heap.set_chan_self]
    · exact htrac.congr (closed_set fun _ => rfl) (Function.update_of_ne heq ..) rfl
  | failPendingRequests hdrops hnone =>
    have hleave : Leaves id ch s _ := .of_drops hdrops
    refine ⟨hleave.issued, hleave.tracked, fun _ _ hget => ?_⟩
    rw [hnone id] at hget
    cases hget
  | _ => exact .of_same rfl rfl rfl rfl rfl

theorem failed_step (h : Step i s e c s' c') (hfail : s.failed = true) : s'.failed = true := by
  cases h with
  | deferredCancel hdrops | cancel hdrops =>
    exact Eq.trans (congrArg SessionState.failed hdrops.rest :) hfail
  | failPendingRequests => rfl
  | _ => exact hfail

theorem Awaits.other (hawaits : Awaits i s c) (hji : j ≠ i) (hholds : Holds i s c)
    (h : Step i s e c s' c') {d : PendingCall} (hd : Holds j s d) (hj : Awaits j s d) :
    Awaits j s' d := by
  have hleave (id : String) (ch : ℕ) (hid : s.issuedTo.get id = some j) : Leaves id ch s s' :=
    leaves_step hji hholds hawaits hid h
  cases d with
  | makeChan id => exact (hleave id 0 hj).issued.trans hj
  | register id ch => exact (hleave id ch hj).issued.trans hj
  | send id ch =>
    obtain ⟨hid, htrac⟩ := hj
    exact ⟨(hleave id ch hid).issued.trans hid, (hleave id ch hid).tracked hd.1 hd.2 htrac⟩
  | wait id ch =>
    obtain ⟨hid, htrac, hlate⟩ := hj
    exact ⟨(hleave id ch hid).issued.trans hid, (hleave id ch hid).tracked hd.1 hd.2 htrac,
      (hleave id ch hid).late hlate⟩
  | onceDone => exact failed_step h hj
  | _ => trivial

/-! ### Steps of the call itself -/

theorem FailedFirst.step (hfirst : FailedFirst s) (hawaits : Awaits i s c)
    (h : Step i s e c s' c') : FailedFirst s' := by
  intro hdone
  refine failed_step h ?_
  rcases (step_steps h).1 with ⟨honce, _⟩ | ⟨honce, _⟩ | ⟨_, rfl⟩
  · exact hfirst (honce ▸ hdone)
  · rw [honce] at hdone
    cases hdone
  · exact hawaits

variable {p : Pool SessionState PendingCall}

theorem Awaits.step (hawaits : Awaits i p.store c)
    (hG : SentInTime p c e) (h : Step i p.store e c s' c') : Awaits i s' c' := by
  cases h with
  | newID => exact Table.get_put_self ..
  | makeChan => exact hawaits
  | register => exact ⟨hawaits, .inr (.inr (Table.get_put_self ..))⟩
  | sent id ch hsent =>
    refine ⟨hawaits.1, hawaits.2, fun hfail => ?_⟩
    rcases hG hsent with hnot | hgone
    · rw [hnot] at hfail
      cases hfail
    · exact hgone
  | failPendingRequests => exact rfl
  | _ => trivial

end PendingCall

open PendingCall

/-! ### All interleavings -/

/-- `RequestsInv`, and nobody waits for a response that will not come. -/
structure WaitersInv (p : Pool SessionState PendingCall) : Prop where
  requests : RequestsInv p
  waiters : PoolInv FailedFirst Awaits p

theorem waitersInv_step : StableUnder requests.step (Guarded SentInTime) WaitersInv := by
  intro p m p' hp hG h
  refine ⟨requestsInv_step p m p' hp.requests h, ?_⟩
  refine Program.inv_step (fun p c _ hc => ?_) (fun p i e c s' c' hp hG hc hn => ?_)
    p m p' hp.waiters (hG.and (H := RequestsInv) hp.requests) h
  · cases c <;> trivial
  · have hpool := hG.1.pool
    have hi := hp.call i c hc
    have hstep := step_of_next hpool.store (hpool.call i c hc) hn
    exact ⟨hp.store.step hi hstep, hi.step hG.2 hstep, fun j d hji hd =>
      hi.other hji (hpool.call i c hc) hstep (hpool.call j d hd) (hp.call j d hd)⟩

/-- In every run in which no request is sent too late: once `Close` has returned and nobody can make
a step any more, no caller waits for a response. -/
theorem no_waiter_after_close (ms : List (Move PendingCall RequestEnv))
    {p : Pool SessionState PendingCall}
    (hG : Along requests.step (Guarded SentInTime) (Pool.idle {}) ms)
    (hrun : run requests.step (Pool.idle {}) ms = some p)
    (hclosed : ∃ j : ℕ, p.calls[j]? = some .closed) (hquiet : Quiescent p) :
    ∀ (i : ℕ) requestID ch, p.calls[i]? ≠ some (.wait requestID ch) := by
  intro i requestID ch hwait
  have hp := run_inv WaitersInv waitersInv_step ⟨requestsInv_new, .idle nofun⟩ hG hrun
  obtain ⟨j, hj⟩ := hclosed
  have hfail : p.store.failed = true := hp.waiters.store (hp.requests.pool.call j _ hj)
  obtain ⟨_, htrac, hlate⟩ := hp.waiters.call i _ hwait
  rcases htrac with hchan | ⟨k, hk⟩ | hget
  · -- a closed channel does not make its receiver wait
    obtain ⟨r, hrecv⟩ := Channel.recv_of_closed hchan
    have hnone := hquiet i _ hwait {} rfl
    simp only [PendingCall.next, hrecv, Option.map_some] at hnone
    cases hnone
  · obtain ⟨d, hd, hown⟩ := (hp.requests.slots k).chan ch hk
    obtain ⟨r, hr⟩ : ∃ r, PendingCall.next k p.store d {} = some r := by
      cases d <;> first | exact ⟨_, rfl⟩ | cases hown
    rw [hquiet k d hd {} rfl] at hr
    cases hr
  · exact hlate hfail hget

/-- A computable test for a call that cannot go on. -/
def PendingCall.stuck (s : SessionState) : PendingCall → Bool
  | .wait _ ch => (s.channels.chan ch).recv.isNone
  | .answered .. | .notConnected _ | .resolved _ | .cancelled | .closed => true
  | _ => false

theorem quiescent_of_stuck (h : p.calls.all (PendingCall.stuck p.store) = true) : Quiescent p := by
  intro i c hc e he
  have hstuck := List.all_eq_true.1 h c (List.mem_of_getElem? hc)
  cases c with
  | wait requestID ch =>
    have hnone : (p.store.channels.chan ch).recv = none := Option.isNone_iff_eq_none.1 hstuck
    simp only [PendingCall.next, he, hnone, Option.map_none]
  | answered | notConnected | resolved | cancelled | closed => rfl
  | _ => cases hstuck

/-- A caller that waits when the session ends. -/
def failedByClose : List (Move PendingCall RequestEnv) :=
  [.spawn .getSession, .advance 0 {}, .advance 0 { newID := "r1" }, .advance 0 {}, .advance 0 {},
    .advance 0 {}, .spawn .unregisterSession, .advance 1 {}, .advance 1 {}, .advance 1 {},
    .advance 1 {}, .advance 1 {}, .advance 1 {}, .advance 0 {}, .advance 0 {}]

theorem no_waiter_after_close_of_pending :
    ∃ p, run requests.step (Pool.idle {}) failedByClose = some p ∧
      p.calls = [.answered "r1" 0 (.error "request cancelled"), .closed] ∧ Quiescent p ∧
      ∀ (i : ℕ) requestID ch, p.calls[i]? ≠ some (.wait requestID ch) :=
  ⟨_, rfl, rfl, quiescent_of_stuck rfl,
    no_waiter_after_close failedByClose (by decide) rfl ⟨1, rfl⟩ (quiescent_of_stuck rfl)⟩

/-- A caller gets the session, the daemon's stream ends and `Close` returns; then the caller
registers, its message is accepted, and it waits. -/
def registeredTooLate : List (Move PendingCall RequestEnv) :=
  [.spawn .getSession, .advance 0 {}, .spawn .unregisterSession, .advance 1 {}, .advance 1 {},
    .advance 1 {}, .advance 1 {}, .advance 1 {}, .advance 1 {},
    .advance 0 { newID := "r1" }, .advance 0 {}, .advance 0 {}, .advance 0 {}]

theorem waits_after_close :
    ¬ ∀ (ms : List (Move PendingCall RequestEnv)) (p : Pool SessionState PendingCall),
      run requests.step (Pool.idle {}) ms = some p → (∃ j : ℕ, p.calls[j]? = some .closed) →
      Quiescent p → ∀ (i : ℕ) requestID ch, p.calls[i]? ≠ some (.wait requestID ch) := by
  intro hall
  exact hall registeredTooLate _ rfl ⟨1, rfl⟩ (quiescent_of_stuck rfl) 0 "r1" 0 rfl

end GameAP
