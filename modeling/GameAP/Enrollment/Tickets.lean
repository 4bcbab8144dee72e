import GameAP.Enrollment.Service

/-!
# Enrollment tickets are used once

`ticket_single_use`: over every interleaving of enrollments, new tickets and revocations, with any
operation failing, a ticket gives at most one node, no claim that begins after a revocation gives
one, and a consumed ticket does not become pending again, if a call leaves the critical section of
`Claim` before the deadline of its lock.

The invariant has a part for the store, `TicketInv`, and one for a call, `Holds`: it holds the lock
in the critical section, and nobody has claimed the ticket that it is about to store.
-/

namespace GameAP

open Runs Tables List InMemoryCache Table

theorem ticketKey_injective : Function.Injective ticketKey := fun _ _ h =>
  String.append_right_inj _ |>.1 h

namespace EnrollStore

section

variable (s : EnrollStore)

/-- The record of the ticket, expired or not. -/
def Record (id : String) (t : Ticket) : Prop :=
  ∃ item, s.tickets.items.get (ticketKey id) = some item ∧ item.value = .ticket t

/-- The ticket can be claimed. -/
def Pending (id : String) : Prop := ∃ t, s.Record id t ∧ t.status = .pending

def Consumed (id : String) : Prop := ∃ t, s.Record id t ∧ t.status = .consumed

/-- Call `i` holds the lock of the ticket. -/
def LockedBy (i : ℕ) (id : String) : Prop :=
  ∃ deadline, s.locks.get (ticketKey id) = some (i, deadline)

/-- No call has created a node with the ticket. -/
def NoNode (id : String) : Prop := ∀ j, (j, some id) ∉ s.nodes

/-- The nodes that were created with the ticket. -/
def nodesOf (id : String) : List (ℕ × Option String) :=
  s.nodes.filter fun n => n.2 = some id

end

variable {s : EnrollStore} {id : String} {t t' stored : Ticket}

theorem Record.eq (h : s.Record id t) (h' : s.Record id t') : t = t' := by
  obtain ⟨item, hitem, hvalue⟩ := h
  obtain ⟨item', hitem', hvalue'⟩ := h'
  obtain rfl : item = item' := Option.some.inj (hitem.symm.trans hitem')
  exact TicketValue.ticket.inj (hvalue.symm.trans hvalue')

theorem Consumed.not_pending (h : s.Consumed id) : ¬ s.Pending id := by
  rintro ⟨t, hrec, hpend⟩
  obtain ⟨t', hrec', hcons⟩ := h
  rw [hrec.eq hrec', hcons] at hpend
  cases hpend

theorem record_of_getTicket {cfg : EnrollConfig} {now : Time} {ok : Bool}
    (h : s.getTicket cfg now ok id = .ok t) : s.Record id t := by
  unfold getTicket at h
  split_ifs at h
  split at h
  · cases h
  · cases h
  · cases h
  · next hget =>
    cases h
    exact exists_item_of_get hget

theorem record_storeTicket {now ttl : Time} (h : (s.storeTicket now t ttl).Record id t') :
    id = t.id ∧ t' = t ∨ id ≠ t.id ∧ s.Record id t' := by
  obtain ⟨item, hitem, hvalue⟩ := h
  by_cases hid : id = t.id
  · subst hid
    obtain ⟨item', hitem', hvalue'⟩ := s.tickets.items_set_self now (ticketKey t.id) (.ticket t) ttl
    obtain rfl : item = item' := Option.some.inj (hitem.symm.trans hitem')
    exact .inl ⟨rfl, TicketValue.ticket.inj (hvalue.symm.trans hvalue')⟩
  · have hne : ticketKey id ≠ ticketKey t.id := fun hk => hid (ticketKey_injective hk)
    rw [storeTicket, items_set_ne hne] at hitem
    exact .inr ⟨hid, item, hitem, hvalue⟩

theorem not_record_dropTicket (t : Ticket) : ¬ (s.dropTicket id).Record id t := by
  rintro ⟨item, hitem, -⟩
  rw [dropTicket, items_delete_self] at hitem
  cases hitem

theorem record_of_dropTicket {id' : String} (h : (s.dropTicket id').Record id t) :
    s.Record id t := by
  by_cases hid : id = id'
  · subst hid
    exact absurd h (not_record_dropTicket t)
  · obtain ⟨item, hitem, hvalue⟩ := h
    have hne : ticketKey id ≠ ticketKey id' := fun hk => hid (ticketKey_injective hk)
    rw [dropTicket, items_delete_ne hne] at hitem
    exact ⟨item, hitem, hvalue⟩

end EnrollStore

/-! ### What a step can do -/

open EnrollStore

namespace EnrollCall

/-- The call has nothing to do with a claim any more, or not yet. -/
def idle : EnrollCall → Bool
  | .validate _ | .resolve _ _ | .prepare _ | .acquire _ | .save none | .dropSpent _ _
  | .invalidate _ | .done _ | .create _ _ _ _ | .created _ | .revoked _ (some _) | .generate _
  | .generated | .cleanup => true
  | .claimGet _ | .claimStore _ _ | .release _ _ | .save (some _) | .consume _ _ | .revoke _
  | .revoked _ none => false

/-- The steps of call `i`, by what they need and what they change.  A call that ends, or that goes
on outside of `Claim`, is `idle` after the step. -/
inductive Step (cfg : EnrollConfig) (i : ℕ) (s : EnrollStore) (e : EnrollEnv) :
    EnrollCall → EnrollStore → EnrollCall → Prop
  | quiet {c c' : EnrollCall} (hidle : c'.idle = true) : Step cfg i s e c s c'
  | lockLost {t : Ticket} {err : EnrollError} (hfree : s.locked e.now t.id = false) :
    Step cfg i s e (.acquire t) (s.lock e.now i t.id) (.done (.error err))
  | lock {t : Ticket} (hfree : s.locked e.now t.id = false) :
    Step cfg i s e (.acquire t) (s.lock e.now i t.id) (.claimGet t)
  | refuse {t : Ticket} {err : EnrollError} :
    Step cfg i s e (.claimGet t) s (.release t (some err))
  | read {t stored : Ticket} (hrecord : s.Record t.id stored) (hpending : stored.status = .pending) :
    Step cfg i s e (.claimGet t) s
      (.claimStore t { stored with status := .consumed, consumedAt := some e.now })
  | claim {t stored : Ticket} :
    Step cfg i s e (.claimStore t stored)
      { s.storeTicket e.now stored consumedTicketRetention with
        claimant := s.claimant.put stored.id i }
      (.release { t with status := stored.status, consumedAt := stored.consumedAt } none)
  | claimFailed {t stored : Ticket} {err : EnrollError} :
    Step cfg i s e (.claimStore t stored) s (.release t (some err))
  | claimLost {t stored : Ticket} {err : EnrollError} :
    Step cfg i s e (.claimStore t stored) (s.storeTicket e.now stored consumedTicketRetention)
      (.release t (some err))
  | release {t : Ticket} {err : Option EnrollError} {s' : EnrollStore} {c' : EnrollCall}
    (hs' : s' = s ∨ s' = s.unlock i t.id)
    (hc' : err = none ∧ c' = .save (some t) ∨ c'.idle = true) :
    Step cfg i s e (.release t err) s' c'
  | saveNode {c' : EnrollCall} (hidle : c'.idle = true) :
    Step cfg i s e (.save none) { s with nodes := s.nodes ++ [(i, none)] } c'
  | saveTicket {t : Ticket} {c' : EnrollCall} (hc' : (∃ nodeID, c' = .consume t nodeID) ∨ c'.idle = true) :
    Step cfg i s e (.save (some t)) { s with nodes := s.nodes ++ [(i, some t.id)] } c'
  | consume {t : Ticket} {nodeID : ℕ} {c' : EnrollCall} (hidle : c'.idle = true) :
    Step cfg i s e (.consume t nodeID)
      (s.storeTicket e.now (consumedTicket e.now t nodeID) consumedTicketRetention) c'
  | drop {c c' : EnrollCall} {id : String} (hidle : c'.idle = true) :
    Step cfg i s e c (s.dropTicket id) c'
  | setupKey {c c' : EnrollCall} {setupKeys : SetupKeyManager} (hidle : c'.idle = true) :
    Step cfg i s e c { s with setupKeys } c'
  | create {c c' : EnrollCall} {id : String} (hidle : c'.idle = true) (hfresh : id ∉ s.issued) :
    Step cfg i s e c { s with issued := id :: s.issued } c'
  | store {c c' : EnrollCall} {t : Ticket} {ttl : Time} (hidle : c'.idle = true)
    (hfresh : t.id ∉ s.issued) :
    Step cfg i s e c (EnrollStore.storeTicket { s with issued := t.id :: s.issued } e.now t ttl) c'
  | revoke {id : String} :
    Step cfg i s e (.revoke id) (s.dropTicket id) (.revoked id none)
  | cleanup {c c' : EnrollCall} {setupKeys : SetupKeyManager} (hidle : c'.idle = true) :
    Step cfg i s e c { s with tickets := s.tickets.cleanup e.now, setupKeys } c'

variable {cfg : EnrollConfig}

theorem idle_afterValidate (setupKey : String) (r : Except EnrollError Unit) :
    (afterValidate cfg setupKey r).idle = true := by
  cases r with
  | ok u => rfl
  | error err =>
    simp only [afterValidate]
    split_ifs <;> rfl

theorem step_claimGet (i : ℕ) (s : EnrollStore) (e : EnrollEnv) (t : Ticket) :
    Step cfg i s e (.claimGet t) s (afterClaimGet e.now t (s.getTicket cfg e.now e.ok t.id)) := by
  cases hget : s.getTicket cfg e.now e.ok t.id with
  | error err => exact .refuse
  | ok stored =>
    unfold afterClaimGet
    simp only
    split_ifs with hcons
    · exact .refuse
    · exact .refuse
    · have hpend : stored.status = .pending := by
        cases hstat : stored.status with
        | pending => rfl
        | consumed => exact absurd hstat hcons
      exact .read (record_of_getTicket hget) hpend

theorem step_of_next {i : ℕ} {s s' : EnrollStore} {e : EnrollEnv} {c c' : EnrollCall}
    (h : next cfg i s e c = some (s', c')) : Step cfg i s e c s' c' := by
  cases c with
  | validate setupKey =>
    cases h
    exact .quiet (idle_afterValidate _ _)
  | resolve setupKey globalErr =>
    cases h
    exact .quiet (by cases s.resolve cfg e.now e.ok setupKey <;> rfl)
  | prepare ticket =>
    simp only [next] at h
    split_ifs at h
    · cases h
      exact .quiet rfl
    · cases ticket <;> cases h <;> exact .quiet rfl
  | acquire t =>
    simp only [next] at h
    split_ifs at h with hlock hok hok happl <;> cases h
    any_goals exact .quiet rfl
    · exact .lock (Bool.eq_false_iff.2 hlock)
    · exact .lockLost (Bool.eq_false_iff.2 hlock)
  | claimGet t =>
    cases h
    exact step_claimGet i s e t
  | claimStore t stored =>
    simp only [next] at h
    split_ifs at h <;> cases h
    · exact .claim
    · exact .claimLost
    · exact .claimFailed
  | release t err =>
    have hunlock : (if e.effect then s.unlock i t.id else s) = s ∨
        (if e.effect then s.unlock i t.id else s) = s.unlock i t.id := by
      split_ifs
      · exact .inr rfl
      · exact .inl rfl
    cases err with
    | none =>
      cases h
      exact .release hunlock (.inl ⟨rfl, rfl⟩)
    | some err =>
      cases h
      exact .release hunlock (.inr rfl)
  | save ticket =>
    cases ticket with
    | none =>
      simp only [next] at h
      split_ifs at h <;> cases h
      · exact .saveNode rfl
      · exact .saveNode rfl
      · exact .quiet rfl
    | some t =>
      simp only [next] at h
      split_ifs at h <;> cases h
      · exact .saveTicket (.inl ⟨_, rfl⟩)
      · exact .saveTicket (.inr rfl)
      · exact .quiet rfl
  | consume t nodeID =>
    simp only [next] at h
    split_ifs at h <;> cases h
    · exact .consume rfl
    · exact .consume rfl
    · exact .quiet rfl
  | dropSpent id nodeID =>
    simp only [next] at h
    split_ifs at h <;> cases h
    · exact .drop rfl
    · exact .quiet rfl
  | invalidate | generate =>
    simp only [next] at h
    split_ifs at h <;> cases h
    · exact .setupKey rfl
    · exact .quiet rfl
  | create owner id secret ttl =>
    simp only [next] at h
    generalize (if ttl = 0 then defaultTicketTTL else ttl) = ttl' at h
    split_ifs at h with hrange hiss hok happl
    · cases h
      exact .quiet rfl
    all_goals have hfresh : id ∉ s.issued := by simpa using hiss
    · cases h
      exact .store (t := newTicket cfg e.now owner id secret ttl') rfl hfresh
    · cases h
      exact .store (t := newTicket cfg e.now owner id secret ttl') rfl hfresh
    · cases h
      exact .create rfl hfresh
  | revoke id =>
    simp only [next] at h
    split_ifs at h <;> cases h
    · exact .quiet rfl
    · exact .revoke
    · exact .drop rfl
    · exact .quiet rfl
  | cleanup =>
    cases h
    exact .cleanup rfl
  | _ => cases h

end EnrollCall

/-! ### The invariant of the store -/

/-- Records stand under their identifiers and were issued, a pending record has not been claimed,
and a node is that of the call which has claimed its ticket. -/
structure TicketInv (s : EnrollStore) : Prop where
  own : ∀ id t, s.Record id t → t.id = id
  recorded : ∀ id t, s.Record id t → id ∈ s.issued
  unclaimed : ∀ id, s.Pending id → s.claimant.get id = none
  claimed : ∀ id i, s.claimant.get id = some i → id ∈ s.issued
  node : ∀ id i, (i, some id) ∈ s.nodes → s.claimant.get id = some i
  once : ∀ id, (s.nodesOf id).length ≤ 1

namespace TicketInv

variable {s : EnrollStore} {id : String}

theorem empty : TicketInv {} where
  own := by rintro id t ⟨item, ⟨⟩, -⟩
  recorded := by rintro id t ⟨item, ⟨⟩, -⟩
  unclaimed := fun _ _ => rfl
  claimed := by rintro id i ⟨⟩
  node := by rintro id i ⟨⟩
  once := fun _ => Nat.zero_le 1

section

variable (h : TicketInv s)

include h

theorem noNode (hfree : s.claimant.get id = none) : s.NoNode id := by
  intro j hj
  rw [h.node id j hj] at hfree
  cases hfree

theorem shrink {s' : EnrollStore}
    (hrec : ∀ id t, s'.Record id t → s.Record id t) (hiss : s'.issued = s.issued)
    (hcla : s'.claimant = s.claimant) (hnodes : s'.nodes = s.nodes) : TicketInv s' where
  own id t ht := h.own id t (hrec id t ht)
  recorded id t ht := hiss ▸ h.recorded id t (hrec id t ht)
  unclaimed id hp := by
    obtain ⟨t, ht, hpend⟩ := hp
    exact hcla ▸ h.unclaimed id ⟨t, hrec id t ht, hpend⟩
  claimed id i hi := hiss ▸ h.claimed id i (hcla ▸ hi)
  node id i hi := hcla ▸ h.node id i (hnodes ▸ hi)
  once id := by
    have hsame : s'.nodesOf id = s.nodesOf id := by rw [nodesOf, hnodes]; rfl
    exact hsame ▸ h.once id

variable {now ttl : Time} {t : Ticket}

theorem store (hiss : t.id ∈ s.issued)
    (hfree : t.status = .pending → s.claimant.get t.id = none) :
    TicketInv (s.storeTicket now t ttl) where
  own id t' ht' := by
    rcases record_storeTicket ht' with ⟨rfl, rfl⟩ | ⟨-, ht'⟩
    · rfl
    · exact h.own id t' ht'
  recorded id t' ht' := by
    rcases record_storeTicket ht' with ⟨rfl, rfl⟩ | ⟨-, ht'⟩
    · exact hiss
    · exact h.recorded id t' ht'
  unclaimed id hp := by
    obtain ⟨t', ht', hpend⟩ := hp
    rcases record_storeTicket ht' with ⟨rfl, rfl⟩ | ⟨-, ht'⟩
    · exact hfree hpend
    · exact h.unclaimed id ⟨t', ht', hpend⟩
  claimed := h.claimed
  node := h.node
  once := h.once

theorem storeConsumed (hiss : t.id ∈ s.issued)
    (hcons : t.status = .consumed) : TicketInv (s.storeTicket now t ttl) := by
  refine h.store hiss fun hpend => ?_
  rw [hcons] at hpend
  cases hpend

theorem claim (i : ℕ) (hiss : id ∈ s.issued)
    (hpend : ¬ s.Pending id) (hfree : s.claimant.get id = none) :
    TicketInv { s with claimant := s.claimant.put id i } where
  own := h.own
  recorded := h.recorded
  unclaimed id' hp := by
    have hne : id' ≠ id := by
      rintro rfl
      exact hpend hp
    exact (get_put_ne _ hne _).trans (h.unclaimed id' hp)
  claimed id' j hj := by
    by_cases hid : id' = id
    · exact hid ▸ hiss
    · exact h.claimed id' j ((get_put_ne _ hid _).symm.trans hj)
  node id' j hj := by
    have hne : id' ≠ id := by
      rintro rfl
      exact h.noNode hfree j hj
    exact (get_put_ne _ hne _).trans (h.node id' j hj)
  once := h.once

variable {ticket : Option String}

theorem save {i : ℕ} (hticket : ∀ id, ticket = some id → s.claimant.get id = some i ∧ s.NoNode id) :
    TicketInv { s with nodes := s.nodes ++ [(i, ticket)] } where
  own := h.own
  recorded := h.recorded
  unclaimed := h.unclaimed
  claimed := h.claimed
  node id j hj := by
    rcases mem_append.1 hj with hj | hj
    · exact h.node id j hj
    · obtain ⟨rfl, hid⟩ := Prod.mk.injEq .. ▸ mem_singleton.1 hj
      exact (hticket id hid.symm).1
  once id := by
    by_cases hid : ticket = some id
    · obtain ⟨-, hnone⟩ := hticket id hid
      have hempty : s.nodesOf id = [] := by
        refine filter_eq_nil_iff.2 fun n hn hsome => ?_
        exact hnone n.1 (by rw [← of_decide_eq_true hsome]; exact hn)
      rw [nodesOf] at hempty ⊢
      simp [filter_append, hempty, hid]
    · have honce := h.once id
      rw [nodesOf] at honce ⊢
      simpa [filter_append, hid] using honce

theorem issue (id : String) : TicketInv { s with issued := id :: s.issued } where
  own := h.own
  recorded id' t ht := mem_cons_of_mem id (h.recorded id' t ht)
  unclaimed := h.unclaimed
  claimed id' i hi := mem_cons_of_mem id (h.claimed id' i hi)
  node := h.node
  once := h.once

theorem create (hfresh : t.id ∉ s.issued) :
    TicketInv (storeTicket { s with issued := t.id :: s.issued } now t ttl) := by
  refine (h.issue t.id).store (mem_cons_self ..) fun _ => ?_
  cases hcla : s.claimant.get t.id with
  | none => rfl
  | some i => exact absurd (h.claimed _ i hcla) hfresh

end

end TicketInv

/-! ### What a call holds -/

namespace EnrollCall

/-- What is known of call `i` where it stands. -/
def Holds (i : ℕ) (s : EnrollStore) : EnrollCall → Prop
  | .claimGet t => s.LockedBy i t.id
  | .claimStore t stored => s.LockedBy i t.id ∧ stored.id = t.id ∧ stored.status = .consumed ∧
      t.id ∈ s.issued ∧ s.claimant.get t.id = none
  | .release t none => s.LockedBy i t.id ∧ s.claimant.get t.id = some i ∧ s.NoNode t.id
  | .release t (some _) => s.LockedBy i t.id
  | .save (some t) => s.claimant.get t.id = some i ∧ s.NoNode t.id
  | .consume t _ => t.id ∈ s.issued
  | .revoke id => id ∈ s.issued
  | .revoked id none => id ∈ s.issued ∧ ¬ s.Pending id
  | _ => True

theorem holds_of_idle {i : ℕ} {s : EnrollStore} {c : EnrollCall} (h : c.idle = true) : Holds i s c := by
  unfold Holds
  split <;> first | cases h | trivial

/-- What the others may do to the store under the feet of call `j`, which stands at `d`. -/
structure Frame (j : ℕ) (d : EnrollCall) (s s' : EnrollStore) : Prop where
  lock : ∀ id, d.inClaim id = true → s.LockedBy j id → s'.LockedBy j id
  issued : ∀ id ∈ s.issued, id ∈ s'.issued
  pending : ∀ id ∈ s.issued, s'.Pending id → s.Pending id
  unclaimed : ∀ id, s.LockedBy j id → s.claimant.get id = none → s'.claimant.get id = none
  claimed : ∀ id, s.claimant.get id = some j → s'.claimant.get id = some j
  noNode : ∀ id, s.claimant.get id = some j → s.NoNode id → s'.NoNode id

theorem Holds.frame {j : ℕ} {d : EnrollCall} {s s' : EnrollStore} (h : Holds j s d)
    (hframe : Frame j d s s') : Holds j s' d := by
  cases d with
  | claimGet t => exact hframe.lock t.id (decide_eq_true rfl) h
  | claimStore t stored =>
    obtain ⟨hlock, hid, hstat, hiss, hfree⟩ := h
    exact ⟨hframe.lock t.id (decide_eq_true rfl) hlock, hid, hstat, hframe.issued _ hiss,
      hframe.unclaimed _ hlock hfree⟩
  | release t err =>
    cases err with
    | none =>
      obtain ⟨hlock, hclaim, hnone⟩ := h
      exact ⟨hframe.lock t.id (decide_eq_true rfl) hlock, hframe.claimed _ hclaim,
        hframe.noNode _ hclaim hnone⟩
    | some err => exact hframe.lock t.id (decide_eq_true rfl) h
  | save ticket =>
    cases ticket with
    | none => trivial
    | some t => exact ⟨hframe.claimed _ h.1, hframe.noNode _ h.1 h.2⟩
  | consume | revoke => exact hframe.issued _ h
  | revoked id err =>
    cases err with
    | none => exact ⟨hframe.issued _ h.1, fun hp => h.2 (hframe.pending _ h.1 hp)⟩
    | some err => trivial
  | _ => trivial

namespace Frame

variable {j : ℕ} {d : EnrollCall} {s : EnrollStore}

theorem ofRecords {s' : EnrollStore} (hpend : ∀ id ∈ s.issued, s'.Pending id → s.Pending id)
    (hlocks : s'.locks = s.locks) (hiss : ∀ id ∈ s.issued, id ∈ s'.issued)
    (hcla : s'.claimant = s.claimant) (hnodes : s'.nodes = s.nodes) : Frame j d s s' where
  lock id _ h := by rwa [EnrollStore.LockedBy, hlocks]
  issued := hiss
  pending := hpend
  unclaimed id _ h := by rwa [hcla]
  claimed id h := by rwa [hcla]
  noNode id _ h := by rwa [EnrollStore.NoNode, hnodes]

theorem ofLocks {locks : Table String (ℕ × Time)}
    (hlock : ∀ id, d.inClaim id = true → s.LockedBy j id →
      EnrollStore.LockedBy { s with locks } j id) : Frame j d s { s with locks } where
  lock := hlock
  issued _ h := h
  pending _ _ h := h
  unclaimed _ _ h := h
  claimed _ h := h
  noNode _ _ h := h

theorem refl : Frame j d s s := ofRecords (fun _ _ h => h) rfl (fun _ h => h) rfl rfl

end Frame

variable {now ttl : Time}

theorem pending_of_storeTicket {s : EnrollStore} {t : Ticket} {id : String}
    (hne : id = t.id → t.status = .consumed) (h : (s.storeTicket now t ttl).Pending id) :
    s.Pending id := by
  obtain ⟨t', ht', hpend⟩ := h
  rcases record_storeTicket ht' with ⟨hid, rfl⟩ | ⟨-, ht'⟩
  · rw [hne hid] at hpend
    cases hpend
  · exact ⟨t', ht', hpend⟩

theorem record_of_cleanup {s : EnrollStore} {setupKeys : SetupKeyManager} {id : String} {t : Ticket}
    (h : EnrollStore.Record { s with tickets := s.tickets.cleanup now, setupKeys } id t) :
    s.Record id t := by
  obtain ⟨item, hitem, hvalue⟩ := h
  exact ⟨item, items_cleanup hitem, hvalue⟩

/-! ### One step -/

section

variable {cfg : EnrollConfig} {i j : ℕ} {s s' : EnrollStore} {e : EnrollEnv} {c c' d : EnrollCall}

theorem LockedBy.eq {id : String} (hi : s.LockedBy i id) (hj : s.LockedBy j id) : i = j := by
  obtain ⟨deadline, hi⟩ := hi
  obtain ⟨deadline', hj⟩ := hj
  exact congrArg Prod.fst (Option.some.inj (hi.symm.trans hj))

variable {t : Ticket}

/-- A lock is taken over from a call that has left its critical section. -/
theorem frame_lock (hleft : ∀ deadline, s.locks.get (ticketKey t.id) = some (j, deadline) →
      deadline < e.now → d.inClaim t.id = false) (hfree : s.locked e.now t.id = false) :
    Frame j d s (s.lock e.now i t.id) := by
  refine Frame.ofLocks fun id hin hlocked => ?_
  obtain ⟨deadline, hlock⟩ := hlocked
  by_cases hid : id = t.id
  · subst hid
    rw [locked, hlock, decide_eq_false_iff_not, not_le] at hfree
    rw [hleft deadline hlock hfree] at hin
    cases hin
  · have hne : ticketKey id ≠ ticketKey t.id := fun hk => hid (ticketKey_injective hk)
    exact ⟨deadline, (get_put_ne _ hne _).trans hlock⟩

theorem unlock_eq (id : String) : ∃ locks, s.unlock i id = { s with locks } := by
  unfold unlock
  split
  · exact ⟨s.locks, rfl⟩
  · split_ifs
    · exact ⟨_, rfl⟩
    · exact ⟨s.locks, rfl⟩

theorem frame_unlock (hj : j ≠ i) (id : String) : Frame j d s (s.unlock i id) := by
  have hkeep : ∀ id', s.LockedBy j id' → (s.unlock i id).LockedBy j id' := by
    rintro id' ⟨deadline, hlock⟩
    unfold unlock
    split
    · exact ⟨deadline, hlock⟩
    · next holder deadline' hhold =>
      split_ifs with hi
      · have hne : ticketKey id' ≠ ticketKey id := by
          intro hk
          rw [hk, hhold] at hlock
          cases hlock
          exact hj hi
        exact ⟨deadline, (get_del_ne _ hne).trans hlock⟩
      · exact ⟨deadline, hlock⟩
  obtain ⟨locks, hunlock⟩ := @unlock_eq i s id
  rw [hunlock] at hkeep ⊢
  exact Frame.ofLocks fun id' _ => hkeep id'

theorem frame_claim (hc : Holds i s (.claimStore t stored)) (hj : j ≠ i) :
    Frame j d s { s.storeTicket e.now stored consumedTicketRetention with
      claimant := s.claimant.put stored.id i } := by
  obtain ⟨hlock, hid, hstat, -, hfree⟩ := hc
  rw [hid]
  refine ⟨fun id _ h => h, fun id h => h, fun id _ h => pending_of_storeTicket (fun _ => hstat) h,
    fun id hlocked hnone => ?_, fun id hclaim => ?_, fun id _ h => h⟩
  · have hne : id ≠ t.id := by
      rintro rfl
      exact hj (LockedBy.eq hlocked hlock)
    exact (get_put_ne _ hne _).trans hnone
  · have hne : id ≠ t.id := by
      rintro rfl
      rw [hclaim] at hfree
      cases hfree
    exact (get_put_ne _ hne _).trans hclaim

theorem frame_save (hj : j ≠ i) (hticket : ∀ id, ticket = some id → s.claimant.get id = some i) :
    Frame j d s { s with nodes := s.nodes ++ [(i, ticket)] } := by
  refine ⟨fun id _ h => h, fun id h => h, fun id _ h => h, fun id _ h => h, fun id h => h,
    fun id hclaim hnone k hk => ?_⟩
  rcases mem_append.1 hk with hk | hk
  · exact hnone k hk
  · obtain ⟨rfl, hid⟩ := Prod.mk.injEq .. ▸ mem_singleton.1 hk
    rw [hticket id hid.symm] at hclaim
    exact hj (Option.some.inj hclaim).symm

theorem frame_of_step (hstep : Step cfg i s e c s' c') (hc : Holds i s c) (hj : j ≠ i)
    (hleft : ∀ t, c = .acquire t → ∀ deadline, s.locks.get (ticketKey t.id) = some (j, deadline) →
      deadline < e.now → d.inClaim t.id = false) : Frame j d s s' := by
  cases hstep with
  | quiet | refuse | read | claimFailed => exact .refl
  | lockLost hfree | lock hfree => exact frame_lock (hleft _ rfl) hfree
  | claim => exact frame_claim hc hj
  | claimLost =>
    exact .ofRecords (fun _ _ => pending_of_storeTicket fun _ => hc.2.2.1) rfl (fun _ h => h) rfl rfl
  | release hs' _ =>
    rcases hs' with rfl | rfl
    · exact .refl
    · exact frame_unlock hj _
  | saveNode _ => exact frame_save hj nofun
  | saveTicket _ =>
    refine frame_save hj fun id hid => ?_
    cases hid
    exact hc.1
  | consume _ =>
    exact .ofRecords (fun _ _ => pending_of_storeTicket fun _ => rfl) rfl (fun _ h => h) rfl rfl
  | drop _ | revoke =>
    exact .ofRecords (fun _ _ ⟨t, ht, hpend⟩ => ⟨t, record_of_dropTicket ht, hpend⟩) rfl
      (fun _ h => h) rfl rfl
  | setupKey _ => exact .ofRecords (fun _ _ h => h) rfl (fun _ h => h) rfl rfl
  | create _ _ =>
    exact .ofRecords (fun _ _ h => h) rfl (fun _ => mem_cons_of_mem _) rfl rfl
  | store _ hfresh =>
    refine .ofRecords (fun id hid => pending_of_storeTicket fun heq => ?_) rfl
      (fun _ => mem_cons_of_mem _) rfl rfl
    exact absurd (heq ▸ hid) hfresh
  | cleanup _ =>
    refine .ofRecords (fun id _ hp => ?_) rfl (fun _ h => h) rfl rfl
    obtain ⟨t, ht, hpend⟩ := hp
    exact ⟨t, record_of_cleanup ht, hpend⟩

theorem TicketInv.ofLocks (h : TicketInv s) (locks : Table String (ℕ × Time)) :
    TicketInv { s with locks } :=
  h.shrink (fun _ _ ht => ht) rfl rfl rfl

theorem not_pending_storeTicket (hcons : t.status = .consumed) :
    ¬ (s.storeTicket now t ttl).Pending t.id := by
  rintro ⟨t', ht', hpend⟩
  rcases record_storeTicket ht' with ⟨-, rfl⟩ | ⟨hne, -⟩
  · rw [hcons] at hpend
    cases hpend
  · exact hne rfl

theorem inv_claim (hinv : TicketInv s) (hc : Holds i s (.claimStore t stored)) :
    TicketInv { s.storeTicket now stored consumedTicketRetention with
        claimant := s.claimant.put stored.id i } ∧
      Holds i { s.storeTicket now stored consumedTicketRetention with
          claimant := s.claimant.put stored.id i }
        (.release { t with status := stored.status, consumedAt := stored.consumedAt } none) := by
  obtain ⟨hlock, hid, hstat, hiss, hfree⟩ := hc
  rw [← hid] at hiss hfree
  refine ⟨(hinv.storeConsumed hiss hstat).claim i hiss (not_pending_storeTicket hstat) hfree,
    hlock, ?_, ?_⟩
  · exact hid ▸ get_put_self _ _ _
  · exact hid ▸ hinv.noNode hfree

theorem inv_release {err : Option EnrollError} (hinv : TicketInv s)
    (hc : Holds i s (.release t err)) (hs' : s' = s ∨ s' = s.unlock i t.id)
    (hc' : err = none ∧ c' = .save (some t) ∨ c'.idle = true) : TicketInv s' ∧ Holds i s' c' := by
  -- only the lock has changed
  obtain ⟨locks, rfl⟩ : ∃ locks, s' = { s with locks } := by
    rcases hs' with rfl | rfl
    · exact ⟨s'.locks, rfl⟩
    · exact unlock_eq t.id
  refine ⟨TicketInv.ofLocks hinv locks, ?_⟩
  rcases hc' with ⟨rfl, rfl⟩ | hidle
  · exact hc.2
  · exact holds_of_idle hidle

theorem inv_of_step (hinv : TicketInv s) (hc : Holds i s c) (hstep : Step cfg i s e c s' c') :
    TicketInv s' ∧ Holds i s' c' := by
  cases hstep with
  | quiet hidle => exact ⟨hinv, holds_of_idle hidle⟩
  | lockLost _ => exact ⟨TicketInv.ofLocks hinv _, trivial⟩
  | lock _ => exact ⟨TicketInv.ofLocks hinv _, _, get_put_self _ _ _⟩
  | refuse => exact ⟨hinv, hc⟩
  | read hrec hpend =>
    have hid := hinv.own _ _ hrec
    exact ⟨hinv, hc, hid, rfl, hinv.recorded _ _ hrec, hinv.unclaimed _ ⟨_, hrec, hpend⟩⟩
  | claim => exact inv_claim hinv hc
  | claimFailed => exact ⟨hinv, hc.1⟩
  | claimLost =>
    obtain ⟨hlock, hid, hstat, hiss, -⟩ := hc
    exact ⟨hinv.storeConsumed (hid ▸ hiss) hstat, hlock⟩
  | release hs' hc' => exact inv_release hinv hc hs' hc'
  | saveNode hidle => exact ⟨hinv.save nofun, holds_of_idle hidle⟩
  | saveTicket hc' =>
    refine ⟨hinv.save fun id hid => ?_, ?_⟩
    · cases hid
      exact hc
    · rcases hc' with ⟨nodeID, rfl⟩ | hidle
      · exact hinv.claimed _ _ hc.1
      · exact holds_of_idle hidle
  | consume hidle => exact ⟨hinv.storeConsumed hc rfl, holds_of_idle hidle⟩
  | drop hidle =>
    exact ⟨hinv.shrink (fun _ _ => record_of_dropTicket) rfl rfl rfl, holds_of_idle hidle⟩
  | setupKey hidle => exact ⟨hinv.shrink (fun _ _ ht => ht) rfl rfl rfl, holds_of_idle hidle⟩
  | create hidle _ => exact ⟨hinv.issue _, holds_of_idle hidle⟩
  | store hidle hfresh => exact ⟨hinv.create hfresh, holds_of_idle hidle⟩
  | revoke =>
    refine ⟨hinv.shrink (fun _ _ => record_of_dropTicket) rfl rfl rfl, hc, ?_⟩
    rintro ⟨t, ht, -⟩
    exact not_record_dropTicket t ht
  | cleanup hidle =>
    exact ⟨hinv.shrink (fun _ _ => record_of_cleanup) rfl rfl rfl, holds_of_idle hidle⟩

end

/-! ### Runs -/

/-- The invariant of the pool. -/
abbrev PoolHolds : Pool EnrollStore EnrollCall → Prop := PoolInv TicketInv Holds

variable {cfg : EnrollConfig}

theorem holds_of_start {i : ℕ} {s : EnrollStore} {c : EnrollCall}
    (h : (program cfg).start s c = true) : Holds i s c := by
  cases c with
  | revoke id =>
    obtain ⟨id', hid', heq⟩ := any_eq_true.1 h
    exact of_decide_eq_true heq ▸ hid'
  | validate | create | generate | cleanup => trivial
  | _ => cases h

theorem poolHolds_step : StableUnder (program cfg).step (Guarded EndsInTime) PoolHolds := by
  refine Program.inv_step ?_ ?_
  · intro p c _ hstart
    exact holds_of_start hstart
  · intro p i e c s' c' hp hG hc hn
    have hstep := step_of_next hn
    obtain ⟨hinv, hholds⟩ := inv_of_step hp.store (hp.call i c hc) hstep
    refine ⟨hinv, hholds, fun j d hj hd => ?_⟩
    refine (hp.call j d hd).frame (frame_of_step hstep (hp.call i c hc) hj ?_)
    rintro t rfl deadline hlock hpass
    exact hG (j, deadline) hlock hpass d hd

/-! ### Tickets that are spent -/

/-- The ticket was issued and its record is not pending. -/
def Spent (s : EnrollStore) (id : String) : Prop := id ∈ s.issued ∧ ¬ s.Pending id

/-- The call has begun its `Claim` on the ticket. -/
def begun (id : String) : EnrollCall → Bool
  | .claimGet t | .claimStore t _ | .release t _ | .save (some t) => t.id = id
  | _ => false

/-- The call has found the ticket pending and may create a node with it. -/
def mayEnroll (id : String) : EnrollCall → Bool
  | .claimStore t _ | .release t none | .save (some t) => t.id = id
  | _ => false

section

variable {i : ℕ} {s s' : EnrollStore} {e : EnrollEnv} {c c' : EnrollCall} {id : String}

theorem begun_of_mayEnroll (h : c.mayEnroll id = true) : c.begun id = true := by
  unfold mayEnroll at h
  split at h
  · exact h
  · exact h
  · exact h
  · cases h

theorem not_mayEnroll_of_idle (h : c.idle = true) : ¬ c.mayEnroll id = true := by
  unfold mayEnroll
  split
  · cases h
  · cases h
  · cases h
  · exact Bool.false_ne_true

theorem spent_of_step (hstep : Step cfg i s e c s' c') (hc : Holds i s c) (h : Spent s id) :
    Spent s' id := by
  have hframe : Frame (i + 1) .generated s s' :=
    frame_of_step hstep hc (Nat.succ_ne_self i) fun _ _ _ _ _ => rfl
  exact ⟨hframe.issued id h.1, fun hp => h.2 (hframe.pending id h.1 hp)⟩

theorem mayEnroll_of_step (hstep : Step cfg i s e c s' c') (h : c'.mayEnroll id = true) :
    c.mayEnroll id = true ∨ s.Pending id := by
  cases hstep with
  | read hrec hpend => exact .inr ⟨_, of_decide_eq_true h ▸ hrec, hpend⟩
  | claim => exact .inl h
  | release _ hc' =>
    rcases hc' with ⟨rfl, rfl⟩ | hidle
    · exact .inl h
    · exact absurd h (not_mayEnroll_of_idle hidle)
  | saveTicket hc' =>
    rcases hc' with ⟨nodeID, rfl⟩ | hidle
    · cases h
    · exact absurd h (not_mayEnroll_of_idle hidle)
  | quiet hidle | saveNode hidle | consume hidle | drop hidle | setupKey hidle | create hidle _
  | store hidle _ =>
    exact absurd h (not_mayEnroll_of_idle hidle)
  | cleanup hidle => exact absurd h (not_mayEnroll_of_idle hidle)
  | _ => cases h

theorem nodes_of_step (hstep : Step cfg i s e c s' c') {j : ℕ} (h : (j, some id) ∈ s'.nodes) :
    (j, some id) ∈ s.nodes ∨ j = i ∧ c.mayEnroll id = true := by
  cases hstep with
  | saveNode _ =>
    rcases mem_append.1 h with h | h
    · exact .inl h
    · cases mem_singleton.1 h
  | saveTicket _ =>
    rcases mem_append.1 h with h | h
    · exact .inl h
    · cases mem_singleton.1 h
      exact .inr ⟨rfl, decide_eq_true rfl⟩
  | release hs' _ =>
    rcases hs' with rfl | rfl
    · exact .inl h
    · obtain ⟨locks, hunlock⟩ := unlock_eq (i := i) (s := s) _
      rw [hunlock] at h
      exact .inl h
  | _ => exact .inl h

end

/-- The call `j` of the pool has created a node with the ticket, or has begun its claim. -/
def Began (p : Pool EnrollStore EnrollCall) (id : String) (j : ℕ) : Prop :=
  (j, some id) ∈ p.store.nodes ∨ ∃ c, p.calls[j]? = some c ∧ c.begun id = true

/-- What is kept after the ticket is spent in the pool `p`: only calls that began before create
nodes with it. -/
abbrev SpentSince (p : Pool EnrollStore EnrollCall) (id : String) :
    Pool EnrollStore EnrollCall → Prop :=
  PoolInv (fun s => TicketInv s ∧ Spent s id ∧ ∀ j, (j, some id) ∈ s.nodes → Began p id j)
    fun j s c => Holds j s c ∧ (c.mayEnroll id = true → Began p id j)

theorem spentSince_self {p : Pool EnrollStore EnrollCall} {id : String} (hp : PoolHolds p)
    (h : Spent p.store id) : SpentSince p id p :=
  ⟨⟨hp.store, h, fun _ hj => .inl hj⟩, fun j c hc =>
    ⟨hp.call j c hc, fun hmay => .inr ⟨c, hc, begun_of_mayEnroll hmay⟩⟩⟩

theorem spentSince_step {p₀ : Pool EnrollStore EnrollCall} {id : String} :
    StableUnder (program cfg).step (Guarded EndsInTime) (SpentSince p₀ id) := by
  refine Program.inv_step ?_ ?_
  · intro p c _ hstart
    refine ⟨holds_of_start hstart, fun hmay => ?_⟩
    cases c <;> first | cases hmay | cases hstart
  · intro p i e c s' c' hp hG hc hn
    obtain ⟨hinv, hspent, hnodes⟩ := hp.store
    obtain ⟨hholds, hmay⟩ := hp.call i c hc
    have hstep := step_of_next hn
    obtain ⟨hinv', hholds'⟩ := inv_of_step hinv hholds hstep
    refine ⟨⟨hinv', spent_of_step hstep hholds hspent, fun j hj => ?_⟩, ⟨hholds', fun hmay' => ?_⟩,
      fun j d hj hd => ?_⟩
    · rcases nodes_of_step hstep hj with hj | ⟨rfl, hcmay⟩
      · exact hnodes j hj
      · exact hmay hcmay
    · rcases mayEnroll_of_step hstep hmay' with hcmay | hpend
      · exact hmay hcmay
      · exact absurd hpend hspent.2
    · obtain ⟨hholdsj, hmayj⟩ := hp.call j d hd
      refine ⟨hholdsj.frame (frame_of_step hstep hholds hj ?_), hmayj⟩
      rintro t rfl deadline hlock hpass
      exact hG (j, deadline) hlock hpass d hd

/-- **Enrollment tickets**: at most one node is created with a ticket; after a `Revoke` only calls
that had begun their claim create one; and a consumed ticket does not become pending again. -/
theorem ticket_single_use (cfg : EnrollConfig) (id : String)
    (moves moves' : List (Move EnrollCall EnrollEnv)) (p r : Pool EnrollStore EnrollCall)
    (hG : Along (program cfg).step (Guarded EndsInTime) (Pool.idle {}) moves)
    (hrun : run (program cfg).step (Pool.idle {}) moves = some p)
    (hG' : Along (program cfg).step (Guarded EndsInTime) p moves')
    (hrun' : run (program cfg).step p moves' = some r) :
    (r.store.nodesOf id).length ≤ 1 ∧
    (∀ i : ℕ, p.calls[i]? = some (.revoked id none) → ∀ j, (j, some id) ∈ r.store.nodes →
      (j, some id) ∈ p.store.nodes ∨ ∃ c, p.calls[j]? = some c ∧ c.begun id = true) ∧
    (p.store.Consumed id → ¬ r.store.Pending id) := by
  have hp : PoolHolds p := run_inv _ poolHolds_step (PoolInv.idle TicketInv.empty) hG hrun
  have hr : PoolHolds r := run_inv _ poolHolds_step hp hG' hrun'
  have hsince : Spent p.store id → SpentSince p id r := fun hspent =>
    run_inv _ spentSince_step (spentSince_self hp hspent) hG' hrun'
  refine ⟨hr.store.once id, fun i hi j hj => ?_, fun hcons => ?_⟩
  · exact (hsince (hp.call i _ hi)).store.2.2 j hj
  · obtain ⟨t, hrec, hstat⟩ := hcons
    have hpend : ¬ p.store.Pending id := EnrollStore.Consumed.not_pending ⟨t, hrec, hstat⟩
    exact (hsince ⟨hp.store.recorded _ t hrec, hpend⟩).store.2.1.2

def plainConfig : EnrollConfig where
  sha256 := id
  validXid _ := true

def zeros : String := "00000000000000000000"

def secretA : String := "aaaaaaaaaaaaaaaaaaaaaaaaaaaaaaaa"

/-- Call `i` makes `n` steps at time 1, in which nothing fails. -/
def advance (i n : ℕ) : List (Move EnrollCall EnrollEnv) := List.replicate n (.advance i { now := 1 })

/-- A ticket is issued, an enrollment gets to the end of its critical section, and the ticket is
revoked. -/
def claimThenRevoke : List (Move EnrollCall EnrollEnv) :=
  [.spawn (.create "" zeros secretA 0)] ++ advance 0 1 ++ [.spawn (.validate (zeros ++ secretA))] ++
    advance 1 6 ++ [.spawn (.revoke zeros)] ++ advance 2 1

/-- The enrollment goes on to its node, and another one begins. -/
def nodeThenEnroll : List (Move EnrollCall EnrollEnv) :=
  advance 1 3 ++ [.spawn (.validate (zeros ++ secretA))] ++ advance 3 2

theorem ticket_single_use_revoked :
    ∃ p r, run (program plainConfig).step (Pool.idle {}) claimThenRevoke = some p ∧
      run (program plainConfig).step p nodeThenEnroll = some r ∧
      p.calls[2]? = some (.revoked zeros none) ∧ r.store.nodes = [(1, some zeros)] ∧
      r.calls[3]? = some (.done (.error .ticketConsumed)) ∧ (r.store.nodesOf zeros).length ≤ 1 ∧
      ∀ j, (j, some zeros) ∈ r.store.nodes →
        (j, some zeros) ∈ p.store.nodes ∨ ∃ c, p.calls[j]? = some c ∧ c.begun zeros = true := by
  refine ⟨_, _, rfl, rfl, rfl, rfl, rfl, ?_⟩
  have hsingle := ticket_single_use plainConfig zeros claimThenRevoke nodeThenEnroll _ _ (by decide) rfl
    (by decide) rfl
  exact ⟨hsingle.1, hsingle.2.1 2 rfl⟩

end EnrollCall

end GameAP
