import GameAP.Lib.Runs
import GameAP.Session.Registry
import Mathlib.Data.Fintype.Basic

/-!
# What the instances know of each other's sessions

A cluster of panel instances, one registry each, that announce their sessions on a bus, which has
one queue for every publisher and every observer.  A registration changes the map of its instance
first and is announced in a later step, and so is the end of a session; the announcement may fail.

A daemon that moves from `A` to `B` makes `B` announce a session and `A` the end of its own one.
`handleSessionEvent` takes the node out of its map for every closed session, whoever held it, so an
observer that sees the two in this order forgets the session of `B`
(`observer_forgets_moved_daemon`).

`connected_anywhere` needs `Settled`: an instance handles the end of a session of node `n` only when
no other instance holds a session of `n` that it has been told about.  `Cluster.processed` is a
ghost.
-/

namespace GameAP

open Runs Tables Function Registry

variable {ι : Type} {r : Registry ι} {addr : ℕ}

/-- A message on its way, with the address of the session that it announces. -/
structure Envelope (ι : Type) where
  message : SessionMessage ι
  session : ℕ
  deriving DecidableEq

/-- The instances and the bus. -/
structure Cluster (ι : Type) where
  registries : ι → Registry ι
  /-- The queue from a publisher to an observer. -/
  bus : ι → ι → List (Envelope ι)
  /-- The address of the next session. -/
  nextAddr : ℕ
  /-- The sessions whose announcement an instance has handled. -/
  processed : ι → Finset ℕ

namespace Cluster

/-- All instances have just started. -/
def new : Cluster ι := ⟨Registry.new, fun _ _ => [], 0, fun _ => ∅⟩

variable [DecidableEq ι] (s : Cluster ι)

def setRegistry (b : ι) (r : Registry ι) : Cluster ι :=
  { s with registries := update s.registries b r }

/-- Every instance is subscribed to the session channels, the publisher included. -/
def publish (b : ι) (m : Envelope ι) : Cluster ι :=
  { s with bus := update s.bus b fun c => s.bus b c ++ [m] }

/-- Instance `c` handles the message `m` of `b`, the first of the queue. -/
def handle (b c : ι) (m : Envelope ι) (rest : List (Envelope ι)) : Cluster ι :=
  { s with
    registries := update s.registries c ((s.registries c).handleSessionEvent m.message)
    bus := update s.bus b (update (s.bus b) c rest)
    processed := if m.message.type = .daemonConnected then
      update s.processed c (insert m.session (s.processed c)) else s.processed }

end Cluster

/-- The places between the steps of the registry's operations. -/
inductive SessionCall (ι : Type)
  | register (b : ι) (nodeID : ℕ) (version : String)
  | publishConnected (b : ι) (s : Session)
  | unregister (b : ι) (nodeID : ℕ)
  | unregisterSession (b : ι) (s : Session)
  | publishClosed (b : ι) (s : Session)
  | deliver (b c : ι)
  | returned
  deriving DecidableEq

namespace Cluster

variable [DecidableEq ι] (s : Cluster ι)

/-- The end of an unregistration on `b`: what was removed is announced. -/
def closing (b : ι) : Registry ι × Option Session → Cluster ι × SessionCall ι
  | (_, none) => (s, .returned)
  | (r, some σ) => (s.setRegistry b r, .publishClosed b σ)

/-- One step of a call. -/
def next (_ : ℕ) : SessionCall ι → Env → Option (Cluster ι × SessionCall ι)
  | .register b nodeID version, e =>
    let σ : Session := ⟨s.nextAddr, nodeID, version, e.now⟩
    some ({ s.setRegistry b ((s.registries b).register σ) with nextAddr := s.nextAddr + 1 },
      .publishConnected b σ)
  | .publishConnected b σ, e =>
    some (if e.ok then s.publish b ⟨(s.registries b).sessionConnected e.now σ, σ.addr⟩ else s,
      .returned)
  | .unregister b nodeID, _ => some (s.closing b ((s.registries b).unregister nodeID))
  | .unregisterSession b σ, _ => some (s.closing b ((s.registries b).unregisterSession σ))
  | .publishClosed b σ, e =>
    some (if e.ok then s.publish b ⟨(s.registries b).sessionClosed σ, σ.addr⟩ else s, .returned)
  | .deliver b c, _ =>
    match s.bus b c with
    | [] => none
    | m :: rest => some (s.handle b c m rest, .returned)
  | .returned, _ => none

/-- Streams begin and end, and messages arrive, at any time. -/
def start (_ : Cluster ι) : SessionCall ι → Bool
  | .register _ _ _ | .unregister _ _ | .unregisterSession _ _ | .deliver _ _ => true
  | _ => false

def program : Program (Cluster ι) (SessionCall ι) Env := ⟨start, fun i s => s.next i⟩

end Cluster

/-- The condition on the call that is about to step. -/
def Settled (p : Pool (Cluster ι) (SessionCall ι)) : SessionCall ι → Env → Prop
  | .deliver b c, _ => ∀ m ∈ (p.store.bus b c).head?, m.message.type = .daemonClosed →
      ∀ payload ∈ m.message.payload, ∀ B, B ≠ c →
        ∀ σ ∈ (p.store.registries B).getSession payload.nodeID, σ.addr ∉ p.store.processed c
  | _, _ => True

instance [DecidableEq ι] [Fintype ι] (p : Pool (Cluster ι) (SessionCall ι)) :
    (c : SessionCall ι) → (e : Env) → Decidable (Settled p c e)
  | .deliver _ _, _ => inferInstanceAs (Decidable (∀ _ ∈ _, _ → ∀ _ ∈ _, ∀ _, _ → ∀ _ ∈ _, _))
  | .register _ _ _, _ | .publishConnected _ _, _ | .unregister _ _, _ | .unregisterSession _ _, _
  | .publishClosed _ _, _ | .returned, _ => .isTrue trivial

namespace Cluster

section Invariant

variable {s s' : Cluster ι}

/-- The session registered on an instance for a node. -/
def held (s : Cluster ι) (b : ι) (n : ℕ) : Option Session := (s.registries b).getSession n

/-- If the session with this address is registered at all, then on `b` and for node `n`. -/
def Owned (s : Cluster ι) (b : ι) (addr n : ℕ) : Prop :=
  addr < s.nextAddr ∧ ∀ B m σ, s.held B m = some σ → σ.addr = addr → B = b ∧ m = n

/-- A session registered in `s'` was registered in `s` or is new. -/
def Extends (s s' : Cluster ι) : Prop :=
  s.nextAddr ≤ s'.nextAddr ∧
    ∀ B m σ, s'.held B m = some σ → s.held B m = some σ ∨ s.nextAddr ≤ σ.addr

variable {n : ℕ}

theorem Owned.mono (h : Extends s s') {b : ι} (ho : Owned s b addr n) : Owned s' b addr n := by
  refine ⟨by have := ho.1; have := h.1; omega, fun B m σ hσ haddr => ?_⟩
  rcases h.2 B m σ hσ with hold | hnew
  · exact ho.2 B m σ hold haddr
  · have := ho.1
    omega

structure Inv (s : Cluster ι) : Prop where
  names : ∀ b, (s.registries b).instanceID = b
  addrs : ∀ B n σ, s.held B n = some σ → σ.addr < s.nextAddr
  announced : ∀ c, ∀ addr ∈ s.processed c, addr < s.nextAddr
  bus : ∀ b c, ∀ m ∈ s.bus b c, m.message.type = .daemonConnected →
    ∃ payload, m.message.payload = some payload ∧ payload.instanceID = b ∧
      Owned s b m.session payload.nodeID
  known : ∀ B c n σ, B ≠ c → s.held B n = some σ → σ.addr ∈ s.processed c →
    (s.registries c).globalNodes.get n ≠ none

/-- A call that is about to announce a session holds the session of its own instance. -/
def Announces (_ : ℕ) (s : Cluster ι) : SessionCall ι → Prop
  | .publishConnected b σ => Owned s b σ.addr σ.nodeID
  | _ => True

theorem inv_new : Inv (new : Cluster ι) where
  names _ := rfl
  addrs := by intro B n σ h; cases h
  announced := by intro c addr h; cases h
  bus := by intro b c m h; cases h
  known := by intro B c n σ _ h; cases h

variable {i : ℕ}

theorem Extends.refl (s : Cluster ι) : Extends s s := ⟨le_refl _, fun _ _ _ h => .inl h⟩

variable [DecidableEq ι]

theorem Inv.setRegistry (hs : Inv s) {b : ι} {next : ℕ}
    (hnext : s.nextAddr ≤ next) (hname : r.instanceID = b)
    (hglobal : r.globalNodes = (s.registries b).globalNodes)
    (hlocal : ∀ n σ, r.getSession n = some σ →
      s.held b n = some σ ∨ s.nextAddr ≤ σ.addr ∧ σ.addr < next) :
    Inv { s.setRegistry b r with nextAddr := next } ∧
      Extends s { s.setRegistry b r with nextAddr := next } := by
  have hheld : ∀ B n σ, ({ s.setRegistry b r with nextAddr := next } : Cluster ι).held B n = some σ →
      s.held B n = some σ ∨ s.nextAddr ≤ σ.addr ∧ σ.addr < next := by
    intro B n σ hσ
    simp only [held, Cluster.setRegistry, update_apply] at hσ
    split_ifs at hσ with hB
    · subst hB
      exact hlocal n σ hσ
    · exact .inl hσ
  have hext : Extends s { s.setRegistry b r with nextAddr := next } :=
    ⟨hnext, fun B n σ hσ => (hheld B n σ hσ).imp id And.left⟩
  refine ⟨⟨fun B => ?_, fun B n σ hσ => ?_, fun c addr ha => ?_, fun b' c m hm ht => ?_,
    fun B c n σ hB hσ ha => ?_⟩, hext⟩
  · simp only [Cluster.setRegistry, update_apply]
    split_ifs with hB
    · rw [hname, hB]
    · exact hs.names B
  · show σ.addr < next
    rcases hheld B n σ hσ with hold | ⟨-, hlt⟩
    · have := hs.addrs B n σ hold
      omega
    · exact hlt
  · show addr < next
    have := hs.announced c addr ha
    omega
  · obtain ⟨payload, hp, hi, ho⟩ := hs.bus b' c m hm ht
    exact ⟨payload, hp, hi, ho.mono hext⟩
  · have hold : s.held B n = some σ := by
      rcases hheld B n σ hσ with hold | ⟨hle, -⟩
      · exact hold
      · -- nobody has been told about a session that did not exist
        have := hs.announced c σ.addr ha
        omega
    have hknown := hs.known B c n σ hB hold ha
    simp only [Cluster.setRegistry, update_apply]
    split_ifs with hc
    · rw [hglobal, ← hc]; exact hknown
    · exact hknown

theorem Inv.publish (hs : Inv s) {b : ι} {m : Envelope ι}
    (hm : m.message.type = .daemonConnected → ∃ payload, m.message.payload = some payload ∧
      payload.instanceID = b ∧ Owned s b m.session payload.nodeID) : Inv (s.publish b m) := by
  refine ⟨hs.names, hs.addrs, hs.announced, fun b' c m' hm' ht => ?_, hs.known⟩
  simp only [Cluster.publish, update_apply] at hm'
  split_ifs at hm' with hb
  · subst hb
    rcases List.mem_append.1 hm' with hold | hnew
    · exact hs.bus b' c m' hold ht
    · rw [List.mem_singleton.1 hnew] at ht ⊢
      exact hm ht
  · exact hs.bus b' c m' hm' ht

theorem held_handle (b c : ι) (m : Envelope ι) (rest : List (Envelope ι)) (B : ι) (n : ℕ) :
    (s.handle b c m rest).held B n = s.held B n := by
  simp only [held, handle, update_apply]
  split_ifs with hB
  · rw [handleSessionEvent_getSession, hB]
  · rfl

theorem globalNodes_handleSessionEvent {msg : SessionMessage ι}
    (hn : msg.type = .daemonClosed → ∀ payload ∈ msg.payload, payload.nodeID ≠ n)
    (h : r.globalNodes.get n ≠ none) : (r.handleSessionEvent msg).globalNodes.get n ≠ none := by
  obtain ⟨type, payload⟩ := msg
  cases payload with
  | none => cases type <;> exact h
  | some payload =>
    cases type with
    | daemonConnected =>
      simp only [handleSessionEvent]
      split_ifs
      · exact h
      · show (r.globalNodes.put payload.nodeID payload.instanceID).get n ≠ none
        rw [Table.get_put]
        split_ifs
        · exact Option.some_ne_none _
        · exact h
    | daemonClosed =>
      show (r.globalNodes.del payload.nodeID).get n ≠ none
      rw [Table.get_del_ne _ (hn rfl payload rfl).symm]
      exact h
    | other => exact h

section

variable {b c : ι} {m : Envelope ι} {rest : List (Envelope ι)}

theorem mem_bus_of_handle (hbus : s.bus b c = m :: rest) {b' c' : ι} {m' : Envelope ι}
    (hm' : m' ∈ (s.handle b c m rest).bus b' c') : m' ∈ s.bus b' c' := by
  simp only [Cluster.handle, update_apply] at hm'
  split_ifs at hm' with hb
  · subst hb
    rw [update_apply] at hm'
    split_ifs at hm' with hc
    · rw [hc, hbus]
      exact List.mem_cons_of_mem _ hm'
    · exact hm'
  · exact hm'

theorem processed_handle {c' : ι} (ha : addr ∈ (s.handle b c m rest).processed c') :
    addr ∈ s.processed c' ∨ c' = c ∧ m.message.type = .daemonConnected ∧ addr = m.session := by
  simp only [Cluster.handle] at ha
  split_ifs at ha with ht
  · by_cases hc : c' = c
    · subst hc
      rw [update_self] at ha
      rcases Finset.mem_insert.1 ha with haddr | hold
      · exact .inr ⟨rfl, ht, haddr⟩
      · exact .inl hold
    · rw [update_of_ne hc] at ha
      exact .inl ha
  · exact .inl ha

end

section

variable (hs : Inv s) {b c : ι} {m : Envelope ι} {rest : List (Envelope ι)}
include hs

/-- An observer knows the node of every session that it has been told of and that still lives. -/
theorem Inv.known_handle (hmem : m ∈ s.bus b c)
    (hsett : m.message.type = .daemonClosed → ∀ payload ∈ m.message.payload, ∀ B, B ≠ c →
      ∀ σ, s.held B payload.nodeID = some σ → σ.addr ∉ s.processed c)
    {B c' : ι} {σ : Session} (hB : B ≠ c') (hσ : s.held B n = some σ)
    (ha : σ.addr ∈ (s.handle b c m rest).processed c') :
    ((s.handle b c m rest).registries c').globalNodes.get n ≠ none := by
  simp only [Cluster.handle, update_apply]
  by_cases hc : c' = c
  · subst hc
    rw [if_pos rfl]
    rcases processed_handle ha with hold | ⟨-, ht, haddr⟩
    · -- `c` knew the session already, and the message does not close the node
      have hknown := hs.known B c' n σ hB hσ hold
      refine globalNodes_handleSessionEvent (fun ht payload hp hn => ?_) hknown
      subst hn
      exact hsett ht payload hp B hB σ hσ hold
    · -- the message announces the session
      obtain ⟨payload, hp, hi, ho⟩ := hs.bus b c' m hmem ht
      obtain ⟨rfl, rfl⟩ := ho.2 B n σ hσ haddr
      have hne : payload.instanceID ≠ (s.registries c').instanceID := by
        rw [hi, hs.names]
        exact hB
      simp only [handleSessionEvent, ht, hp, if_neg hne, Table.get_put_self]
      exact Option.some_ne_none _
  · rw [if_neg hc]
    rcases processed_handle ha with hold | ⟨hc', -⟩
    · exact hs.known B c' n σ hB hσ hold
    · exact absurd hc' hc

theorem Inv.handle (hbus : s.bus b c = m :: rest)
    (hsett : m.message.type = .daemonClosed → ∀ payload ∈ m.message.payload, ∀ B, B ≠ c →
      ∀ σ, s.held B payload.nodeID = some σ → σ.addr ∉ s.processed c) :
    Inv (s.handle b c m rest) := by
  have hmem : m ∈ s.bus b c := hbus ▸ List.mem_cons_self ..
  refine ⟨fun B => ?_, fun B n σ hσ => ?_, fun c' addr ha => ?_, fun b' c' m' hm' ht => ?_,
    fun B c' n σ hB hσ ha => ?_⟩
  · simp only [Cluster.handle, update_apply]
    split_ifs with hB
    · rw [handleSessionEvent_instanceID, hs.names, hB]
    · exact hs.names B
  · rw [held_handle] at hσ
    exact hs.addrs B n σ hσ
  · rcases processed_handle ha with hold | ⟨-, ht, rfl⟩
    · exact hs.announced c' addr hold
    · obtain ⟨_, -, -, ho⟩ := hs.bus b c m hmem ht
      exact ho.1
  · obtain ⟨payload, hp, hi, ho⟩ := hs.bus b' c' m' (mem_bus_of_handle hbus hm') ht
    refine ⟨payload, hp, hi, ho.1, fun B n σ hσ => ?_⟩
    rw [held_handle] at hσ
    exact ho.2 B n σ hσ
  · rw [held_handle] at hσ
    exact hs.known_handle hmem hsett hB hσ ha

end

/-! ### Runs of the cluster -/

theorem owned_register (hs : Inv s) (b : ι) (nodeID : ℕ) (version : String) (now : Time) :
    Owned { s.setRegistry b ((s.registries b).register ⟨s.nextAddr, nodeID, version, now⟩) with
      nextAddr := s.nextAddr + 1 } b s.nextAddr nodeID := by
  refine ⟨Nat.lt_succ_self _, fun B n σ hσ haddr => ?_⟩
  have hnew : ¬ s.held B n = some σ := by
    intro hold
    have := hs.addrs B n σ hold
    omega
  simp only [held, setRegistry, update_apply] at hσ
  split_ifs at hσ with hB
  · subst hB
    rw [getSession_register] at hσ
    split_ifs at hσ with hn
    · exact ⟨rfl, hn⟩
    · exact absurd hσ hnew
  · exact absurd hσ hnew

theorem inv_closing {c' : SessionCall ι} {r : Registry ι × Option Session} {b : ι}
    (hs : Inv s) (hname : r.1.instanceID = b) (hglobal : r.1.globalNodes = (s.registries b).globalNodes)
    (hlocal : ∀ n σ, r.1.getSession n = some σ → s.held b n = some σ)
    (hnext : s.closing b r = (s', c')) : Inv s' ∧ Extends s s' ∧ Announces i s' c' := by
  obtain ⟨r, σ⟩ := r
  cases σ with
  | none => cases hnext; exact ⟨hs, .refl s, trivial⟩
  | some σ =>
    cases hnext
    obtain ⟨hinv, hext⟩ := hs.setRegistry (le_refl _) hname hglobal
      fun n σ hσ => .inl (hlocal n σ hσ)
    exact ⟨hinv, hext, trivial⟩

theorem inv_next {p : Pool (Cluster ι) (SessionCall ι)} {c c' : SessionCall ι} {e : Env}
    (hs : Inv p.store) (hc : Announces i p.store c) (hG : Settled p c e)
    (hnext : p.store.next i c e = some (s', c')) :
    Inv s' ∧ Extends p.store s' ∧ Announces i s' c' := by
  obtain ⟨now, ok⟩ := e
  cases c with
  | register b nodeID version =>
    cases hnext
    obtain ⟨hinv, hext⟩ := hs.setRegistry (b := b) (r := (p.store.registries b).register
      ⟨p.store.nextAddr, nodeID, version, now⟩) (Nat.le_succ _) (hs.names b) rfl fun n σ hσ => by
        rw [getSession_register] at hσ
        split_ifs at hσ with hn
        · cases hσ; exact .inr ⟨le_refl _, Nat.lt_succ_self _⟩
        · exact .inl hσ
    exact ⟨hinv, hext, owned_register hs b nodeID version now⟩
  | publishConnected b σ =>
    cases ok <;> cases hnext
    · exact ⟨hs, .refl _, trivial⟩
    · exact ⟨hs.publish fun _ => ⟨_, rfl, hs.names b, hc⟩, .refl _, trivial⟩
  | unregister b nodeID =>
    refine inv_closing hs ?_ (unregister_globalNodes _ _)
      (fun n σ h => ?_) (Option.some.inj hnext)
    · rw [unregister_instanceID, hs.names]
    · unfold unregister at h
      split at h
      exacts [h, Table.get_of_del h]
  | unregisterSession b σ =>
    refine inv_closing hs ?_ (unregisterSession_globalNodes _ _)
      (fun n σ => getSession_of_unregisterSession _) (Option.some.inj hnext)
    rw [unregisterSession_instanceID, hs.names]
  | publishClosed b σ =>
    cases ok <;> cases hnext
    · exact ⟨hs, .refl _, trivial⟩
    · exact ⟨hs.publish (fun ht => by cases ht), .refl _, trivial⟩
  | deliver b c =>
    simp only [next] at hnext
    split at hnext <;> cases hnext
    rename_i m rest hbus
    refine ⟨hs.handle hbus ?_, ⟨le_refl _, fun B n σ hσ => ?_⟩, trivial⟩
    · exact hG m (by rw [hbus]; rfl)
    · rw [held_handle] at hσ
      exact .inl hσ
  | returned => cases hnext

theorem inv_step : StableUnder (program (ι := ι)).step (Guarded Settled) (PoolInv Inv Announces) := by
  refine Program.inv_step ?_ ?_
  · intro p c _ hc
    cases c <;> trivial
  · intro p i e c s' c' hp hG hci hnext
    obtain ⟨hinv, hext, hann⟩ := inv_next hp.store (hp.call i c hci) hG hnext
    refine ⟨hinv, hann, fun j d _ hd => ?_⟩
    have hd := hp.call j d hd
    cases d <;> first | trivial | exact Owned.mono hext hd

end Invariant

/-- **Connected anywhere**: in every settled run an instance that has handled the announcement of a
session that another instance still holds finds the node connected. -/
theorem connected_anywhere [DecidableEq ι] (ms : List (Move (SessionCall ι) Env))
    {p : Pool (Cluster ι) (SessionCall ι)}
    (hG : Along program.step (Guarded Settled) (Pool.idle (new : Cluster ι)) ms)
    (hrun : run program.step (Pool.idle (new : Cluster ι)) ms = some p) :
    ∀ B C n σ, B ≠ C → (p.store.registries B).getSession n = some σ →
      σ.addr ∈ p.store.processed C → (p.store.registries C).isConnectedAnywhere n = true := by
  intro B C n σ hB hσ hp
  have hinv := run_inv _ inv_step (PoolInv.idle inv_new) hG hrun
  have hknown := hinv.store.known B C n σ hB hσ hp
  rw [Registry.isConnectedAnywhere, Option.isSome_iff_ne_none.2 hknown, Bool.or_true]

/-- A daemon connects to instance 0, loses its stream and connects to instance 1; instance 2 sees
the messages in the order of these events. -/
def movedInOrder : List (Move (SessionCall (Fin 3)) Env) :=
  [.spawn (.register 0 7 "3.2"), .advance 0 { now := 1 }, .advance 0 { now := 2 },
    .spawn (.unregister 0 7), .advance 1 { now := 3 }, .advance 1 { now := 4 },
    .spawn (.deliver 0 2), .advance 2 { now := 5 }, .spawn (.deliver 0 2), .advance 3 { now := 6 },
    .spawn (.register 1 7 "3.2"), .advance 4 { now := 7 }, .advance 4 { now := 8 },
    .spawn (.deliver 1 2), .advance 5 { now := 9 }]

theorem connected_anywhere_in_order :
    ∃ p σ, run program.step (Pool.idle (new : Cluster (Fin 3))) movedInOrder = some p ∧
      (p.store.registries 1).getSession 7 = some σ ∧ σ.addr ∈ p.store.processed 2 ∧
      (p.store.registries 2).isConnectedAnywhere 7 = true :=
  ⟨_, _, rfl, rfl, by decide,
    connected_anywhere movedInOrder (by decide) rfl 1 2 7 _ (by decide) rfl (by decide)⟩

/-- The same move, but instance 1 registers the daemon before instance 0 has noticed the loss of its
stream: the end of the old session is the last message. -/
def movedBeforeClosed : List (Move (SessionCall (Fin 3)) Env) :=
  [.spawn (.register 0 7 "3.2"), .advance 0 { now := 1 }, .advance 0 { now := 2 },
    .spawn (.deliver 0 2), .advance 1 { now := 3 },
    .spawn (.register 1 7 "3.2"), .advance 2 { now := 4 }, .advance 2 { now := 5 },
    .spawn (.deliver 1 2), .advance 3 { now := 6 },
    .spawn (.unregisterSession 0 ⟨0, 7, "3.2", 1⟩), .advance 4 { now := 7 }, .advance 4 { now := 8 },
    .spawn (.deliver 0 2), .advance 5 { now := 9 }]

theorem observer_forgets_moved_daemon :
    ¬ ∀ (ι : Type) [DecidableEq ι] (ms : List (Move (SessionCall ι) Env))
      (p : Pool (Cluster ι) (SessionCall ι)),
      run program.step (Pool.idle (new : Cluster ι)) ms = some p →
      ∀ B C n σ, B ≠ C → (p.store.registries B).getSession n = some σ →
        σ.addr ∈ p.store.processed C → (p.store.registries C).isConnectedAnywhere n = true := by
  intro hall
  have h := hall (Fin 3) movedBeforeClosed _ rfl 1 2 7 _ (by decide) rfl (by decide)
  exact absurd h (by decide)

end Cluster

end GameAP
