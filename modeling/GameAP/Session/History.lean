import GameAP.Session.Registry
import Mathlib.Data.List.Chain

/-!
# Histories of one registry

Calls of `Register`, `UnregisterSession` and `Unregister` on one instance, one after the other, with
the messages that the registry hands to `Publish`.  A daemon that reconnects registers its new
session before the cleanup of the old stream runs, so `UnregisterSession` may come for a replaced
session.

`history_consistent`: the registered session of a node is the one registered last, unless a later
call removed it; the cleanup of a replaced session does nothing; and between two announcements that
a node is gone there is one that it has come back.
-/

namespace GameAP

open Tables Registry List

/-- A call on the registry; `now` is the clock that `Register` reads for its announcement. -/
inductive RegistryCall
  | register (now : Time) (s : Session)
  | unregisterSession (s : Session)
  | unregister (nodeID : ℕ)
  deriving DecidableEq

/-- The registry and what it has handed to `Publish`, in order. -/
structure AnnouncingRegistry (ι : Type) where
  registry : Registry ι
  published : List (SessionMessage ι)

namespace AnnouncingRegistry

variable {ι : Type}

/-- `publishSessionClosed` for what was removed. -/
def closing (published : List (SessionMessage ι)) : Registry ι × Option Session →
    AnnouncingRegistry ι
  | (r, none) => ⟨r, published⟩
  | (r, some s) => ⟨r, published ++ [r.sessionClosed s]⟩

/-- One call, with its announcement. -/
def call (a : AnnouncingRegistry ι) : RegistryCall → AnnouncingRegistry ι
  | .register now s =>
    ⟨a.registry.register s, a.published ++ [(a.registry.register s).sessionConnected now s]⟩
  | .unregisterSession s => closing a.published (a.registry.unregisterSession s)
  | .unregister nodeID => closing a.published (a.registry.unregister nodeID)

/-- The instance after a sequence of calls. -/
def history (instanceID : ι) (cs : List RegistryCall) : AnnouncingRegistry ι :=
  cs.foldl call ⟨.new instanceID, []⟩

end AnnouncingRegistry

/-- The call leaves the session `s` registered. -/
def RegistryCall.Keeps (s : Session) : RegistryCall → Prop
  | .register _ t => t.nodeID ≠ s.nodeID
  | .unregisterSession t => t.nodeID = s.nodeID → t.addr ≠ s.addr
  | .unregister nodeID => nodeID ≠ s.nodeID

/-- The call registers the session `s`. -/
def RegistryCall.Registers (s : Session) : RegistryCall → Prop
  | .register _ t => t.nodeID = s.nodeID ∧ t.addr = s.addr
  | _ => False

/-- Another session was registered for the node of `s`, and `s` was not registered after that. -/
def Superseded (s : Session) (cs : List RegistryCall) : Prop :=
  ∃ as now t bs, cs = as ++ .register now t :: bs ∧ t.nodeID = s.nodeID ∧ t.addr ≠ s.addr ∧
    ∀ c ∈ bs, ¬ c.Registers s

/-- The message is about node `n`. -/
def SessionMessage.isAbout {ι : Type} (n : ℕ) (m : SessionMessage ι) : Bool :=
  m.payload.any fun payload => payload.nodeID = n

/-- The message after the end of a session announces a new one. -/
def ConnectedAfterClosed {ι : Type} (m m' : SessionMessage ι) : Prop :=
  m.type = .daemonClosed → m'.type = .daemonConnected

namespace AnnouncingRegistry

variable {ι : Type} {a : AnnouncingRegistry ι} {n : ℕ} {s : Session} {c : RegistryCall}
  (instanceID : ι) (cs : List RegistryCall)

theorem history_concat (c : RegistryCall) :
    history instanceID (cs ++ [c]) = (history instanceID cs).call c := by
  rw [history, foldl_append]
  rfl

/-! ### What one call does -/

section

variable (a : AnnouncingRegistry ι)

theorem call_unregister (nodeID : ℕ) :
    (a.registry.getSession nodeID = none ∧ a.call (.unregister nodeID) = a) ∨
      ∃ t, a.registry.getSession nodeID = some t ∧ a.call (.unregister nodeID) =
        ⟨{ a.registry with localSessions := a.registry.localSessions.del nodeID },
          a.published ++ [a.registry.sessionClosed t]⟩ := by
  simp only [call, unregister, getSession]
  cases hget : a.registry.localSessions.get nodeID with
  | none => exact .inl ⟨rfl, rfl⟩
  | some t => exact .inr ⟨t, rfl, rfl⟩

theorem call_unregisterSession (s : Session) :
    ((∀ t, a.registry.getSession s.nodeID = some t → t.addr ≠ s.addr) ∧
        a.call (.unregisterSession s) = a) ∨
      ∃ t, a.registry.getSession s.nodeID = some t ∧ t.addr = s.addr ∧
        a.call (.unregisterSession s) =
          ⟨{ a.registry with localSessions := a.registry.localSessions.del s.nodeID },
            a.published ++ [a.registry.sessionClosed s]⟩ := by
  simp only [call, unregisterSession, getSession]
  cases hget : a.registry.localSessions.get s.nodeID with
  | none => exact .inl ⟨fun t ht => (by cases ht), rfl⟩
  | some t =>
    by_cases haddr : t.addr = s.addr
    · refine .inr ⟨t, rfl, haddr, ?_⟩
      simp only [haddr, ne_eq, not_true_eq_false, if_false, closing]
      rfl
    · refine .inl ⟨fun u hu => ?_, ?_⟩
      · cases hu
        exact haddr
      · simp only [haddr, ne_eq, not_false_eq_true, if_true, closing]

/-- Every session is stored under its own node. -/
def OwnNodes : Prop :=
  ∀ n s, a.registry.getSession n = some s → s.nodeID = n

end

/-- A session is registered after a call when the call registers it, or when it was registered
before and the call keeps it. -/
theorem getSession_call (hown : a.OwnNodes) (c : RegistryCall) (n : ℕ) (s : Session) :
    (a.call c).registry.getSession n = some s ↔ (∃ now, c = .register now s ∧ s.nodeID = n) ∨
        a.registry.getSession n = some s ∧ c.Keeps s := by
  have hget (k : ℕ) : (getSession { a.registry with
      localSessions := a.registry.localSessions.del k } n = some s) ↔
        n ≠ k ∧ a.registry.getSession n = some s := by
    rw [getSession, Table.get_del]
    by_cases hk : n = k
    · simp [hk]
    · simp [hk, getSession]
  cases c with
  | register now t =>
    show (a.registry.register t).getSession n = some s ↔ _
    rw [getSession_register]
    constructor
    · intro h
      split_ifs at h with hn
      · cases h
        exact .inl ⟨now, rfl, hn.symm⟩
      · refine .inr ⟨h, fun heq => hn ?_⟩
        rw [heq, hown _ _ h]
    · rintro (⟨_, heq, hn⟩ | ⟨hs, hne⟩)
      · cases heq
        exact if_pos hn.symm
      · rw [if_neg, hs]
        rintro rfl
        exact hne (hown _ _ hs).symm
  | unregisterSession t =>
    rw [or_iff_right (by simp)]
    rcases a.call_unregisterSession t with ⟨hother, hcall⟩ | ⟨u, hu, haddr, hcall⟩
    · rw [hcall, iff_self_and]
      intro hs hnode haddr
      rw [hown _ _ hs] at hnode
      subst hnode
      exact hother s hs haddr.symm
    · rw [hcall, hget, and_comm]
      refine and_congr_right fun hs => ⟨fun hn hnode => absurd (hown _ _ hs ▸ hnode.symm) hn, ?_⟩
      rintro hkeep rfl
      rw [hu] at hs
      cases hs
      exact hkeep (hown _ _ hu).symm haddr.symm
  | unregister k =>
    rw [or_iff_right (by simp)]
    rcases a.call_unregister k with ⟨hnone, hcall⟩ | ⟨u, hu, hcall⟩
    · rw [hcall, iff_self_and]
      rintro hs rfl
      rw [hown _ _ hs, hs] at hnone
      cases hnone
    · rw [hcall, hget, and_comm]
      refine and_congr_right fun hs => ?_
      rw [RegistryCall.Keeps, hown _ _ hs, ne_comm]

theorem OwnNodes.call (hown : a.OwnNodes) (c : RegistryCall) : (a.call c).OwnNodes := by
  intro n s hs
  rcases (getSession_call hown c n s).1 hs with ⟨_, _, hn⟩ | ⟨hs, _⟩
  · exact hn
  · exact hown n s hs

theorem ownNodes_history : (history instanceID cs).OwnNodes := by
  induction cs using reverseRecOn with
  | nil => exact fun _ _ => nofun
  | append_singleton cs c ih =>
    rw [history_concat]
    exact ih.call c

/-! ### The registered session -/

/-- The session of a node was registered by some call, and every later call keeps it. -/
theorem getSession_history (n : ℕ) (s : Session) :
    (history instanceID cs).registry.getSession n = some s ↔
      ∃ as now bs, cs = as ++ .register now s :: bs ∧ s.nodeID = n ∧ ∀ c ∈ bs, c.Keeps s := by
  -- from the last call backwards: it registers `s`, or it keeps the `s` of the calls before it
  induction cs using reverseRecOn with
  | nil =>
    constructor
    · nofun
    · rintro ⟨as, now, bs, hcs, _⟩
      exact absurd hcs.symm (append_ne_nil_of_right_ne_nil as (cons_ne_nil _ _))
  | append_singleton cs c ih =>
    rw [history_concat, getSession_call (ownNodes_history instanceID cs), ih]
    constructor
    · rintro (⟨now, rfl, hn⟩ | ⟨⟨as, now, bs, rfl, hn, hkeep⟩, hc⟩)
      · exact ⟨cs, now, [], rfl, hn, nofun⟩
      · refine ⟨as, now, bs ++ [c], by simp, hn, fun d hd => ?_⟩
        rcases mem_append.1 hd with hd | hd
        · exact hkeep d hd
        · rw [mem_singleton.1 hd]
          exact hc
    · rintro ⟨as, now, bs, hcs, hn, hkeep⟩
      rcases eq_nil_or_concat' bs with rfl | ⟨bs, d, rfl⟩
      · obtain ⟨rfl, hc⟩ := append_inj' hcs rfl
        exact .inl ⟨now, singleton_inj.1 hc, hn⟩
      · rw [← cons_append, ← append_assoc] at hcs
        obtain ⟨rfl, hc⟩ := append_inj' hcs rfl
        cases singleton_inj.1 hc
        exact .inr ⟨⟨as, now, bs, rfl, hn, fun d hd => hkeep d (mem_append_left _ hd)⟩,
          hkeep c (by simp)⟩

theorem addr_ne_of_superseded {cs : List RegistryCall} {t : Session} (hsup : Superseded s cs)
    (ht : (history instanceID cs).registry.getSession s.nodeID = some t) : t.addr ≠ s.addr := by
  obtain ⟨as, now, u, bs, rfl, hnode, haddr, hnot⟩ := hsup
  -- the calls after the registration of `u`, one at a time
  induction bs using reverseRecOn generalizing t with
  | nil =>
    rw [history_concat, getSession_call (ownNodes_history instanceID as)] at ht
    rcases ht with ⟨_, hreg, _⟩ | ⟨ht, hkeep⟩
    · cases hreg
      exact haddr
    · exact absurd (hnode.trans (ownNodes_history instanceID as _ _ ht).symm) hkeep
  | append_singleton bs c ih =>
    rw [← cons_append, ← append_assoc, history_concat,
      getSession_call (ownNodes_history instanceID _)] at ht
    rcases ht with ⟨later, rfl, hn⟩ | ⟨ht, _⟩
    · exact fun heq => hnot (.register later t) (by simp) ⟨hn, heq⟩
    · exact ih ht fun d hd => hnot d (mem_append_left _ hd)

/-! ### The announcements -/

/-- The announcements about a node. -/
def announcements (a : AnnouncingRegistry ι) (n : ℕ) : List (SessionMessage ι) :=
  a.published.filter (SessionMessage.isAbout n)

/-- After an announcement that a node is gone comes one that it is back, and none is the last while
the node is there. -/
structure Alternating (a : AnnouncingRegistry ι) (n : ℕ) : Prop where
  chain : (a.announcements n).IsChain ConnectedAfterClosed
  last : ∀ m ∈ (a.announcements n).getLast?,
    m.type = .daemonClosed → a.registry.getSession n = none

theorem Alternating.publish {m : SessionMessage ι} {r : Registry ι} (h : a.Alternating n)
    (hsame : m.isAbout n = false → r.getSession n = a.registry.getSession n)
    (htype : m.isAbout n = true → m.type = .daemonConnected ∨
      a.registry.getSession n ≠ none ∧ r.getSession n = none) :
    (⟨r, a.published ++ [m]⟩ : AnnouncingRegistry ι).Alternating n := by
  cases habout : m.isAbout n with
  | false =>
    have hann : (⟨r, a.published ++ [m]⟩ : AnnouncingRegistry ι).announcements n =
        a.announcements n := by
      simp [announcements, habout]
    refine ⟨hann ▸ h.chain, ?_⟩
    rw [hann, hsame habout]
    exact h.last
  | true =>
    have hann : (⟨r, a.published ++ [m]⟩ : AnnouncingRegistry ι).announcements n =
        a.announcements n ++ [m] := by
      simp [announcements, habout]
    constructor
    · rw [hann, isChain_append]
      refine ⟨h.chain, .singleton m, fun m' hm' m'' hm'' hcl => ?_⟩
      cases hm''
      rcases htype habout with hconn | ⟨hthere, _⟩
      · exact hconn
      · exact absurd (h.last m' hm' hcl) hthere
    · rw [hann, getLast?_concat]
      rintro _ ⟨⟩ hcl
      rcases htype habout with hconn | ⟨_, hgone⟩
      · rw [hconn] at hcl
        cases hcl
      · exact hgone

theorem Alternating.close (h : a.Alternating n) {k : ℕ} {t : Session} (hs : s.nodeID = k)
    (ht : a.registry.getSession k = some t) :
    (⟨{ a.registry with localSessions := a.registry.localSessions.del k },
      a.published ++ [a.registry.sessionClosed s]⟩ : AnnouncingRegistry ι).Alternating n := by
  have habout : (a.registry.sessionClosed s).isAbout n = decide (k = n) := by
    simp [SessionMessage.isAbout, sessionClosed, hs]
  refine h.publish (fun hk => ?_) (fun hk => .inr ?_)
  · rw [habout, decide_eq_false_iff_not] at hk
    exact Table.get_del_ne _ (Ne.symm hk)
  · rw [habout, decide_eq_true_iff] at hk
    subst hk
    exact ⟨by simp [ht], Table.get_del_self _ _⟩

theorem Alternating.call (h : a.Alternating n) (hown : a.OwnNodes) (c : RegistryCall) :
    (a.call c).Alternating n := by
  cases c with
  | register now t =>
    refine h.publish (fun hk => ?_) (fun _ => .inl rfl)
    have hn : n ≠ t.nodeID := by
      simpa [SessionMessage.isAbout, sessionConnected, eq_comm] using hk
    rw [getSession_register, if_neg hn]
  | unregisterSession t =>
    rcases a.call_unregisterSession t with ⟨_, hcall⟩ | ⟨u, hu, _, hcall⟩
    · rw [hcall]
      exact h
    · rw [hcall]
      exact h.close rfl hu
  | unregister k =>
    rcases a.call_unregister k with ⟨_, hcall⟩ | ⟨u, hu, hcall⟩
    · rw [hcall]
      exact h
    · rw [hcall]
      exact h.close (hown _ _ hu) hu

theorem alternating_history (n : ℕ) : (history instanceID cs).Alternating n := by
  induction cs using reverseRecOn with
  | nil => exact ⟨.nil, nofun⟩
  | append_singleton cs c ih =>
    rw [history_concat]
    exact ih.call (ownNodes_history instanceID cs) c

/-- The session of a node is the one that was registered last, if no later call took it out; the
cleanup of a superseded session changes nothing; and the next announcement after the end of a
session is that of a new one. -/
theorem history_consistent (instanceID : ι) (cs : List RegistryCall) :
    (∀ n s, (history instanceID cs).registry.getSession n = some s ↔
      ∃ as now bs, cs = as ++ .register now s :: bs ∧ s.nodeID = n ∧ ∀ c ∈ bs, c.Keeps s) ∧
    (∀ s, Superseded s cs →
      history instanceID (cs ++ [.unregisterSession s]) = history instanceID cs) ∧
    ∀ n, ((history instanceID cs).announcements n).IsChain ConnectedAfterClosed := by
  refine ⟨getSession_history instanceID cs, fun s hsup => ?_,
    fun n => (alternating_history instanceID cs n).chain⟩
  rw [history_concat]
  rcases (history instanceID cs).call_unregisterSession s with ⟨_, hcall⟩ | ⟨t, ht, haddr, _⟩
  · exact hcall
  · exact absurd haddr (addr_ne_of_superseded instanceID hsup ht)

/-- The cleanup of the first stream after a reconnection. -/
theorem reconnected_history_consistent :
    Superseded ⟨0, 1, "", 0⟩ [.register 5 ⟨0, 1, "", 0⟩, .register 7 ⟨1, 1, "", 6⟩] ∧
    history () [.register 5 ⟨0, 1, "", 0⟩, .register 7 ⟨1, 1, "", 6⟩,
      .unregisterSession ⟨0, 1, "", 0⟩] =
    history () [.register 5 ⟨0, 1, "", 0⟩, .register 7 ⟨1, 1, "", 6⟩] := by
  have hsup : Superseded ⟨0, 1, "", 0⟩ [.register 5 ⟨0, 1, "", 0⟩, .register 7 ⟨1, 1, "", 6⟩] :=
    ⟨[.register 5 ⟨0, 1, "", 0⟩], 7, ⟨1, 1, "", 6⟩, [], rfl, rfl, by decide, nofun⟩
  exact ⟨hsup, (history_consistent () _).2.1 _ hsup⟩

end AnnouncingRegistry

end GameAP
