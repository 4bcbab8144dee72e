import Mathlib.Algebra.Order.BigOperators.Group.List
import Mathlib.Algebra.Order.Ring.Int
import Mathlib.Data.Finset.Card
import GameAP.Domain
import GameAP.Lib.Runs
import GameAP.Lib.Tables

/-!
# The metrics hub

`metrics.hub` on one instance, for one node: the local subscriptions, the counts that the other
instances announce, and the loop that polls the node while somebody wants its metrics.  A step is
one section under the lock of the node's state, or the test of the connection before it.

* `Sound` holds in every run: `localCount` is the number of subscriptions that are not closed, and
  at most one poll loop runs;
* a poll loop is never started by the connection of the node: whoever subscribes before the node
  connects waits in vain (`connected_without_poll`);
* `poll_runs` needs `Covered`: when the node connects nobody wants its metrics, or the loop runs, or
  some call is about to look.  This is exact while the hub is at rest (`connect_iff`).

The debounce timer may fire at any time after it was set, also when it has been stopped meanwhile.
-/

namespace GameAP

open Runs Tables List

structure RemoteCountEntry where
  count : ℤ
  expires : Time
  deriving DecidableEq

/-- `nodeState`, with the connection of the node and the clock.  `unsubscribed` has the
subscriptions that were closed; `loops` is the number of poll loops whose context is not
cancelled. -/
structure HubState (ι : Type) where
  now : Time := 0
  connected : Bool := false
  localCount : ℤ := 0
  subscribers : Finset ℕ := ∅
  remoteCounts : Table ι RemoteCountEntry := ∅
  aggregatedCount : ℤ := 0
  pollCancel : Bool := false
  loops : ℕ := 0
  stopTimer : Bool := false
  nextSub : ℕ := 0
  unsubscribed : Finset ℕ := ∅
  heartbeats : List ℤ := []

/-- `hub`: the name of the instance and how long a heartbeat counts. -/
structure HubOptions (ι : Type) where
  instanceID : ι
  heartbeatTTL : ℕ

/-- Where a call stands. -/
inductive HubCall (ι : Type)
  | subscribe
  | close (sub : ℕ)
  | unsubscribe (sub : ℕ)
  | handleSubscribersHeartbeat (instanceID : ι) (count : ℤ)
  | publishHeartbeat (thenPoll : Bool)
  | checkConnected
  | startOrStop
  | stopPollIfStillIdle
  | broadcastHeartbeats
  | connect
  | disconnect
  | elapse (d : ℕ)
  | returned
  deriving DecidableEq

namespace HubState

variable {ι : Type} [DecidableEq ι] (s : HubState ι)

/-- The number of values of an `int`. -/
def intSize : ℕ := 18446744073709551616

def expired (entry : RemoteCountEntry) : Bool := entry.expires < s.now

def dropExpired : HubState ι :=
  { s with remoteCounts := s.remoteCounts.delWhere fun k => (s.remoteCounts.get k).any s.expired }

/-- The sum of the counts, as an `int`. -/
def aggregate : ℤ :=
  (s.localCount + (s.remoteCounts.entries.map fun e => e.2.count).sum).bmod intSize

/-- The section of `Subscribe` under the lock. -/
def addSubscriber : HubState ι :=
  { s with
    subscribers := insert s.nextSub s.subscribers
    localCount := s.localCount + 1
    nextSub := s.nextSub + 1 }

/-- The section of `unsubscribe` under the lock. -/
def removeSubscriber (sub : ℕ) : HubState ι :=
  if sub ∈ s.subscribers then
    { s with
      subscribers := s.subscribers.erase sub
      localCount := if 0 < s.localCount then s.localCount - 1 else s.localCount }
  else s

/-- The section of `handleSubscribersHeartbeat` under the lock. -/
def setRemoteCount (ttl : ℕ) (instanceID : ι) (count : ℤ) : HubState ι :=
  if count ≤ 0 then { s with remoteCounts := s.remoteCounts.del instanceID }
  else { s with remoteCounts := s.remoteCounts.put instanceID ⟨count, s.now + ttl⟩ }

/-- Start the loop, or set the timer that stops it. -/
def followDemand : HubState ι :=
  if 0 < s.aggregate ∧ s.pollCancel = false then
    { s with
      aggregatedCount := s.aggregate, stopTimer := false, pollCancel := true, loops := s.loops + 1 }
  else if ¬ 0 < s.aggregate ∧ s.pollCancel = true then
    { s with aggregatedCount := s.aggregate, stopTimer := true }
  else { s with aggregatedCount := s.aggregate }

/-- The section of `maybeStartOrStopPoll` under the lock. -/
def startOrStop : HubState ι := s.dropExpired.followDemand

def cancelIdle : HubState ι :=
  if 0 < s.aggregate then s
  else if s.pollCancel then { s with pollCancel := false, loops := s.loops - 1 }
  else s

def stopPollIfStillIdle : HubState ι := { s with stopTimer := false }.dropExpired.cancelIdle

/-- One section of a call. -/
def next (o : HubOptions ι) : HubCall ι → Option (HubState ι × HubCall ι)
  | .subscribe =>
    some (s.addSubscriber, if s.localCount + 1 = 1 then .publishHeartbeat true else .checkConnected)
  | .close sub =>
    if sub ∈ s.unsubscribed then some (s, .returned)
    else some ({ s with unsubscribed := insert sub s.unsubscribed }, .unsubscribe sub)
  | .unsubscribe sub =>
    some (s.removeSubscriber sub, .publishHeartbeat ((s.removeSubscriber sub).localCount = 0))
  | .handleSubscribersHeartbeat instanceID count =>
    if instanceID = o.instanceID then some (s, .returned)
    else some (s.setRemoteCount o.heartbeatTTL instanceID count, .checkConnected)
  | .publishHeartbeat thenPoll =>
    some ({ s with heartbeats := s.localCount :: s.heartbeats },
      if thenPoll then .checkConnected else .returned)
  | .checkConnected => some (s, if s.connected then .startOrStop else .returned)
  | .startOrStop => some (s.startOrStop, .returned)
  | .stopPollIfStillIdle => some (s.stopPollIfStillIdle, .returned)
  | .broadcastHeartbeats => some (s, if s.localCount = 0 then .returned else .publishHeartbeat false)
  | .connect => some ({ s with connected := true }, .returned)
  | .disconnect => some ({ s with connected := false }, .returned)
  | .elapse d => some ({ s with now := s.now + d }, .returned)
  | .returned => none

/-- The calls: subscriptions that exist are closed, and a timer that was set fires. -/
def program (o : HubOptions ι) : Program (HubState ι) (HubCall ι) Unit where
  start s c := match c with
    | .subscribe | .handleSubscribersHeartbeat .. | .broadcastHeartbeats | .connect | .disconnect
    | .elapse _ => true
    | .close sub => sub < s.nextSub
    | .stopPollIfStillIdle => s.stopTimer
    | _ => false
  next _ s c _ := s.next o c

end HubState

namespace HubCall

variable {ι : Type}

/-- The call is still going to look whether a poll loop is needed. -/
def pending : HubCall ι → Bool
  | .publishHeartbeat thenPoll => thenPoll
  | .checkConnected | .startOrStop => true
  | _ => false

/-- The call is going to take the subscription out. -/
def removes (sub : ℕ) : HubCall ι → Bool
  | .unsubscribe sub' => sub' = sub
  | _ => false

end HubCall

namespace HubState

variable {ι : Type} {s s' : HubState ι}

/-! ### Who wants the metrics -/

/-- There is a local subscription, or one of another instance that has not expired. -/
def wanted (s : HubState ι) : Bool :=
  0 < s.localCount || s.remoteCounts.entries.any fun e => !s.expired e.2 && 0 < e.2.count

def demand (s : HubState ι) : ℤ :=
  s.localCount + ((s.remoteCounts.entries.filter fun e => !s.expired e.2).map fun e => e.2.count).sum

structure Consistent (s : HubState ι) : Prop where
  localCount : s.localCount = s.subscribers.card
  bound : ∀ sub ∈ s.subscribers, sub < s.nextSub
  positive : ∀ e ∈ s.remoteCounts.entries, 0 < e.2.count
  loops : s.loops = s.pollCancel.toNat

section

variable (h : Consistent s)

include h

theorem Consistent.localCount_nonneg : 0 ≤ s.localCount := by
  rw [h.localCount]
  exact Int.natCast_nonneg _

theorem Consistent.sum_le {l l' : List (Sigma fun _ : ι => RemoteCountEntry)}
    (hsub : l'.Sublist s.remoteCounts.entries) (hl : l.Sublist l') :
    (l.map fun e => e.2.count).sum ≤ (l'.map fun e => e.2.count).sum := by
  refine (hl.map fun e => e.2.count).sum_le_sum fun x hx => ?_
  obtain ⟨e, he, rfl⟩ := mem_map.1 hx
  exact (h.positive e (hsub.subset he)).le

theorem wanted_iff : s.wanted = true ↔ 0 < s.demand := by
  have hlocal := h.localCount_nonneg
  simp only [wanted, demand, Bool.or_eq_true, decide_eq_true_eq, any_eq_true, Bool.and_eq_true]
  set live := s.remoteCounts.entries.filter fun e => !s.expired e.2
  have hpos : ∀ x ∈ live.map (fun e => e.2.count), 0 < x := by
    intro x hx
    obtain ⟨e, he, rfl⟩ := mem_map.1 hx
    exact h.positive e (mem_filter.1 he).1
  have hsum := sum_nonneg fun x hx => (hpos x hx).le
  constructor
  · rintro (hl | ⟨e, he, hunex, -⟩)
    · omega
    · have hmem : e ∈ live := mem_filter.2 ⟨he, hunex⟩
      have := sum_pos _ hpos (ne_nil_of_mem (mem_map_of_mem hmem))
      omega
  · intro hdemand
    by_contra hnone
    obtain ⟨hl, hempty⟩ := not_or.1 hnone
    have hnil : live = [] := by
      refine eq_nil_iff_forall_not_mem.2 fun e he => hempty ?_
      obtain ⟨hmem, hunex⟩ := mem_filter.1 he
      exact ⟨e, hmem, hunex, h.positive e hmem⟩
    rw [hnil] at hdemand
    simp at hdemand
    omega

/-- The sum does not overflow. -/
def Fits (s : HubState ι) : Prop := s.demand < intSize / 2

/-! ### The sections under the lock -/

theorem Consistent.of_sublist (hlocal : s'.localCount = s.localCount)
    (hsubs : s'.subscribers = s.subscribers) (hnext : s'.nextSub = s.nextSub)
    (hentr : s'.remoteCounts.entries.Sublist s.remoteCounts.entries)
    (hloops : s'.loops = s'.pollCancel.toNat) : Consistent s' where
  localCount := by rw [hlocal, hsubs, h.localCount]
  bound := by rw [hsubs, hnext]; exact h.bound
  positive e he := h.positive e (hentr.subset he)
  loops := hloops

theorem Consistent.addSubscriber : Consistent s.addSubscriber where
  localCount := by
    have hnew : s.nextSub ∉ s.subscribers := fun hmem => lt_irrefl _ (h.bound _ hmem)
    simp only [HubState.addSubscriber, Finset.card_insert_of_notMem hnew, h.localCount]
    rfl
  bound sub hsub := by
    rcases Finset.mem_insert.1 hsub with rfl | hsub
    · exact Nat.lt_succ_self _
    · exact Nat.lt_succ_of_lt (h.bound sub hsub)
  positive := h.positive
  loops := h.loops

theorem Consistent.removeSubscriber (sub : ℕ) : Consistent (s.removeSubscriber sub) := by
  unfold HubState.removeSubscriber
  split_ifs with hmem hpos
  · refine ⟨?_, fun x hx => h.bound x (Finset.mem_of_mem_erase hx), h.positive, h.loops⟩
    have hlocal := h.localCount
    simp only [Finset.card_erase_of_mem hmem]
    omega
  · -- a subscription is counted
    have hcard := Finset.card_pos.2 ⟨sub, hmem⟩
    have hlocal := h.localCount
    omega
  · exact h

theorem Consistent.followDemand : Consistent s.followDemand := by
  unfold HubState.followDemand
  split_ifs with hstart hstop
  · refine ⟨h.localCount, h.bound, h.positive, ?_⟩
    have hloops := h.loops
    rw [hstart.2] at hloops
    simp [hloops]
  all_goals exact ⟨h.localCount, h.bound, h.positive, h.loops⟩

theorem Consistent.cancelIdle : Consistent s.cancelIdle := by
  unfold HubState.cancelIdle
  split_ifs with hpos hon
  · exact h
  · refine ⟨h.localCount, h.bound, h.positive, ?_⟩
    have hloops := h.loops
    rw [hon] at hloops
    simp [hloops]
  · exact h

theorem Consistent.stopTimer (b : Bool) : Consistent { s with stopTimer := b } :=
  ⟨h.localCount, h.bound, h.positive, h.loops⟩

end

variable [DecidableEq ι] {o : HubOptions ι} {c c' : HubCall ι}

theorem entries_dropExpired (s : HubState ι) : s.dropExpired.remoteCounts.entries =
    s.remoteCounts.entries.filter fun e => !s.expired e.2 := by
  refine filter_congr fun e he => ?_
  have hget : s.remoteCounts.get e.1 = some e.2 := Table.get_eq_some_iff.2 he
  simp only [hget, Option.any_some]

theorem aggregate_dropExpired_pos (h : Consistent s) (hfits : Fits s) :
    0 < s.dropExpired.aggregate ↔ s.wanted = true := by
  have hdemand : s.dropExpired.aggregate = s.demand.bmod intSize := by
    unfold aggregate demand
    rw [entries_dropExpired]
    rfl
  have hnonneg : 0 ≤ s.demand := by
    refine Int.add_nonneg h.localCount_nonneg (sum_nonneg fun x hx => ?_)
    obtain ⟨e, he, rfl⟩ := mem_map.1 hx
    exact (h.positive e (mem_filter.1 he).1).le
  have hself : s.demand.bmod intSize = s.demand := by
    unfold Fits intSize at hfits
    refine Int.bmod_eq_of_le ?_ ?_ <;> unfold intSize <;> omega
  rw [hdemand, hself, wanted_iff h]

theorem Consistent.dropExpired (h : Consistent s) : Consistent s.dropExpired := by
  refine h.of_sublist rfl rfl rfl ?_ h.loops
  exact filter_sublist

theorem Consistent.setRemoteCount (h : Consistent s) (ttl : ℕ) (instanceID : ι) (count : ℤ) :
    Consistent (s.setRemoteCount ttl instanceID count) := by
  unfold HubState.setRemoteCount
  split_ifs with hcount
  · refine h.of_sublist rfl rfl rfl ?_ h.loops
    exact kerase_sublist ..
  · refine ⟨h.localCount, h.bound, fun e he => ?_, h.loops⟩
    rw [Table.entries_put] at he
    rcases mem_cons.1 he with rfl | he
    · exact Int.not_le.1 hcount
    · exact h.positive e ((kerase_sublist ..).subset he)

/-! ### Open subscriptions -/

open HubCall

/-- What is known of a subscription: it is in the map until the call that closes it has taken it
out, and there is one such call at most. -/
def Subscribed (s : HubState ι) (calls : List (HubCall ι)) (sub : ℕ) : Prop :=
  if sub ∈ s.unsubscribed then sub < s.nextSub ∧ calls.countP (removes sub) ≤ 1 ∧
    (sub ∈ s.subscribers ↔ calls.countP (removes sub) = 1)
  else calls.countP (removes sub) = 0 ∧ (sub ∈ s.subscribers ↔ sub < s.nextSub)

/-- A consistent state; only subscriptions that exist are closed, and the map has the open ones. -/
structure Sound (p : Pool (HubState ι) (HubCall ι)) : Prop where
  consistent : Consistent p.store
  closes : ∀ c ∈ p.calls, ∀ sub, c = .close sub → sub < p.store.nextSub
  subscribed : ∀ sub, Subscribed p.store p.calls sub

omit [DecidableEq ι] in
theorem sound_idle : Sound (Pool.idle {} : Pool (HubState ι) (HubCall ι)) where
  consistent :=
    { localCount := rfl
      bound := fun _ h => by simp [Pool.idle] at h
      positive := fun _ h => by cases h
      loops := rfl }
  closes _ h := by cases h
  subscribed sub := by simp [Subscribed, Pool.idle]

/-- The subscriptions and the connection, which the counts of the others have no part in. -/
def fixed (s : HubState ι) : Finset ℕ × Finset ℕ × ℕ × Bool :=
  (s.subscribers, s.unsubscribed, s.nextSub, s.connected)

@[simp] theorem fixed_setRemoteCount (ttl : ℕ) (instanceID : ι) (count : ℤ) :
    (s.setRemoteCount ttl instanceID count).fixed = s.fixed := by
  unfold setRemoteCount
  split_ifs <;> rfl

@[simp] theorem fixed_startOrStop : s.startOrStop.fixed = s.fixed := by
  unfold startOrStop followDemand
  split_ifs <;> rfl

@[simp] theorem fixed_stopPollIfStillIdle : s.stopPollIfStillIdle.fixed = s.fixed := by
  unfold stopPollIfStillIdle cancelIdle
  split_ifs <;> rfl

/-- What a step does to the subscriptions. -/
inductive Resubscribes (s : HubState ι) : HubCall ι → HubState ι → HubCall ι → Prop
  | opens {c' : _} (hc' : ∀ sub, c'.removes sub = false) :
    Resubscribes s .subscribe s.addSubscriber c'
  | closes {sub : _} (hmem : sub ∉ s.unsubscribed) : Resubscribes s (.close sub)
      { s with unsubscribed := insert sub s.unsubscribed } (.unsubscribe sub)
  | removes {sub c' : _} (hc' : ∀ sub, c'.removes sub = false) :
    Resubscribes s (.unsubscribe sub) (s.removeSubscriber sub) c'
  | keeps {c s' c' : _} (hsubscribers : s'.subscribers = s.subscribers)
    (hunsubscribed : s'.unsubscribed = s.unsubscribed) (hnextSub : s'.nextSub = s.nextSub)
    (hremoves : ∀ sub, c.removes sub = false ∧ c'.removes sub = false) : Resubscribes s c s' c'

omit [DecidableEq ι] in
theorem Resubscribes.of_fixed (h : s'.fixed = s.fixed)
    (hrem : ∀ sub, c.removes sub = false ∧ c'.removes sub = false) : Resubscribes s c s' c' :=
  .keeps (congrArg (·.1) h) (congrArg (·.2.1) h) (congrArg (·.2.2.1) h) hrem

theorem next_cases (h : s.next o c = some (s', c')) : Resubscribes s c s' c' ∧
    (Consistent s → Consistent s') ∧ ∀ sub, c' ≠ .close sub := by
  have hsame : ∀ _ : ℕ, false = false ∧ false = false := fun _ => ⟨rfl, rfl⟩
  cases c with
  | subscribe =>
    cases h
    refine ⟨.opens fun sub => ?_, .addSubscriber, fun sub => ?_⟩
    · split_ifs <;> rfl
    · split_ifs <;> simp
  | close sub =>
    simp only [next] at h
    split_ifs at h with hmem <;> cases h
    · exact ⟨.of_fixed rfl hsame, id, nofun⟩
    · exact ⟨.closes hmem, fun hs => ⟨hs.1, hs.2, hs.3, hs.4⟩, nofun⟩
  | unsubscribe sub => cases h; exact ⟨.removes fun _ => rfl, (·.removeSubscriber sub), nofun⟩
  | handleSubscribersHeartbeat instanceID count =>
    simp only [next] at h
    split_ifs at h <;> cases h
    · exact ⟨.of_fixed rfl hsame, id, nofun⟩
    · exact ⟨.of_fixed (fixed_setRemoteCount ..) hsame, (·.setRemoteCount _ _ _), nofun⟩
  | publishHeartbeat | checkConnected | broadcastHeartbeats =>
    cases h
    refine ⟨.of_fixed rfl fun _ => ⟨rfl, ?_⟩, fun hs => ⟨hs.1, hs.2, hs.3, hs.4⟩, fun _ => ?_⟩
    · split_ifs <;> rfl
    · split_ifs <;> simp
  | startOrStop =>
    cases h
    exact ⟨.of_fixed fixed_startOrStop hsame, fun hs => hs.dropExpired.followDemand, nofun⟩
  | stopPollIfStillIdle =>
    cases h
    exact ⟨.of_fixed fixed_stopPollIfStillIdle hsame,
      fun hs => (hs.stopTimer false).dropExpired.cancelIdle, nofun⟩
  | connect | disconnect | elapse =>
    cases h
    exact ⟨.keeps rfl rfl rfl hsame, fun hs => ⟨hs.1, hs.2, hs.3, hs.4⟩, nofun⟩
  | returned => cases h

omit [DecidableEq ι] in
theorem mem_removeSubscriber (s : HubState ι) (sub sub' : ℕ) :
    sub' ∈ (s.removeSubscriber sub).subscribers ↔ sub' ≠ sub ∧ sub' ∈ s.subscribers := by
  by_cases hmem : sub ∈ s.subscribers
  · rw [removeSubscriber, if_pos hmem]
    simp
  · rw [removeSubscriber, if_neg hmem]
    refine ⟨fun h => ⟨?_, h⟩, fun h => h.2⟩
    rintro rfl
    exact hmem h

omit [DecidableEq ι] in
theorem removeSubscriber_rest (s : HubState ι) (sub : ℕ) :
    (s.removeSubscriber sub).unsubscribed = s.unsubscribed ∧
      (s.removeSubscriber sub).nextSub = s.nextSub := by
  unfold removeSubscriber
  split_ifs <;> exact ⟨rfl, rfl⟩

theorem Subscribed.next {calls : List (HubCall ι)} {i : ℕ} (hc : calls[i]? = some c)
    (hcloses : ∀ sub, c = .close sub → sub < s.nextSub)
    (hsubs : ∀ sub, Subscribed s calls sub) (h : s.next o c = some (s', c')) (sub : ℕ) :
    Subscribed s' (calls.set i c') sub := by
  have hset := countP_set_add hc c' (removes sub)
  have hsame (heq : c.removes sub = c'.removes sub) :
      (calls.set i c').countP (removes sub) = calls.countP (removes sub) := by
    rw [heq] at hset
    exact add_right_cancel hset
  have hsub := hsubs sub
  cases (next_cases h).1 with
  | opens hc' =>
    unfold Subscribed at hsub ⊢
    simp only [addSubscriber, hsame (hc' sub).symm, Finset.mem_insert]
    split_ifs at hsub ⊢ with hun
    · obtain ⟨hlt, hle, hiff⟩ := hsub
      refine ⟨by omega, hle, ?_⟩
      rw [← hiff]
      exact ⟨fun hor => hor.resolve_left (by omega), .inr⟩
    · refine ⟨hsub.1, ?_⟩
      rw [hsub.2]
      omega
  | @closes sub₀ hmem =>
    have hlt := hcloses sub₀ rfl
    unfold Subscribed at hsub ⊢
    simp only [Finset.mem_insert]
    by_cases heq : sub = sub₀
    · subst heq
      rw [if_neg hmem] at hsub
      have hone : (calls.set i (.unsubscribe sub)).countP (removes sub) = 1 := by
        simpa [removes, hsub.1] using hset
      rw [if_pos (.inl rfl)]
      exact ⟨hlt, by omega, by simp [hone, hsub.2, hlt]⟩
    · simpa [heq, hsame (decide_eq_false (Ne.symm heq)).symm] using hsub
  | @removes sub₀ _ hc' =>
    obtain ⟨hun, hnext⟩ := removeSubscriber_rest s sub₀
    unfold Subscribed at hsub ⊢
    rw [hun, hnext, mem_removeSubscriber]
    by_cases heq : sub = sub₀
    · subst heq
      have hcount : (calls.set i c').countP (removes sub) + 1 =
          calls.countP (removes sub) := by
        rw [hc' sub] at hset
        simpa [removes] using hset
      split_ifs at hsub ⊢
      · refine ⟨hsub.1, by omega, ?_⟩
        omega
      · omega
    · have hkept := hsame ((decide_eq_false (Ne.symm heq)).trans (hc' sub).symm)
      simpa [heq, hkept] using hsub
  | keeps hsubsc huns hnextSub hrem =>
    obtain ⟨hc₀, hc'⟩ := hrem sub
    unfold Subscribed at hsub ⊢
    rw [hsubsc, huns, hnextSub, hsame (hc₀.trans hc'.symm)]
    exact hsub

theorem nextSub_le_next (h : s.next o c = some (s', c')) : s.nextSub ≤ s'.nextSub := by
  cases (next_cases h).1 with
  | opens => exact Nat.le_succ _
  | closes => exact le_refl _
  | @removes sub => rw [(removeSubscriber_rest s sub).2]
  | keeps _ _ hnextSub => rw [hnextSub]

theorem sound_step : Stable (program o).step Sound := by
  intro p m p' hp h
  obtain ⟨c, rfl, hstart, rfl⟩ | ⟨i, e, c, s', c', rfl, hc, hn, rfl⟩ := Program.step_cases h
  · refine ⟨hp.consistent, fun d hd sub hsub => ?_, fun sub => ?_⟩
    · rcases mem_append.1 hd with hd | hd
      · exact hp.closes d hd sub hsub
      · rw [mem_singleton.1 hd] at hsub
        subst hsub
        simpa [program] using hstart
    · have hrem : c.removes sub = false := by
        cases c <;> first | rfl | simp [program] at hstart
      have := hp.subscribed sub
      unfold Subscribed at this ⊢
      simpa [countP_append, hrem] using this
  · refine ⟨(next_cases hn).2.1 hp.consistent, fun d hd sub hsub => ?_, ?_⟩
    · rcases mem_or_eq_of_mem_set hd with hd | rfl
      · exact lt_of_lt_of_le (hp.closes d hd sub hsub) (nextSub_le_next hn)
      · exact absurd hsub ((next_cases hn).2.2 sub)
    · exact Subscribed.next hc (hp.closes c (mem_of_getElem? hc)) hp.subscribed hn

/-- No call is in progress. -/
def AtRest (p : Pool (HubState ι) (HubCall ι)) : Prop := ∀ c ∈ p.calls, c = .returned

instance (p : Pool (HubState ι) (HubCall ι)) : Decidable (AtRest p) :=
  inferInstanceAs (Decidable (∀ c ∈ p.calls, c = .returned))

variable {p p' : Pool (HubState ι) (HubCall ι)}

omit [DecidableEq ι] in
theorem AtRest.countP_pending (h : AtRest p) : p.calls.countP pending = 0 := by
  rw [countP_eq_zero]
  intro c hc
  rw [h c hc]
  simp [pending]

omit [DecidableEq ι] in
theorem Sound.subscribers_eq (hp : Sound p) (hrest : AtRest p) : p.store.subscribers =
      (Finset.range p.store.nextSub).filter fun sub => sub ∉ p.store.unsubscribed := by
  ext sub
  have hzero : p.calls.countP (removes sub) = 0 := by
    rw [countP_eq_zero]
    intro c hc
    rw [hrest c hc]
    simp [removes]
  have hsub := hp.subscribed sub
  unfold Subscribed at hsub
  rw [hzero] at hsub
  split_ifs at hsub with hun
  · simp [hun, hsub.2.2]
  · simp [hun, hsub.2]

/-! ### The poll loop -/

/-- When the node connects, its metrics are not wanted, or the loop runs, or a call is about to
look; a subscription or a heartbeat does not make the sum overflow. -/
def Covered (p : Pool (HubState ι) (HubCall ι)) (c : HubCall ι) (_ : Unit) : Prop :=
  match c with
  | .connect => p.store.connected = true ∨ p.store.wanted = false ∨ p.store.pollCancel = true ∨
      0 < p.calls.countP pending
  | .subscribe => p.store.demand + 1 < intSize / 2
  | .handleSubscribersHeartbeat _ count => p.store.demand + count < intSize / 2
  | _ => True

instance (p : Pool (HubState ι) (HubCall ι)) (c : HubCall ι) (e : Unit) :
    Decidable (Covered p c e) := by
  unfold Covered
  split <;> infer_instance

/-- The loop runs, or a call is about to look, when the node is connected and its metrics are
wanted. -/
structure Served (p : Pool (HubState ι) (HubCall ι)) : Prop where
  sound : Sound p
  fits : Fits p.store
  served : p.store.connected = true → p.store.wanted = true →
    p.store.pollCancel = true ∨ 0 < p.calls.countP pending

theorem demand_dropExpired (s : HubState ι) : s.dropExpired.demand = s.demand := by
  have hsame : ∀ entry, s.dropExpired.expired entry = s.expired entry := fun _ => rfl
  unfold demand
  rw [entries_dropExpired, filter_filter]
  simp only [hsame, Bool.and_self]
  rfl

theorem demand_startOrStop (s : HubState ι) : s.startOrStop.demand = s.demand := by
  rw [← demand_dropExpired s]
  unfold startOrStop followDemand
  split_ifs <;> rfl

theorem demand_stopPollIfStillIdle (s : HubState ι) : s.stopPollIfStillIdle.demand = s.demand := by
  have hdrop : ({ s with stopTimer := false } : HubState ι).dropExpired.demand = s.demand :=
    demand_dropExpired _
  rw [← hdrop]
  unfold stopPollIfStillIdle cancelIdle
  split_ifs <;> rfl

theorem demand_setRemoteCount_le (h : Consistent s) (ttl : ℕ) (instanceID : ι) (count : ℤ) :
    (s.setRemoteCount ttl instanceID count).demand ≤ s.demand + max count 0 := by
  have hsub : ((s.remoteCounts.entries.kerase instanceID).filter fun e => !s.expired e.2).Sublist
      (s.remoteCounts.entries.filter fun e => !s.expired e.2) :=
    (kerase_sublist ..).filter _
  have hle := h.sum_le filter_sublist hsub
  unfold setRemoteCount
  split_ifs with hcount
  · simp only [demand, Table.entries_del, expired] at hle ⊢
    omega
  · simp only [demand, Table.entries_put, expired] at hle ⊢
    rw [filter_cons_of_pos (by simp)]
    simp only [map_cons, sum_cons]
    omega

omit [DecidableEq ι] in
theorem demand_elapse_le (h : Consistent s) (d : ℕ) :
    ({ s with now := s.now + d } : HubState ι).demand ≤ s.demand := by
  refine Int.add_le_add le_rfl (h.sum_le filter_sublist (monotone_filter_right _ fun e he => ?_))
  have hlive : ¬ e.2.expires < s.now + d := by simpa [expired] using he
  have hbef : ¬ e.2.expires < s.now := fun hlt => hlive (Nat.lt_add_right d hlt)
  simpa [expired] using hbef

omit [DecidableEq ι] in
theorem demand_removeSubscriber_le (s : HubState ι) (sub : ℕ) :
    (s.removeSubscriber sub).demand ≤ s.demand := by
  unfold removeSubscriber
  split_ifs
  · simp only [demand, expired]
    omega
  · exact le_rfl
  · exact le_rfl

omit [DecidableEq ι] in
theorem wanted_of_demand_le (h : Consistent s) (h' : Consistent s') (hle : s'.demand ≤ s.demand)
    (hwant : s'.wanted = true) : s.wanted = true := by
  rw [wanted_iff h'] at hwant
  rw [wanted_iff h]
  omega

theorem pollCancel_startOrStop (h : Consistent s) (hfits : Fits s)
    (hwant : s.startOrStop.wanted = true) : s.startOrStop.pollCancel = true := by
  have hbef := wanted_of_demand_le h h.dropExpired.followDemand (demand_startOrStop s).le hwant
  have hpos := (aggregate_dropExpired_pos h hfits).2 hbef
  unfold startOrStop followDemand
  cases hpoll : s.dropExpired.pollCancel with
  | false | true => simp [hpos]

theorem pollCancel_stopPollIfStillIdle (h : Consistent s) (hfits : Fits s)
    (hwant : s.stopPollIfStillIdle.wanted = true) :
    s.stopPollIfStillIdle.pollCancel = s.pollCancel := by
  have hcons := (h.stopTimer false).dropExpired.cancelIdle
  have hbef := wanted_of_demand_le h hcons (demand_stopPollIfStillIdle s).le hwant
  have hpos := (aggregate_dropExpired_pos (h.stopTimer false) hfits).2 hbef
  unfold stopPollIfStillIdle cancelIdle
  rw [if_pos hpos]
  rfl

theorem served_step : StableUnder (program o).step (Guarded Covered) Served := by
  intro p m p' hp hG h
  have hsound := sound_step p m p' hp.sound h
  obtain ⟨c, rfl, -, rfl⟩ | ⟨i, e, c, s', c', rfl, hc, hn, rfl⟩ := Program.step_cases h
  · refine ⟨hsound, hp.fits, fun hconne hwant => ?_⟩
    refine (hp.served hconne hwant).imp_right fun hpos => ?_
    rw [countP_append]
    omega
  have hcov := hG c hc
  have hcons := hp.sound.consistent
  have hset := countP_set_add hc c' pending
  suffices hnext : Fits s' ∧ (s'.connected = true → s'.wanted = true →
      s'.pollCancel = true ∨ 0 < (p.calls.set i c').countP pending) from
    ⟨hsound, hnext.1, hnext.2⟩
  -- what was served is still served when the demand has not grown and no call has given up
  have hkeep : s'.demand ≤ p.store.demand → s'.connected = p.store.connected →
      (s'.wanted = true → s'.pollCancel = p.store.pollCancel) →
      (c.pending).toNat ≤ (c'.pending).toNat → Fits s' ∧ (s'.connected = true → s'.wanted = true →
        s'.pollCancel = true ∨ 0 < (p.calls.set i c').countP pending) := by
    refine fun hdemand hconn hpoll hpend =>
      ⟨lt_of_le_of_lt hdemand hp.fits, fun hconne hwant => ?_⟩
    have hbef := wanted_of_demand_le hcons hsound.consistent hdemand hwant
    rw [hpoll hwant]
    exact (hp.served (hconn ▸ hconne) hbef).imp_right fun hpos => by omega
  -- a call that is about to look
  have hlooks : c'.pending = true →
      s'.pollCancel = true ∨ 0 < (p.calls.set i c').countP pending := by
    intro hpend
    have hle := toNat_le_countP hc pending
    rw [hpend] at hset
    simp only [Bool.toNat_true] at hset
    exact .inr (by omega)
  cases c with
  | subscribe =>
    cases hn
    have hdemand : p.store.addSubscriber.demand = p.store.demand + 1 :=
      Int.add_right_comm p.store.localCount 1 _
    refine ⟨?_, fun _ _ => hlooks ?_⟩
    · change p.store.addSubscriber.demand < intSize / 2
      rw [hdemand]
      exact hcov
    · split_ifs <;> rfl
  | close sub =>
    simp only [program, next] at hn
    split_ifs at hn <;> cases hn <;> exact hkeep le_rfl rfl (fun _ => rfl) (le_refl _)
  | unsubscribe sub =>
    cases hn
    refine hkeep (demand_removeSubscriber_le _ sub) ?_ (fun _ => ?_) (Nat.zero_le _)
    all_goals unfold removeSubscriber; split_ifs <;> rfl
  | handleSubscribersHeartbeat instanceID count =>
    simp only [program, next] at hn
    split_ifs at hn <;> cases hn
    · exact hkeep le_rfl rfl (fun _ => rfl) (le_refl _)
    · refine ⟨?_, fun _ _ => hlooks rfl⟩
      have hmax := demand_setRemoteCount_le hcons o.heartbeatTTL instanceID count
      have hfits := hp.fits
      simp only [Covered, Fits] at hcov hfits ⊢
      rcases max_cases count 0 with ⟨heq, -⟩ | ⟨heq, -⟩ <;> rw [heq] at hmax <;> omega
  | publishHeartbeat thenPoll =>
    cases hn
    refine hkeep le_rfl rfl (fun _ => rfl) ?_
    cases thenPoll <;> exact le_refl _
  | checkConnected =>
    cases hn
    refine ⟨hp.fits, fun hconne _ => hlooks ?_⟩
    rw [if_pos hconne]
    rfl
  | startOrStop =>
    cases hn
    exact ⟨lt_of_le_of_lt (demand_startOrStop _).le hp.fits, fun _ hwant =>
      .inl (pollCancel_startOrStop hcons hp.fits hwant)⟩
  | stopPollIfStillIdle =>
    cases hn
    refine hkeep (demand_stopPollIfStillIdle _).le ?_
      (pollCancel_stopPollIfStillIdle hcons hp.fits) (le_refl _)
    exact congrArg (fun x => x.2.2.2) (fixed_stopPollIfStillIdle (s := p.store))
  | broadcastHeartbeats =>
    cases hn
    exact hkeep le_rfl rfl (fun _ => rfl) (Nat.zero_le _)
  | connect =>
    cases hn
    refine ⟨hp.fits, fun hconne hwant => ?_⟩
    rcases hcov with hon | hunw | hpoll | hpos
    · exact (hkeep le_rfl hon.symm (fun _ => rfl) (le_refl _)).2 hconne hwant
    · exact absurd (hunw.symm.trans hwant) (by simp)
    · exact .inl hpoll
    · right
      have hsame : (p.calls.set i .returned).countP pending =
          p.calls.countP pending := by simpa [pending] using hset
      rw [hsame]
      exact hpos
  | disconnect => cases hn; exact ⟨hp.fits, nofun⟩
  | elapse d =>
    cases hn
    exact hkeep (demand_elapse_le hcons d) rfl (fun _ => rfl) (le_refl _)
  | returned => cases hn

omit [DecidableEq ι] in
theorem served_idle : Served (Pool.idle {} : Pool (HubState ι) (HubCall ι)) where
  sound := sound_idle
  fits := by simp [Fits, demand, Pool.idle, intSize]
  served h := by cases h

omit [DecidableEq ι] in
theorem Sound.loops_eq_one_iff (hp : Sound p) : p.store.loops = 1 ↔ p.store.pollCancel = true := by
  rw [hp.consistent.loops]
  cases p.store.pollCancel <;> simp

theorem connect_iff (hp : Sound p) (hrest : AtRest p) (hoff : p.store.connected = false)
    (h : run (program o).step p [.spawn .connect, .advance p.calls.length ()] = some p') :
    (p'.store.connected = true → p'.store.wanted = true → p'.store.loops = 1) ↔
      Covered p .connect () := by
  have hp' : p' = ⟨{ p.store with connected := true }, p.calls ++ [.returned]⟩ := by
    simpa [run, Program.step, program, next] using h.symm
  subst hp'
  have hloops := hp.loops_eq_one_iff
  simp only [Covered, hoff, hrest.countP_pending]
  have hwant : ({ p.store with connected := true } : HubState ι).wanted = p.store.wanted := rfl
  simp only [hwant, hloops]
  cases p.store.wanted <;> simp

/-- At rest exactly one loop polls a node that is connected and whose metrics are wanted, if every
step was `Covered`; and a connection at rest keeps this exactly if it is `Covered`. -/
theorem poll_runs (o : HubOptions ι) (ms : List (Move (HubCall ι) Unit))
    {p : Pool (HubState ι) (HubCall ι)} (h : run (program o).step (Pool.idle {}) ms = some p)
    (hrest : AtRest p) :
    p.store.localCount =
      ((Finset.range p.store.nextSub).filter fun sub => sub ∉ p.store.unsubscribed).card ∧
    (Along (program o).step (Guarded Covered) (Pool.idle {}) ms →
      p.store.connected = true → p.store.wanted = true → p.store.loops = 1) ∧
    (p.store.connected = false → ∀ p',
      run (program o).step p [.spawn .connect, .advance p.calls.length ()] = some p' →
        ((p'.store.connected = true → p'.store.wanted = true → p'.store.loops = 1) ↔
          Covered p .connect ())) := by
  have hsound : Sound p := run_inv_all Sound sound_step sound_idle h
  refine ⟨?_, fun hG hconn hwant => ?_, fun hoff p' hconne =>
    connect_iff hsound hrest hoff hconne⟩
  · rw [hsound.consistent.localCount, hsound.subscribers_eq hrest]
  · have hserved : Served p := run_inv Served served_step served_idle hG h
    rw [hsound.loops_eq_one_iff]
    rcases hserved.served hconn hwant with hpoll | hpos
    · exact hpoll
    · rw [hrest.countP_pending] at hpos
      cases hpos

/-- The first instance, called 0. -/
def firstInstance : HubOptions ℕ := ⟨0, 15⟩

/-- The node was connected before the subscription, which starts the loop; the loop is still there
after a reconnection. -/
theorem poll_runs_subscribed :
    ∃ p, run (program firstInstance).step (Pool.idle {}) [.spawn .subscribe, .spawn .connect,
        .advance 1 (), .advance 0 (), .advance 0 (), .advance 0 (), .advance 0 (),
        .spawn .disconnect, .advance 2 (), .spawn .connect, .advance 3 ()] = some p ∧
      p.store.connected = true ∧ p.store.wanted = true ∧ p.store.loops = 1 := by
  refine ⟨_, rfl, rfl, by decide, ?_⟩
  exact (poll_runs firstInstance [.spawn .subscribe, .spawn .connect, .advance 1 (), .advance 0 (),
    .advance 0 (), .advance 0 (), .advance 0 (), .spawn .disconnect, .advance 2 (), .spawn .connect,
    .advance 3 ()] rfl (by decide)).2.1 (by decide) rfl (by decide)

/-- The node connects after the subscription: all calls have returned, a heartbeat of the hub came
back, and nothing polls the node although its metrics are wanted. -/
theorem connected_without_poll :
    ∃ p, run (program firstInstance).step (Pool.idle {}) [.spawn .subscribe, .advance 0 (),
        .advance 0 (), .advance 0 (), .spawn .connect, .advance 1 (), .spawn .broadcastHeartbeats,
        .advance 2 (), .advance 2 (), .spawn (.handleSubscribersHeartbeat 0 1),
        .advance 3 ()] = some p ∧
      AtRest p ∧ p.store.connected = true ∧ p.store.localCount = 1 ∧ p.store.loops = 0 :=
  ⟨_, rfl, by decide, rfl, rfl, rfl⟩

/-- In every run one poll loop runs at most, exactly while its cancellation is kept, `localCount` is
the number of subscriptions in the map, and a closed subscription is taken out by one call at
most. -/
theorem hub_sound (o : HubOptions ι) (ms : List (Move (HubCall ι) Unit))
    {p : Pool (HubState ι) (HubCall ι)}
    (h : run (program o).step (Pool.idle {}) ms = some p) :
    p.store.loops = p.store.pollCancel.toNat ∧ p.store.localCount = p.store.subscribers.card ∧
      ∀ sub, p.calls.countP (HubCall.removes sub) ≤ 1 := by
  have hp : Sound p := run_inv_all Sound sound_step sound_idle h
  refine ⟨hp.consistent.loops, hp.consistent.localCount, fun sub => ?_⟩
  have hsub := hp.subscribed sub
  unfold Subscribed at hsub
  split_ifs at hsub
  · exact hsub.2.1
  · exact hsub.1.le.trans (Nat.zero_le 1)

/-- Two subscriptions, of which the second one begins before the first one has returned. -/
theorem hub_sound_subscribed : ∃ p, run (program firstInstance).step (Pool.idle {})
      [.spawn .subscribe, .spawn .subscribe, .advance 0 (), .advance 1 ()] = some p ∧
      p.store.localCount = 2 ∧ p.store.loops = p.store.pollCancel.toNat ∧
      p.store.localCount = p.store.subscribers.card := by
  refine ⟨_, rfl, rfl, ?_⟩
  obtain ⟨hloops, hcount, -⟩ := hub_sound firstInstance
    [.spawn .subscribe, .spawn .subscribe, .advance 0 (), .advance 1 ()] rfl
  exact ⟨hloops, hcount⟩

end HubState

end GameAP
