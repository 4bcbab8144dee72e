import Mathlib.Data.List.Basic

/-!
# Buffered channels

A channel with a buffer, in the manner of Go: the list of everything that was sent on it, of which
the first `received` elements have been taken.

* `trySend` is a send in a `select` with a default branch: a full buffer drops the value;
* `recv` takes the next value; on a closed channel without values it returns at once with nothing.

A send on a closed channel and a second `close` panic: these operations return `none`.  For `recv`
the outer `none` means that the receiver has to wait.  Channels live on a `Heap`.

A channel can serve as a broadcast: who changes a state replaces the current channel and closes the
old one later.  `Generations` says that no such close panics, and `Signalled` that whoever waits on
a channel is woken, now or by a close that is still to come.
-/

namespace Channels

/-- A channel with a buffer for `capacity` values. -/
structure Channel (α : Type*) where
  capacity : ℕ
  sent : List α := []
  received : ℕ := 0
  closed : Bool := false
  deriving DecidableEq

namespace Channel

variable {α : Type*} (ch : Channel α)

/-- What has been sent and not yet taken. -/
def buffer : List α := ch.sent.drop ch.received

/-- A send in a `select` with a default branch. -/
def trySend (v : α) : Option (Channel α) :=
  if ch.closed then none
  else if ch.buffer.length < ch.capacity then some { ch with sent := ch.sent ++ [v] }
  else some ch

/-- A second `close` panics. -/
def close : Option (Channel α) :=
  if ch.closed then none else some { ch with closed := true }

/-- The next value, or nothing from a closed channel; `none` when the receiver waits. -/
def recv : Option (Option α × Channel α) :=
  match ch.sent[ch.received]? with
  | some v => some (some v, { ch with received := ch.received + 1 })
  | none => if ch.closed then some (none, ch) else none

variable {ch}

theorem trySend_first {v : α} (hopen : ch.closed = false) (hsent : ch.sent = [])
    (hcap : 0 < ch.capacity) : ch.trySend v = some { ch with sent := [v] } := by
  simp [trySend, buffer, hopen, hsent, hcap]

theorem close_open (hopen : ch.closed = false) : ch.close = some { ch with closed := true } := by
  simp [close, hopen]

theorem recv_frame {v : Option α} {ch' : Channel α} (h : ch.recv = some (v, ch')) :
    ch'.sent = ch.sent ∧ ch'.closed = ch.closed ∧ ch'.capacity = ch.capacity := by
  unfold recv at h
  split at h
  · cases h
    exact ⟨rfl, rfl, rfl⟩
  · split_ifs at h
    cases h
    exact ⟨rfl, rfl, rfl⟩

theorem recv_of_closed (hcl : ch.closed = true) : ∃ r, ch.recv = some r := by
  unfold recv
  split
  · exact ⟨_, rfl⟩
  · rw [if_pos hcl]
    exact ⟨_, rfl⟩

end Channel

/-- Channels by address. -/
structure Heap (α : Type*) where
  next : ℕ := 0
  chan : ℕ → Channel α := fun _ => { capacity := 0 }

namespace Heap

variable {α : Type*} (h : Heap α) (capacity : ℕ)

/-- A new channel, at the address `h.next`. -/
def make (capacity : ℕ) : Heap α :=
  ⟨h.next + 1, Function.update h.chan h.next { capacity }⟩

/-- Replaces a channel. -/
def set (i : ℕ) (ch : Channel α) : Heap α := { h with chan := Function.update h.chan i ch }

@[simp] theorem make_chan_self : (h.make capacity).chan h.next = { capacity } :=
  Function.update_self ..

variable {i : ℕ}

theorem make_chan_of_lt (hi : i < h.next) : (h.make capacity).chan i = h.chan i :=
  Function.update_of_ne (Nat.ne_of_lt hi) ..

@[simp] theorem set_chan_self (i : ℕ) (ch : Channel α) : (h.set i ch).chan i = ch :=
  Function.update_self ..

theorem set_chan_ne (ch : Channel α) {j : ℕ} (hij : j ≠ i) : (h.set i ch).chan j = h.chan j :=
  Function.update_of_ne hij ..

theorem set_closed {ch : Channel α} (hcl : ch.closed = (h.chan i).closed) (j : ℕ) :
    ((h.set i ch).chan j).closed = (h.chan j).closed := by
  by_cases hij : j = i
  · subst hij
    rw [set_chan_self, hcl]
  · rw [set_chan_ne h ch hij]

end Heap

/-! ### Channels as broadcasts -/

open List

section Broadcast

variable {α : Type*} {h : Heap α} {current i j : ℕ} {pending pending' : List ℕ}

/-- The current channel and those that have been replaced and are still to be closed. -/
structure Generations (h : Heap α) (current : ℕ) (pending : List ℕ) : Prop where
  lt : ∀ i ∈ current :: pending, i < h.next
  isOpen : ∀ i ∈ current :: pending, (h.chan i).closed = false
  nodup : (current :: pending).Nodup

/-- Who waits on the channel at `i` is woken, now or by a close that is still to come. -/
def Signalled (h : Heap α) (pending : List ℕ) (i : ℕ) : Prop :=
  (h.chan i).closed = true ∨ i ∈ pending

theorem generations_first (capacity : ℕ) : Generations (({} : Heap α).make capacity) 0 [] where
  lt i hi := by
    obtain rfl := mem_singleton.1 hi
    exact Nat.zero_lt_one
  isOpen i hi := by
    obtain rfl := mem_singleton.1 hi
    rfl
  nodup := pairwise_singleton _ 0

section

variable (hg : Generations h current pending)

include hg

theorem Generations.perm (hp : pending.Perm pending') : Generations h current pending' where
  lt i hi := hg.lt i ((hp.cons current).mem_iff.2 hi)
  isOpen i hi := hg.isOpen i ((hp.cons current).mem_iff.2 hi)
  nodup := (hp.cons current).nodup_iff.1 hg.nodup

theorem Generations.renew (capacity : ℕ) :
    Generations (h.make capacity) h.next (current :: pending) where
  lt i hi := by
    rcases mem_cons.1 hi with rfl | hi
    · exact Nat.lt_succ_self _
    · exact Nat.lt_succ_of_lt (hg.lt i hi)
  isOpen i hi := by
    rcases mem_cons.1 hi with rfl | hi
    · rw [Heap.make_chan_self]
    · rw [Heap.make_chan_of_lt _ _ (hg.lt i hi)]
      exact hg.isOpen i hi
  nodup := nodup_cons.2 ⟨fun hi => Nat.lt_irrefl _ (hg.lt _ hi), hg.nodup⟩

theorem Generations.close (hj : j ∈ pending) :
    Generations (h.set j { h.chan j with closed := true }) current (pending.erase j) := by
  obtain ⟨hcur, hnodup⟩ := nodup_cons.1 hg.nodup
  have hsub : (current :: pending.erase j).Sublist (current :: pending) :=
    erase_sublist.cons_cons current
  have hne : ∀ i ∈ current :: pending.erase j, i ≠ j := by
    rintro i hi rfl
    rcases mem_cons.1 hi with rfl | hi
    · exact hcur hj
    · exact hnodup.not_mem_erase hi
  exact {
    lt := fun i hi => hg.lt i (hsub.subset hi)
    isOpen := fun i hi => by
      rw [Heap.set_chan_ne _ _ (hne i hi)]
      exact hg.isOpen i (hsub.subset hi)
    nodup := hg.nodup.sublist hsub }

end

theorem Signalled.perm (hs : Signalled h pending i) (hp : pending.Perm pending') :
    Signalled h pending' i :=
  hs.imp_right hp.mem_iff.1

theorem Signalled.renew (hs : Signalled h pending i) (hi : i < h.next) (capacity : ℕ) :
    Signalled (h.make capacity) (current :: pending) i := by
  rcases hs with hcl | hmem
  · exact .inl (by rwa [Heap.make_chan_of_lt _ _ hi])
  · exact .inr (mem_cons_of_mem _ hmem)

theorem Signalled.close (hs : Signalled h pending i) :
    Signalled (h.set j { h.chan j with closed := true }) (pending.erase j) i := by
  by_cases hij : i = j
  · subst hij
    exact .inl (by rw [Heap.set_chan_self])
  · rcases hs with hcl | hmem
    · exact .inl (by rwa [Heap.set_chan_ne _ _ hij])
    · exact .inr ((mem_erase_of_ne hij).2 hmem)

end Broadcast

end Channels
