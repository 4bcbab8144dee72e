import GameAP.Locks.DBLocker

/-!
# The locks of a single instance

In `InMemoryLocker` every operation is one section under the mutex, and `Acquire` first takes away
the entries that have expired.  The entries are leases in the sense of `Lib/Leases`, and a token is
the position of its user.
-/

namespace GameAP

open Runs Tables Leases

/-- The entries and the clock. -/
structure InMemoryLocker where
  locks : LeaseTable String ℕ Time := ∅
  now : Time := 0

/-- The errors of the locker. -/
inductive MemLockError
  | ttlNotPositive | locked | token
  deriving DecidableEq

/-- Where a user of the locker stands; `granted` is the end of the lock as its owner knows it. -/
inductive MemLock
  | acquire (key : String) (ttl : ℤ)
  | held (key : String) (granted : Time)
  | released
  | failed (err : MemLockError)
  deriving DecidableEq

namespace MemLock

/-- `!expiresAt.After(now)`. -/
def isOver (expires now : Time) : Bool := expires ≤ now

/-- An operation of user `i`; the owner of a lock refreshes it or releases it. -/
def advance (i : ℕ) (locks : LeaseTable String ℕ Time) (e : Env) (request : LockRequest) :
    MemLock → LeaseTable String ℕ Time × MemLock
  | .acquire key ttl =>
    let swept := sweep isOver locks e.now
    if ttl ≤ 0 then (locks, .failed .ttlNotPositive)
    else
      match Leases.acquire isOver swept key ⟨i, e.now + ttl.toNat⟩ e.now with
      | none => (swept, .failed .locked)
      | some new => if e.ok then (new, .held key (e.now + ttl.toNat)) else (swept, .failed .token)
  | .held key granted =>
    match request with
    | .release => (Leases.release locks key i, .released)
    | .refresh ttl =>
      if ttl ≤ 0 then (locks, .held key granted)
      else
        match refresh (fun t now => !isOver t now) locks key ⟨i, e.now + ttl.toNat⟩ e.now with
        | some new => (new, .held key (e.now + ttl.toNat))
        -- the lock is lost, and its owner is told so
        | none => (locks, .held key granted)
  | c => (locks, c)

/-- Any number of users of any keys.  The clock does not go back. -/
def program : Program InMemoryLocker MemLock (Env × LockRequest) where
  start _ c := match c with
    | .acquire _ _ => true
    | _ => false
  next i s c e :=
    let r := advance i s.locks e.1 e.2 c
    if e.1.now < s.now then none else some (⟨r.1, e.1.now⟩, r.2)

theorem over_lasting : Lasting isOver := fun _ _ _ hst h =>
  decide_eq_true ((of_decide_eq_true h).trans hst)

/-- An operation spares the locks of the others, and a lock that its user has afterwards is in the
table or was there before. -/
theorem advance_spec (i : ℕ) (locks : LeaseTable String ℕ Time) (e : Env) (request : LockRequest)
    (c : MemLock) : Spares isOver e.now i locks (advance i locks e request c).1 ∧
      ∀ key granted, (advance i locks e request c).2 = .held key granted →
        (advance i locks e request c).1.get key = some ⟨i, granted⟩ ∨
          c = .held key granted ∧ (advance i locks e request c).1 = locks := by
  have hsame := Spares.refl isOver e.now i locks
  have hsweep : Spares isOver e.now i locks (sweep isOver locks e.now) :=
    spares_sweep over_lasting le_rfl
  fun_cases advance i locks e request c with
  | case1 => exact ⟨hsame, nofun⟩
  | case2 | case4 => exact ⟨hsweep, nofun⟩
  | case3 key ttl swept _ _ new hnew =>
    refine ⟨fun k l hget hover htoken => spares_acquire over_lasting le_rfl hnew k l
      (hsweep k l hget hover htoken) hover htoken, fun _ _ h => .inl ?_⟩
    cases h
    rw [(acquire_eq_some hnew).1, Table.get_put_self]
  | case5 => exact ⟨spares_release, nofun⟩
  | case7 key granted ttl _ new hnew =>
    refine ⟨spares_refresh hnew, fun _ _ h => .inl ?_⟩
    cases h
    rw [(refresh_eq_some hnew).1, Table.get_put_self]
  | case6 | case8 | case9 => exact ⟨hsame, fun _ _ h => .inr ⟨h, rfl⟩⟩

/-- What the owner of a lock relies on. -/
def Owns (i : ℕ) (s : InMemoryLocker) (c : MemLock) : Prop :=
  ∀ key granted, c = .held key granted → Holds isOver s.now s.locks key ⟨i, granted⟩

theorem owns_step : Stable program.step (PoolInv (fun _ => True) Owns) := by
  refine (Program.inv_step (G := fun _ _ _ => True) (fun p c _ hc => ?_) ?_).stable guarded_true
  · rintro key granted rfl
    cases hc
  · intro p i e c s' c' hp _ hc hnext
    simp only [program] at hnext
    split_ifs at hnext with hnow
    cases hnext
    have hle := Nat.le_of_not_lt hnow
    obtain ⟨hspares, hheld⟩ := advance_spec i p.store.locks e.1 e.2 c
    refine ⟨trivial, fun key granted h => ?_, fun j d hj hd key granted h => ?_⟩
    · rcases hheld key granted h with hget | ⟨hbefore, hlocks⟩
      · exact .inl hget
      · rw [hlocks]
        exact (hp.call i c hc key granted hbefore).later over_lasting hle
    · exact ((hp.call j d hd key granted h).later over_lasting hle).of_spares hspares hj

/-- In every run, two locks on one key that were not released and have not expired are the same
one, and it is in the table. -/
theorem one_owner (ms : List (Move MemLock (Env × LockRequest))) {p : Pool InMemoryLocker MemLock}
    (h : run program.step (Pool.idle {}) ms = some p) {i j : ℕ} {key : String} {s t : Time}
    (hi : p.calls[i]? = some (.held key s)) (hj : p.calls[j]? = some (.held key t))
    (hs : p.store.now < s) (ht : p.store.now < t) :
    i = j ∧ p.store.locks.get key = some ⟨i, s⟩ := by
  have hp := run_inv_all _ owns_step (PoolInv.idle trivial) h
  have hown := hp.call i _ hi key s rfl
  have hover : isOver s p.store.now = false := decide_eq_false hs.not_ge
  exact ⟨hown.eq_token (hp.call j _ hj key t rfl) hover (decide_eq_false ht.not_ge), hown.get hover⟩

/-- The second user gets the lock when that of the first one has expired. -/
theorem one_owner_first : ∃ p, run program.step (Pool.idle {})
      [.spawn (.acquire "k" 10), .advance 0 (⟨0, true⟩, .release), .spawn (.acquire "k" 30),
        .advance 1 (⟨12, true⟩, .release)] = some p ∧
      p.calls[0]? = some (.held "k" 10) ∧ p.store.locks.get "k" = some ⟨1, 42⟩ :=
  ⟨_, rfl, rfl, (one_owner [.spawn (.acquire "k" 10), .advance 0 (⟨0, true⟩, .release),
    .spawn (.acquire "k" 30), .advance 1 (⟨12, true⟩, .release)] rfl (i := 1) (j := 1) rfl rfl
    (by decide) (by decide)).2⟩

end MemLock

end GameAP
