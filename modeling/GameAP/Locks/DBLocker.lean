import GameAP.Domain
import GameAP.Lib.Leases
import GameAP.Lib.Runs

/-!
# Locks in the database

`DBLocker` keeps the locks that panel instances share as rows of the table `kv_store`.  To take a
lock is one statement, or two on MySQL, which steals the row of an expired lock or inserts one.
Every statement compares with an instant that was read before, and expired rows are swept in
between.

The column of MySQL keeps the end of a lock rounded to the second, while the statements compare with
all of an instant, so that a lock may be taken away before its time (`stolen_early`).

`one_holder`: however the statements interleave, at no instant two users have a lock on one key, if
the ends of both are kept (`KeptEnd`), and a release or a refresh never touches the row of another
user.  The rows are leases in the sense of `Lib/Leases`; a token is the position of its user.
-/

namespace GameAP

open Runs Tables Leases

inductive DBDialect
  | sqlite
  | mysql
  | postgres
  deriving DecidableEq

/-- The instant in microseconds; the digits after them are cut. -/
def Time.micros (t : Time) : ℕ := t / 1000

namespace DBDialect

variable (d : DBDialect)

/-- `timeArg`, as a statement compares with it: milliseconds, or what a type for instants has. -/
def timeArg (t : Time) : ℤ :=
  match d with
  | .sqlite => t.unixMilli
  | .mysql | .postgres => t.micros

/-- `timeArg`, as the column keeps it: a `TIMESTAMP` of MySQL has whole seconds, to which it
rounds. -/
def expiresAt (t : Time) : ℤ :=
  match d with
  | .sqlite => t.unixMilli
  | .mysql => (t.micros + 500000) / 1000000 * 1000000
  | .postgres => t.micros

/-- `expires_at < ?`. -/
def isOver (expires : ℤ) (now : Time) : Bool := decide (expires < d.timeArg now)

/-- `expires_at > ?`. -/
def live (expires : ℤ) (now : Time) : Bool := decide (d.timeArg now < expires)

/-- The column does not put the end of a lock before its time: on MySQL it has no fraction of a
second, or one of at least one half. -/
def KeptEnd (granted : Time) : Prop :=
  d = .mysql → granted.micros % 1000000 = 0 ∨ 500000 ≤ granted.micros % 1000000

instance (granted : Time) : Decidable (d.KeptEnd granted) := inferInstanceAs (Decidable (_ → _))

end DBDialect

/-! ### The users of a lock -/

/-- The rows of the locks by their full keys, and the clock. -/
structure DBLockStore where
  rows : LeaseTable String ℕ ℤ := ∅
  now : Time := 0

/-- What the owner of a lock does next. -/
inductive LockRequest
  | refresh (ttl : ℤ)
  | release
  deriving DecidableEq

/-- The environment of a step: whether the process dies before it, whether it is time for a sweep,
and what the owner of a lock wants. -/
structure DBLockEnv extends Env where
  crash : Bool := false
  sweep : Bool := false
  request : LockRequest := .release
  deriving DecidableEq

/-- The errors of the locker. -/
inductive DBLockError
  | ttlNotPositive
  | locked
  | database
  deriving DecidableEq

/-- Where a user of the locker stands; each constructor is before a reading of the clock, before a
statement, or at rest.  `granted` is the end of the lock as its owner knows it. -/
inductive DBLockCall
  | acquire (key : String) (ttl : ℤ)
  | cleanup (key : String) (now expires : Time)
  | upsert (key : String) (now expires : Time)
  | steal (key : String) (now expires : Time)
  | insert (key : String) (expires : Time)
  | held (key : String) (granted : Time)
  | refresh (key : String) (granted expires : Time)
  | refreshRow (key : String) (granted expires now : Time)
  | release (key : String) (granted : Time)
  | released (key : String)
  | failed (err : DBLockError)
  | sweeper
  | sweepRows (now : Time)
  | swept
  | crashed
  deriving DecidableEq

/-- `dbLockKeyPrefix` and the key. -/
def lockKey (key : String) : String := "lock:" ++ key

namespace DBLockCall

/-- The user makes no more steps. -/
def finished : DBLockCall → Bool
  | .released _ | .failed _ | .swept | .crashed => true
  | _ => false

/-- The owner has a lock on the key until this instant, as far as it knows. -/
def holds : DBLockCall → Option (String × Time)
  | .held key granted | .refresh key granted _ | .refreshRow key granted _ _
  | .release key granted => some (key, granted)
  | _ => none

/-- The instant that the next statement compares with. -/
def sample : DBLockCall → Option Time
  | .cleanup _ now _ | .upsert _ now _ | .steal _ now _ | .refreshRow _ _ _ now | .sweepRows now =>
    some now
  | _ => none

/-- The next statement refreshes or releases the lock of its owner. -/
def gives : DBLockCall → Bool
  | .refreshRow _ _ _ _ | .release _ _ => true
  | _ => false

variable (d : DBDialect)

/-- A step of user `i`: what it does to the rows, and where it leads. -/
def advance (i : ℕ) (rows : LeaseTable String ℕ ℤ) (e : DBLockEnv) :
    DBLockCall → LeaseTable String ℕ ℤ × DBLockCall
  | .acquire key ttl =>
    if ttl ≤ 0 then (rows, .failed .ttlNotPositive)
    else (rows, .cleanup (lockKey key) e.now (e.now + ttl.toNat))
  | .cleanup key now expires =>
    -- an error of the sweep is only logged
    (if e.sweep && e.ok then Leases.sweep (d.isOver) rows now else rows,
      if d = .mysql then .steal key now expires else .upsert key now expires)
  | .upsert key now expires =>
    if !e.ok then (rows, .failed .database)
    else
      match Leases.acquire (d.isOver) rows key ⟨i, d.expiresAt expires⟩ now with
      | some rows' => (rows', .held key expires)
      | none => (rows, .failed .locked)
  | .steal key now expires =>
    if !e.ok then (rows, .failed .database)
    else
      match Leases.steal (d.isOver) rows key ⟨i, d.expiresAt expires⟩ now with
      | some rows' => (rows', .held key expires)
      | none => (rows, .insert key expires)
  | .insert key expires =>
    if !e.ok then (rows, .failed .database)
    else
      match Leases.insert rows key ⟨i, d.expiresAt expires⟩ with
      | some rows' => (rows', .held key expires)
      | none => (rows, .failed .locked)
  | .held key granted =>
    match e.request with
    | .release => (rows, .release key granted)
    | .refresh ttl =>
      if ttl ≤ 0 then (rows, .held key granted)
      else (rows, .refresh key granted (e.now + ttl.toNat))
  | .refresh key granted expires => (rows, .refreshRow key granted expires e.now)
  | .refreshRow key granted expires now =>
    if !e.ok then (rows, .held key granted)
    else
      match Leases.refresh (d.live) rows key ⟨i, d.expiresAt expires⟩ now with
      | some rows' => (rows', .held key expires)
      -- the lock is lost, and its owner is told so
      | none => (rows, .held key granted)
  | .release key granted =>
    if !e.ok then (rows, .held key granted)
    else (Leases.release rows key i, .released key)
  | .sweeper => (rows, .sweepRows e.now)
  | .sweepRows now => (if e.ok then Leases.sweep (d.isOver) rows now else rows, .swept)
  | .released key => (rows, .released key)
  | .failed err => (rows, .failed err)
  | .swept => (rows, .swept)
  | .crashed => (rows, .crashed)

/-- One step of user `i`.  The clock does not go back. -/
def next (i : ℕ) (s : DBLockStore) (e : DBLockEnv) (c : DBLockCall) :
    Option (DBLockStore × DBLockCall) :=
  if c.finished || decide (e.now < s.now) then none
  else if e.crash then some ({ s with now := e.now }, .crashed)
  else some (⟨(advance d i s.rows e c).1, e.now⟩, (advance d i s.rows e c).2)

/-- Any number of users of any keys, and of sweeps by others. -/
def program : Program DBLockStore DBLockCall DBLockEnv where
  start _ c := match c with
    | .acquire _ _ | .sweeper => true
    | _ => false
  next i s c e := next d i s e c

end DBLockCall

/-! ### What a statement can do -/

theorem Time.unixMilli_mono {s t : Time} (h : s ≤ t) : s.unixMilli ≤ t.unixMilli :=
  Int.ediv_le_ediv (by decide) (Int.sub_le_sub_right (Int.ofNat_le.2 h) unixEpoch)

namespace DBDialect

variable (d : DBDialect)

theorem timeArg_mono {s t : Time} (h : s ≤ t) : d.timeArg s ≤ d.timeArg t := by
  cases d with
  | sqlite => exact Time.unixMilli_mono h
  | mysql | postgres => exact Int.ofNat_le.2 (Nat.div_le_div_right h)

theorem over_lasting : Lasting (d.isOver) := by
  intro expires s t hst hover
  have hlt : expires < d.timeArg s := of_decide_eq_true hover
  exact decide_eq_true (lt_of_lt_of_le hlt (d.timeArg_mono hst))

/-- A lock whose end is kept is not over before its time. -/
theorem isOver_of_le {granted now : Time} (hkept : d.KeptEnd granted) (h : now ≤ granted) :
    d.isOver (d.expiresAt granted) now = false := by
  refine decide_eq_false (Int.not_lt.2 ((d.timeArg_mono h).trans ?_))
  cases d with
  | sqlite | postgres => exact Int.le_refl _
  | mysql =>
    have hfraction := hkept rfl
    simp only [timeArg, expiresAt]
    omega

end DBDialect

namespace DBLockCall

variable {d : DBDialect} {i : ℕ} {s s' : DBLockStore} {e : DBLockEnv}
  {c c' : DBLockCall} {rows : LeaseTable String ℕ ℤ}

theorem next_eq_some (h : next d i s e c = some (s', c')) : s.now ≤ e.now ∧ s'.now = e.now ∧
    ((s'.rows = s.rows ∧ c' = .crashed) ∨
      (s'.rows = (advance d i s.rows e c).1 ∧ c' = (advance d i s.rows e c).2)) := by
  unfold next at h
  split_ifs at h with hstop hcrash
  all_goals
    rw [Bool.or_eq_true, not_or, decide_eq_true_eq, Nat.not_lt] at hstop
    cases h
  · exact ⟨hstop.2, rfl, .inl ⟨rfl, rfl⟩⟩
  · exact ⟨hstop.2, rfl, .inr ⟨rfl, rfl⟩⟩

/-- What is known of user `i`: the instant it compares with has passed, and what it holds is its
lease or is over. -/
structure Owns (d : DBDialect) (i : ℕ) (s : DBLockStore) (c : DBLockCall) :
    Prop where
  sample : ∀ now ∈ c.sample, now ≤ s.now
  holds : ∀ key granted, c.holds = some (key, granted) →
    Holds (d.isOver) s.now s.rows key ⟨i, d.expiresAt granted⟩

/-- What a step of user `i` does to the rows, and where it leads: it gives the user no lock that it
did not have, unless it writes the row of the lock. -/
inductive Effect (d : DBDialect) (i : ℕ) (rows : LeaseTable String ℕ ℤ)
    (e : DBLockEnv) (c : DBLockCall) : LeaseTable String ℕ ℤ → DBLockCall → Prop
  | keeps {c' : DBLockCall} (hsample : ∀ now ∈ c'.sample, now ∈ c.sample ∨ now = e.now)
    (hholds : ∀ x, c'.holds = some x → c.holds = some x) : Effect d i rows e c rows c'
  | sweeps {c' : DBLockCall} {now : Time} (hnow : now ∈ c.sample)
    (hsample : ∀ now ∈ c'.sample, now ∈ c.sample) (hholds : c'.holds = none) :
    Effect d i rows e c (Leases.sweep (d.isOver) rows now) c'
  | takes {key : String} {expires : Time} (hfree : ∀ l, rows.get key = some l →
      l.token = i ∨ ∃ now ∈ c.sample, d.isOver l.expires now = true) :
    Effect d i rows e c (rows.put key ⟨i, d.expiresAt expires⟩) (.held key expires)
  | releases {key : String} : Effect d i rows e c (Leases.release rows key i) (.released key)

theorem advance_effect (c : DBLockCall) : Effect d i rows e c (advance d i rows e c).1
    (advance d i rows e c).2 := by
  cases c with
  | acquire key ttl =>
    simp only [advance]
    split_ifs
    · exact .keeps nofun nofun
    · exact .keeps (fun now hnow => .inr (Option.some.inj hnow).symm) nofun
  | cleanup key now expires =>
    simp only [advance]
    split_ifs
    · exact .sweeps rfl (fun _ h => h) rfl
    · exact .sweeps rfl (fun _ h => h) rfl
    all_goals exact .keeps (fun _ h => .inl h) nofun
  | upsert key now expires =>
    simp only [advance]
    split_ifs
    · exact .keeps nofun nofun
    · split
      · next rows' h =>
        obtain ⟨rfl, hover⟩ := acquire_eq_some h
        exact .takes fun l hl => .inr ⟨now, rfl, hover l hl⟩
      · exact .keeps nofun nofun
  | steal key now expires =>
    simp only [advance]
    split_ifs
    · exact .keeps nofun nofun
    · split
      · next rows' h =>
        obtain ⟨rfl, hover⟩ := acquire_eq_some (acquire_of_steal h)
        exact .takes fun l hl => .inr ⟨now, rfl, hover l hl⟩
      · exact .keeps nofun nofun
  | insert key expires =>
    simp only [advance]
    split_ifs
    · exact .keeps nofun nofun
    · split
      · next rows' h =>
        obtain ⟨rfl, hnone⟩ := insert_eq_some h
        exact .takes fun l hl => (by rw [hnone] at hl; cases hl)
      · exact .keeps nofun nofun
  | refreshRow key granted expires now =>
    simp only [advance]
    split_ifs
    · exact .keeps nofun fun _ h => h
    · split
      · next rows' h =>
        obtain ⟨rfl, l, hget, htoken, -⟩ := refresh_eq_some h
        exact .takes fun l' hl' => .inl (Option.some.inj (hget.symm.trans hl') ▸ htoken)
      · exact .keeps nofun fun _ h => h
  | held key granted =>
    simp only [advance]
    split
    · exact .keeps nofun fun _ h => h
    · split_ifs <;> exact .keeps nofun fun _ h => h
  | release key granted =>
    simp only [advance]
    split_ifs
    · exact .keeps nofun fun _ h => h
    · exact .releases
  | sweepRows now =>
    simp only [advance]
    split_ifs
    · exact .sweeps rfl nofun rfl
    · exact .keeps nofun nofun
  | refresh | sweeper => exact .keeps (fun now hnow => .inr (Option.some.inj hnow).symm) fun _ h => h
  | released | failed | swept | crashed => exact .keeps nofun nofun

section

variable {rows' : LeaseTable String ℕ ℤ} {now : Time} (h : Effect d i rows e c rows' c')
include h

theorem Effect.spares (hsample : ∀ t ∈ c.sample, t ≤ now) :
    Spares (d.isOver) now i rows rows' := by
  have hover := d.over_lasting
  cases h with
  | keeps => exact Spares.refl _ _ _ _
  | sweeps ht => exact spares_sweep hover (hsample _ ht)
  | takes hfree =>
    refine spares_put fun l hl => (hfree l hl).symm.imp_left ?_
    rintro ⟨t, ht, hl⟩
    exact hover _ _ _ (hsample t ht) hl
  | releases => exact spares_release

theorem Effect.sample (hsample : ∀ t ∈ c.sample, t ≤ e.now) : ∀ t ∈ c'.sample, t ≤ e.now := by
  intro t ht
  cases h with
  | keeps hkeeps => exact (hkeeps t ht).elim (hsample t) le_of_eq
  | sweeps _ hkeeps => exact hsample t (hkeeps t ht)
  | takes | releases => cases ht

theorem Effect.holds (hheld : ∀ key granted, c.holds = some (key, granted) →
      Holds (d.isOver) now rows key ⟨i, d.expiresAt granted⟩) :
    ∀ key granted, c'.holds = some (key, granted) →
      Holds (d.isOver) now rows' key ⟨i, d.expiresAt granted⟩ := by
  intro key granted hheld'
  cases h with
  | keeps _ hkeeps => exact hheld key granted (hkeeps _ hheld')
  | sweeps _ _ hnone =>
    rw [hnone] at hheld'
    cases hheld'
  | takes =>
    cases hheld'
    exact .inl (Table.get_put_self _ _ _)
  | releases => cases hheld'

end

/-! ### Exclusion -/

theorem owns_step : Stable (program d).step (PoolInv (fun _ => True) (Owns d)) := by
  refine (Program.inv_step ?_ ?_).stable guarded_true
  · intro p c _ hstart
    have hidle : c.sample = none ∧ c.holds = none := by
      cases c with
      | acquire | sweeper => exact ⟨rfl, rfl⟩
      | _ => cases hstart
    refine ⟨fun now hnow => ?_, fun key granted hheld => ?_⟩
    · rw [hidle.1] at hnow
      cases hnow
    · rw [hidle.2] at hheld
      cases hheld
  · intro p i e c s' c' hp _ hc hnext
    obtain ⟨hle, hnow, hrows⟩ := next_eq_some hnext
    have hi := hp.call i c hc
    have hsample : ∀ now ∈ c.sample, now ≤ e.now := fun now h => le_trans (hi.sample now h) hle
    refine ⟨trivial, ?_, fun j c₂ hj hc₂ => ?_⟩
    · rcases hrows with ⟨hrows, rfl⟩ | ⟨hrows, rfl⟩
      · exact ⟨fun now hnow => (by cases hnow), fun key granted hheld => (by cases hheld)⟩
      · refine ⟨?_, ?_⟩
        · rw [hnow]
          exact (advance_effect c).sample hsample
        · rw [hnow, hrows]
          exact (advance_effect c).holds fun key granted hheld =>
            (hi.holds key granted hheld).later (d.over_lasting) hle
    have hj' := hp.call j c₂ hc₂
    have hspares : Spares (d.isOver) s'.now i p.store.rows s'.rows := by
      rcases hrows with ⟨hrows, -⟩ | ⟨hrows, -⟩
      · rw [hrows]
        exact Spares.refl _ _ _ _
      · rw [hrows, hnow]
        exact (advance_effect c).spares hsample
    refine ⟨fun now h => ?_, fun key granted hheld => ?_⟩
    · rw [hnow]
      exact le_trans (hj'.sample now h) hle
    · refine Holds.of_spares ?_ hspares hj
      rw [hnow]
      exact (hj'.holds key granted hheld).later (d.over_lasting) hle

theorem gives_spares (hgives : c.gives = true) (h : next d i s e c = some (s', c')) {key : String}
    {l : Lease ℕ ℤ} (hrow : s.rows.get key = some l) (htoken : l.token ≠ i) :
    s'.rows.get key = some l := by
  obtain ⟨-, -, ⟨hrows, -⟩ | ⟨hrows, -⟩⟩ := next_eq_some h
  · rwa [hrows]
  · rw [hrows]
    cases c with
    | refreshRow key' granted expires now =>
      simp only [advance]
      split_ifs
      · exact hrow
      · split
        · next rows' hrefr =>
          obtain ⟨rfl, l', hget, heq, -⟩ := refresh_eq_some hrefr
          have hne : key ≠ key' := by
            rintro rfl
            rw [hrow] at hget
            cases hget
            exact htoken heq
          rw [Table.get_put_ne _ hne]
          exact hrow
        · exact hrow
    | release key' granted =>
      simp only [advance]
      split_ifs
      · exact hrow
      · exact get_release _ key' i hrow htoken
    | _ => cases hgives

/-- **One holder**: in every run of any number of users, two locks on one key that have been
granted, whose time has not passed and that are not released belong to the same user, at every
instant until the next step, if their ends are kept.  A release or a refresh changes no row of
another user. -/
theorem one_holder (d : DBDialect) (ms : List (Move DBLockCall DBLockEnv))
    {p : Pool DBLockStore DBLockCall} (hrun : run (program d).step (Pool.idle {}) ms = some p) :
    (∀ (i j : ℕ) (c₁ c₂ : DBLockCall) (key : String) (granted₁ granted₂ now : Time),
      p.calls[i]? = some c₁ → p.calls[j]? = some c₂ → c₁.holds = some (key, granted₁) →
      c₂.holds = some (key, granted₂) → p.store.now ≤ now → now ≤ granted₁ → now ≤ granted₂ →
      d.KeptEnd granted₁ → d.KeptEnd granted₂ → i = j) ∧
    ∀ (i : ℕ) (e : DBLockEnv) (p' : Pool DBLockStore DBLockCall) (c : DBLockCall) (key : String)
      (l : Lease ℕ ℤ), p.calls[i]? = some c → c.gives = true →
      (program d).step p (.advance i e) = some p' → p.store.rows.get key = some l →
      l.token ≠ i → p'.store.rows.get key = some l := by
  have hp : PoolInv (fun _ => True) (Owns d) p :=
    run_inv_all (PoolInv (fun _ => True) (Owns d)) owns_step (PoolInv.idle trivial) hrun
  constructor
  · intro i j c₁ c₂ key granted₁ granted₂ now hi hj h₁ h₂ hnow hle₁ hle₂ hkept₁ hkept₂
    have hlater := d.over_lasting
    exact ((hp.call i c₁ hi).holds key granted₁ h₁ |>.later hlater hnow).eq_token
      ((hp.call j c₂ hj).holds key granted₂ h₂ |>.later hlater hnow)
      (d.isOver_of_le hkept₁ hle₁) (d.isOver_of_le hkept₂ hle₂)
  · intro i e p' c key l hc hgives hstep hrow htoken
    obtain ⟨c₁, s', c', hc₁, hnext, rfl⟩ := Program.step_advance hstep
    rw [hc] at hc₁
    cases hc₁
    exact gives_spares hgives hnext hrow htoken

/-- On MySQL, user 0 takes a lock until the end of a second, and user 1 takes it over after that,
while user 0 is about to release it. -/
def takeOver : List (Move DBLockCall DBLockEnv) :=
  [.spawn (.acquire "acme" 1000000000), .advance 0 { now := 1000000000 },
    .advance 0 { now := 1000000000 }, .advance 0 { now := 1200000000 },
    .advance 0 { now := 1200000000 }, .spawn (.acquire "acme" 900000000),
    .advance 0 { now := 1900000000 }, .advance 1 { now := 2100000000 },
    .advance 1 { now := 2100000000 }, .advance 1 { now := 2200000000 }]

theorem one_holder_takeOver : ∃ p : Pool DBLockStore DBLockCall,
    run (program .mysql).step (Pool.idle {}) takeOver = some p ∧
    (∀ (i : ℕ) (c : DBLockCall) (granted : Time), p.calls[i]? = some c →
      c.holds = some ("lock:acme", granted) → 2200000000 ≤ granted →
      DBDialect.mysql.KeptEnd granted → i = 1) ∧
    ∀ p', (program .mysql).step p (.advance 0 { now := 2300000000 }) = some p' →
      p'.store.rows.get "lock:acme" = some ⟨1, 3000000⟩ := by
  refine ⟨_, rfl, fun i c granted hc hheld hle hkept => ?_, fun p' hstep => ?_⟩
  · exact (one_holder .mysql takeOver rfl).1 i 1 c _ "lock:acme" granted 3000000000 2200000000 hc rfl
      hheld rfl (by decide) hle (by decide) hkept (by decide)
  · exact (one_holder .mysql takeOver rfl).2 0 { now := 2300000000 } p' _ "lock:acme" ⟨1, 3000000⟩ rfl
      rfl hstep rfl (by decide)

/-- On MySQL, user 0 takes a lock from 1.4 to 2.4 seconds, which is kept until 2 seconds, and user 1
takes it at 2.2 seconds. -/
def earlySteal : List (Move DBLockCall DBLockEnv) :=
  [.spawn (.acquire "acme" 1000000000), .advance 0 { now := 1400000000 },
    .advance 0 { now := 1400000000 }, .advance 0 { now := 1400000000 },
    .advance 0 { now := 1400000000 }, .spawn (.acquire "acme" 1000000000),
    .advance 1 { now := 2200000000 }, .advance 1 { now := 2200000000 },
    .advance 1 { now := 2200000000 }]

/-- Two users have the lock although neither time has passed. -/
theorem stolen_early : ∃ p : Pool DBLockStore DBLockCall,
    run (program .mysql).step (Pool.idle {}) earlySteal = some p ∧ p.store.now = 2200000000 ∧
    p.calls.map holds = [some ("lock:acme", 2400000000), some ("lock:acme", 3200000000)] :=
  ⟨_, rfl, rfl, rfl⟩

end DBLockCall

end GameAP
