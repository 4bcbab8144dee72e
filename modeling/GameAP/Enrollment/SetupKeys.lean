import GameAP.Enrollment.Service

/-!
# The global setup key is used once

Enrollments with the global key one after another, with new keys and expired entries between them.
`Invalidate` deletes the entry of the cache or, when the environment has a key, writes an empty one
over it so that this key does not count any more.

`Generate` writes to the same entry with a deadline.  So the empty entry is gone, and once the
generated key has expired the key of the environment is valid again, used or not.
`accepted_again_iff` says that this is the only way back for a key.
-/

namespace GameAP

open Runs Tables InMemoryCache

/-- The manager and the time of the last operation. -/
structure KeyState where
  keys : SetupKeyManager
  now : Time := 0

/-- An enrollment, which validates the key and invalidates it when the node is saved, `Generate`,
the `Set` of an operator, and the cleanup of the cache. -/
inductive KeyOp
  | enroll (setupKey : String) (validated finished : Time)
  | generate (key : String) (now : Time)
  | set (key : String) (now : Time)
  | cleanup (now : Time)
  deriving DecidableEq

namespace SetupKeyManager

/-- `Validate` returns no error. -/
def accepts (m : SetupKeyManager) (now : Time) (key : String) : Bool := (m.validate now true key).isOk

/-- The effect of `Set` without options. -/
def set (m : SetupKeyManager) (now : Time) (key : String) : SetupKeyManager :=
  { m with cache := m.cache.set now cacheKey (some key) 0 }

/-- What the map holds for the key, expired or not. -/
def slot (m : SetupKeyManager) : Option (CacheItem (Option String)) := m.cache.items.get cacheKey

end SetupKeyManager

namespace KeyOp

/-- The value that the operation writes. -/
def sets : KeyOp → Option String
  | .enroll _ _ _ | .cleanup _ => none
  | .generate key _ | .set key _ => some key

/-- One operation; `none` when the clock would go back, or when the key is not accepted. -/
def step (s : KeyState) : KeyOp → Option KeyState
  | .enroll setupKey validated finished =>
    if s.now ≤ validated ∧ validated ≤ finished ∧ s.keys.accepts validated setupKey = true then
      some ⟨s.keys.invalidate finished, finished⟩
    else none
  | .generate key now => if s.now ≤ now then some ⟨s.keys.generate now key, now⟩ else none
  | .set key now => if s.now ≤ now then some ⟨s.keys.set now key, now⟩ else none
  | .cleanup now =>
    if s.now ≤ now then some ⟨{ s.keys with cache := s.keys.cache.cleanup now }, now⟩ else none

end KeyOp

namespace SetupKeyManager

variable {m : SetupKeyManager} {now : Time} {key : String}

theorem fromEnv_eq_ok : m.fromEnv = .ok key ↔ key ≠ "" ∧ key = m.envValue := by
  unfold fromEnv
  split_ifs with henv
  · constructor
    · intro h
      cases h
      exact ⟨henv, rfl⟩
    · rintro ⟨-, rfl⟩
      rfl
  · constructor
    · intro h
      cases h
    · rintro ⟨hkey, rfl⟩
      exact absurd (not_not.1 henv) hkey

theorem get_eq_ok : m.get now true = .ok key ↔
    key ≠ "" ∧ (m.cache.get now cacheKey = some (some key) ∨
      (∀ stored, m.cache.get now cacheKey ≠ some (some stored)) ∧ key = m.envValue) := by
  unfold get
  rw [if_neg (by decide)]
  rcases hget : m.cache.get now cacheKey with _ | _ | stored
  · simp [fromEnv_eq_ok]
  · simp [fromEnv_eq_ok]
  · dsimp only
    split_ifs with hst
    · subst hst
      simp [eq_comm]
    · constructor
      · intro h
        cases h
        exact ⟨hst, .inl rfl⟩
      · rintro ⟨-, h | ⟨h, -⟩⟩
        · cases h
          rfl
        · exact absurd rfl (h stored)

theorem accepts_eq_true : m.accepts now key = true ↔ m.get now true = .ok key := by
  unfold accepts validate
  cases hget : m.get now true with
  | error err => simp [Except.isOk, Except.toBool]
  | ok stored =>
    dsimp only
    split_ifs with hkey
    · simpa [Except.isOk, Except.toBool] using fun h => hkey h.symm
    · rw [not_not.1 hkey]
      exact iff_of_true rfl rfl

/-- The entry of the cache is a text that has not expired. -/
def live (m : SetupKeyManager) (now : Time) : Bool :=
  match m.cache.get now cacheKey with
  | some (some _) => true
  | some none | none => false

theorem live_eq_false : m.live now = false ↔ ∀ stored, m.cache.get now cacheKey ≠ some (some stored) := by
  unfold live
  rcases m.cache.get now cacheKey with _ | _ | stored <;> simp

/-- The entry is not the key, not even an expired one. -/
def Retired (m : SetupKeyManager) (key : String) : Prop :=
  key ≠ "" ∧ ∀ item ∈ m.slot, item.value ≠ some key

/-- The environment has a key and the entry is the empty one that `Invalidate` writes over it. -/
def Covered (m : SetupKeyManager) : Prop := m.envValue ≠ "" ∧ m.slot = some ⟨some "", 0⟩

theorem Retired.accepts_iff (h : m.Retired key) (now : Time) :
    m.accepts now key = true ↔ key = m.envValue ∧ m.live now = false := by
  rw [accepts_eq_true, get_eq_ok, live_eq_false]
  constructor
  · rintro ⟨-, hget | ⟨hnone, henv⟩⟩
    · obtain ⟨item, hitem, hvalue⟩ := exists_item_of_get hget
      exact absurd hvalue (h.2 item hitem)
    · exact ⟨henv, hnone⟩
  · rintro ⟨henv, hnone⟩
    exact ⟨h.1, .inr ⟨hnone, henv⟩⟩

theorem Covered.get_cache (h : m.Covered) (now : Time) :
    m.cache.get now cacheKey = some (some "") := by
  have hslot : m.cache.items.get cacheKey = some ⟨some "", 0⟩ := h.2
  simp [InMemoryCache.get, hslot, CacheItem.isExpired]

theorem Covered.accepts_eq_false (h : m.Covered) (now : Time) (key : String) :
    m.accepts now key = false := by
  rw [← Bool.not_eq_true, accepts_eq_true, get_eq_ok, h.get_cache now]
  rintro ⟨hkey, heq | ⟨hnone, -⟩⟩
  · cases heq
    exact hkey rfl
  · exact hnone "" rfl

theorem slot_invalidate (m : SetupKeyManager) (now : Time) :
    (m.invalidate now).slot = none ∧ m.envValue = "" ∨ (m.invalidate now).Covered := by
  unfold invalidate
  split_ifs with henv
  · exact .inr ⟨henv, Table.get_put_self _ _ _⟩
  · exact .inl ⟨items_delete_self _, not_not.1 henv⟩

theorem retired_invalidate (hkey : key ≠ "") : (m.invalidate now).Retired key := by
  refine ⟨hkey, fun item hitem => ?_⟩
  obtain ⟨hnone, -⟩ | ⟨-, hempty⟩ := m.slot_invalidate now
  · rw [hnone] at hitem
    cases hitem
  · rw [hempty] at hitem
    cases hitem
    exact fun heq => hkey (Option.some.inj heq).symm

theorem Retired.write {value : String} (h : m.Retired key) (hne : value ≠ key) (now ttl : Time) :
    Retired { m with cache := m.cache.set now cacheKey (some value) ttl } key := by
  refine ⟨h.1, fun item hitem => ?_⟩
  cases hitem
  exact fun heq => hne (Option.some.inj heq)

theorem Retired.cleanup (h : m.Retired key) (now : Time) :
    Retired { m with cache := m.cache.cleanup now } key :=
  ⟨h.1, fun item hitem => h.2 item (items_cleanup hitem)⟩

theorem Covered.cleanup (h : m.Covered) (now : Time) :
    Covered { m with cache := m.cache.cleanup now } := by
  refine ⟨h.1, (Table.get_delWhere ..).trans ?_⟩
  rw [show m.cache.items.get cacheKey = _ from h.2]
  rfl

end SetupKeyManager

/-! ### Runs of operations -/

namespace KeyOp

variable {s s' : KeyState} {op : KeyOp} {key : String}

open SetupKeyManager

theorem step_cases (h : step s op = some s') :
    (∃ k t₁ t₂, op = .enroll k t₁ t₂ ∧ s.keys.accepts t₁ k = true ∧
      s'.keys = s.keys.invalidate t₂) ∨
    (∃ k now ttl, op.sets = some k ∧
      s'.keys = { s.keys with cache := s.keys.cache.set now cacheKey (some k) ttl }) ∨
    (∃ now, op = .cleanup now ∧ s'.keys = { s.keys with cache := s.keys.cache.cleanup now }) := by
  cases op with
  | enroll k t₁ t₂ =>
    simp only [step] at h
    split_ifs at h with hguard
    cases h
    exact .inl ⟨k, t₁, t₂, rfl, hguard.2.2, rfl⟩
  | generate k now =>
    simp only [step] at h
    split_ifs at h
    cases h
    exact .inr (.inl ⟨k, now, setupKeyTTL, rfl, rfl⟩)
  | set k now =>
    simp only [step] at h
    split_ifs at h
    cases h
    exact .inr (.inl ⟨k, now, 0, rfl, rfl⟩)
  | cleanup now =>
    simp only [step] at h
    split_ifs at h
    cases h
    exact .inr (.inr ⟨now, rfl, rfl⟩)

theorem envValue_step (h : step s op = some s') : s'.keys.envValue = s.keys.envValue := by
  obtain ⟨k, t₁, t₂, rfl, -, hkeys⟩ | ⟨k, now, ttl, -, hkeys⟩ | ⟨now, rfl, hkeys⟩ := step_cases h
  · rw [hkeys, invalidate]
    split_ifs <;> rfl
  · rw [hkeys]
  · rw [hkeys]

theorem retired_step (key : String) :
    StableUnder step (fun _ op => op.sets ≠ some key) fun s => s.keys.Retired key := by
  intro s op s' hs hset h
  obtain ⟨k, t₁, t₂, rfl, -, hkeys⟩ | ⟨k, now, ttl, hk, hkeys⟩ | ⟨now, rfl, hkeys⟩ := step_cases h
  · rw [hkeys]
    exact retired_invalidate hs.1
  · rw [hkeys]
    exact hs.write (fun heq => hset (heq ▸ hk)) now ttl
  · rw [hkeys]
    exact hs.cleanup now

/-- While nothing is written over the empty entry, no key is accepted and it stays. -/
theorem covered_step : StableUnder step (fun _ op => op.sets = none) fun s => s.keys.Covered := by
  intro s op s' hs hset h
  obtain ⟨k, t₁, t₂, rfl, hacc, -⟩ | ⟨k, now, ttl, hk, -⟩ | ⟨now, rfl, hkeys⟩ := step_cases h
  · rw [hs.accepts_eq_false] at hacc
    cases hacc
  · rw [hset] at hk
    cases hk
  · rw [hkeys]
    exact hs.cleanup now

/-- A used key that is not written again is accepted just when it is the key of the environment and
no entry lives over it; another key, or any key if none was written since, is not. -/
theorem accepted_again_iff {t₁ t₂ now : Time} {ops : List KeyOp}
    (h : run step s (.enroll key t₁ t₂ :: ops) = some s') (hset : ∀ op ∈ ops, op.sets ≠ some key) :
    (s'.keys.accepts now key = true ↔ key = s.keys.envValue ∧ s'.keys.live now = false) ∧
    (key ≠ s.keys.envValue ∨ (∀ op ∈ ops, op.sets = none) → s'.keys.accepts now key = false) := by
  obtain ⟨s₁, hstep, hrun⟩ := Option.bind_eq_some_iff.1 h
  obtain ⟨hacc, hkeys⟩ : s.keys.accepts t₁ key = true ∧ s₁.keys = s.keys.invalidate t₂ := by
    simp only [step] at hstep
    split_ifs at hstep with hguard
    cases hstep
    exact ⟨hguard.2.2, rfl⟩
  have hkey : key ≠ "" := (get_eq_ok.1 (accepts_eq_true.1 hacc)).1
  have hret : s'.keys.Retired key :=
    run_inv _ (retired_step key) (hkeys ▸ retired_invalidate hkey) (along_of_forall_mem hset s₁) hrun
  have henv : s'.keys.envValue = s.keys.envValue :=
    run_inv_all (fun t => t.keys.envValue = s.keys.envValue)
      (fun _ _ _ ht hstep => (envValue_step hstep).trans ht) (envValue_step hstep) hrun
  have hacce := hret.accepts_iff now
  rw [henv] at hacce
  refine ⟨hacce, ?_⟩
  rintro (hne | hnone)
  · rw [← Bool.not_eq_true, hacce]
    exact fun hand => hne hand.1
  · obtain ⟨-, hempty⟩ | hcov := s.keys.slot_invalidate t₂
    · -- without a key of the environment there is nothing to come back
      rw [← Bool.not_eq_true, hacce]
      exact fun hand => hkey (hand.1.trans hempty)
    · have hstill : s'.keys.Covered :=
        run_inv _ covered_step (hkeys ▸ hcov) (along_of_forall_mem hnone s₁) hrun
      exact hstill.accepts_eq_false now key

def envState : KeyState := ⟨{ envValue := "env" }, 0⟩

theorem accepted_again_covered :
    ∃ s', run step envState [.enroll "env" 1 2, .generate "new" 3, .enroll "new" 4 5] = some s' ∧
      (s'.keys.accepts 6 "env" = true ↔ "env" = "env" ∧ s'.keys.live 6 = false) := by
  have hrun : (run step envState [.enroll "env" 1 2, .generate "new" 3,
    .enroll "new" 4 5]).isSome = true := by decide
  obtain ⟨s', hs'⟩ := Option.isSome_iff_exists.1 hrun
  exact ⟨s', hs', (accepted_again_iff hs' (by decide)).1⟩

/-- The used key of the environment is accepted again once a generated key has expired. -/
theorem env_key_comes_back : (run step envState [.enroll "env" 1 2, .generate "new" 3]).map
      (fun s => s.keys.accepts 3600000000004 "env") = some true := by decide

end KeyOp

end GameAP
