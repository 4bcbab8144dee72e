import GameAP.Auth.Session
import GameAP.Cache.InMemory
import GameAP.Lib.Sections

/-!
# Single-use tokens

A short-lived token is consumed by `processShortLivedToken` in two operations of the cache, `Get`
and `Delete`.  Two requests that both read the entry before one of them deletes it both obtain a
session (`two_sessions_of_one_token`).  `NotBetween` is the condition under which a token is used
once: no request reads the entry of a token while another one stands between the two operations on
it (`short_lived_once`).

The hash of a secret and the JSON of a payload are parameters; a cached value is of any type.
-/

namespace GameAP

open Runs Tables

structure ShortLivedPayload where
  userID : ℕ
  login : String := ""
  email : String := ""
  patID : ℕ := 0
  abilities : List String := []
  deriving DecidableEq

/-- The cache and the users. -/
structure AuthStore (ρ : Type) where
  cache : InMemoryCache ρ := {}
  users : Table ℕ User := ∅

variable {ρ : Type}

/-! ### Short-lived tokens -/

def shortLivedCacheKey (sha256 : String → String) (token : String) : String :=
  "auth:shorttoken:" ++ sha256 (trimTokenPrefix token "glst_")

/-- Where a request stands in `processShortLivedToken`; `cleanup` is the goroutine of the cache that
removes expired items. -/
inductive ShortLivedCall (ρ : Type)
  | get (token : String)
  | delete (token : String) (raw : ρ)
  | findUser (token : String) (payload : ShortLivedPayload)
  | done (token : String) (result : Except AuthError AuthSession)
  | cleanup

/-- The session that a payload stands for. -/
def ShortLivedPayload.session (payload : ShortLivedPayload) (user : User) : AuthSession where
  user
  token :=
    if payload.patID ≠ 0 then some { id := payload.patID, abilities := some payload.abilities }
    else none
  shortLived := true

namespace ShortLivedCall

section

variable (sha256 : String → String) (unmarshal : ρ → Option ShortLivedPayload)

def next (s : AuthStore ρ) (e : Env) : ShortLivedCall ρ → Option (AuthStore ρ × ShortLivedCall ρ)
  | .get token =>
    match s.cache.get e.now (shortLivedCacheKey sha256 token) with
    | none => some (s, .done token (.error .invalidShortToken))
    | some raw => some (s, .delete token raw)
  | .delete token raw =>
    let s' := { s with cache := s.cache.delete (shortLivedCacheKey sha256 token) }
    match unmarshal raw with
    | none => some (s', .done token (.error .invalidShortToken))
    | some payload => some (s', .findUser token payload)
  | .findUser token payload =>
    if !e.ok then
      some (s, .done token (.error (.internal "failed to load user for short-lived token")))
    else
      match s.users.get payload.userID with
      | none => some (s, .done token (.error .userNotFound))
      | some user => some (s, .done token (.ok (payload.session user)))
  | .done _ _ => none
  | .cleanup => some ({ s with cache := s.cache.cleanup e.now }, .cleanup)

def program : Program (AuthStore ρ) (ShortLivedCall ρ) Env where
  start _ c := match c with
    | .get _ | .cleanup => true
    | _ => false
  next _ s c e := next sha256 unmarshal s e c

/-- The entry that the request has read and not deleted yet. -/
def between : ShortLivedCall ρ → Option String
  | .delete token _ => some (shortLivedCacheKey sha256 token)
  | _ => none

/-- The entry that the request has read and that its session, if it gets one, comes from. -/
def taken : ShortLivedCall ρ → Option String
  | .delete token _ | .findUser token _ | .done token (.ok _) =>
    some (shortLivedCacheKey sha256 token)
  | .get _ | .done _ (.error _) | .cleanup => none

/-- The condition on a step: no request reads the entry `k` while another one is about to delete
it. -/
def NotBetween (k : String) (p : Pool (AuthStore ρ) (ShortLivedCall ρ)) :
    ShortLivedCall ρ → Env → Prop
  | .get token, _ => shortLivedCacheKey sha256 token = k →
      ∀ d ∈ p.calls, between sha256 d ≠ some k
  | _, _ => True

instance (k : String) (p : Pool (AuthStore ρ) (ShortLivedCall ρ)) :
    (c : ShortLivedCall ρ) → (e : Env) → Decidable (NotBetween sha256 k p c e)
  | .get token, _ => inferInstanceAs (Decidable (shortLivedCacheKey sha256 token = k →
      ∀ d ∈ p.calls, between sha256 d ≠ some k))
  | .delete _ _, _ | .findUser _ _, _ | .done _ _, _ | .cleanup, _ => .isTrue trivial

/-- An entry that was taken and deleted is gone. -/
def Gone (k : String) (s : AuthStore ρ) (c : ShortLivedCall ρ) : Prop :=
  between sha256 c = none → s.cache.items.get k = none

end

variable {sha256 : String → String} {unmarshal : ρ → Option ShortLivedPayload} {e : Env}
  {k : String}

section

variable {s s' : AuthStore ρ} {c c' : ShortLivedCall ρ}
  (hn : next sha256 unmarshal s e c = some (s', c'))
include hn

theorem items_next (hk : s.cache.items.get k = none) : s'.cache.items.get k = none := by
  unfold next at hn
  cases c with
  | get token =>
    simp only at hn
    split at hn <;> cases hn <;> exact hk
  | delete token raw =>
    simp only at hn
    split at hn <;> cases hn <;> exact InMemoryCache.items_delete_none hk
  | findUser token payload =>
    simp only at hn
    split_ifs at hn
    · cases hn
      exact hk
    · split at hn <;> cases hn <;> exact hk
  | done token result => cases hn
  | cleanup =>
    cases hn
    unfold InMemoryCache.cleanup
    rw [Table.get_delWhere, hk, ite_self]

theorem get_of_taken (hc : taken sha256 c ≠ some k) (hc' : taken sha256 c' = some k) :
    ∃ token raw, c = .get token ∧ k = shortLivedCacheKey sha256 token ∧
      s.cache.get e.now k = some raw ∧ c' = .delete token raw := by
  unfold next at hn
  cases c with
  | get token =>
    simp only at hn
    split at hn
    · cases hn
      cases hc'
    · next raw hraw =>
      cases hn
      obtain rfl : shortLivedCacheKey sha256 token = k := Option.some.inj hc'
      exact ⟨token, raw, rfl, rfl, hraw, rfl⟩
  | delete token raw =>
    simp only at hn
    split at hn <;> cases hn
    · cases hc'
    · exact absurd hc' hc
  | findUser token payload =>
    simp only at hn
    split_ifs at hn
    · cases hn
      cases hc'
    · split at hn <;> cases hn
      · cases hc'
      · exact absurd hc' hc
  | done token result => cases hn
  | cleanup =>
    cases hn
    cases hc'

theorem gone_of_next (hc : taken sha256 c = some k)
    (hgone : Gone sha256 k s c) : Gone sha256 k s' c' := by
  intro hb
  cases c with
  | get | cleanup => cases hc
  | delete token raw =>
    obtain rfl : shortLivedCacheKey sha256 token = k := Option.some.inj hc
    unfold next at hn
    simp only at hn
    split at hn <;> cases hn <;> exact InMemoryCache.items_delete_self _
  | findUser token payload => exact items_next hn (hgone rfl)
  | done token result => cases hn

end

/-- The section of a token: from the `Get` that reads its entry to the session. -/
abbrev OneTaker (sha256 : String → String) (k : String) :
    Pool (AuthStore ρ) (ShortLivedCall ρ) → Prop :=
  SectionInv (fun c => taken sha256 c = some k) (fun _ => True) (Gone sha256 k)

theorem oneTaker_step : StableUnder (program sha256 unmarshal).step (Guarded (NotBetween sha256 k))
    (OneTaker sha256 k) := by
  refine Program.sectionInv_step ?_ ?_ ?_ ?_
  · intro s c hstart htaken
    cases c with
    | get | cleanup => cases htaken
    | _ => cases hstart
  · intro p i e c s' c' hp hG hc hn hck hck'
    obtain ⟨token, raw, rfl, rfl, hget, rfl⟩ := get_of_taken hn hck hck'
    refine ⟨fun d hd hdk => ?_, fun _ hb => absurd hb nofun⟩
    -- the other request is before its `Delete`, against the condition, or the entry is gone
    by_cases hb : between sha256 d = none
    · obtain ⟨j, hj⟩ := List.mem_iff_getElem?.1 hd
      obtain ⟨item, hitem, -⟩ := InMemoryCache.exists_item_of_get hget
      rw [hp.held j d hj hdk hb] at hitem
      cases hitem
    · refine hG rfl d hd ?_
      cases d with
      | delete => exact hdk
      | _ => exact absurd rfl hb
  · intro p i e c s' c' _ hn hck hgone
    exact ⟨fun _ => gone_of_next hn hck hgone, fun _ => trivial⟩
  · intro i e s c s' c' hn _ _
    exact ⟨fun _ => trivial, fun d hgone hb => items_next hn (hgone hb)⟩

/-- **Short-lived tokens**: at most one request obtains a session from the token. -/
theorem short_lived_once (sha256 : String → String) (unmarshal : ρ → Option ShortLivedPayload)
    (token : String) (s : AuthStore ρ) (moves : List (Move (ShortLivedCall ρ) Env))
    (p : Pool (AuthStore ρ) (ShortLivedCall ρ))
    (hG : Along (program sha256 unmarshal).step
      (Guarded (NotBetween sha256 (shortLivedCacheKey sha256 token))) (Pool.idle s) moves)
    (hrun : run (program sha256 unmarshal).step (Pool.idle s) moves = some p)
    (i j : ℕ) (session session' : AuthSession)
    (hi : p.calls[i]? = some (.done token (.ok session)))
    (hj : p.calls[j]? = some (.done token (.ok session'))) : i = j := by
  have hinv : OneTaker sha256 (shortLivedCacheKey sha256 token) p :=
    run_inv _ oneTaker_step (SectionInv.idle trivial) hG hrun
  exact hinv.exclusive i j _ _ hi hj rfl rfl

def issued : AuthStore ShortLivedPayload where
  cache := ({} : InMemoryCache ShortLivedPayload).set 0 (shortLivedCacheKey id "glst_s")
    { userID := 1 } 0
  users := (∅ : Table ℕ User).put 1 { id := 1 }

def oneAfterTheOther : List (Move (ShortLivedCall ShortLivedPayload) Env) :=
  [.spawn (.get "glst_s"), .spawn (.get "glst_s"), .advance 0 { now := 1 }, .advance 0 { now := 1 },
    .advance 0 { now := 1 }, .advance 1 { now := 1 }]

theorem short_lived_once_then_rejected :
    ∃ p session, run (program id some).step (Pool.idle issued) oneAfterTheOther = some p ∧
      p.calls[0]? = some (.done "glst_s" (.ok session)) ∧
      p.calls[1]? = some (.done "glst_s" (.error .invalidShortToken)) ∧
      ∀ (j : ℕ) session', p.calls[j]? = some (.done "glst_s" (.ok session')) → j = 0 :=
  ⟨_, _, rfl, rfl, rfl, fun j session' hj =>
    short_lived_once id some "glst_s" issued oneAfterTheOther _ (by decide) rfl j 0 session' _ hj
      rfl⟩

def bothRead : List (Move (ShortLivedCall ShortLivedPayload) Env) :=
  [.spawn (.get "glst_s"), .spawn (.get "glst_s"), .advance 0 { now := 1 }, .advance 1 { now := 1 },
    .advance 0 { now := 1 }, .advance 1 { now := 1 }, .advance 0 { now := 1 },
    .advance 1 { now := 1 }]

theorem two_sessions_of_one_token :
    ∃ p session session', run (program id some).step (Pool.idle issued) bothRead = some p ∧
      p.calls[0]? = some (.done "glst_s" (.ok session)) ∧
      p.calls[1]? = some (.done "glst_s" (.ok session')) :=
  ⟨_, _, _, rfl, rfl, rfl⟩

end ShortLivedCall

end GameAP
