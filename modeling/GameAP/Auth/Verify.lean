import GameAP.Auth.TwoFactor
import GameAP.Cache.InMemory
import GameAP.Lib.Sections

/-!
# Verifying the second factor

`twofactorverify.Handler`: a request loads the challenge from the cache and the user from the
repository, checks the code, and then saves the user with what was spent and deletes the challenge,
or counts the wrong code in the challenge.  Each operation is a step of its own and may fail, and
any number of requests are interleaved.

`log` is a history that no step reads.  `Step` lists what a step can do; the count of wrong codes is
studied from it in `GameAP.Auth.Challenges`, what is spent in `GameAP.Auth.Replay`.
-/

namespace GameAP

open Runs Tables

structure ChallengePayload where
  userID : ℕ
  login : String := ""
  email : String := ""
  remember : Bool := false
  attempts : ℤ := 0
  expiresAt : ℤ := 0
  deriving DecidableEq

def maxVerifyAttempts : ℤ := 5

def challengeCacheKey (sha256 : String → String) (token : String) : String :=
  "auth:2fa-challenge:" ++ sha256 (trimTokenPrefix token "g2fa_")

/-- The table of users; a row is stored under its identifier. -/
structure UserRepository where
  users : Table ℕ User := ∅
  id_eq : ∀ i user, users.get i = some user → user.id = i := by simp

namespace UserRepository

variable (r : UserRepository)

/-- `Find` with the filter of an identifier. -/
def find (id : ℕ) : Option User := r.users.get id

/-- `Save` of a row that exists. -/
def save (user : User) : UserRepository where
  users := r.users.put user.id user
  id_eq i u hu := by
    rcases Table.get_of_put hu with ⟨rfl, rfl⟩ | hu
    · rfl
    · exact r.id_eq i u hu

theorem find_save_self (user : User) : (r.save user).find user.id = some user :=
  Table.get_put_self _ _ _

end UserRepository

/-- What is recorded: a wrong code evaluated for a challenge, the deletion of a challenge, a login
from it, and what a verification of a user has spent. -/
inductive VerifyEvent
  | miss (key : String)
  | deleted (key : String)
  | login (key : String)
  | spent (userID : ℕ) (spent : Spent)
  deriving DecidableEq

/-- The cache, where `none` is a value that does not decode, the users, and the history. -/
structure VerifyStore where
  cache : InMemoryCache (Option ChallengePayload) := {}
  users : UserRepository := {}
  log : List VerifyEvent := []

/-- The errors of the handler. -/
inductive VerifyError
  | invalidChallenge
  | invalidCode
  | internal (message : String)
  deriving DecidableEq

/-- Where a request stands; each constructor but `done` is before an operation.  `cleanup` is the
goroutine of the cache. -/
inductive VerifyCall
  | loadChallenge (token code : String)
  | loadUser (key code : String) (payload : ChallengePayload)
  | verify (key code : String) (payload : ChallengePayload) (user : User)
  | save (key : String) (payload : ChallengePayload) (user : User) (spent : Spent)
  | miss (key : String) (payload : ChallengePayload)
  | restore (key : String) (payload : ChallengePayload) (remaining : ℤ)
  | drop (key : String) (err : VerifyError)
  | consume (key : String) (payload : ChallengePayload) (user : User)
  | generateToken (key : String) (payload : ChallengePayload) (user : User)
  | done (result : Except VerifyError (User × Bool))
  | cleanup

namespace VerifyStore

variable (s : VerifyStore)

def record (ev : VerifyEvent) : VerifyStore := { s with log := s.log ++ [ev] }

def deleteChallenge (key : String) : VerifyStore :=
  { s with cache := s.cache.delete key }.record (.deleted key)

/-- The user is saved with what was spent. -/
def saveUser (user : User) (spent : Spent) : VerifyStore :=
  { s with users := s.users.save user }.record (.spent user.id spent)

def setChallenge (now : Time) (key : String) (payload : ChallengePayload) (remaining : ℤ) :
    VerifyStore :=
  { s with cache := s.cache.set now key (some payload) (remaining.toNat * 1000000000) }

end VerifyStore

namespace VerifyCall

section

variable (m : TwoFactorManager) (sha256 : String → String)

/-- `handleFailedAttempt`, up to its operation on the cache; `marshal` is whether the payload can be
encoded. -/
def handleFailedAttempt (now : Time) (marshal : Bool) (key : String) (payload : ChallengePayload) :
    VerifyCall :=
  let remaining := payload.expiresAt - now.unix
  if remaining ≤ 0 then .drop key .invalidCode
  else
    let payload := { payload with attempts := payload.attempts + 1 }
    if maxVerifyAttempts ≤ payload.attempts then .drop key .invalidCode
    else if !marshal then .drop key .invalidCode
    else .restore key payload remaining

def next (s : VerifyStore) (e : Env) : VerifyCall → Option (VerifyStore × VerifyCall)
  | .loadChallenge token code =>
    if !hasPrefix token "g2fa_" then some (s, .done (.error .invalidChallenge))
    else if !e.ok then some (s, .done (.error (.internal "failed to load challenge")))
    else
      match s.cache.get e.now (challengeCacheKey sha256 token) with
      | none => some (s, .done (.error .invalidChallenge))
      | some none => some (s, .drop (challengeCacheKey sha256 token) .invalidChallenge)
      | some (some payload) =>
        some (s, .loadUser (challengeCacheKey sha256 token) code payload)
  | .loadUser key code payload =>
    if !e.ok then some (s, .done (.error (.internal "failed to load user for challenge")))
    else
      match s.users.find payload.userID with
      | none => some (s, .drop key .invalidChallenge)
      | some user =>
        if !user.twoFactorEnabled || user.twoFactorSecret.isNone then
          some (s, .drop key .invalidChallenge)
        else some (s, .verify key code payload user)
  | .verify key code payload user =>
    match m.verifyCode e.now user code with
    | .accepted user' spent => some (s, .save key payload user' spent)
    | .wrong => some (s.record (.miss key), .miss key payload)
    | .failed evaluated message =>
      some (if evaluated then s.record (.miss key) else s, .done (.error (.internal message)))
  | .save key payload user spent =>
    if !e.ok then some (s, .done (.error (.internal (match spent with
      | .totp _ => "failed to persist totp step"
      | .recovery _ => "failed to persist recovery code use"))))
    else some (s.saveUser user spent, .consume key payload user)
  | .miss key payload => some (s, handleFailedAttempt e.now e.ok key payload)
  | .restore key payload remaining =>
    -- an error of the cache is not looked at
    some (if e.ok then s.setChallenge e.now key payload remaining else s, .done (.error .invalidCode))
  | .drop key err => some (if e.ok then s.deleteChallenge key else s, .done (.error err))
  | .consume key payload user =>
    if !e.ok then some (s, .done (.error (.internal "failed to consume challenge")))
    else some (s.deleteChallenge key, .generateToken key payload user)
  | .generateToken key payload user =>
    if !e.ok then some (s, .done (.error (.internal "failed to generate token")))
    else some (s.record (.login key), .done (.ok (user, payload.remember)))
  | .done _ => none
  | .cleanup => some ({ s with cache := s.cache.cleanup e.now }, .cleanup)

def program : Program VerifyStore VerifyCall Env where
  start _ c := match c with
    | .loadChallenge _ _ | .cleanup => true
    | _ => false
  next _ s c e := next m sha256 s e c

/-! ### What a step can do -/

/-- The steps, by what they need and what they change. -/
inductive Step (s : VerifyStore) (e : Env) : VerifyCall → VerifyStore → VerifyCall → Prop
  | reject {token code : String} (err : VerifyError) :
    Step s e (.loadChallenge token code) s (.done (.error err))
  | corrupt {token code : String} {item : CacheItem (Option ChallengePayload)}
    (hitem : s.cache.items.get (challengeCacheKey sha256 token) = some item) :
    Step s e (.loadChallenge token code) s (.drop (challengeCacheKey sha256 token) .invalidChallenge)
  | load {token code : String} {payload : ChallengePayload} {item : CacheItem (Option ChallengePayload)}
    (hitem : s.cache.items.get (challengeCacheKey sha256 token) = some item)
    (hvalue : item.value = some payload) :
    Step s e (.loadChallenge token code) s (.loadUser (challengeCacheKey sha256 token) code payload)
  | userFailed {key code : String} {payload : ChallengePayload} (err : VerifyError) :
    Step s e (.loadUser key code payload) s (.done (.error err))
  | ineligible {key code : String} {payload : ChallengePayload} :
    Step s e (.loadUser key code payload) s (.drop key .invalidChallenge)
  | found {key code : String} {payload : ChallengePayload} {user : User}
    (huser : s.users.find payload.userID = some user) :
    Step s e (.loadUser key code payload) s (.verify key code payload user)
  | accepted {key code : String} {payload : ChallengePayload} {user user' : User} {spent : Spent}
    (haccepts : Accepts user user' spent) :
    Step s e (.verify key code payload user) s (.save key payload user' spent)
  | wrong {key code : String} {payload : ChallengePayload} {user : User} :
    Step s e (.verify key code payload user) (s.record (.miss key)) (.miss key payload)
  | failed {key code : String} {payload : ChallengePayload} {user : User} {evaluated : Bool}
    {message : String} (hfailed : m.verifyCode e.now user code = .failed evaluated message) :
    Step s e (.verify key code payload user) (if evaluated then s.record (.miss key) else s)
      (.done (.error (.internal message)))
  | notSaved {key : String} {payload : ChallengePayload} {user : User} {spent : Spent}
    (err : VerifyError) : Step s e (.save key payload user spent) s (.done (.error err))
  | saved {key : String} {payload : ChallengePayload} {user : User} {spent : Spent} :
    Step s e (.save key payload user spent) (s.saveUser user spent) (.consume key payload user)
  | exhausted {key : String} {payload : ChallengePayload} :
    Step s e (.miss key payload) s (.drop key .invalidCode)
  | counted {key : String} {payload : ChallengePayload} {remaining : ℤ}
    (hbudget : payload.attempts + 1 < maxVerifyAttempts) :
    Step s e (.miss key payload) s
      (.restore key { payload with attempts := payload.attempts + 1 } remaining)
  | restored {key : String} {payload : ChallengePayload} {remaining : ℤ} :
    Step s e (.restore key payload remaining)
      (if e.ok then s.setChallenge e.now key payload remaining else s) (.done (.error .invalidCode))
  | dropped {key : String} {err : VerifyError} :
    Step s e (.drop key err) (if e.ok then s.deleteChallenge key else s) (.done (.error err))
  | notConsumed {key : String} {payload : ChallengePayload} {user : User} (err : VerifyError) :
    Step s e (.consume key payload user) s (.done (.error err))
  | consumed {key : String} {payload : ChallengePayload} {user : User} :
    Step s e (.consume key payload user) (s.deleteChallenge key) (.generateToken key payload user)
  | noToken {key : String} {payload : ChallengePayload} {user : User} (err : VerifyError) :
    Step s e (.generateToken key payload user) s (.done (.error err))
  | login {key : String} {payload : ChallengePayload} {user : User} :
    Step s e (.generateToken key payload user) (s.record (.login key))
      (.done (.ok (user, payload.remember)))
  | cleanup : Step s e .cleanup { s with cache := s.cache.cleanup e.now } .cleanup

variable {m sha256}

theorem step_of_next {s s' : VerifyStore} {e : Env} {c c' : VerifyCall}
    (h : next m sha256 s e c = some (s', c')) : Step m sha256 s e c s' c' := by
  unfold next at h
  cases c with
  | loadChallenge token code =>
    simp only at h
    split_ifs at h
    · cases h
      exact .reject _
    · cases h
      exact .reject _
    · split at h
      · cases h
        exact .reject _
      · next hget =>
        cases h
        obtain ⟨item, hitem, -⟩ := InMemoryCache.exists_item_of_get hget
        exact .corrupt hitem
      · next payload hget =>
        cases h
        obtain ⟨item, hitem, hvalue⟩ := InMemoryCache.exists_item_of_get hget
        exact .load hitem hvalue
  | loadUser key code payload =>
    simp only at h
    split_ifs at h
    · cases h
      exact .userFailed _
    · split at h
      · cases h
        exact .ineligible
      · next user huser =>
        split_ifs at h <;> cases h
        · exact .ineligible
        · exact .found huser
  | verify key code payload user =>
    simp only at h
    split at h
    · next hacc =>
      cases h
      exact .accepted (TwoFactorManager.accepts_verifyCode hacc)
    · cases h
      exact .wrong
    · next hfail =>
      cases h
      exact .failed hfail
  | save key payload user spent =>
    simp only at h
    split_ifs at h <;> cases h
    · exact .notSaved _
    · exact .saved
  | miss key payload =>
    simp only [handleFailedAttempt] at h
    split_ifs at h with hexp hbudget <;> cases h
    any_goals exact .exhausted
    · exact .counted (not_le.1 hbudget)
  | restore key payload remaining =>
    cases h
    exact .restored
  | drop key err =>
    cases h
    exact .dropped
  | consume key payload user =>
    simp only at h
    split_ifs at h <;> cases h
    · exact .notConsumed _
    · exact .consumed
  | generateToken key payload user =>
    simp only at h
    split_ifs at h <;> cases h
    · exact .noToken _
    · exact .login
  | done result => cases h
  | cleanup =>
    cases h
    exact .cleanup

end

/-! ### A user with a challenge -/

/-- The code of step 2 is `ok`, and a hash is the recovery code itself. -/
def plainCodes : TwoFactorManager where
  decrypt := some
  generateCode _ step := some (if step = 2 then "ok" else "")
  matchesHash hash code := hash == code

/-- The second 60 of the Unix epoch, which is in step 2. -/
def secondSixty : Time := 62135596860000000000

/-- User 1 has a recovery code `r` and two challenges; step 0 has been used. -/
def challenged : VerifyStore where
  cache := (({} : InMemoryCache (Option ChallengePayload)).set 0 "auth:2fa-challenge:x"
    (some { userID := 1, expiresAt := 90 }) 0).set 0 "auth:2fa-challenge:y"
    (some { userID := 1, expiresAt := 90 }) 0
  users := ({} : UserRepository).save
    { id := 1, twoFactorEnabled := true, twoFactorSecret := some "",
      twoFactorRecoveryCodes := some (.codes [{ hash := "r" }]), twoFactorLastUsedStep := some 0 }

/-- Call `i` makes `n` steps in which nothing fails. -/
def steps (i n : ℕ) : List (Move VerifyCall Env) := List.replicate n (.advance i ⟨secondSixty, true⟩)

end VerifyCall

end GameAP
