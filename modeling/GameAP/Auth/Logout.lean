import GameAP.Auth.Bearer
import GameAP.Auth.PasswordChange
import GameAP.Auth.Verify

/-!
# Requests, and logging out

The authentication middleware as calls that interleave, and the handler that puts the token of a
request on the denylist.  Every operation of a repository or of the cache may fail, the tables may
change between any two steps, and the entries of the denylist expire.

The denylist holds the digest of the whole bearer string, while the middleware reads the identifier
in it as a number, so that a string with leading zeros is not denied (`leading_zero_admitted`).
`logout_denies`: a logout denies exactly the string it was authenticated with, for thirty days.
-/

namespace GameAP

open Runs Tables

/-! ### Tables and the denylist -/

/-- The table of personal access tokens; a row is stored under its identifier. -/
structure TokenRepository where
  tokens : Table ℕ PersonalAccessToken
  id_eq : ∀ i token, tokens.get i = some token → token.id = i

namespace TokenRepository

theorem id_eq_empty (i : ℕ) (token : PersonalAccessToken)
    (h : (∅ : Table ℕ PersonalAccessToken).get i = some token) : token.id = i := by
  cases h

def empty : TokenRepository := ⟨∅, id_eq_empty⟩

variable (r : TokenRepository)

/-- `Find` with the filter of an identifier. -/
def find (id : ℕ) : Option PersonalAccessToken := r.tokens.get id

def save (token : PersonalAccessToken) : TokenRepository where
  tokens := r.tokens.put token.id token
  id_eq i t ht := by
    rcases Table.get_of_put ht with ⟨rfl, rfl⟩ | ht
    · rfl
    · exact r.id_eq i t ht

end TokenRepository

theorem UserRepository.id_eq_empty (i : ℕ) (user : User)
    (h : (∅ : Table ℕ User).get i = some user) : user.id = i := by
  cases h

def UserRepository.empty : UserRepository := ⟨∅, id_eq_empty⟩

/-- `Find` with the filter of a login. -/
def UserRepository.findByLogin (r : UserRepository) (login : String) : Option User :=
  (r.users.entries.map (·.2)).find? (·.login = login)

/-- The claims of a session token; a scope that cannot be read is `none`. -/
structure SessionClaims extends Claims where
  subject : Except String String
  expirationTime : Except String (Option Instant)
  scope : Option String := none

/-- The middleware: whether it has a cache for short-lived tokens, the digest, and the validation of
session tokens, whose alphabet does not have the bar of a personal access token. -/
structure AuthMiddleware where
  cache : Bool := true
  sha256 : String → String
  validateToken : Time → String → Option SessionClaims
  validateToken_bar : ∀ now token, token.toList.any (· = '|') = true → validateToken now token = none

/-- The denylist and the tables. -/
structure TokenStore where
  denylist : InMemoryCache Bool := {}
  tokens : TokenRepository
  users : UserRepository

/-- The key of an identifier in the denylist. -/
def revocationKey (identifier : String) : String := "auth:revoked:" ++ identifier

def patRevocationIdentifier (id : ℕ) : String := "pat:" ++ toString id

namespace TokenStore

variable (s : TokenStore)

def isRevoked (now : Time) (identifier : String) : Bool :=
  (s.denylist.get now (revocationKey identifier)).isSome

/-- `Revoke`, where nothing fails. -/
def revoke (now : Time) (identifier : String) (ttl : ℤ) : TokenStore :=
  if ttl ≤ 0 then s
  else { s with denylist := s.denylist.set now (revocationKey identifier) true ttl.toNat }

variable {now t : Time} {identifier id' : String} {ttl : ℤ}

theorem isRevoked_revoke_self (hpos : 0 < ttl) (ht : t ≤ now + ttl.toNat) :
    (s.revoke now identifier ttl).isRevoked t identifier = true := by
  have hnat : 0 < ttl.toNat := Int.lt_toNat.2 hpos
  rw [revoke, if_neg (not_le.2 hpos), isRevoked, InMemoryCache.get, InMemoryCache.set,
    Table.get_put_self, if_pos hnat]
  simp [CacheItem.isExpired, not_lt.2 ht]

theorem isRevoked_revoke_ne (hne : id' ≠ identifier) :
    (s.revoke now identifier ttl).isRevoked t id' = s.isRevoked t id' := by
  have hkey : revocationKey id' ≠ revocationKey identifier :=
    fun h => hne (String.append_right_inj _ |>.1 h)
  unfold revoke
  split_ifs
  · rfl
  · rw [isRevoked, isRevoked, InMemoryCache.get, InMemoryCache.items_set_ne hkey, InMemoryCache.get]

/-- A cleanup takes away nothing that is still found. -/
theorem isRevoked_cleanup (hnow : s.isRevoked now identifier = true)
    (ht : s.isRevoked t identifier = true) :
    { s with denylist := s.denylist.cleanup now }.isRevoked t identifier = true := by
  cases hitem : s.denylist.items.get (revocationKey identifier) with
  | none => simp [isRevoked, InMemoryCache.get, hitem] at hnow
  | some item =>
    have halive : item.isExpired now = false := by
      simpa [isRevoked, InMemoryCache.get, hitem] using hnow
    have hkeep : (s.denylist.cleanup now).items.get (revocationKey identifier) = some item := by
      rw [InMemoryCache.cleanup, Table.get_delWhere, hitem, Option.any_some, halive,
        if_neg Bool.false_ne_true]
    rw [isRevoked, InMemoryCache.get, hitem] at ht
    rw [isRevoked, InMemoryCache.get, hkeep]
    exact ht

end TokenStore

namespace AuthMiddleware

variable (m : AuthMiddleware)

def tokenIdentifier (rawBearer : String) : String := m.sha256 rawBearer

/-- Thirty days. -/
def defaultRevocationTTL : ℤ := 2592000000000000

/-- A year. -/
def patRevocationTTL : ℤ := 31536000000000000

def revocationTTL (now : Time) (bearer : String) : ℤ :=
  match m.validateToken now bearer with
  | none => defaultRevocationTTL
  | some claims =>
    match claims.expirationTime with
    | .ok (some exp) => if exp - now ≤ 0 then 0 else exp - now
    | _ => defaultRevocationTTL

/-- `ok` is whether the users can be read. -/
def processUserAuthToken (users : UserRepository) (now : Time) (ok : Bool) (token : String) :
    Except AuthError AuthSession :=
  match m.validateToken now token with
  | none => .error .invalidOrExpiredToken
  | some claims =>
    match claims.subject with
    | .error _ => .error .invalidTokenSubject
    | .ok subject =>
      let login := trimTokenPrefix subject "user:login:"
      if !hasPrefix subject "user:login:" then .error .invalidTokenSubject
      else if login = "" then .error .invalidTokenSubject
      else if !ok then .error (.internal "failed to load user by login from token")
      else
        match users.findByLogin login with
        | none => .error .userNotFound
        | some user =>
          match rejectIfIssuedBeforePasswordChange user claims.toClaims with
          | .error err => .error err
          | .ok () => .ok { user, mfaEnrollmentOnly := claims.scope = some "mfa_enrollment" }

end AuthMiddleware

/-! ### Requests -/

/-- What stands behind the middleware: a handler behind `Middleware` or behind `OptionalMiddleware`,
or the logout handler behind `Middleware`. -/
inductive Route
  | strict
  | optional
  | logout
  deriving DecidableEq

structure Arrival where
  request : AuthRequest
  route : Route := .strict
  deriving DecidableEq

/-- How a request ends: with the handler, in a session or without one, or with an error. -/
inductive AuthOutcome
  | admitted (session : AuthSession)
  | anonymous
  | loggedOut (session : AuthSession)
  | refused (err : AuthError)
  deriving DecidableEq

/-- The session of a request that has reached its handler with one. -/
def AuthOutcome.session : AuthOutcome → Option AuthSession
  | .admitted session | .loggedOut session => some session
  | .anonymous | .refused _ => none

def finishRejected (route : Route) (err : AuthError) : AuthOutcome :=
  if route = .optional then .anonymous else .refused err

/-- Every error but that of a repository is a 401. -/
def isOptionalUnauthorized : AuthError → Bool
  | .internal _ => false
  | _ => true

/-- The end of a request whose token is not accepted. -/
def failWith (route : Route) (err : AuthError) : AuthOutcome :=
  if route = .optional && isOptionalUnauthorized err then .anonymous else .refused err

/-- Where a request stands.  `write` is a change of the tables by another handler, `denyPAT` the
last operation of the handler that deletes a token, and `cleanup` the goroutine of the cache. -/
inductive AuthCall
  | arrive (a : Arrival)
  | findToken (a : Arrival) (bearer : String) (id : ℕ) (secret : String)
  | checkPAT (a : Arrival) (bearer : String) (id : ℕ) (secret : String) (row : PersonalAccessToken)
  | findUser (a : Arrival) (bearer : String) (row : PersonalAccessToken)
  | userAuth (a : Arrival) (bearer : String)
  | shortLived (a : Arrival) (bearer : String)
  | checkRevoked (a : Arrival) (bearer : String) (session : AuthSession)
  | revoke (a : Arrival) (bearer : String) (session : AuthSession)
  | done (a : Arrival) (bearer : String) (outcome : AuthOutcome)
  | write (tokens : TokenRepository) (users : UserRepository)
  | denyPAT (id : ℕ)
  | returned
  | cleanup

/-- The environment of a step also chooses what becomes of a short-lived token. -/
structure AuthEnv extends Env where
  shortLived : Except AuthError AuthSession := .error .invalidShortToken

namespace AuthCall

section

variable (m : AuthMiddleware)

/-- The request goes on to the denylist, or ends. -/
def ofSession (a : Arrival) (bearer : String) : Except AuthError AuthSession → AuthCall
  | .error err => .done a bearer (failWith a.route err)
  | .ok session => .checkRevoked a bearer session

/-- `middleware`, up to the processing of the token. -/
def dispatch (a : Arrival) : AuthCall :=
  let bearer := a.request.extractToken.1
  let kind := detectTokenType m.cache bearer
  if bearer = "" then .done a bearer (finishRejected a.route .missingAuthToken)
  else if !sourceAllowsTokenType a.request.extractToken.2 kind then
    .done a bearer (finishRejected a.route .missingAuthToken)
  else
    match kind with
    | .userAuth => .userAuth a bearer
    | .personalAccess =>
      match parsePAT bearer with
      | .error err => .done a bearer (failWith a.route err)
      | .ok (id, secret) => .findToken a bearer id secret
    | .shortLived => .shortLived a bearer
    | .unknown => .done a bearer (.refused .invalidOrExpiredToken)

section

variable (s : TokenStore) (e : AuthEnv)

/-- The checks of `processPersonalAccessToken` between its two queries. -/
def checkRow (id : ℕ) (secret : String) (row : PersonalAccessToken) : Except AuthError Unit :=
  if !e.ok then .error (.internal "failed to check pat revocation")
  else if s.isRevoked e.now (m.tokenIdentifier (patRevocationIdentifier id)) then .error .patNotFound
  else if row.token ≠ m.sha256 secret then .error .invalidPAT
  else if row.tokenableType ≠ .user then .error .unsupportedPATType
  else .ok ()

/-- The end of `processPersonalAccessToken`. -/
def loadUser (row : PersonalAccessToken) : Except AuthError AuthSession :=
  if !e.ok then .error (.internal "failed to load user by personal access token")
  else
    match s.users.find row.tokenableID with
    | none => .error .userNotFoundForPAT
    | some user =>
      match rejectPATIfCreatedBeforePasswordChange user row with
      | .error err => .error err
      | .ok () => .ok { user, token := some row }

/-- `ServeHTTP` of the logout handler. -/
def logout (a : Arrival) (session : AuthSession) : TokenStore × AuthOutcome :=
  let bearer := a.request.extractBearerToken
  let ttl := m.revocationTTL e.now bearer
  if session.user.id = 0 then (s, .refused (.internal "user not authenticated"))
  else if bearer = "" then (s, .loggedOut session)
  else if 0 < ttl ∧ !e.ok then (s, .refused (.internal "failed to revoke token"))
  else (s.revoke e.now (m.tokenIdentifier bearer) ttl, .loggedOut session)

def next : AuthCall → Option (TokenStore × AuthCall)
  | .arrive a => some (s, dispatch m a)
  | .findToken a bearer id secret =>
    if !e.ok then
      some (s, .done a bearer (failWith a.route
        (.internal "failed to load personal access token from repository")))
    else
      match s.tokens.find id with
      | none => some (s, .done a bearer (failWith a.route .patNotFound))
      | some row => some (s, .checkPAT a bearer id secret row)
  | .checkPAT a bearer id secret row =>
    match checkRow m s e id secret row with
    | .error err => some (s, .done a bearer (failWith a.route err))
    | .ok () => some (s, .findUser a bearer row)
  | .findUser a bearer row => some (s, ofSession a bearer (loadUser s e row))
  | .userAuth a bearer =>
    some (s, ofSession a bearer (m.processUserAuthToken s.users e.now e.ok bearer))
  | .shortLived a bearer => some (s, ofSession a bearer e.shortLived)
  | .checkRevoked a bearer session =>
    if !e.ok then
      some (s, .done a bearer (.refused (.internal "failed to check token revocation")))
    else if s.isRevoked e.now (m.tokenIdentifier bearer) then
      some (s, .done a bearer (finishRejected a.route .tokenRevoked))
    else if a.route = .logout then some (s, .revoke a bearer session)
    else some (s, .done a bearer (.admitted session))
  | .revoke a bearer session =>
    some ((logout m s e a session).1, .done a bearer (logout m s e a session).2)
  | .done _ _ _ => none
  | .write tokens users => some ({ s with tokens, users }, .returned)
  | .denyPAT id =>
    -- an error of the cache is only logged
    some (if e.ok then s.revoke e.now (m.tokenIdentifier (patRevocationIdentifier id))
      AuthMiddleware.patRevocationTTL else s, .returned)
  | .returned => none
  | .cleanup => some ({ s with denylist := s.denylist.cleanup e.now }, .cleanup)

end

/-- Any number of requests and changes, and the goroutine of the cache. -/
def program : Program TokenStore AuthCall AuthEnv where
  start _ c := match c with
    | .arrive _ | .write _ _ | .denyPAT _ | .cleanup => true
    | _ => false
  next _ s c e := next m s e c

/-! ### What a step can do -/

/-- The request of a call that has found a bearer string in it. -/
def origin : AuthCall → Option (Arrival × String)
  | .findToken a bearer _ _ | .checkPAT a bearer _ _ _ | .findUser a bearer _ | .userAuth a bearer
  | .shortLived a bearer | .checkRevoked a bearer _ | .revoke a bearer _ | .done a bearer _ =>
    some (a, bearer)
  | .arrive _ | .write _ _ | .denyPAT _ | .returned | .cleanup => none

/-- The steps, by what they need and what they change. -/
inductive Step (s : TokenStore) (e : AuthEnv) : AuthCall → TokenStore → AuthCall → Prop
  | dispatch {a : Arrival} : Step s e (.arrive a) s (dispatch m a)
  | fail {c : AuthCall} {a : Arrival} {bearer : String} {outcome : AuthOutcome}
    (horigin : c.origin = some (a, bearer)) (hnone : outcome.session = none) :
    Step s e c s (.done a bearer outcome)
  | found {a : Arrival} {bearer secret : String} {id : ℕ} {row : PersonalAccessToken} :
    Step s e (.findToken a bearer id secret) s (.checkPAT a bearer id secret row)
  | checked {a : Arrival} {bearer secret : String} {id : ℕ} {row : PersonalAccessToken} :
    Step s e (.checkPAT a bearer id secret row) s (.findUser a bearer row)
  | loaded {a : Arrival} {bearer : String} {row : PersonalAccessToken} {session : AuthSession} :
    Step s e (.findUser a bearer row) s (.checkRevoked a bearer session)
  | validated {a : Arrival} {bearer : String} {session : AuthSession} :
    Step s e (.userAuth a bearer) s (.checkRevoked a bearer session)
  | consumed {a : Arrival} {bearer : String} {session : AuthSession} :
    Step s e (.shortLived a bearer) s (.checkRevoked a bearer session)
  | toLogout {a : Arrival} {bearer : String} {session : AuthSession}
    (hfree : s.isRevoked e.now (m.tokenIdentifier bearer) = false) :
    Step s e (.checkRevoked a bearer session) s (.revoke a bearer session)
  | letIn {a : Arrival} {bearer : String} {session : AuthSession}
    (hfree : s.isRevoked e.now (m.tokenIdentifier bearer) = false) :
    Step s e (.checkRevoked a bearer session) s (.done a bearer (.admitted session))
  | noBearer {a : Arrival} {bearer : String} {session : AuthSession}
    (hempty : a.request.extractToken.1 = "") :
    Step s e (.revoke a bearer session) s (.done a bearer (.loggedOut session))
  | revoked {a : Arrival} {bearer : String} {session : AuthSession} :
    Step s e (.revoke a bearer session)
      (s.revoke e.now (m.tokenIdentifier a.request.extractToken.1)
        (m.revocationTTL e.now a.request.extractToken.1)) (.done a bearer (.loggedOut session))
  | write {tokens : TokenRepository} {users : UserRepository} :
    Step s e (.write tokens users) { s with tokens, users } .returned
  | denied {id : ℕ} :
    Step s e (.denyPAT id) (s.revoke e.now (m.tokenIdentifier (patRevocationIdentifier id))
      AuthMiddleware.patRevocationTTL) .returned
  | notDenied {id : ℕ} : Step s e (.denyPAT id) s .returned
  | cleanup : Step s e .cleanup { s with denylist := s.denylist.cleanup e.now } .cleanup

end

variable {m : AuthMiddleware} (route : Route) (err : AuthError)

theorem session_finishRejected : (finishRejected route err).session = none := by
  unfold finishRejected
  split <;> rfl

theorem session_failWith : (failWith route err).session = none := by
  unfold failWith
  split <;> rfl

variable {s s' : TokenStore} {e : AuthEnv} {session : AuthSession} {c c' : AuthCall}
  {bearer b : String} (a : Arrival)

theorem step_of_next (h : next m s e c = some (s', c')) : Step m s e c s' c' := by
  cases c with
  | arrive a =>
    cases h
    exact .dispatch
  | findToken a bearer id secret =>
    simp only [next] at h
    split_ifs at h
    · cases h
      exact .fail rfl (session_failWith _ _)
    · split at h
      · cases h
        exact .fail rfl (session_failWith _ _)
      · cases h
        exact .found
  | checkPAT a bearer id secret row =>
    simp only [next] at h
    split at h
    · cases h
      exact .fail rfl (session_failWith _ _)
    · cases h
      exact .checked
  | findUser a bearer row =>
    cases h
    cases loadUser s e row with
    | error err => exact .fail rfl (session_failWith _ _)
    | ok session => exact .loaded
  | userAuth a bearer =>
    cases h
    cases m.processUserAuthToken s.users e.now e.ok bearer with
    | error err => exact .fail rfl (session_failWith _ _)
    | ok session => exact .validated
  | shortLived a bearer =>
    cases h
    cases e.shortLived with
    | error err => exact .fail rfl (session_failWith _ _)
    | ok session => exact .consumed
  | checkRevoked a bearer session =>
    simp only [next] at h
    split_ifs at h with hok hrev hroute <;> cases h
    · exact .fail rfl rfl
    · exact .fail rfl (session_finishRejected _ _)
    · exact .toLogout (Bool.eq_false_iff.2 hrev)
    · exact .letIn (Bool.eq_false_iff.2 hrev)
  | revoke a bearer session =>
    cases h
    unfold logout
    rw [a.request.extractBearerToken_eq]
    simp only
    -- the session is missing, or nothing or something is put on the denylist
    split_ifs with hid hempty
    exacts [.fail rfl rfl, .noBearer hempty, .fail rfl rfl, .revoked]
  | done | returned => cases h
  | write tokens users =>
    cases h
    exact .write
  | denyPAT id =>
    simp only [next] at h
    split_ifs at h <;> cases h
    · exact .denied
    · exact .notDenied
  | cleanup =>
    cases h
    exact .cleanup

/-! ### The bearer string of a request -/

theorem origin_dispatch : (dispatch m a).origin = some (a, a.request.extractToken.1) := by
  unfold dispatch
  simp only
  split_ifs
  · rfl
  · rfl
  · split
    · rfl
    · split <;> rfl
    · rfl
    · rfl

/-- A call that has found a bearer string has it from its request. -/
def Carries (c : AuthCall) : Prop :=
  ∀ a bearer, c.origin = some (a, bearer) → bearer = a.request.extractToken.1

theorem carries_step (hc : Carries c) (hstep : Step m s e c s' c') : Carries c' := by
  cases hstep with
  | dispatch =>
    intro a bearer h
    rw [origin_dispatch] at h
    cases h
    rfl
  | fail horigin =>
    rintro _ _ ⟨⟩
    exact hc _ _ horigin
  | write | denied | notDenied | cleanup => exact nofun
  | _ =>
    rintro _ _ ⟨⟩
    exact hc _ _ rfl

theorem carries_of_start (h : (program m).start s c = true) : Carries c := by
  cases c with
  | arrive | write | denyPAT | cleanup =>
    rintro _ _ ⟨⟩
  | _ => cases h

/-- The bearer string and the session of a request that has passed the middleware. -/
def passed : AuthCall → Option (String × AuthSession)
  | .revoke _ bearer session => some (bearer, session)
  | .done _ bearer outcome => outcome.session.map fun session => (bearer, session)
  | _ => none

theorem passed_dispatch : (dispatch m a).passed = none := by
  unfold dispatch
  simp only
  split_ifs
  · simp only [passed, session_finishRejected, Option.map_none]
  · simp only [passed, session_finishRejected, Option.map_none]
  · split
    · rfl
    · split
      · simp only [passed, session_failWith, Option.map_none]
      · rfl
    · rfl
    · rfl

theorem passed_step (hstep : Step m s e c s' c') (h : c'.passed = some (bearer, session)) :
    c.passed = some (bearer, session) ∨
      s.isRevoked e.now (m.tokenIdentifier bearer) = false := by
  cases hstep with
  | dispatch =>
    rw [passed_dispatch] at h
    cases h
  | fail _ hnone =>
    simp only [passed, hnone, Option.map_none] at h
    cases h
  | toLogout hfree | letIn hfree =>
    cases h
    exact .inr hfree
  | noBearer | revoked => exact .inl h
  | _ => cases h

/-! ### The denylist -/

/-- The identifier is on the denylist up to a time. -/
def Denied (stop : Time) (identifier : String) (s : TokenStore) : Prop :=
  ∀ t ≤ stop, s.isRevoked t identifier = true

/-- The condition on a step: the clock is in an interval. -/
def Within (start stop : Time) (_ : Pool TokenStore AuthCall) (_ : AuthCall) (e : AuthEnv) : Prop :=
  start ≤ e.now ∧ e.now ≤ stop

instance (start stop : Time) (p : Pool TokenStore AuthCall) (c : AuthCall) (e : AuthEnv) :
    Decidable (Within start stop p c e) :=
  inferInstanceAs (Decidable (_ ∧ _))

/-- The time up to which the entry of a personal access token lives that is made at a time. -/
def revokedUntil (now : Time) : Time := now + AuthMiddleware.defaultRevocationTTL.toNat

theorem revokedUntil_le {start now : Time} (h : start ≤ now) {ttl : ℤ}
    (hle : AuthMiddleware.defaultRevocationTTL ≤ ttl) :
    revokedUntil start ≤ now + ttl.toNat :=
  Nat.add_le_add h (Int.toNat_le_toNat hle)

theorem bar_of_detectTokenType {cache : Bool}
    (h : detectTokenType cache b = .personalAccess) : b.toList.any (· = '|') = true := by
  unfold detectTokenType at h
  split_ifs at h with h1 h2 h3
  exact (Bool.and_eq_true_iff.1 h3).1

theorem revocationTTL_eq (hpat : detectTokenType m.cache b = .personalAccess) (now : Time) :
    m.revocationTTL now b = AuthMiddleware.defaultRevocationTTL := by
  rw [AuthMiddleware.revocationTTL, m.validateToken_bar now b (bar_of_detectTokenType hpat)]

/-- **An entry is not shortened**: a later revocation of the string renews it, and a cleanup leaves
it while it lives. -/
theorem denied_step {start : Time} (hpat : detectTokenType m.cache b = .personalAccess)
    (hcoll : ∀ x, m.sha256 x = m.sha256 b → x = b)
    (hs : Denied (revokedUntil start) (m.tokenIdentifier b) s)
    (hnow : start ≤ e.now ∧ e.now ≤ revokedUntil start) (hstep : Step m s e c s' c') :
    Denied (revokedUntil start) (m.tokenIdentifier b) s' := by
  intro t ht
  cases hstep with
  | @revoked a _ _ =>
    by_cases hsame : m.tokenIdentifier b = m.tokenIdentifier a.request.extractToken.1
    · rw [← hcoll _ hsame.symm] at hpat ⊢
      rw [revocationTTL_eq hpat]
      exact TokenStore.isRevoked_revoke_self s (by decide)
        (ht.trans (revokedUntil_le hnow.1 le_rfl))
    · rw [TokenStore.isRevoked_revoke_ne s hsame]
      exact hs t ht
  | @denied id =>
    by_cases hsame : m.tokenIdentifier b = m.tokenIdentifier (patRevocationIdentifier id)
    · rw [hsame]
      exact TokenStore.isRevoked_revoke_self s (by decide)
        (ht.trans (revokedUntil_le hnow.1 (by decide)))
    · rw [TokenStore.isRevoked_revoke_ne s hsame]
      exact hs t ht
  | cleanup => exact TokenStore.isRevoked_cleanup s (hs _ hnow.2) (hs t ht)
  | _ => exact hs t ht

/-- A request that has passed the middleware with `b` had done so among the calls `before`. -/
def PassedBefore (before : List AuthCall) (b : String) (j : ℕ) (c : AuthCall) : Prop :=
  ∀ session, c.passed = some (b, session) → before[j]?.bind passed = some (b, session)

/-- Nobody passes with `b` while its entry lives. -/
theorem passedBefore_step {before : List AuthCall} {start : Time}
    (hpat : detectTokenType m.cache b = .personalAccess)
    (hcoll : ∀ x, m.sha256 x = m.sha256 b → x = b) :
    StableUnder (program m).step (Guarded (Within start (revokedUntil start)))
      (PoolInv (Denied (revokedUntil start) (m.tokenIdentifier b))
        fun j _ c => PassedBefore before b j c) := by
  refine Program.inv_step ?_ ?_
  · intro p c _ hstart session hpass
    cases c <;> contradiction
  · intro p i e c s' c' hp hnow hc hn
    refine ⟨denied_step hpat hcoll hp.store hnow (step_of_next hn), fun session hpass => ?_,
      fun j d _ hd => hp.call j d hd⟩
    rcases passed_step (step_of_next hn) hpass with hpass' | hfree
    · exact hp.call i c hc session hpass'
    · rw [hp.store e.now hnow.2] at hfree
      cases hfree

/-- The step that answers a logout has put the bearer string of the request on the denylist. -/
theorem store_of_loggedOut (hc : Carries (.revoke a b session))
    (hpat : detectTokenType m.cache b = .personalAccess)
    (hstep : Step m s e (.revoke a b session) s' (.done a b (.loggedOut session))) :
    s' = s.revoke e.now (m.tokenIdentifier b) AuthMiddleware.defaultRevocationTTL := by
  have hb : b = a.request.extractToken.1 := hc a b rfl
  cases hstep with
  | fail _ hnone => cases hnone
  | noBearer hempty =>
    rw [hempty] at hb
    rw [hb] at hpat
    cases bar_of_detectTokenType hpat
  | revoked => rw [← hb, revocationTTL_eq hpat]

/-- **Logout** with the personal access token `b` puts `b` on the denylist and no other string, and
for thirty days no further request passes the middleware with it. -/
theorem logout_denies (m : AuthMiddleware) (s : TokenStore) (moves : List (Move AuthCall AuthEnv))
    (p q : Pool TokenStore AuthCall) (i : ℕ) (e : AuthEnv) (a : Arrival) (b : String)
    (session : AuthSession) (hrun : run (program m).step (Pool.idle s) moves = some p)
    (hlogout : p.calls[i]? = some (.revoke a b session))
    (hpat : detectTokenType m.cache b = .personalAccess)
    (hcollision : ∀ x, m.sha256 x = m.sha256 b → x = b)
    (hrevoke : (program m).step p (.advance i e) = some q)
    (hdone : q.calls[i]? = some (.done a b (.loggedOut session))) :
    (∀ t ≤ revokedUntil e.now, ∀ b', q.store.isRevoked t (m.tokenIdentifier b') = true ↔
      b' = b ∨ p.store.isRevoked t (m.tokenIdentifier b') = true) ∧
    ∀ moves' r, Along (program m).step (Guarded (Within e.now (revokedUntil e.now))) q moves' →
      run (program m).step q moves' = some r →
      ∀ (j : ℕ) c session', r.calls[j]? = some c → c.passed = some (b, session') →
        q.calls[j]?.bind passed = some (b, session') := by
  have hcarries : ∀ c ∈ p.calls, Carries c :=
    run_inv_all _ (Program.calls_step (fun _ _ h => carries_of_start h)
      fun _ _ _ _ _ _ hc hn => carries_step hc (step_of_next hn)) (List.forall_mem_nil _) hrun
  -- the step is the one of the logout
  obtain ⟨c, s', c', hc, hn, rfl⟩ := Program.step_advance hrevoke
  obtain rfl : AuthCall.revoke a b session = c := Option.some.inj (hlogout.symm.trans hc)
  obtain rfl : c' = .done a b (.loggedOut session) := by
    rw [List.getElem?_set_self (List.getElem?_eq_some_iff.1 hc).1] at hdone
    exact Option.some.inj hdone
  have hstore := store_of_loggedOut (a := a) (hcarries _ (List.mem_of_getElem? hc)) hpat
    (step_of_next hn)
  have hself : Denied (revokedUntil e.now) (m.tokenIdentifier b) s' := by
    intro t ht
    rw [hstore]
    exact TokenStore.isRevoked_revoke_self _ (by decide) ht
  constructor
  · intro t ht b'
    by_cases hb : b' = b
    · subst hb
      exact iff_of_true (hself t ht) (.inl rfl)
    · have hne : m.tokenIdentifier b' ≠ m.tokenIdentifier b := fun h => hb (hcollision b' h)
      simp only [hb, false_or, hstore, TokenStore.isRevoked_revoke_ne _ hne]
  · intro moves' r hlives hrun' j c session' hj hpassed
    refine ((run_inv _ (passedBefore_step hpat hcollision) ⟨hself, ?_⟩ hlives hrun').call j c hj)
      session' hpassed
    intro j c hc session hpass
    rw [hc, Option.bind_some, hpass]

/-- The digest is the text itself, and there are no session tokens. -/
def plainDigest : AuthMiddleware where
  sha256 := id
  validateToken _ _ := none
  validateToken_bar _ _ _ := rfl

/-- Token 1 of user 1, with the secret `s`. -/
def tokenOne : PersonalAccessToken where
  id := 1
  tokenableType := .user
  tokenableID := 1
  token := "s"

def oneToken : TokenStore where
  tokens := TokenRepository.empty.save tokenOne
  users := UserRepository.empty.save { id := 1 }

/-- A request with a bearer string in its header. -/
def withBearer (bearer : String) (route : Route) : Arrival :=
  { request := { authorization := "Bearer " ++ bearer }, route }

/-- Call `i` begins and makes five steps at time 1, in which nothing fails. -/
def fiveSteps (i : ℕ) (a : Arrival) : List (Move AuthCall AuthEnv) :=
  .spawn (.arrive a) :: List.replicate 5 (.advance i { now := 1 })

/-- After the logout with `1|s` a request with the same string is refused. -/
theorem logout_denies_same_string : ∃ p q r, run (program plainDigest).step (Pool.idle oneToken)
        (fiveSteps 0 (withBearer "1|s" .logout)) = some p ∧
      (program plainDigest).step p (.advance 0 { now := 1 }) = some q ∧
      run (program plainDigest).step q (fiveSteps 1 (withBearer "1|s" .strict)) = some r ∧
      r.calls[1]? = some (.done (withBearer "1|s" .strict) "1|s" (.refused .tokenRevoked)) ∧
      q.store.isRevoked 1 (plainDigest.tokenIdentifier "1|s") = true ∧
      ∀ (j : ℕ) (c : AuthCall) session, r.calls[j]? = some c → c.passed = some ("1|s", session) →
        q.calls[j]?.bind passed = some ("1|s", session) := by
  obtain ⟨hdenied, hpassed⟩ := logout_denies plainDigest oneToken
    (fiveSteps 0 (withBearer "1|s" .logout)) _ _ 0 { now := 1 } (withBearer "1|s" .logout) "1|s" _
    rfl rfl (by decide) (fun _ h => h) rfl rfl
  exact ⟨_, _, _, rfl, rfl, rfl, rfl, (hdenied 1 (by decide) "1|s").2 (.inl rfl),
    hpassed (fiveSteps 1 (withBearer "1|s" .strict)) _ (by decide) rfl⟩

/-- A request with `01|s` is admitted as the token that was logged out with `1|s`, while the entry
lives. -/
theorem leading_zero_admitted : ∃ p q r session, run (program plainDigest).step (Pool.idle oneToken)
        (fiveSteps 0 (withBearer "1|s" .logout)) = some p ∧
      p.calls[0]? = some (.revoke (withBearer "1|s" .logout) "1|s" session) ∧
      session.token = some tokenOne ∧
      (program plainDigest).step p (.advance 0 { now := 1 }) = some q ∧
      q.calls[0]? = some (.done (withBearer "1|s" .logout) "1|s" (.loggedOut session)) ∧
      Along (program plainDigest).step (Guarded (Within 1 (revokedUntil 1))) q
        (fiveSteps 1 (withBearer "01|s" .strict)) ∧
      run (program plainDigest).step q (fiveSteps 1 (withBearer "01|s" .strict)) = some r ∧
      r.calls[1]? = some (.done (withBearer "01|s" .strict) "01|s" (.admitted session)) :=
  ⟨_, _, _, _, rfl, rfl, rfl, rfl, rfl, by decide, rfl, rfl⟩

end AuthCall

end GameAP
