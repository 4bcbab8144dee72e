import GameAP.Cache.InMemory
import GameAP.Lib.Runs

/-!
# The enrollment of nodes

The setup keys and tickets with which a daemon enrolls, and `Enroll` as calls that interleave on the
cache, the locks and the repository of the nodes.  Every operation may fail, and an operation that
reports a failure may have taken effect all the same.

A ticket is claimed under a lock before its node is saved.  A lock has a deadline after which
another call may take it.

The columns of a node and the presets of a ticket are not modelled: `Enroll` writes them and does
not look at them again.
-/

namespace GameAP

open Runs Tables

/-- The errors of the enrollment; `internal` is an error of the cache, a lock, a repository or of
the certificates. -/
inductive EnrollError
  | setupKeyNotConfigured
  | invalidSetupKey
  | ticketNotFound
  | ticketConsumed
  | ticketExpired
  | invalidTicketTTL
  | internal (message : String)
  deriving DecidableEq

/-! ### The global key -/

/-- The entry of the cache, where `none` is a value that is not a string, and the key of the
environment, which may be empty. -/
structure SetupKeyManager where
  cache : InMemoryCache (Option String) := {}
  envValue : String := ""

namespace SetupKeyManager

variable (m : SetupKeyManager)

/-- `SetupKeyCacheKey`. -/
def cacheKey : String := "daemon:setup_key"

/-- One hour. -/
def setupKeyTTL : Time := 3600000000000

/-- The key of the environment, if there is one. -/
def fromEnv : Except EnrollError String :=
  if m.envValue ≠ "" then .ok m.envValue else .error .setupKeyNotConfigured

/-- `ok` is whether the cache can be read. -/
def get (now : Time) (ok : Bool) : Except EnrollError String :=
  if !ok then .error (.internal "failed to get setup key from cache")
  else
    match m.cache.get now cacheKey with
    | some (some key) => if key = "" then .error .setupKeyNotConfigured else .ok key
    | some none => m.fromEnv
    | none => m.fromEnv

def validate (now : Time) (ok : Bool) (key : String) : Except EnrollError Unit :=
  match m.get now ok with
  | .error err => .error err
  | .ok storedKey => if key ≠ storedKey then .error .invalidSetupKey else .ok ()

/-- The effect of `Generate` with the random key. -/
def generate (now : Time) (key : String) : SetupKeyManager :=
  { m with cache := m.cache.set now cacheKey (some key) setupKeyTTL }

/-- The effect of `Invalidate`. -/
def invalidate (now : Time) : SetupKeyManager :=
  if m.envValue ≠ "" then { m with cache := m.cache.set now cacheKey (some "") 0 }
  else { m with cache := m.cache.delete cacheKey }

end SetupKeyManager

/-! ### Tickets -/

/-- `pending` or `consumed`. -/
inductive TicketStatus
  | pending
  | consumed
  deriving DecidableEq

/-- `Ticket` without its presets. -/
structure Ticket where
  id : String
  setupKeyHash : String
  owner : String := ""
  status : TicketStatus := .pending
  nodeID : ℕ := 0
  createdAt : Time
  expiresAt : Time
  consumedAt : Option Time := none
  deriving DecidableEq

/-- What the cache holds for a ticket: its JSON, another text, or a value that is not a string. -/
inductive TicketValue
  | ticket (t : Ticket)
  | malformed
  | other
  deriving DecidableEq

/-- `setupTicketCachePrefix+id`. -/
def ticketKey (id : String) : String := "daemon:enroll_ticket:" ++ id

/-- One hour, as for the global key. -/
def defaultTicketTTL : ℤ := 3600000000000

/-- One minute. -/
def minTicketTTL : ℤ := 60000000000

/-- One day. -/
def maxTicketTTL : ℤ := 86400000000000

/-- One day. -/
def consumedTicketRetention : Time := 86400000000000

/-- Ten seconds. -/
def claimLockTTL : Time := 10000000000

/-- What the service is built with: the digest, and which texts `xid.FromString` accepts. -/
structure EnrollConfig where
  sha256 : String → String
  validXid : String → Bool

namespace EnrollConfig

variable (cfg : EnrollConfig)

/-- The form of a ticket id. -/
def isTicketID (id : String) : Bool := id.length = 20 && cfg.validXid id

/-- The half of the key that identifies the ticket. -/
def idOf (setupKey : String) : String := String.ofList (setupKey.toList.take 20)

/-- `IsTicketKey`.  A rune of more than one byte fails the checks of both halves. -/
def isTicketKey (key : String) : Bool :=
  key.length = 52 &&
    (key.toList.drop 20).all (fun c => c.isDigit || ('a' ≤ c && c ≤ 'z') || ('A' ≤ c && c ≤ 'Z')) &&
    cfg.isTicketID (idOf key)

end EnrollConfig

/-- The global key, the tickets and the locks.  The rest is history: the tickets that were issued,
who has claimed them, and the calls and tickets of the nodes. -/
structure EnrollStore where
  setupKeys : SetupKeyManager := {}
  tickets : InMemoryCache TicketValue := {}
  locks : Table String (ℕ × Time) := ∅
  issued : List String := []
  claimant : Table String ℕ := ∅
  nodes : List (ℕ × Option String) := []

/-- The environment of a step: the time, whether the operation succeeds, whether an operation that
fails has taken effect, and which operation of several has failed. -/
structure EnrollEnv extends Env where
  applied : Bool := false
  reason : String := ""

/-- The operation takes effect. -/
def EnrollEnv.effect (e : EnrollEnv) : Bool := e.ok || e.applied

namespace EnrollStore

variable (s : EnrollStore)

/-- `TicketStore.Get`; `ok` is whether the cache can be read. -/
def getTicket (cfg : EnrollConfig) (now : Time) (ok : Bool) (id : String) :
    Except EnrollError Ticket :=
  if !cfg.isTicketID id then .error .ticketNotFound
  else if !ok then .error (.internal "failed to read enrollment ticket")
  else
    match s.tickets.get now (ticketKey id) with
    | none => .error .ticketNotFound
    | some .other => .error .ticketNotFound
    | some .malformed => .error (.internal "failed to decode enrollment ticket")
    | some (.ticket t) => .ok t

def resolve (cfg : EnrollConfig) (now : Time) (ok : Bool) (setupKey : String) :
    Except EnrollError Ticket :=
  if !cfg.isTicketKey setupKey then .error .ticketNotFound
  else
    match s.getTicket cfg now ok (EnrollConfig.idOf setupKey) with
    | .error err => .error err
    | .ok ticket =>
      if cfg.sha256 setupKey ≠ ticket.setupKeyHash then .error .invalidSetupKey
      else if ticket.status = .consumed then .error .ticketConsumed
      else if ticket.expiresAt < now then .error .ticketExpired
      else .ok ticket

/-- The effect of `store`. -/
def storeTicket (now : Time) (t : Ticket) (ttl : Time) : EnrollStore :=
  { s with tickets := s.tickets.set now (ticketKey t.id) (.ticket t) ttl }

/-- The effect of `Revoke`. -/
def dropTicket (id : String) : EnrollStore := { s with tickets := s.tickets.delete (ticketKey id) }

/-- The lock of the ticket is held and its deadline has not passed. -/
def locked (now : Time) (id : String) : Bool :=
  match s.locks.get (ticketKey id) with
  | none => false
  | some (_, deadline) => now ≤ deadline

/-- The effect of `Acquire` by call `i`. -/
def lock (now : Time) (i : ℕ) (id : String) : EnrollStore :=
  { s with locks := s.locks.put (ticketKey id) (i, now + claimLockTTL) }

/-- The effect of `Release` by call `i`, which leaves a lock of another call alone. -/
def unlock (i : ℕ) (id : String) : EnrollStore :=
  match s.locks.get (ticketKey id) with
  | none => s
  | some (j, _) => if j = i then { s with locks := s.locks.del (ticketKey id) } else s

end EnrollStore

/-- Where a call stands; each constructor is before an operation, but for the last ones of `Enroll`,
`Create` and `Revoke`.  `cleanup` is the goroutine of the cache. -/
inductive EnrollCall
  | validate (setupKey : String)
  | resolve (setupKey : String) (globalErr : EnrollError)
  | prepare (ticket : Option Ticket)
  | acquire (ticket : Ticket)
  | claimGet (ticket : Ticket)
  | claimStore (ticket stored : Ticket)
  | release (ticket : Ticket) (err : Option EnrollError)
  | save (ticket : Option Ticket)
  | consume (ticket : Ticket) (nodeID : ℕ)
  | dropSpent (id : String) (nodeID : ℕ)
  | invalidate (nodeID : ℕ)
  | done (result : Except EnrollError ℕ)
  | create (owner id secret : String) (ttl : ℤ)
  | created (result : Except EnrollError String)
  | revoke (id : String)
  | revoked (id : String) (err : Option EnrollError)
  | generate (key : String)
  | generated
  | cleanup

namespace EnrollCall

variable (cfg : EnrollConfig)

/-- `resolveSetupKey`, after the global key was looked at. -/
def afterValidate (setupKey : String) : Except EnrollError Unit → EnrollCall
  | .ok () => .prepare none
  | .error err =>
    if err ≠ .invalidSetupKey ∧ err ≠ .setupKeyNotConfigured then .done (.error err)
    else if !cfg.isTicketKey setupKey then .done (.error err)
    else .resolve setupKey err

/-- `resolveSetupKey`, after the ticket was looked at. -/
def afterResolve (globalErr : EnrollError) : Except EnrollError Ticket → EnrollCall
  | .ok ticket => .prepare (some ticket)
  | .error err => .done (.error (if err = .ticketNotFound then globalErr else err))

/-- `Claim`, after the stored ticket was read. -/
def afterClaimGet (now : Time) (ticket : Ticket) : Except EnrollError Ticket → EnrollCall
  | .error err => .release ticket (some err)
  | .ok stored =>
    if stored.status = .consumed then .release ticket (some .ticketConsumed)
    else if stored.expiresAt < now then .release ticket (some .ticketExpired)
    else .claimStore ticket { stored with status := .consumed, consumedAt := some now }

/-- The record that `Consume` writes. -/
def consumedTicket (now : Time) (ticket : Ticket) (nodeID : ℕ) : Ticket :=
  { ticket with
    status := .consumed
    nodeID
    consumedAt := ticket.consumedAt <|> some now }

/-- The record that `Create` writes. -/
def newTicket (now : Time) (owner id secret : String) (ttl : ℤ) : Ticket where
  id
  setupKeyHash := cfg.sha256 (id ++ secret)
  owner
  createdAt := now
  expiresAt := now + ttl.toNat

/-- One step of call `i`. -/
def next (i : ℕ) (s : EnrollStore) (e : EnrollEnv) : EnrollCall → Option (EnrollStore × EnrollCall)
  | .validate setupKey =>
    some (s, afterValidate cfg setupKey (s.setupKeys.validate e.now e.ok setupKey))
  | .resolve setupKey globalErr => some (s, afterResolve globalErr (s.resolve cfg e.now e.ok setupKey))
  | .prepare ticket =>
    -- the API key, the certificates and the presets
    if !e.ok then some (s, .done (.error (.internal e.reason)))
    else
      match ticket with
      | none => some (s, .save none)
      | some t => some (s, .acquire t)
  | .acquire t =>
    if s.locked e.now t.id then
      some (s, .done (.error
        (if e.ok then .ticketConsumed else .internal "failed to lock enrollment ticket")))
    else if e.ok then some (s.lock e.now i t.id, .claimGet t)
    else
      some (if e.applied then s.lock e.now i t.id else s,
        .done (.error (.internal "failed to lock enrollment ticket")))
  | .claimGet t => some (s, afterClaimGet e.now t (s.getTicket cfg e.now e.ok t.id))
  | .claimStore t stored =>
    let s' := s.storeTicket e.now stored consumedTicketRetention
    if e.ok then
      some ({ s' with claimant := s'.claimant.put stored.id i },
        .release { t with status := stored.status, consumedAt := stored.consumedAt } none)
    else
      some (if e.applied then s' else s,
        .release t (some (.internal "failed to store enrollment ticket")))
  | .release t err =>
    -- an error of the lock is only logged
    let s' := if e.effect then s.unlock i t.id else s
    match err with
    | none => some (s', .save (some t))
    | some err => some (s', .done (.error err))
  | .save ticket =>
    let s' := { s with nodes := s.nodes ++ [(i, ticket.map (·.id))] }
    if e.ok then
      match ticket with
      | none => some (s', .invalidate s'.nodes.length)
      | some t => some (s', .consume t s'.nodes.length)
    else some (if e.applied then s' else s, .done (.error (.internal "failed to save node")))
  | .consume t nodeID =>
    let s' := s.storeTicket e.now (consumedTicket e.now t nodeID) consumedTicketRetention
    if e.ok then some (s', .done (.ok nodeID))
    else some (if e.applied then s' else s, .dropSpent t.id nodeID)
  | .dropSpent id nodeID =>
    some (if cfg.isTicketID id && e.effect then s.dropTicket id else s, .done (.ok nodeID))
  | .invalidate nodeID =>
    some (if e.effect then { s with setupKeys := s.setupKeys.invalidate e.now } else s,
      .done (.ok nodeID))
  | .done _ => none
  | .create owner id secret ttl =>
    let ttl := if ttl = 0 then defaultTicketTTL else ttl
    if ttl < minTicketTTL ∨ maxTicketTTL < ttl then some (s, .created (.error .invalidTicketTTL))
    else if s.issued.any (· = id) then
      -- `xid.New` does not return an identifier twice
      none
    else
      let s' := { s with issued := id :: s.issued }
      let s'' := s'.storeTicket e.now (newTicket cfg e.now owner id secret ttl) ttl.toNat
      if e.ok then some (s'', .created (.ok (id ++ secret)))
      else
        some (if e.applied then s'' else s',
          .created (.error (.internal "failed to store enrollment ticket")))
  | .created _ => none
  | .revoke id =>
    if !cfg.isTicketID id then some (s, .revoked id (some .ticketNotFound))
    else if e.ok then some (s.dropTicket id, .revoked id none)
    else
      some (if e.applied then s.dropTicket id else s,
        .revoked id (some (.internal "failed to revoke enrollment ticket")))
  | .revoked _ _ => none
  | .generate key =>
    some (if e.effect then { s with setupKeys := s.setupKeys.generate e.now key } else s, .generated)
  | .generated => none
  | .cleanup =>
    some ({ s with
      tickets := s.tickets.cleanup e.now
      setupKeys := { s.setupKeys with cache := s.setupKeys.cache.cleanup e.now } }, .cleanup)

/-- Any number of enrollments, of new tickets and keys, of revocations of tickets that were issued,
and the goroutine of the cache. -/
def program : Program EnrollStore EnrollCall EnrollEnv where
  start s c := match c with
    | .validate _ | .create _ _ _ _ | .generate _ | .cleanup => true
    | .revoke id => s.issued.any (· = id)
    | _ => false
  next i s c e := next cfg i s e c

/-- The call is in the critical section of `Claim` on the ticket. -/
def inClaim (id : String) : EnrollCall → Bool
  | .claimGet t | .claimStore t _ | .release t _ => t.id = id
  | _ => false

/-- The condition on a step: a lock whose deadline has passed is taken over only from a call that
has left its critical section. -/
def EndsInTime (p : Pool EnrollStore EnrollCall) : EnrollCall → EnrollEnv → Prop
  | .acquire t, e => ∀ holder ∈ p.store.locks.get (ticketKey t.id), holder.2 < e.now →
      ∀ d ∈ p.calls[holder.1]?, d.inClaim t.id = false
  | _, _ => True

instance (p : Pool EnrollStore EnrollCall) : (c : EnrollCall) → (e : EnrollEnv) →
    Decidable (EndsInTime p c e)
  | .acquire t, e => inferInstanceAs (Decidable (∀ holder ∈ p.store.locks.get (ticketKey t.id),
      holder.2 < e.now → ∀ d ∈ p.calls[holder.1]?, d.inClaim t.id = false))
  | .validate _, _ | .resolve _ _, _ | .prepare _, _ | .claimGet _, _ | .claimStore _ _, _
  | .release _ _, _ | .save _, _ | .consume _ _, _ | .dropSpent _ _, _ | .invalidate _, _
  | .done _, _ | .create _ _ _ _, _ | .created _, _ | .revoke _, _ | .revoked _ _, _
  | .generate _, _ | .generated, _ | .cleanup, _ => .isTrue trivial

end EnrollCall

end GameAP
