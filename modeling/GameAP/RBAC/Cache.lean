import GameAP.Lib.Runs
import GameAP.Lib.Versions
import GameAP.RBAC.Service

/-!
# Permission checks and changes at the same time

One `rbac.RBAC` instance with a database behind it.  A check looks into the cache, reads the
repository and stores what it has read, in separate steps.  `SetRolesToUser` deletes the entry of
the user after its commit; `AllowUserAbilitiesForEntity` and `RevokeOrForbidUserAbilitiesForEntity`
delete it while their transaction is still open, and the latter makes checks of its own there.

A check that begins after a change should not answer from rows that were read before it.  It can: a
check that read the old rows may store them after the delete (`answers_from_old_roles`).
`checks_follow_changes`: nothing else goes wrong than what `InTime` excludes.

The entries do not expire.  The versions of the repository, the stamps, and who wrote an entry are
history.
-/

namespace GameAP

open Tables Runs Versions RBAC Versioned List Nat

namespace RBAC

/-! ### Questions -/

/-- The four checks. -/
inductive Question
  | can (abilities : List AbilityName)
  | canOneOf (abilities : List AbilityName)
  | canForEntity (entityType : EntityType) (entityID : ℕ) (abilities : List AbilityName)
  | canAnyForEntity (entityType : EntityType) (entityID : ℕ) (abilities : List AbilityName)
  deriving DecidableEq

/-- What a check makes of the rows. -/
def Question.answer (permissions : PermissionMap) : Question → Bool
  | .can abilities => countAccepted permissions abilities 0 == some abilities.length
  | .canOneOf abilities => abilities.any fun name => (permissions.find name).any accepts
  | .canForEntity entityType entityID abilities => abilities.all fun name =>
    grantsAbilityForEntity (permissions.find name) entityType entityID
  | .canAnyForEntity entityType entityID abilities => abilities.any fun name =>
    grantsAbilityForEntity (permissions.find name) entityType entityID

/-! ### The shared state -/

/-- An entry of the cache.  `stamp` is the version at the first read for it, and `writer` is the
change inside whose transaction it was read, until that transaction commits. -/
structure Entry where
  permissions : PermissionMap
  stamp : ℕ
  writer : Option ℕ

/-- The repository with its versions and the cache.  `committed` is the version that the last change
of a user has made. -/
structure CachedRBAC where
  repo : Versioned RBACRepository
  cacheTTL : ℕ
  cache : Table ℕ Entry := ∅
  committed : ℕ → ℕ := fun _ => 0

/-- What a transaction has written. -/
inductive RepoOp
  | clearRolesForEntity (userID : ℕ)
  | assignRolesForEntity (userID : ℕ) (roles : List RestrictedRole)
  | revoke (userID : ℕ) (abilities : List Ability)
  | allow (userID : ℕ) (abilities : List Ability)
  | forbid (userID : ℕ) (abilities : List Ability)
  deriving DecidableEq

/-- The write of a change. -/
def RepoOp.apply (r : RBACRepository) : RepoOp → RBACRepository
  | .clearRolesForEntity userID => r.clearRolesForEntity userID .user
  | .assignRolesForEntity userID roles => r.assignRolesForEntity userID .user roles
  | .revoke userID abilities => r.revoke userID .user abilities
  | .allow userID abilities => r.allow userID .user abilities
  | .forbid userID abilities => r.forbid userID .user abilities

namespace CachedRBAC

variable (s : CachedRBAC)

/-- `permissionCache.Get`. -/
def cacheGet (userID : ℕ) : Option Entry := if s.cacheTTL = 0 then none else s.cache.get userID

/-- `permissionCache.Set`. -/
def cacheSet (userID : ℕ) (entry : Entry) : CachedRBAC :=
  if s.cacheTTL = 0 then s else { s with cache := s.cache.put userID entry }

/-- `permissionCache.Delete`. -/
def cacheDelete (userID : ℕ) : CachedRBAC := { s with cache := s.cache.del userID }

/-- What a transaction reads that has written `pending`. -/
def view (pending : List RepoOp) : RBACRepository := pending.foldl RepoOp.apply s.repo.current

/-- The entry that change `i` of the user has stored is now one of the new version. -/
def adopt (i userID : ℕ) : Table ℕ Entry :=
  match s.cache.get userID with
  | none => s.cache
  | some entry =>
    if entry.writer = some i then
      s.cache.put userID { entry with stamp := s.repo.version + 1, writer := none }
    else s.cache

/-- The transaction of change `i` of the user commits. -/
def commit (i userID : ℕ) (pending : List RepoOp) : CachedRBAC where
  repo := s.repo.commit (s.view pending)
  cacheTTL := s.cacheTTL
  cache := s.adopt i userID
  committed := Function.update s.committed userID (s.repo.version + 1)

end CachedRBAC

/-! ### Checks -/

/-- Where a check stands. -/
inductive CheckStep
  | lookup
  | getPermissions
  | getRolesForEntity (userPermissions : List Permission)
  | addRolePermissions (userPermissions : List Permission) (roles : List RestrictedRole)
  | answered (can : Bool)
  | failed (err : String)
  deriving DecidableEq

/-- A check; `stamp` is the version at its first read. -/
structure Check where
  userID : ℕ
  question : Question
  step : CheckStep := .lookup
  stamp : ℕ := 0
  deriving DecidableEq

namespace Check

variable (c : Check)

def goto (step : CheckStep) : Check := { c with step }

/-- A read has failed. -/
def fail (message err : String) : Check :=
  c.goto (.failed ("get permissions for user" ++ ": " ++ (message ++ ": " ++ err)))

/-- The next step of a check that reads `repo`; `e` is the error of the read, if it fails. -/
def next (repo : RBACRepository) (writer : Option ℕ) (s : CachedRBAC) (e : Option String) :
    Option (CachedRBAC × Check) :=
  match c.step, e with
  | .lookup, _ =>
    match s.cacheGet c.userID with
    | some entry => some (s, c.goto (.answered (c.question.answer entry.permissions)))
    | none => some (s, c.goto .getPermissions)
  | .getPermissions, some err => some (s, c.fail "failed to get all permissions for user" err)
  | .getPermissions, none =>
    let userPermissions := repo.getPermissions c.userID .user
    some (s, { c.goto (.getRolesForEntity userPermissions) with stamp := s.repo.version })
  | .getRolesForEntity _, some err => some (s, c.fail "failed to get roles for user" err)
  | .getRolesForEntity userPermissions, none =>
    let roles := repo.getRolesForEntity c.userID .user
    some (s, c.goto (.addRolePermissions userPermissions roles))
  | .addRolePermissions _ (_ :: _), some err =>
    some (s, c.fail "failed to get permissions for role" err)
  | .addRolePermissions userPermissions (role :: roles), none =>
    let rolePermissions := repo.getPermissions role.id .role
    some (s, c.goto (.addRolePermissions (userPermissions ++ restrict role rolePermissions) roles))
  | .addRolePermissions userPermissions [], _ =>
    let permissions := group userPermissions
    some (s.cacheSet c.userID ⟨permissions, c.stamp, writer⟩,
      c.goto (.answered (c.question.answer permissions)))
  | .answered _, _ => none
  | .failed _, _ => none

end Check

/-! ### Changes -/

/-- The map of the roles by name; the last role of a name counts. -/
def rolesByName (roles : List Role) : Table String Role :=
  roles.foldl (fun m role => m.put role.name role) ∅

/-- The loop of `setRolesToUser` over the names. -/
def restrictedRoles (roles : List Role) : List String → Except String (List RestrictedRole)
  | [] => .ok []
  | roleName :: roleNames =>
    match (rolesByName roles).get roleName with
    | none => .error ("invalid role name: " ++ roleName)
    | some role => (restrictedRoles roles roleNames).map fun rest => .ofRole role :: rest

/-- Where a change stands.  A change that has returned without an error has made a version. -/
inductive ChangeStep
  -- `SetRolesToUser`
  | getRoles (roleNames : List String)
  | clearRoles (roles : List RestrictedRole)
  | assignRoles (roles : List RestrictedRole)
  | commitRoles
  | invalidateUserCache (version : ℕ)
  -- `AllowUserAbilitiesForEntity`
  | revokeThenAllow (abilityNames : List AbilityName)
  | allow (abilityNames : List AbilityName)
  | deleteAllowed
  -- `RevokeOrForbidUserAbilitiesForEntity`
  | revoke (abilityNames : List AbilityName)
  | deleteRevoked (abilityNames : List AbilityName)
  | ask (abilities forbidAbilities : List Ability)
  | asking (ability : Ability) (abilities forbidAbilities : List Ability) (check : Check)
  | forbid (forbidAbilities : List Ability)
  | deleteForbidden
  -- the end of the transaction of the last two
  | commit
  | returned (result : Except String ℕ)

/-- A change for a user; SetRolesToUser has no entity. -/
structure Change where
  userID : ℕ
  entityID : ℕ := 0
  entityType : EntityType := .empty
  step : ChangeStep
  pending : List RepoOp := []

namespace Change

variable (c : Change)

def goto (step : ChangeStep) : Change := { c with step }

/-- The transaction is rolled back. -/
def fail (message err : String) : Change := c.goto (.returned (.error (message ++ ": " ++ err)))

/-- The transaction has written `op`. -/
def write (op : RepoOp) (step : ChangeStep) : Change :=
  { c with step, pending := c.pending ++ [op] }

/-- The next step of change `i`; `e` is the error of the operation of the database, if it fails. -/
def next (i : ℕ) (s : CachedRBAC) (e : Option String) : Option (CachedRBAC × Change) :=
  match c.step, e with
  | .getRoles _, some err => some (s, c.fail "failed to get roles" err)
  | .getRoles roleNames, none =>
    match restrictedRoles (s.view c.pending).getRoles roleNames with
    | .error err => some (s, c.goto (.returned (.error err)))
    | .ok roles => some (s, c.goto (.clearRoles roles))
  | .clearRoles _, some err => some (s, c.fail "failed to clear roles for user" err)
  | .clearRoles roles, none =>
    some (s, c.write (.clearRolesForEntity c.userID) (.assignRoles roles))
  | .assignRoles _, some err => some (s, c.fail "failed to assign roles to user" err)
  | .assignRoles roles, none =>
    some (s, c.write (.assignRolesForEntity c.userID roles) .commitRoles)
  | .commitRoles, some err => some (s, c.goto (.returned (.error err)))
  | .commitRoles, none =>
    some (s.commit i c.userID c.pending, c.goto (.invalidateUserCache (s.repo.version + 1)))
  | .invalidateUserCache version, _ =>
    some (s.cacheDelete c.userID, c.goto (.returned (.ok version)))
  | .revokeThenAllow _, some err => some (s, c.fail "failed to revoke abilities for user" err)
  | .revokeThenAllow abilityNames, none =>
    let abilities := abilitiesFor c.entityID c.entityType abilityNames
    some (s, c.write (.revoke c.userID abilities) (.allow abilityNames))
  | .allow _, some err => some (s, c.fail "failed to allow abilities for user" err)
  | .allow abilityNames, none =>
    let abilities := abilitiesFor c.entityID c.entityType abilityNames
    some (s, c.write (.allow c.userID abilities) .deleteAllowed)
  | .deleteAllowed, _ => some (s.cacheDelete c.userID, c.goto .commit)
  | .revoke _, some err => some (s, c.fail "failed to revoke abilities for user" err)
  | .revoke abilityNames, none =>
    let abilities := abilitiesFor c.entityID c.entityType abilityNames
    some (s, c.write (.revoke c.userID abilities) (.deleteRevoked abilityNames))
  | .deleteRevoked abilityNames, _ =>
    let abilities := abilitiesFor c.entityID c.entityType abilityNames
    some (s.cacheDelete c.userID, c.goto (.ask abilities []))
  | .ask (ability :: abilities) forbidAbilities, _ =>
    let question := .canForEntity c.entityType c.entityID [ability.name]
    some (s, c.goto (.asking ability abilities forbidAbilities { userID := c.userID, question }))
  | .ask [] forbidAbilities, _ =>
    some (s, c.goto (if forbidAbilities.isEmpty then .commit else .forbid forbidAbilities))
  | .asking ability abilities forbidAbilities check, e =>
    match check.next (s.view c.pending) (some i) s e with
    | some (s', check') =>
      match check'.step with
      | .failed err => some (s', c.fail "failed to check abilities for user" err)
      | _ => some (s', c.goto (.asking ability abilities forbidAbilities check'))
    | none =>
      match check.step with
      | .answered true => some (s, c.goto (.ask abilities (forbidAbilities ++ [ability])))
      | _ => some (s, c.goto (.ask abilities forbidAbilities))
  | .forbid _, some err => some (s, c.fail "failed to forbid abilities for user" err)
  | .forbid forbidAbilities, none =>
    some (s, c.write (.forbid c.userID forbidAbilities) .deleteForbidden)
  | .deleteForbidden, _ => some (s.cacheDelete c.userID, c.goto .commit)
  | .commit, some err => some (s, c.goto (.returned (.error err)))
  | .commit, none =>
    some (s.commit i c.userID c.pending, c.goto (.returned (.ok (s.repo.version + 1))))
  | .returned _, _ => none

end Change

/-- A check or a change. -/
inductive RBACCall
  | check (c : Check)
  | change (c : Change)

namespace RBACCall

/-- A call begins with a lookup, or with a transaction that has not written anything. -/
def starts : RBACCall → Bool
  | .check c => c.step = .lookup
  | .change c => c.pending.isEmpty &&
    match c.step with
    | .getRoles _ | .revokeThenAllow _ | .revoke _ => true
    | _ => false

/-- A check outside a transaction reads what is committed. -/
def next (i : ℕ) (s : CachedRBAC) (e : Option String) : RBACCall → Option (CachedRBAC × RBACCall)
  | .check c => (c.next s.repo.current none s e).map fun r => (r.1, .check r.2)
  | .change c => (c.next i s e).map fun r => (r.1, .change r.2)

end RBACCall

def rbac : Program CachedRBAC RBACCall (Option String) where
  start _ c := c.starts
  next i s c e := c.next i s e

/-! ### What a check has read -/

section

variable (repo : Versioned RBACRepository) (lo hi userID : ℕ) (rows : List Permission)

/-- The rows that a check for the user has collected from the versions `lo` to `hi`, when it has yet
to read the rows of the roles `rest`. -/
def Collecting (rest : List RestrictedRole) : Prop :=
  ∃ userPermissions roles parts,
    repo.ReadBetween lo hi (fun r => r.getPermissions userID .user) userPermissions ∧
    repo.ReadBetween lo hi (fun r => r.getRolesForEntity userID .user) (roles ++ rest) ∧
    List.Forall₂ (fun role part => repo.ReadBetween lo hi
      (fun r => restrict role (r.getPermissions role.id .role)) part) roles parts ∧
    rows = userPermissions ++ parts.flatten

/-- Everything that a check for the user collects was read in the versions `lo` to `hi`. -/
def Collected : Prop :=
  Collecting repo lo hi userID rows []

end

section Collecting

variable {repo : Versioned RBACRepository} {lo hi lo' hi' userID : ℕ} {rows : List Permission}
  {rest : List RestrictedRole}

theorem Collecting.imp {repo' : Versioned RBACRepository}
    (h : Collecting repo lo hi userID rows rest)
    (himp : ∀ {α : Type} {f : RBACRepository → α} {a : α}, repo.ReadBetween lo hi f a →
      repo'.ReadBetween lo' hi' f a) : Collecting repo' lo' hi' userID rows rest := by
  obtain ⟨userPermissions, roles, parts, hown, hroles, hparts, rfl⟩ := h
  exact ⟨userPermissions, roles, parts, himp hown, himp hroles,
    hparts.imp fun _ _ hpart => himp hpart, rfl⟩

theorem Collecting.commit (h : Collecting repo lo hi userID rows rest) (r : RBACRepository) :
    Collecting (repo.commit r) lo hi userID rows rest :=
  h.imp fun hread => hread.commit r

theorem Collecting.mono (h : Collecting repo lo hi userID rows rest) (hhi : hi ≤ hi') :
    Collecting repo lo hi' userID rows rest :=
  h.imp fun hread => hread.mono le_rfl hhi

theorem Collecting.role {role : RestrictedRole} (hlo : lo ≤ repo.version) (hhi : repo.version ≤ hi)
    (h : Collecting repo lo hi userID rows (role :: rest)) :
    Collecting repo lo hi userID
      (rows ++ restrict role (repo.current.getPermissions role.id .role)) rest := by
  obtain ⟨userPermissions, roles, parts, hown, hroles, hparts, rfl⟩ := h
  refine ⟨userPermissions, roles ++ [role],
    parts ++ [restrict role (repo.current.getPermissions role.id .role)], hown, ?_, ?_, ?_⟩
  · rw [append_assoc]
    exact hroles
  · exact rel_append hparts (.cons (readBetween_current hlo hhi) .nil)
  · simp

variable {k v : ℕ}

theorem Collected.eq_rows {r : RBACRepository} (h : Collected repo k k userID rows)
    (hr : repo.state? k = some r) : rows = r.content.rows userID := by
  obtain ⟨userPermissions, roles, parts, hown, hroles, hparts, rfl⟩ := h
  rw [hown.eq hr, Content.rows, Content.roleRows, flatMap]
  have hroles' : roles = r.getRolesForEntity userID .user := by
    rw [append_nil] at hroles
    exact hroles.eq hr
  have hparts' : parts = roles.map fun role => restrict role (r.getPermissions role.id .role) := by
    clear hroles hroles'
    induction hparts with
    | nil => rfl
    | cons hpart _ ih => rw [hpart.eq hr, ih, map_cons]
  rw [hparts', hroles']
  rfl

theorem collected_current :
    Collected repo repo.version repo.version userID (repo.current.content.rows userID) := by
  refine ⟨repo.current.getPermissions userID .user, repo.current.getRolesForEntity userID .user,
    (repo.current.getRolesForEntity userID .user).map fun role =>
      restrict role (repo.current.getPermissions role.id .role),
    readBetween_current le_rfl le_rfl, ?_, ?_, ?_⟩
  · rw [append_nil]
    exact readBetween_current le_rfl le_rfl
  · rw [forall₂_map_right_iff, forall₂_same]
    exact fun role _ => readBetween_current le_rfl le_rfl
  · rfl

end Collecting

namespace Check

variable {c c' : Check} {s s' : CachedRBAC} {repo : RBACRepository} {writer : Option ℕ}
  {e : Option String} {lo hi hi' : ℕ}

/-- What the check has in its hands was read in the versions `lo` to `hi`. -/
def Reads (repo : Versioned RBACRepository) (lo hi : ℕ) (c : Check) : Prop :=
  match c.step with
  | .getRolesForEntity userPermissions =>
    repo.ReadBetween lo hi (fun r => r.getPermissions c.userID .user) userPermissions
  | .addRolePermissions rows roles => Collecting repo lo hi c.userID rows roles
  | _ => True

/-- What a step of a check can do.  Only the last one writes, and the stamp is set at the first
read. -/
structure Moves (c : Check) (writer : Option ℕ) (s : CachedRBAC) (e : Option String)
    (s' : CachedRBAC) (c' : Check) : Prop where
  asks : c'.userID = c.userID ∧ c'.question = c.question
  stamp : c'.stamp = c.stamp ∨ c.step = .getPermissions ∧ c'.stamp = s.repo.version
  store : s' = s ∨ ∃ rows, c.step = .addRolePermissions rows [] ∧
    s' = s.cacheSet c.userID ⟨group rows, c.stamp, writer⟩ ∧
    c' = c.goto (.answered (c.question.answer (group rows)))
  failed : ∀ err, c'.step = .failed err → s' = s ∧ e.isSome

theorem next_moves (h : c.next repo writer s e = some (s', c')) : c.Moves writer s e s' c' := by
  unfold next at h
  split at h
  · split at h <;> cases h <;> exact ⟨⟨rfl, rfl⟩, .inl rfl, .inl rfl, nofun⟩
  all_goals cases h
  all_goals first
    -- a read that fails, one that succeeds, the first one, and the write
    | exact ⟨⟨rfl, rfl⟩, .inl rfl, .inl rfl, fun _ _ => ⟨rfl, rfl⟩⟩
    | exact ⟨⟨rfl, rfl⟩, .inl rfl, .inl rfl, nofun⟩
    | exact ⟨⟨rfl, rfl⟩, .inr ⟨‹_›, rfl⟩, .inl rfl, nofun⟩
    | exact ⟨⟨rfl, rfl⟩, .inl rfl, .inr ⟨_, ‹_›, rfl, rfl⟩, nofun⟩

theorem Reads.next {repo : Versioned RBACRepository} (hlo : lo ≤ repo.version)
    (hhi : repo.version ≤ hi) (hc : c.Reads repo lo hi)
    (h : c.next repo.current writer s e = some (s', c')) : c'.Reads repo lo hi := by
  unfold Check.next at h
  unfold Reads at hc
  split at h
  · split at h <;> cases h <;> trivial
  all_goals
    rename_i hstep
    rw [hstep] at hc
    cases h
  all_goals first
    | trivial
    | exact readBetween_current hlo hhi
    | exact ⟨_, [], [], hc, readBetween_current hlo hhi, .nil, by simp⟩
    | exact hc.role hlo hhi

section

variable (repo : Versioned RBACRepository) (lo : ℕ) (c : Check)

/-- The answer comes from rows that were collected in version `lo` or later. -/
def Answers (can : Bool) : Prop :=
  ∃ k hi rows, lo ≤ k ∧ k ≤ hi ∧ hi ≤ repo.version ∧ Collected repo k hi c.userID rows ∧
    can = c.question.answer (group rows)

/-- A check outside a transaction uses nothing that is older than version `lo`. -/
def Since : Prop :=
  match c.step with
  | .lookup | .failed _ => True
  | .getPermissions => lo ≤ repo.version
  | .getRolesForEntity _ | .addRolePermissions _ _ =>
    lo ≤ c.stamp ∧ c.stamp ≤ repo.version ∧ c.Reads repo c.stamp repo.version
  | .answered can => c.Answers repo lo can

end

theorem Reads.commit {repo : Versioned RBACRepository} (h : c.Reads repo lo hi)
    (r : RBACRepository) (hhi : hi ≤ hi') : c.Reads (repo.commit r) lo hi' := by
  unfold Reads at h ⊢
  split
  · rename_i hstep
    simp only [hstep] at h
    exact (h.commit r).mono le_rfl hhi
  · rename_i hstep
    simp only [hstep] at h
    exact (h.commit r).mono hhi
  · trivial

theorem Since.commit {repo : Versioned RBACRepository} (h : c.Since repo lo) (r : RBACRepository) :
    c.Since (repo.commit r) lo := by
  have hle : repo.version ≤ (repo.commit r).version := by
    rw [version_commit]
    exact le_succ _
  unfold Since at h ⊢
  split <;> rename_i hstep <;> simp only [hstep] at h
  case h_1 | h_2 => trivial
  case h_4 | h_5 => exact ⟨h.1, h.2.1.trans hle, h.2.2.commit r hle⟩
  · exact h.trans hle
  · obtain ⟨k, hi, rows, hk, hhi, hv, hrows, hcan⟩ := h
    exact ⟨k, hi, rows, hk, hhi, hv.trans hle, hrows.commit r, hcan⟩

end Check

/-! ### The shared state -/

namespace CachedRBAC

variable {s s' : CachedRBAC} {i j userID : ℕ} {pending : List RepoOp}

/-- The rows of an entry were collected in version `stamp` or later, unless they were read inside a
transaction that has not committed. -/
structure Inv (s : CachedRBAC) : Prop where
  committed : ∀ userID, s.committed userID ≤ s.repo.version
  entry : ∀ userID entry, s.cache.get userID = some entry → entry.writer = none →
    ∃ hi rows, entry.stamp ≤ hi ∧ hi ≤ s.repo.version ∧
      Collected s.repo entry.stamp hi userID rows ∧ entry.permissions = group rows

theorem get_of_cacheGet {entry : Entry} (h : s.cacheGet userID = some entry) :
    s.cache.get userID = some entry := by
  unfold cacheGet at h
  split_ifs at h
  exact h

theorem repo_cacheSet (userID : ℕ) (entry : Entry) : (s.cacheSet userID entry).repo = s.repo := by
  unfold cacheSet
  split_ifs <;> rfl

theorem committed_cacheSet (userID : ℕ) (entry : Entry) :
    (s.cacheSet userID entry).committed = s.committed := by
  unfold cacheSet
  split_ifs <;> rfl

theorem get_cacheSet {entry entry' : Entry}
    (h : (s.cacheSet userID entry).cache.get v = some entry') :
    s.cache.get v = some entry' ∨ v = userID ∧ entry' = entry := by
  unfold cacheSet at h
  split_ifs at h
  · exact .inl h
  · rcases Table.get_of_put h with ⟨hv, rfl⟩ | h
    · exact .inr ⟨hv, rfl⟩
    · exact .inl h

theorem get_cacheDelete {entry : Entry} (h : (s.cacheDelete userID).cache.get v = some entry) :
    v ≠ userID ∧ s.cache.get v = some entry := by
  simp only [cacheDelete, Table.get_del] at h
  split_ifs at h with hv
  exact ⟨hv, h⟩

theorem get_adopt {entry : Entry} (h : (s.adopt i userID).get v = some entry) :
    s.cache.get v = some entry ∧ (v = userID → entry.writer ≠ some i) ∨
      v = userID ∧ ∃ old, s.cache.get userID = some old ∧ old.writer = some i ∧
        entry = { old with stamp := s.repo.version + 1, writer := none } := by
  unfold adopt at h
  split at h
  · rename_i hnone
    refine .inl ⟨h, fun hv => ?_⟩
    rw [hv, hnone] at h
    cases h
  · rename_i old hold
    split_ifs at h with hwriter
    · rw [Table.get_put] at h
      split_ifs at h with hv
      · cases h
        exact .inr ⟨hv, old, hold, hwriter, rfl⟩
      · exact .inl ⟨h, fun hv' => absurd hv' hv⟩
    · refine .inl ⟨h, fun hv => ?_⟩
      rw [hv, hold] at h
      cases h
      exact hwriter

theorem Inv.cacheSet (hs : s.Inv) {entry : Entry} (hentry : entry.writer = none →
      ∃ hi rows, entry.stamp ≤ hi ∧ hi ≤ s.repo.version ∧
        Collected s.repo entry.stamp hi userID rows ∧ entry.permissions = group rows) :
    (s.cacheSet userID entry).Inv := by
  refine ⟨?_, fun v entry' hget hwriter => ?_⟩
  · rw [repo_cacheSet, committed_cacheSet]
    exact hs.committed
  · rw [repo_cacheSet]
    rcases get_cacheSet hget with hold | ⟨rfl, rfl⟩
    · exact hs.entry v entry' hold hwriter
    · exact hentry hwriter

theorem Inv.cacheDelete (hs : s.Inv) (userID : ℕ) : (s.cacheDelete userID).Inv :=
  ⟨hs.committed, fun v entry hget => hs.entry v entry (get_cacheDelete hget).2⟩

/-- A commit keeps what is known of the entries, and the entry of change `i` holds the rows of the
new version. -/
theorem Inv.commit (hs : s.Inv)
    (hown : ∀ entry, s.cache.get userID = some entry → entry.writer = some i →
      entry.permissions = group ((s.view pending).content.rows userID)) :
    (s.commit i userID pending).Inv := by
  have hvers : (s.commit i userID pending).repo.version = s.repo.version + 1 :=
    version_commit _
  refine ⟨fun v => ?_, fun v entry hget hwriter => ?_⟩
  · rw [hvers]
    simp only [CachedRBAC.commit, Function.update_apply]
    split_ifs with hv
    · exact le_rfl
    · exact (hs.committed v).trans (le_succ _)
  · rw [hvers]
    rcases get_adopt hget with ⟨hold, _⟩ | ⟨rfl, old, hold, hi, rfl⟩
    · obtain ⟨hi, rows, hle, hhi, hrows, hperm⟩ := hs.entry v entry hold hwriter
      exact ⟨hi, rows, hle, hhi.trans (le_succ _), hrows.commit _, hperm⟩
    · have hcoll : Collected (s.commit i v pending).repo _ _ v _ := collected_current
      rw [hvers] at hcoll
      exact ⟨s.repo.version + 1, _, le_rfl, le_rfl, hcoll, hown old hold hi⟩

theorem committed_commit (pending : List RepoOp) :
    (s.commit i userID pending).committed userID = s.repo.version + 1 :=
  Function.update_self userID _ s.committed

/-- What a step of call `i` can do to the shared state. -/
inductive Effect (i : ℕ) (s : CachedRBAC) : CachedRBAC → Prop
  | same : Effect i s s
  | delete (userID : ℕ) : Effect i s (s.cacheDelete userID)
  | set (userID : ℕ) (entry : Entry)
    (h : entry.writer = some i ∨ entry.writer = none ∧ s.committed userID ≤ entry.stamp) :
    Effect i s (s.cacheSet userID entry)
  | commit (userID : ℕ) (pending : List RepoOp) : Effect i s (s.commit i userID pending)

theorem Effect.repo (h : Effect i s s') : s'.repo = s.repo ∨ ∃ r, s'.repo = s.repo.commit r := by
  cases h with
  | same | delete => exact .inl rfl
  | set userID entry _ => exact .inl (repo_cacheSet userID entry)
  | commit userID pending => exact .inr ⟨_, rfl⟩

theorem Effect.committed (h : Effect i s s') (hs : s.Inv) (v : ℕ) :
    s.committed v ≤ s'.committed v := by
  cases h with
  | same | delete => exact le_rfl
  | set userID entry _ => rw [committed_cacheSet]
  | commit userID pending =>
    simp only [CachedRBAC.commit, Function.update_apply]
    split_ifs with hv
    · exact (hs.committed v).trans (le_succ _)
    · exact le_rfl

/-- An entry was there before, or call `i` has read it in its transaction, or it is as new as the
changes of the user. -/
theorem Effect.entry (h : Effect i s s') (hs : s.Inv) {entry : Entry}
    (hget : s'.cache.get v = some entry) :
    s.cache.get v = some entry ∨ entry.writer = some i ∨
      entry.writer = none ∧ s.committed v ≤ entry.stamp := by
  cases h with
  | same => exact .inl hget
  | delete userID => exact .inl (get_cacheDelete hget).2
  | set userID entry' hentry =>
    rcases get_cacheSet hget with hold | ⟨rfl, rfl⟩
    · exact .inl hold
    · exact .inr hentry
  | commit userID pending =>
    rcases get_adopt hget with ⟨hold, _⟩ | ⟨rfl, old, _, _, rfl⟩
    · exact .inl hold
    · exact .inr (.inr ⟨rfl, (hs.committed v).trans (le_succ _)⟩)

/-- No entry was read in a transaction of call `i`. -/
def NoEntry (s : CachedRBAC) (i : ℕ) : Prop :=
  ∀ v entry, s.cache.get v = some entry → entry.writer ≠ some i

/-- Only the user may have an entry that was read in the transaction of call `i`. -/
def OnlyEntry (s : CachedRBAC) (i userID : ℕ) : Prop :=
  ∀ v entry, s.cache.get v = some entry → entry.writer = some i → v = userID

/-- Such an entry holds what the transaction sees, unless another one has committed since. -/
def OwnEntry (s : CachedRBAC) (i userID : ℕ) (pending : List RepoOp) : Prop :=
  ∀ entry, s.cache.get userID = some entry → entry.writer = some i →
    entry.stamp ≤ s.repo.version ∧ (entry.stamp = s.repo.version →
      entry.permissions = group ((s.view pending).content.rows userID))

theorem NoEntry.onlyEntry (h : s.NoEntry i) (userID : ℕ) : s.OnlyEntry i userID :=
  fun v entry hget hwriter => absurd hwriter (h v entry hget)

theorem NoEntry.ownEntry (h : s.NoEntry i) (userID : ℕ) (pending : List RepoOp) :
    s.OwnEntry i userID pending :=
  fun entry hget hwriter => absurd hwriter (h userID entry hget)

theorem OnlyEntry.cacheDelete (h : s.OnlyEntry i userID) : (s.cacheDelete userID).NoEntry i := by
  intro v entry hget hwriter
  obtain ⟨hne, hold⟩ := get_cacheDelete hget
  exact hne (h v entry hold hwriter)

theorem OnlyEntry.commit (h : s.OnlyEntry i userID) (pending : List RepoOp) :
    (s.commit i userID pending).NoEntry i := by
  intro v entry hget hwriter
  rcases get_adopt hget with ⟨hold, hne⟩ | ⟨_, _, _, _, rfl⟩
  · exact hne (h v entry hold hwriter) hwriter
  · cases hwriter

theorem Effect.of_writer (h : Effect i s s') (hs : s.Inv) (hj : j ≠ i) {entry : Entry}
    (hget : s'.cache.get v = some entry) (hwriter : entry.writer = some j) :
    s.cache.get v = some entry := by
  rcases h.entry hs hget with hold | hi | ⟨hnone, _⟩
  · exact hold
  · rw [hwriter] at hi
    cases hi
    exact absurd rfl hj
  · rw [hwriter] at hnone
    cases hnone

theorem NoEntry.effect (hn : s.NoEntry j) (h : Effect i s s') (hs : s.Inv) (hj : j ≠ i) :
    s'.NoEntry j :=
  fun v entry hget hwriter => hn v entry (h.of_writer hs hj hget hwriter) hwriter

theorem OnlyEntry.effect (hn : s.OnlyEntry j userID) (h : Effect i s s') (hs : s.Inv) (hj : j ≠ i) :
    s'.OnlyEntry j userID :=
  fun v entry hget hwriter => hn v entry (h.of_writer hs hj hget hwriter) hwriter

theorem OwnEntry.effect (hn : s.OwnEntry j userID pending)
    (h : Effect i s s') (hs : s.Inv) (hj : j ≠ i) : s'.OwnEntry j userID pending := by
  intro entry hget hwriter
  obtain ⟨hle, hown⟩ := hn entry (h.of_writer hs hj hget hwriter) hwriter
  rcases h.repo with hrepo | ⟨r, hrepo⟩
  · unfold view
    rw [hrepo]
    exact ⟨hle, hown⟩
  · rw [hrepo, version_commit]
    exact ⟨hle.trans (le_succ _), fun heq => absurd (heq ▸ hle) (not_succ_le_self _)⟩

end CachedRBAC

/-! ### The condition -/

/-- A check does not look at rows that an open transaction has read, and it stores its own rows only
when no change of the user has been committed since its first read. -/
def Check.InTime (c : Check) (s : CachedRBAC) : Prop :=
  match c.step with
  | .lookup => ∀ entry ∈ s.cacheGet c.userID, entry.writer = none
  | .addRolePermissions _ [] => s.committed c.userID ≤ c.stamp
  | _ => True

/-- A change does not fail while the cache has an entry that it has read in its transaction; and
when one commits that has deleted the entry before, the cache has none, or one that was read in this
transaction. -/
def Change.InTime (c : Change) (i : ℕ) (s : CachedRBAC) (e : Option String) : Prop :=
  (e.isSome → ∀ entry ∈ s.cache.get c.userID, entry.writer ≠ some i) ∧
    match c.step with
    | .commit => ∀ entry ∈ s.cache.get c.userID,
      entry.writer = some i ∧ entry.stamp = s.repo.version
    | _ => True

/-- The condition on a step. -/
def InTime (p : Pool CachedRBAC RBACCall) (i : ℕ) (c : RBACCall) (e : Option String) : Prop :=
  match c with
  | .check c => c.InTime p.store
  | .change c => c.InTime i p.store e

instance (c : Check) (s : CachedRBAC) : Decidable (c.InTime s) := by
  unfold Check.InTime
  split <;> infer_instance

instance (c : Change) (i : ℕ) (s : CachedRBAC) (e : Option String) : Decidable (c.InTime i s e) := by
  unfold Change.InTime
  have : Decidable (match c.step with
    | .commit => ∀ entry ∈ s.cache.get c.userID,
      entry.writer = some i ∧ entry.stamp = s.repo.version
    | _ => True) := by
    split <;> infer_instance
  infer_instance

instance (p : Pool CachedRBAC RBACCall) (i : ℕ) : (c : RBACCall) → (e : Option String) →
    Decidable (InTime p i c e)
  | .check c, _ => inferInstanceAs (Decidable (c.InTime p.store))
  | .change c, e => inferInstanceAs (Decidable (c.InTime i p.store e))

/-! ### Steps of checks -/

open CachedRBAC

namespace Check

variable {c c' : Check} {s s' : CachedRBAC} {writer : Option ℕ} {e : Option String} {lo i : ℕ}

theorem since_lookup {repo : Versioned RBACRepository} (hstep : c.step = .lookup) :
    c.Since repo lo := by
  unfold Since
  rw [hstep]
  trivial

theorem InTime.lookup (hc : c.InTime s) (hstep : c.step = .lookup) :
    ∀ entry ∈ s.cacheGet c.userID, entry.writer = none := by
  unfold InTime at hc
  simpa only [hstep] using hc

theorem Since.next (hs : s.Inv) (hlo : lo ≤ s.repo.version)
    (hentry : c.step = .lookup → ∀ entry, s.cacheGet c.userID = some entry →
      entry.writer = none ∧ lo ≤ entry.stamp)
    (hc : c.Since s.repo lo) (h : c.next s.repo.current writer s e = some (s', c')) :
    c'.Since s.repo lo := by
  have hnext := h
  unfold Check.next at h
  unfold Since at hc
  split at h
  · rename_i hstep
    split at h
    · -- an entry that was collected in version `lo` or later
      rename_i entry hget
      cases h
      obtain ⟨hwriter, hstamp⟩ := hentry hstep entry hget
      obtain ⟨hi, rows, hle, hhi, hrows, hperm⟩ :=
        hs.entry c.userID entry (get_of_cacheGet hget) hwriter
      exact ⟨entry.stamp, hi, rows, hstamp, hle, hhi, hrows, by rw [hperm]; rfl⟩
    · cases h
      exact hlo
  all_goals
    rename_i hstep
    simp only [hstep] at hc
    cases h
  · trivial
  · exact ⟨hlo, le_rfl, readBetween_current le_rfl le_rfl⟩
  · trivial
  · exact ⟨hc.1, hc.2.1, hc.2.2.next hc.2.1 le_rfl hnext⟩
  · trivial
  · exact ⟨hc.1, hc.2.1, hc.2.2.next hc.2.1 le_rfl hnext⟩
  · have hrows := hc.2.2
    unfold Reads at hrows
    rw [hstep] at hrows
    exact ⟨c.stamp, s.repo.version, _, hc.1, hc.2.1, le_rfl, hrows, rfl⟩

theorem Since.effect (hc : c.Since s.repo lo) (h : CachedRBAC.Effect i s s') :
    c.Since s'.repo lo := by
  rcases h.repo with hrepo | ⟨r, hrepo⟩
  · rw [hrepo]
    exact hc
  · rw [hrepo]
    exact hc.commit r

theorem step_outside (hs : s.Inv) (hnone : s.NoEntry i) (hc : c.Since s.repo 0) (hG : c.InTime s)
    (h : c.next s.repo.current none s e = some (s', c')) :
    CachedRBAC.Effect i s s' ∧ s'.Inv ∧ s'.NoEntry i := by
  rcases (next_moves h).store with rfl | ⟨rows, hstep, rfl, _⟩
  · exact ⟨.same, hs, hnone⟩
  · unfold InTime at hG
    unfold Since Reads at hc
    simp only [hstep] at hG hc
    refine ⟨.set _ _ (.inr ⟨rfl, hG⟩), hs.cacheSet fun _ =>
      ⟨s.repo.version, rows, hc.2.1, le_rfl, hc.2.2, rfl⟩, fun v entry hget => ?_⟩
    rcases get_cacheSet hget with hold | ⟨_, rfl⟩
    · exact hnone v entry hold
    · exact fun hwriter => (by cases hwriter)

/-- A check inside a transaction has read what the transaction sees, unless another one has
committed since. -/
def InView (s : CachedRBAC) (pending : List RepoOp) (c : Check) : Prop :=
  c.stamp ≤ s.repo.version ∧
    (c.stamp = s.repo.version → c.Reads ⟨[], s.view pending⟩ 0 0)

variable {pending : List RepoOp}

theorem InView.next (hc : c.InView s pending)
    (h : c.next (s.view pending) writer s e = some (s', c')) : c'.InView s pending := by
  have hnext (hreads : c.Reads ⟨[], s.view pending⟩ 0 0) : c'.Reads ⟨[], s.view pending⟩ 0 0 :=
    hreads.next le_rfl le_rfl h
  rcases (next_moves h).stamp with hstamp | ⟨hstep, hstamp⟩
  · exact ⟨hstamp ▸ hc.1, fun heq => hnext (hc.2 (hstamp ▸ heq))⟩
  · refine ⟨hstamp.le, fun _ => hnext ?_⟩
    unfold Reads
    rw [hstep]
    trivial

theorem InView.effect (hc : c.InView s pending) (h : CachedRBAC.Effect i s s') :
    c.InView s' pending := by
  rcases h.repo with hrepo | ⟨r, hrepo⟩
  · unfold InView view
    rw [hrepo]
    exact hc
  · unfold InView
    rw [hrepo, version_commit]
    exact ⟨hc.1.trans (le_succ _), fun heq => absurd (heq ▸ hc.1) (not_succ_le_self _)⟩

theorem step_inside (hs : s.Inv) (honly : s.OnlyEntry i c.userID)
    (hown : s.OwnEntry i c.userID pending) (hc : c.InView s pending)
    (h : c.next (s.view pending) (some i) s e = some (s', c')) :
    CachedRBAC.Effect i s s' ∧ s'.Inv ∧ s'.OnlyEntry i c.userID ∧
      s'.OwnEntry i c.userID pending := by
  rcases (next_moves h).store with rfl | ⟨rows, hstep, rfl, _⟩
  · exact ⟨.same, hs, honly, hown⟩
  · refine ⟨.set _ _ (.inl rfl), hs.cacheSet fun hnone => (by cases hnone),
      fun v entry hget hwriter => ?_, fun entry hget hwriter => ?_⟩
    · rcases get_cacheSet hget with hold | ⟨rfl, _⟩
      · exact honly v entry hold hwriter
      · rfl
    · unfold view
      rw [repo_cacheSet]
      rcases get_cacheSet hget with hold | ⟨_, rfl⟩
      · exact hown entry hold hwriter
      · refine ⟨hc.1, fun heq => ?_⟩
        have hreads := hc.2 heq
        unfold Reads at hreads
        rw [hstep] at hreads
        exact congrArg group (Collected.eq_rows hreads rfl)

end Check

/-! ### Steps of changes -/

namespace Change

variable {c c' : Change} {s s' : CachedRBAC} {e : Option String} {i j : ℕ}

/-- No entry of the user is older than version `k`. -/
def NotOlder (s : CachedRBAC) (userID k : ℕ) : Prop :=
  k ≤ s.committed userID ∧
    ∀ entry, s.cache.get userID = some entry → entry.writer = none → k ≤ entry.stamp

/-- What holds of change `i`, by the place where it stands. -/
def Holds (c : Change) (i : ℕ) (s : CachedRBAC) : Prop :=
  match c.step with
  | .ask _ _ | .forbid _ | .commit => s.OnlyEntry i c.userID ∧ s.OwnEntry i c.userID c.pending
  | .asking _ _ _ check => s.OnlyEntry i c.userID ∧ s.OwnEntry i c.userID c.pending ∧
    check.userID = c.userID ∧ check.InView s c.pending
  | .deleteForbidden => s.OnlyEntry i c.userID
  | .invalidateUserCache k => s.NoEntry i ∧ k ≤ s.committed c.userID
  | .returned (.ok k) => s.NoEntry i ∧ NotOlder s c.userID k
  | _ => s.NoEntry i

theorem NotOlder.effect {userID : ℕ} (hk : NotOlder s userID k) (h : CachedRBAC.Effect i s s')
    (hs : s.Inv) : NotOlder s' userID k := by
  refine ⟨hk.1.trans (h.committed hs userID), fun entry hget hwriter => ?_⟩
  rcases h.entry hs hget with hold | hi | ⟨_, hle⟩
  · exact hk.2 entry hold hwriter
  · rw [hwriter] at hi
    cases hi
  · exact hk.1.trans hle

theorem Holds.effect (hc : c.Holds j s) (h : CachedRBAC.Effect i s s') (hs : s.Inv) (hj : j ≠ i) :
    c.Holds j s' := by
  unfold Holds at hc ⊢
  split <;> rename_i hstep <;> simp only [hstep] at hc
  case h_1 | h_2 | h_3 => exact ⟨hc.1.effect h hs hj, hc.2.effect h hs hj⟩
  · exact ⟨hc.1.effect h hs hj, hc.2.1.effect h hs hj, hc.2.2.1, hc.2.2.2.effect h⟩
  · exact CachedRBAC.OnlyEntry.effect hc h hs hj
  · exact ⟨hc.1.effect h hs hj, hc.2.trans (h.committed hs _)⟩
  · exact ⟨hc.1.effect h hs hj, hc.2.effect h hs⟩
  · exact CachedRBAC.NoEntry.effect hc h hs hj

theorem Holds.onlyEntry (hc : c.Holds i s) : s.OnlyEntry i c.userID := by
  unfold Holds at hc
  split at hc
  case h_5 => exact hc
  case h_8 => exact hc.onlyEntry _
  all_goals first
    | exact hc.1
    | exact hc.1.onlyEntry _

theorem step_asking {ability : Ability} {abilities forbidAbilities : List Ability} {check : Check}
    (hstep : c.step = .asking ability abilities forbidAbilities check) (hs : s.Inv)
    (hc : c.Holds i s) (hfail : e.isSome → s.NoEntry i) (h : c.next i s e = some (s', c')) :
    CachedRBAC.Effect i s s' ∧ s'.Inv ∧ c'.Holds i s' := by
  unfold Holds at hc
  unfold next at h
  simp only [hstep] at hc h
  obtain ⟨honly, hown, huser, hview⟩ := hc
  split at h
  · rename_i s₁ check' hcheck
    obtain ⟨heff, hinv, honly', hown'⟩ :=
      Check.step_inside hs (huser ▸ honly) (huser ▸ hown) hview hcheck
    have hview' : check'.InView s₁ c.pending := (hview.next hcheck).effect heff
    split at h
    · rename_i err hfailed
      cases h
      obtain ⟨rfl, he⟩ := (Check.next_moves hcheck).failed _ hfailed
      exact ⟨.same, hs, hfail he⟩
    · cases h
      exact ⟨heff, hinv, huser ▸ honly', huser ▸ hown',
        (Check.next_moves hcheck).asks.1.trans huser, hview'⟩
  · split at h <;> cases h <;> exact ⟨.same, hs, honly, hown⟩

theorem step_holds (hs : s.Inv) (hc : c.Holds i s) (hG : c.InTime i s e)
    (h : c.next i s e = some (s', c')) :
    CachedRBAC.Effect i s s' ∧ s'.Inv ∧ c'.Holds i s' := by
  have hc₀ := hc
  have hnext := h
  have honly := hc.onlyEntry
  have hnone := honly.cacheDelete
  have hfail : e.isSome → s.NoEntry i := fun he v entry hget hwriter =>
    hG.1 he entry (honly v entry hget hwriter ▸ hget) hwriter
  have hcommit := hG.2
  unfold Holds at hc
  unfold next at h
  split at h
  all_goals
    rename_i hstep
    simp only [hstep] at hc hcommit
  -- an operation that fails, and the steps that only write to the transaction
  all_goals try
    cases h
    first
      | exact ⟨.same, hs, hfail rfl⟩
      | exact ⟨.same, hs, hc⟩
  · split at h <;> cases h <;> exact ⟨.same, hs, hc⟩
  · -- the commit of `SetRolesToUser`
    cases h
    refine ⟨.commit _ _, hs.commit fun entry hget hwriter => absurd hwriter (hc _ entry hget),
      honly.commit _, ?_⟩
    exact (committed_commit _).ge
  · cases h
    refine ⟨.delete _, hs.cacheDelete _, hnone, hc.2, fun entry hget => ?_⟩
    exact absurd rfl (get_cacheDelete hget).1
  · cases h
    exact ⟨.delete _, hs.cacheDelete _, hnone.onlyEntry _, hnone.ownEntry _ _⟩
  · cases h
    exact ⟨.delete _, hs.cacheDelete _, hnone.onlyEntry _, hnone.ownEntry _ _⟩
  · cases h
    exact ⟨.same, hs, hc.1, hc.2, rfl, zero_le _, fun _ => trivial⟩
  · cases h
    refine ⟨.same, hs, ?_⟩
    unfold Holds goto
    split_ifs <;> exact hc
  · exact step_asking hstep hs hc₀ hfail hnext
  · cases h
    exact ⟨.same, hs, honly⟩
  · cases h
    exact ⟨.delete _, hs.cacheDelete _, hnone.onlyEntry _, hnone.ownEntry _ _⟩
  · -- the commit of the other two
    cases h
    refine ⟨.commit _ _, hs.commit fun entry hget hwriter => ?_, honly.commit _, ?_,
      fun entry hget hwriter => ?_⟩
    · exact (hc.2 entry hget hwriter).2 (hcommit entry hget).2
    · exact (committed_commit _).ge
    · rcases get_adopt hget with ⟨hold, hne⟩ | ⟨_, _, _, _, rfl⟩
      · exact absurd (hcommit entry hold).1 (hne rfl)
      · exact le_rfl
  · cases h

end Change

/-! ### Whole runs -/

namespace RBACCall

variable {s s' : CachedRBAC} {c c' : RBACCall} {e : Option String} {i j : ℕ}

/-- What holds of position `i` of the pool. -/
def Slot (s : CachedRBAC) (i : ℕ) : Option RBACCall → Prop
  | none => s.NoEntry i
  | some (.check c) => s.NoEntry i ∧ c.Since s.repo 0
  | some (.change c) => c.Holds i s

theorem slot_starts (hc : c.starts = true) (h : Slot s i none) : Slot s i (some c) := by
  cases c with
  | check c =>
    exact ⟨h, Check.since_lookup (of_decide_eq_true hc)⟩
  | change c =>
    rw [starts, Bool.and_eq_true] at hc
    have hstep := hc.2
    show c.Holds i s
    unfold Change.Holds
    split at hstep <;> rename_i hstep'
    case h_4 => cases hstep
    all_goals
      rw [hstep']
      exact h

variable {p : Pool CachedRBAC RBACCall}

theorem slot_next (hs : p.store.Inv)
    (hc : Slot p.store i (some c)) (hG : InTime p i c e) (h : c.next i p.store e = some (s', c')) :
    CachedRBAC.Effect i p.store s' ∧ s'.Inv ∧ Slot s' i (some c') := by
  cases c with
  | check c =>
    obtain ⟨⟨s₁, c₁⟩, hnext, heq⟩ := Option.map_eq_some_iff.1 h
    cases heq
    obtain ⟨hnone, hsince⟩ := hc
    obtain ⟨heff, hinv, hnone'⟩ := Check.step_outside hs hnone hsince hG hnext
    have hsince' : c₁.Since p.store.repo 0 := by
      refine hsince.next hs (zero_le _) (fun hstep entry hget => ⟨?_, zero_le _⟩) hnext
      exact Check.InTime.lookup hG hstep entry hget
    exact ⟨heff, hinv, hnone', hsince'.effect heff⟩
  | change c =>
    obtain ⟨⟨s₁, c₁⟩, hnext, heq⟩ := Option.map_eq_some_iff.1 h
    cases heq
    exact Change.step_holds hs hc hG hnext

theorem slot_effect {x : Option RBACCall} (hx : Slot s j x) (h : CachedRBAC.Effect i s s')
    (hs : s.Inv) (hj : j ≠ i) : Slot s' j x := by
  match x, hx with
  | none, hx => exact hx.effect h hs hj
  | some (.check c), hx =>
    exact ⟨hx.1.effect h hs hj, Check.Since.effect hx.2 h⟩
  | some (.change c), hx => exact Change.Holds.effect hx h hs hj

end RBACCall

/-- With an empty cache. -/
def CachedRBAC.new (repo : RBACRepository) (cacheTTL : ℕ) : CachedRBAC :=
  { repo := ⟨[], repo⟩, cacheTTL }

theorem slotsInv_new (repo : RBACRepository) (cacheTTL : ℕ) :
    SlotsInv CachedRBAC.Inv RBACCall.Slot (Pool.idle (new repo cacheTTL)) :=
  ⟨⟨fun _ => le_rfl, fun _ _ h => (by cases h)⟩, fun _ _ _ h => (by cases h)⟩

theorem slotsInv_step :
    StableUnder rbac.step (GuardedAt InTime) (SlotsInv CachedRBAC.Inv RBACCall.Slot) := by
  refine Program.slotsInv_step (fun s i c _ hc hslot => ?_) fun p i e c s' c' hs hslot hG hn => ?_
  · exact RBACCall.slot_starts hc hslot
  · obtain ⟨heff, hs', hslot'⟩ := RBACCall.slot_next hs hslot hG hn
    exact ⟨hs', hslot', fun j hj hx => RBACCall.slot_effect hx heff hs hj⟩

/-- Change `j` of the user has returned and has made version `k`, and call `i`, if it is a check of
the user, uses nothing that is older. -/
structure Follows (i j k userID : ℕ) (p : Pool CachedRBAC RBACCall) : Prop where
  inv : SlotsInv CachedRBAC.Inv RBACCall.Slot p
  change : ∃ c, p.calls[j]? = some (.change c) ∧ c.step = .returned (.ok k) ∧ c.userID = userID
  check : ∀ c, p.calls[i]? = some (.check c) → c.userID = userID → c.Since p.store.repo k

theorem Follows.notOlder {i j userID : ℕ}
    (h : Follows i j k userID p) : Change.NotOlder p.store userID k := by
  obtain ⟨c, hc, hstep, rfl⟩ := h.change
  have hslot := h.inv.slot j
  rw [hc] at hslot
  have hholds : c.Holds j p.store := hslot
  unfold Change.Holds at hholds
  rw [hstep] at hholds
  exact hholds.2

theorem Follows.next {i j userID : ℕ} {d : RBACCall} {c : Check}
    {e : Option String} {s' : CachedRBAC} (hp : Follows i j k userID p)
    (hd : p.calls[i]? = some d) (hG : InTime p i d e) (hn : d.next i p.store e = some (s', .check c))
    (huser : c.userID = userID) : c.Since p.store.repo k := by
  obtain ⟨hk, hentry⟩ := hp.notOlder
  cases d with
  | check d =>
    obtain ⟨⟨s₁, c₁⟩, hnext, heq⟩ := Option.map_eq_some_iff.1 hn
    cases heq
    have huser' : d.userID = userID := (Check.next_moves hnext).asks.1.symm.trans huser
    refine (hp.check d hd huser').next hp.inv.store (hk.trans (hp.inv.store.committed userID))
      (fun hstep entry hget => ?_) hnext
    have hwriter := Check.InTime.lookup hG hstep entry hget
    rw [huser'] at hget
    exact ⟨hwriter, hentry entry (get_of_cacheGet hget) hwriter⟩
  | change d =>
    obtain ⟨_, _, heq⟩ := Option.map_eq_some_iff.1 hn
    cases heq

theorem follows_step (i j k userID : ℕ) :
    StableUnder rbac.step (GuardedAt InTime) (Follows i j k userID) := by
  intro p m p' hp hG h
  refine ⟨slotsInv_step p m p' hp.inv hG h, ?_, ?_⟩
  · -- a change that has returned makes no step
    obtain ⟨c, hc, hstep, huser⟩ := hp.change
    refine ⟨c, ?_, hstep, huser⟩
    obtain ⟨d, rfl, hd, rfl⟩ | ⟨l, e, d, s', d', rfl, hd, hn, rfl⟩ := Program.step_cases h
    · rw [getElem?_append_left (List.getElem?_eq_some_iff.1 hc).1]
      exact hc
    · by_cases hl : l = j
      · subst hl
        rw [hc] at hd
        cases hd
        simp [rbac, RBACCall.next, Change.next, hstep] at hn
      · rw [getElem?_set_ne hl]
        exact hc
  · intro c hc huser
    obtain ⟨d, rfl, hd, rfl⟩ | ⟨l, e, d, s', d', rfl, hd, hn, rfl⟩ := Program.step_cases h
    · by_cases hlt : i < p.calls.length
      · rw [getElem?_append_left hlt] at hc
        exact hp.check c hc huser
      · -- the check begins
        rw [getElem?_append_right (Nat.le_of_not_lt hlt)] at hc
        obtain rfl := mem_singleton.1 (mem_of_getElem? hc)
        exact Check.since_lookup (of_decide_eq_true hd)
    · have hslot := hp.inv.slot l
      rw [hd] at hslot
      obtain ⟨heff, _, _⟩ := RBACCall.slot_next hp.inv.store hslot (hG d hd) hn
      rcases getElem?_set_cases hc with ⟨rfl, rfl⟩ | ⟨-, hc⟩
      · exact (hp.next hd (hG d hd) hn huser).effect heff
      · exact (hp.check c hc huser).effect heff

/-- A check that begins after a change of its user has returned has its answer from rows that were
all read in the version of the change or in later ones. -/
def AnswersFollow (p p' : Pool CachedRBAC RBACCall) : Prop :=
  ∀ (i j k : ℕ) (change : Change) (check : Check) (can : Bool),
    p.calls[j]? = some (.change change) → change.step = .returned (.ok k) →
    (∀ c : Check, p.calls[i]? = some (.check c) → c.step = .lookup) →
    p'.calls[i]? = some (.check check) → check.userID = change.userID →
    check.step = .answered can → check.Answers p'.store.repo k can

/-- **Checks follow changes**, as long as every step is in time. -/
theorem checks_follow_changes {repo : RBACRepository} {cacheTTL : ℕ}
    {ms ms' : List (Move RBACCall (Option String))} {p p' : Pool CachedRBAC RBACCall}
    (hrun : run rbac.step (Pool.idle (CachedRBAC.new repo cacheTTL)) ms = some p)
    (hrun' : run rbac.step p ms' = some p')
    (hG : Along rbac.step (GuardedAt InTime) (Pool.idle (CachedRBAC.new repo cacheTTL))
      (ms ++ ms')) : AnswersFollow p p' := by
  intro i j k change check can hchange hret hbeg hcheck huser hans
  obtain ⟨hG, hG'⟩ := (along_append hrun).1 hG
  have hinv := run_inv _ slotsInv_step (slotsInv_new repo cacheTTL) hG hrun
  have hfoll : Follows i j k change.userID p :=
    ⟨hinv, ⟨change, hchange, hret, rfl⟩, fun c hc _ => Check.since_lookup (hbeg c hc)⟩
  have hfoll' := run_inv _ (follows_step i j k change.userID) hfoll hG' hrun'
  have hsince := hfoll'.check check hcheck huser
  unfold Check.Since at hsince
  rw [hans] at hsince
  exact hsince

def adminRow : Permission := { abilityID := 1, entityID := some 1, entityType := some .role }

def administrator : RBACRepository :=
  ((({} : RBACRepository).saveRole ⟨0, "admin"⟩).saveAbility { name := "admin" }).savePermission
    adminRow |>.assignRole 7 .user (.ofRole ⟨1, "admin"⟩)

def mayAdministrate : Check := { userID := 7, question := .can ["admin"] }

def loseRoles : Change := { userID := 7, step := .getRoles [] }

def lostRoles : Change where
  userID := 7
  step := .returned (.ok 1)
  pending := [.clearRolesForEntity 7, .assignRolesForEntity 7 []]

/-- `n` steps of call `i`, without an error. -/
def steps (i n : ℕ) : List (Move RBACCall (Option String)) := List.replicate n (.advance i none)

theorem answers_after_lost_roles : ∃ p p' : Pool CachedRBAC RBACCall, ∃ check : Check,
      run rbac.step (Pool.idle (CachedRBAC.new administrator 1))
        (.spawn (.change loseRoles) :: steps 0 5) = some p ∧
      run rbac.step p (.spawn (.check mayAdministrate) :: steps 1 4) = some p' ∧
      p'.calls[1]? = some (.check check) ∧ check.step = .answered false ∧
      check.Answers p'.store.repo 1 false := by
  have hG : Along rbac.step (GuardedAt InTime) (Pool.idle (CachedRBAC.new administrator 1))
      ((.spawn (.change loseRoles) :: steps 0 5) ++
        .spawn (.check mayAdministrate) :: steps 1 4) := by decide
  refine ⟨_, _, { mayAdministrate with step := .answered false, stamp := 1 }, rfl, rfl, rfl, rfl, ?_⟩
  exact checks_follow_changes rfl rfl hG 1 0 1 lostRoles _ _ rfl rfl (fun _ h => (by cases h)) rfl
    rfl rfl

/-- A check reads the role and its rows; then the user loses the role, and the entry is deleted;
then the check stores what it has read. -/
theorem answers_from_old_roles : ¬ ∀ repo cacheTTL ms ms' p p',
      run rbac.step (Pool.idle (CachedRBAC.new repo cacheTTL)) ms = some p →
        run rbac.step p ms' = some p' → AnswersFollow p p' := by
  intro hall
  have h := hall administrator 1
    (.spawn (.check mayAdministrate) :: .spawn (.change loseRoles) :: (steps 0 4 ++ steps 1 5))
    (steps 0 1 ++ .spawn (.check mayAdministrate) :: steps 2 1) _ _ rfl rfl 2 1 1 lostRoles
    { mayAdministrate with step := .answered true } true rfl rfl (fun _ h => (by cases h)) rfl rfl rfl
  obtain ⟨lo, hi, rows, hk, hlo, hhi, hrows, htrue⟩ := h
  obtain rfl : lo = 1 := Nat.le_antisymm (hlo.trans hhi) hk
  obtain rfl : hi = 1 := Nat.le_antisymm hhi hlo
  rw [hrows.eq_rows rfl] at htrue
  exact absurd htrue (by decide)

end RBAC

end GameAP
