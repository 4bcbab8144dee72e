import GameAP.Domain
import GameAP.Lib.Tables

/-!
# Permissions of a user

`rbac.RBAC` answers whether a user has an ability.  It collects the permission rows of the user and
of the roles that are assigned to the user (`getAllPermissionsForUser`), groups them by the name of
the ability, and scans the rows of each ability that is asked for: `can` and `canOneOf` look for an
unscoped row, `canForEntity` and `canAnyForEntity` for rows whose scope covers an entity.

`Content` is a repository whose reads succeed.  `Content.rows` lists what the checks see, and
`can_content` to `canAnyForEntity_content` say that each check is a scan of these rows.
-/

namespace GameAP

open Tables List

/-- The types that the panel knows, and any other value of the column. -/
inductive EntityType
  | empty
  | user
  | node
  | clientCertificate
  | game
  | gameMod
  | server
  | role
  | other (name : String)
  deriving DecidableEq

abbrev AbilityName := String

/-- `domain.Ability`.  Without an entity type and id it is unscoped. -/
structure Ability where
  id : ℕ := 0
  name : AbilityName
  entityID : Option ℕ := none
  entityType : Option EntityType := none
  scope : Option ℤ := none
  deriving DecidableEq

def createAbilityForEntity (name : AbilityName) (entityID : ℕ) (entityType : EntityType) : Ability :=
  { name, entityID := some entityID, entityType := some entityType }

/-- The ability is allowed or forbidden to an entity (a user or a role). -/
structure Permission where
  id : ℕ := 0
  abilityID : ℕ := 0
  entityID : Option ℕ := none
  entityType : Option EntityType := none
  forbidden : Bool := false
  ability : Option Ability := none
  deriving DecidableEq

structure Role where
  id : ℕ
  name : String
  deriving DecidableEq

/-- A role as it is assigned to an entity. -/
structure RestrictedRole extends Role where
  restrictedToID : Option ℕ := none
  restrictedToType : Option EntityType := none
  deriving DecidableEq

/-- `domain.NewRestrictedRoleFromRole`. -/
def RestrictedRole.ofRole (role : Role) : RestrictedRole := { role with }

namespace RBAC

/-- The reads of `rbac.Repository` that a check makes. -/
structure Repository where
  getPermissions : ℕ → EntityType → Except String (List Permission)
  getRolesForEntity : ℕ → EntityType → Except String (List RestrictedRole)

def withMessage {α : Type} (message : String) : Except String α → Except String α
  | .error err => .error (message ++ ": " ++ err)
  | .ok a => .ok a

/-- The permission rows of a user by the name of their ability. -/
abbrev PermissionMap := Table AbilityName (List Permission)

/-- `permissionsByAbilityName[name]`: a name without an entry has no rows. -/
def PermissionMap.find (m : PermissionMap) (name : AbilityName) : List Permission :=
  (m.get name).getD []

/-! ### Collecting the rows -/

/-- The rows that a role contributes.  An assignment for a type keeps the rows of this type, one for
a type and an id the rows of this id, and one for an id alone nothing. -/
def restrict (role : RestrictedRole) (rolePermissions : List Permission) : List Permission :=
  match role.restrictedToType, role.restrictedToID with
  | none, none => rolePermissions
  | some t, none => rolePermissions.filter fun p =>
    match p.ability with
    | none => false
    | some ability =>
      match ability.entityType with
      | none => false
      | some t' => t' = t
  | some _, some id => rolePermissions.filter fun p =>
    match p.ability with
    | none => false
    | some ability =>
      match ability.entityID with
      | none => false
      | some id' => id' = id
  | none, some _ => []

/-- The rows that pass the restriction of a role. -/
def admits (role : RestrictedRole) (p : Permission) : Bool :=
  match role.restrictedToType, role.restrictedToID with
  | none, none => true
  | some t, none => p.ability.any fun ability => ability.entityType = some t
  | some _, some id => p.ability.any fun ability => ability.entityID = some id
  | none, some _ => false

theorem restrict_eq_filter (role : RestrictedRole) (rows : List Permission) :
    restrict role rows = rows.filter (admits role) := by
  unfold restrict admits
  split
  · simp
  · refine filter_congr fun p _ => ?_
    cases p.ability with
    | none => rfl
    | some ability => cases h : ability.entityType <;> simp [h]
  · refine filter_congr fun p _ => ?_
    cases p.ability with
    | none => rfl
    | some ability => cases h : ability.entityID <;> simp [h]
  · simp

/-- The loop over the roles. -/
def addRolePermissions (repo : Repository) (userPermissions : List Permission) :
    List RestrictedRole → Except String (List Permission)
  | [] => .ok userPermissions
  | role :: roles =>
    match repo.getPermissions role.id .role with
    | .error err => withMessage "failed to get permissions for role" (.error err)
    | .ok rolePermissions =>
      addRolePermissions repo (userPermissions ++ restrict role rolePermissions) roles

/-- Group the rows by the name of their ability; a row without an ability is left out. -/
def group (rows : List Permission) : PermissionMap :=
  rows.foldl (fun m p =>
    match p.ability with
    | none => m
    | some ability => m.put ability.name (m.find ability.name ++ [p])) ∅

/-- `cached` is what the cache holds for the user. -/
def getAllPermissionsForUser (cached : Option PermissionMap) (repo : Repository) (userID : ℕ) :
    Except String PermissionMap :=
  match cached with
  | some permissions => .ok permissions
  | none => do
    let userPermissions ← withMessage "failed to get all permissions for user"
      (repo.getPermissions userID .user)
    let roles ← withMessage "failed to get roles for user" (repo.getRolesForEntity userID .user)
    let userPermissions ← addRolePermissions repo userPermissions roles
    return group userPermissions

/-! ### The checks -/

/-- What `Can` does at a row: deny, accept, or look at the next one. -/
def vote (p : Permission) : Option Bool :=
  if p.forbidden then some false
  else
    match p.ability with
    | none => none
    | some ability =>
      if ability.entityType.isSome then none
      else if ability.entityType.isNone && ability.entityID.isNone then some true
      else none

/-- The loops of `Can`: the number of abilities that were accepted, `none` after a denial. -/
def countAccepted (permissions : PermissionMap) : List AbilityName → ℕ → Option ℕ
  | [], counter => some counter
  | name :: abilities, counter =>
    match (permissions.find name).findSome? vote with
    | some false => none
    | some true => countAccepted permissions abilities (counter + 1)
    | none => countAccepted permissions abilities counter

def can (cached : Option PermissionMap) (repo : Repository) (userID : ℕ)
    (abilities : List AbilityName) : Except String Bool := do
  let permissions ← withMessage "get permissions for user"
    (getAllPermissionsForUser cached repo userID)
  return countAccepted permissions abilities 0 == some abilities.length

/-- The rows that make `CanOneOf` accept. -/
def accepts (p : Permission) : Bool :=
  !p.forbidden &&
    match p.ability with
    | none => false
    | some ability => ability.entityType.isNone && ability.entityID.isNone

def canOneOf (cached : Option PermissionMap) (repo : Repository) (userID : ℕ)
    (abilities : List AbilityName) : Except String Bool := do
  let permissions ← withMessage "get permissions for user"
    (getAllPermissionsForUser cached repo userID)
  return abilities.any fun name => (permissions.find name).any accepts

def abilityScopeMatchesEntity (ability : Option Ability) (entityType : EntityType)
    (entityID : ℕ) : Bool :=
  match ability with
  | none => false
  | some ability =>
    match ability.entityType, ability.entityID with
    | none, none => true
    | none, some _ => false
    | some t, none => t = entityType
    | some t, some id => t = entityType && id = entityID

/-- `grantsAbilityForEntity`, with the rows that are left and whether one has granted already. -/
def grantsFrom (entityType : EntityType) (entityID : ℕ) : List Permission → Bool → Bool
  | [], granted => granted
  | p :: permissions, granted =>
    if !abilityScopeMatchesEntity p.ability entityType entityID then
      grantsFrom entityType entityID permissions granted
    else if p.forbidden then false
    else grantsFrom entityType entityID permissions true

/-- Forbidden rows win. -/
def grantsAbilityForEntity (permissions : List Permission) (entityType : EntityType)
    (entityID : ℕ) : Bool :=
  grantsFrom entityType entityID permissions false

section

variable (cached : Option PermissionMap) (repo : Repository) (userID : ℕ) (entityType : EntityType)
  (entityID : ℕ) (abilities : List AbilityName)

def canForEntity : Except String Bool := do
  let permissions ← withMessage "get permissions for user"
    (getAllPermissionsForUser cached repo userID)
  return abilities.all fun name =>
    grantsAbilityForEntity (permissions.find name) entityType entityID

def canAnyForEntity : Except String Bool := do
  let permissions ← withMessage "get permissions for user"
    (getAllPermissionsForUser cached repo userID)
  return abilities.any fun name =>
    grantsAbilityForEntity (permissions.find name) entityType entityID

end

/-! ### What `Can` counts -/

section

variable (permissions : PermissionMap) (abilities : List AbilityName)

theorem countAccepted_eq (counter n : ℕ) : countAccepted permissions abilities counter = some n →
      counter ≤ n ∧ n ≤ counter + abilities.length ∧ (n = counter + abilities.length ↔
        ∀ name ∈ abilities, (permissions.find name).findSome? vote = some true) := by
  induction abilities generalizing counter with
  | nil =>
    intro h
    cases h
    simp
  | cons name abilities ih =>
    intro h
    rw [countAccepted] at h
    split at h
    · cases h
    · rename_i hvote
      obtain ⟨hle, hub, hiff⟩ := ih _ h
      refine ⟨by omega, by simp only [length_cons]; omega, ?_⟩
      simp only [length_cons, forall_mem_cons, hvote, true_and, ← hiff]
      omega
    · rename_i hvote
      obtain ⟨hle, hub, hiff⟩ := ih _ h
      refine ⟨by omega, by simp only [length_cons]; omega, ?_⟩
      simp only [length_cons, forall_mem_cons, hvote]
      constructor
      · intro hn
        omega
      · rintro ⟨⟨⟩, _⟩

theorem countAccepted_eq_none
    (counter : ℕ) (h : countAccepted permissions abilities counter = none) :
    ∃ name ∈ abilities, (permissions.find name).findSome? vote = some false := by
  induction abilities generalizing counter with
  | nil => cases h
  | cons name abilities ih =>
    rw [countAccepted] at h
    split at h
    · exact ⟨name, mem_cons_self, ‹_›⟩
    all_goals
      obtain ⟨name', hmem, hvote⟩ := ih _ h
      exact ⟨name', mem_cons_of_mem name hmem, hvote⟩

theorem countAccepted_iff : countAccepted permissions abilities 0 = some abilities.length ↔
      ∀ name ∈ abilities, (permissions.find name).findSome? vote = some true := by
  cases hcount : countAccepted permissions abilities 0 with
  | none =>
    obtain ⟨name, hmem, hvote⟩ := countAccepted_eq_none _ _ _ hcount
    refine ⟨nofun, fun hall => ?_⟩
    rw [hall name hmem] at hvote
    cases hvote
  | some n =>
    obtain ⟨_, _, hiff⟩ := countAccepted_eq _ _ _ _ hcount
    rw [← hiff, Option.some.injEq, Nat.zero_add]

end

/-! ### What the grouped rows are -/

/-- The row is one of the ability `name`. -/
def hasName (name : AbilityName) (p : Permission) : Bool :=
  p.ability.any fun ability => ability.name = name

theorem find_foldl_group (rows : List Permission) (m : PermissionMap) (name : AbilityName) :
    PermissionMap.find (rows.foldl (fun m p =>
      match p.ability with
      | none => m
      | some ability => m.put ability.name (m.find ability.name ++ [p])) m) name =
    m.find name ++ rows.filter (hasName name) := by
  induction rows generalizing m with
  | nil => simp
  | cons p rows ih =>
    rw [foldl_cons, ih]
    cases hp : p.ability with
    | none => simp [hasName, hp]
    | some ability =>
      by_cases hname : ability.name = name
      · subst hname
        simp [PermissionMap.find, hasName, hp]
      · have hne : name ≠ ability.name := fun h => hname h.symm
        simp [PermissionMap.find, Table.get_put_ne, hasName, hp, hname, hne]

theorem find_group (rows : List Permission) (name : AbilityName) :
    (group rows).find name = rows.filter (hasName name) := by
  rw [group, find_foldl_group]
  rfl

/-! ### Repositories whose reads succeed -/

/-- What a repository holds, in the order in which it returns it. -/
structure Content where
  permissions : ℕ → EntityType → List Permission
  roles : ℕ → EntityType → List RestrictedRole

namespace Content

variable (c : Content)

/-- Its reads succeed. -/
def repository : Repository where
  getPermissions id entityType := .ok (c.permissions id entityType)
  getRolesForEntity id entityType := .ok (c.roles id entityType)

/-- The rows of the roles that are assigned to the user. -/
def roleRows (userID : ℕ) : List Permission :=
  (c.roles userID .user).flatMap fun role => restrict role (c.permissions role.id .role)

/-- Everything that a check for the user sees: the rows of the user, then those of the roles. -/
def rows (userID : ℕ) : List Permission := c.permissions userID .user ++ c.roleRows userID

/-- The rows of an ability. -/
def rowsOf (userID : ℕ) (name : AbilityName) : List Permission :=
  (c.rows userID).filter (hasName name)

theorem addRolePermissions_content (rows : List Permission) (roles : List RestrictedRole) :
    addRolePermissions c.repository rows roles =
      .ok (rows ++ roles.flatMap fun role => restrict role (c.permissions role.id .role)) := by
  induction roles generalizing rows with
  | nil => simp [addRolePermissions]
  | cons role roles ih =>
    simp only [addRolePermissions, repository, flatMap_cons]
    rw [← append_assoc]
    exact ih _

section

variable (userID : ℕ)

theorem getAllPermissionsForUser_content :
    getAllPermissionsForUser none c.repository userID = .ok (group (c.rows userID)) := by
  have hroles := c.addRolePermissions_content (c.permissions userID .user) (c.roles userID .user)
  simp only [getAllPermissionsForUser, repository, withMessage] at hroles ⊢
  simp only [bind, Except.bind, hroles]
  rfl

/-! ### The checks as scans of the rows -/

theorem can_content (abilities : List AbilityName) : can none c.repository userID abilities =
      .ok (abilities.all fun name => (c.rowsOf userID name).findSome? vote == some true) := by
  have hiff := countAccepted_iff (group (c.rows userID)) abilities
  simp only [can, getAllPermissionsForUser_content, withMessage, bind, Except.bind, pure,
    Except.pure, Except.ok.injEq]
  rw [Bool.eq_iff_iff, beq_iff_eq, hiff, all_eq_true]
  simp only [find_group, beq_iff_eq]
  rfl

theorem canOneOf_content (abilities : List AbilityName) :
    canOneOf none c.repository userID abilities =
      .ok (abilities.any fun name => (c.rowsOf userID name).any accepts) := by
  simp only [canOneOf, getAllPermissionsForUser_content, withMessage, bind, Except.bind, pure,
    Except.pure, find_group]
  rfl

section

variable (entityType : EntityType) (entityID : ℕ) (abilities : List AbilityName)

theorem canForEntity_content : canForEntity none c.repository userID entityType entityID abilities =
      .ok (abilities.all fun name =>
        grantsAbilityForEntity (c.rowsOf userID name) entityType entityID) := by
  simp only [canForEntity, getAllPermissionsForUser_content, withMessage, bind, Except.bind, pure,
    Except.pure, find_group]
  rfl

theorem canAnyForEntity_content :
    canAnyForEntity none c.repository userID entityType entityID abilities =
      .ok (abilities.any fun name =>
        grantsAbilityForEntity (c.rowsOf userID name) entityType entityID) := by
  simp only [canAnyForEntity, getAllPermissionsForUser_content, withMessage, bind, Except.bind,
    pure, Except.pure, find_group]
  rfl

end

end

end Content

end RBAC

end GameAP
