import GameAP.RBAC.Permissions

/-!
# The in-memory repository of roles and permissions

`inmemory.RBACRepository`: tables of roles, role assignments, abilities and permissions, each with a
counter of 32 bits for its ids.  A save with an id of its own does not move the counter.

`Allow` and `Forbid` create the abilities that are missing and add one permission row for each;
`Revoke` deletes the rows of an entity for the abilities it finds (`get_revoke`).

* `content` is what the repository shows to the checks;
* `WellFormed` says that the ids in use are at most the counters and that no two abilities have the
  same key, and `HasRoom` that the counters do not wrap soon: then a new id is not in use.
-/

namespace GameAP

open Tables RBAC Table List

/-- The assignment of a role. -/
structure AssignedRole where
  id : ℕ := 0
  roleID : ℕ
  entityID : ℕ
  entityType : EntityType
  restrictedToID : Option ℕ := none
  restrictedToType : Option EntityType := none
  deriving DecidableEq

/-- `inmemory.RBACRepository`.  The key of a record is its id. -/
structure RBACRepository where
  roles : Table ℕ Role := ∅
  assignedRoles : Table ℕ AssignedRole := ∅
  abilities : Table ℕ Ability := ∅
  permissions : Table ℕ Permission := ∅
  nextRoleID : ℕ := 0
  nextAssignedID : ℕ := 0
  nextAbilityID : ℕ := 0
  nextPermissionID : ℕ := 0

/-- The number of values of an `atomic.Uint32`. -/
def uint32Size : ℕ := 4294967296

/-- `Add(1)` on an `atomic.Uint32`. -/
def addOne (counter : ℕ) : ℕ := (counter + 1) % uint32Size

namespace RBACRepository

variable (r : RBACRepository)

/-! ### Reading -/

def getRoles : List Role := r.roles.entries.map fun e => e.2

def getRolesForEntity (entityID : ℕ) (entityType : EntityType) : List RestrictedRole :=
  r.assignedRoles.entries.filterMap fun e =>
    if e.2.entityID = entityID ∧ e.2.entityType = entityType then
      (r.roles.get e.2.roleID).map fun role =>
        { role with restrictedToID := e.2.restrictedToID, restrictedToType := e.2.restrictedToType }
    else none

/-- A row as it is returned, with its ability; rows are stored without one. -/
def attach (p : Permission) : Permission := { p with ability := r.abilities.get p.abilityID }

def getPermissions (entityID : ℕ) (entityType : EntityType) : List Permission :=
  r.permissions.entries.filterMap fun e =>
    if e.2.entityID = some entityID ∧ e.2.entityType = some entityType then some (r.attach e.2)
    else none

/-- What the checks see. -/
def content : Content where
  permissions := r.getPermissions
  roles := r.getRolesForEntity

/-! ### Writing -/

def saveRole (role : Role) : RBACRepository :=
  if role.id = 0 then
    { r with
      nextRoleID := addOne r.nextRoleID
      roles := r.roles.put (addOne r.nextRoleID) { role with id := addOne r.nextRoleID } }
  else { r with roles := r.roles.put role.id role }

def saveAbility (ability : Ability) : RBACRepository :=
  if ability.id = 0 then
    { r with
      nextAbilityID := addOne r.nextAbilityID
      abilities := r.abilities.put (addOne r.nextAbilityID)
        { ability with id := addOne r.nextAbilityID } }
  else { r with abilities := r.abilities.put ability.id ability }

def savePermission (p : Permission) : RBACRepository :=
  if p.id = 0 then
    { r with
      nextPermissionID := addOne r.nextPermissionID
      permissions := r.permissions.put (addOne r.nextPermissionID)
        { p with id := addOne r.nextPermissionID, ability := none } }
  else { r with permissions := r.permissions.put p.id { p with ability := none } }

section

variable (entityID : ℕ) (entityType : EntityType)

def clearRolesForEntity : RBACRepository :=
  { r with assignedRoles := r.assignedRoles.delWhere fun id =>
      (r.assignedRoles.get id).any fun a => a.entityID = entityID ∧ a.entityType = entityType }

/-- One round of `AssignRolesForEntity`: an assignment that exists is not made again. -/
def assignRole (role : RestrictedRole) : RBACRepository :=
  if r.assignedRoles.entries.any fun e => e.2.entityID = entityID ∧ e.2.entityType = entityType ∧
      e.2.roleID = role.id ∧ e.2.restrictedToID = role.restrictedToID ∧
      e.2.restrictedToType = role.restrictedToType then r
  else
    { r with
      nextAssignedID := addOne r.nextAssignedID
      assignedRoles := r.assignedRoles.put (addOne r.nextAssignedID)
        { id := addOne r.nextAssignedID, roleID := role.id, entityID, entityType,
          restrictedToID := role.restrictedToID, restrictedToType := role.restrictedToType } }

def assignRolesForEntity (roles : List RestrictedRole) : RBACRepository :=
  roles.foldl (fun r role => r.assignRole entityID entityType role) r

end

/-- The key of an ability. -/
def abilitiesMatch (a b : Ability) : Bool :=
  a.name = b.name && a.entityID = b.entityID && a.entityType = b.entityType && a.scope = b.scope

/-- For each of the abilities the first one that matches. -/
def findAbilityIDs (abilities : List Ability) : List ℕ :=
  abilities.filterMap fun ability =>
    (r.abilities.entries.find? fun e => abilitiesMatch e.2 ability).map fun e => e.1

def saveOrGetAbility (ability : Ability) : RBACRepository :=
  if r.abilities.entries.any fun e => abilitiesMatch e.2 ability then r
  else
    { r with
      nextAbilityID := addOne r.nextAbilityID
      abilities := r.abilities.put (addOne r.nextAbilityID)
        { ability with id := addOne r.nextAbilityID } }

/-- The row that `applyAbilities` makes for an ability. -/
def newPermission (id entityID : ℕ) (entityType : EntityType) (forbidden : Bool)
    (abilityID : ℕ) : Permission :=
  { id, abilityID, entityID := some entityID, entityType := some entityType, forbidden }

section

variable (entityID : ℕ) (entityType : EntityType)

/-- One round of the third step of `applyAbilities`. -/
def addPermission (forbidden : Bool) (abilityID : ℕ) : RBACRepository :=
  { r with
    nextPermissionID := addOne r.nextPermissionID
    permissions := r.permissions.put (addOne r.nextPermissionID)
      (newPermission (addOne r.nextPermissionID) entityID entityType forbidden abilityID) }

def applyAbilities (abilities : List Ability)
    (forbidden : Bool) : RBACRepository :=
  if abilities.isEmpty then r
  else
    let r₁ := abilities.foldl saveOrGetAbility r
    (r₁.findAbilityIDs abilities).foldl
      (fun r abilityID => r.addPermission entityID entityType forbidden abilityID) r₁

def allow (abilities : List Ability) : RBACRepository :=
  r.applyAbilities entityID entityType abilities false

def forbid (abilities : List Ability) : RBACRepository :=
  r.applyAbilities entityID entityType abilities true

def revoke (abilities : List Ability) : RBACRepository :=
  if abilities.isEmpty then r
  else if (r.findAbilityIDs abilities).isEmpty then r
  else
    { r with permissions := r.permissions.delWhere fun id => (r.permissions.get id).any fun p =>
        p.entityID = some entityID && p.entityType = some entityType &&
          (r.findAbilityIDs abilities).contains p.abilityID }

end

/-! ### Rows and abilities -/

variable {r} {id : ℕ}

theorem mem_getPermissions {entityID : ℕ} {entityType : EntityType} {p : Permission} :
    p ∈ r.getPermissions entityID entityType ↔ ∃ id row, r.permissions.get id = some row ∧
      row.entityID = some entityID ∧ row.entityType = some entityType ∧ r.attach row = p := by
  simp only [getPermissions, mem_filterMap]
  constructor
  · rintro ⟨⟨id, row⟩, hmem, hp⟩
    by_cases hrow : row.entityID = some entityID ∧ row.entityType = some entityType
    · rw [if_pos hrow] at hp
      cases hp
      exact ⟨id, row, get_eq_some_iff.2 hmem, hrow.1, hrow.2, rfl⟩
    · rw [if_neg hrow] at hp
      cases hp
  · rintro ⟨id, row, hget, hid, htype, rfl⟩
    exact ⟨⟨id, row⟩, get_eq_some_iff.1 hget, by simp [hid, htype]⟩

theorem abilitiesMatch_iff {a b : Ability} : abilitiesMatch a b = true ↔
    a.name = b.name ∧ a.entityID = b.entityID ∧ a.entityType = b.entityType ∧ a.scope = b.scope := by
  simp [abilitiesMatch, and_assoc]

/-- The ids in use are at most the counters, and an ability is stored once. -/
structure WellFormed (r : RBACRepository) : Prop where
  permissions : ∀ id row, r.permissions.get id = some row →
    id ≤ r.nextPermissionID ∧ row.abilityID ≤ r.nextAbilityID
  abilities : ∀ id ability, r.abilities.get id = some ability → id ≤ r.nextAbilityID
  unique : ∀ id id' a a', r.abilities.get id = some a → r.abilities.get id' = some a' →
    abilitiesMatch a a' = true → id = id'

/-- The counters can hand out `n` more ids without wrapping. -/
def HasRoom (r : RBACRepository) (n : ℕ) : Prop :=
  r.nextAbilityID + n < uint32Size ∧ r.nextPermissionID + n < uint32Size

theorem addOne_of_lt {counter : ℕ} (h : counter + 1 < uint32Size) : addOne counter = counter + 1 :=
  Nat.mod_eq_of_lt h

variable {n m : ℕ}

theorem HasRoom.mono (h : r.HasRoom n) (hle : m ≤ n) : r.HasRoom m := by
  obtain ⟨ha, hp⟩ := h
  exact ⟨by omega, by omega⟩

theorem mem_findAbilityIDs (hr : r.WellFormed) {abilities : List Ability} :
    id ∈ r.findAbilityIDs abilities ↔ ∃ ability ∈ abilities, ∃ a, r.abilities.get id = some a ∧
      abilitiesMatch a ability = true := by
  simp only [findAbilityIDs, mem_filterMap, Option.map_eq_some_iff]
  constructor
  · rintro ⟨ability, habil, ⟨id', a⟩, hfind, rfl⟩
    exact ⟨ability, habil, a, get_eq_some_iff.2 (mem_of_find?_eq_some hfind),
      by simpa using find?_some hfind⟩
  · rintro ⟨ability, habil, a, hget, hmatch⟩
    -- some ability is found, and no other one has the key
    have hsome : (r.abilities.entries.find? fun e => abilitiesMatch e.2 ability).isSome := by
      rw [find?_isSome]
      exact ⟨⟨id, a⟩, get_eq_some_iff.1 hget, hmatch⟩
    obtain ⟨⟨id', a'⟩, hfind⟩ := Option.isSome_iff_exists.1 hsome
    have hget' : r.abilities.get id' = some a' :=
      get_eq_some_iff.2 (mem_of_find?_eq_some hfind)
    have hmatch' : abilitiesMatch a' ability = true := by simpa using find?_some hfind
    have hid : id' = id := by
      refine hr.unique id' id a' a hget' hget ?_
      rw [abilitiesMatch_iff] at hmatch hmatch' ⊢
      obtain ⟨h₁, h₂, h₃, h₄⟩ := hmatch
      obtain ⟨h₁', h₂', h₃', h₄'⟩ := hmatch'
      exact ⟨h₁'.trans h₁.symm, h₂'.trans h₂.symm, h₃'.trans h₃.symm, h₄'.trans h₄.symm⟩
    exact ⟨ability, habil, ⟨id', a'⟩, hfind, hid⟩

/-! ### `Revoke` -/

theorem get_revoke (hr : r.WellFormed) (entityID : ℕ) (entityType : EntityType)
    (abilities : List Ability) (id : ℕ) (row : Permission) :
    (r.revoke entityID entityType abilities).permissions.get id = some row ↔
      r.permissions.get id = some row ∧ ¬ (row.entityID = some entityID ∧
        row.entityType = some entityType ∧ ∃ ability ∈ abilities, ∃ a,
          r.abilities.get row.abilityID = some a ∧ abilitiesMatch a ability = true) := by
  unfold revoke
  split_ifs with hempty hnone
  · rw [List.isEmpty_iff] at hempty
    subst hempty
    simp
  · rw [List.isEmpty_iff] at hnone
    refine ⟨fun h => ⟨h, ?_⟩, fun h => h.1⟩
    rintro ⟨_, _, hfound⟩
    have := (mem_findAbilityIDs hr).2 hfound
    rw [hnone] at this
    cases this
  · rw [get_delWhere]
    cases hget : r.permissions.get id with
    | none => simp
    | some row' =>
      simp only [Option.any_some, Bool.and_eq_true, decide_eq_true_eq, contains_iff_mem,
        mem_findAbilityIDs hr, and_assoc]
      split_ifs with hdel
      · refine iff_of_false nofun ?_
        rintro ⟨⟨⟩, hnot⟩
        exact hnot hdel
      · rw [iff_self_and]
        rintro ⟨⟩
        exact hdel

section

variable (entityID : ℕ) (entityType : EntityType) (abilities : List Ability)

theorem revoke_rest :
    { r.revoke entityID entityType abilities with permissions := r.permissions } = r := by
  unfold revoke
  split_ifs <;> rfl

theorem revoke_abilities : (r.revoke entityID entityType abilities).abilities = r.abilities :=
  (congrArg RBACRepository.abilities (r.revoke_rest entityID entityType abilities) :)

theorem revoke_nextAbilityID :
    (r.revoke entityID entityType abilities).nextAbilityID = r.nextAbilityID :=
  (congrArg RBACRepository.nextAbilityID (r.revoke_rest entityID entityType abilities) :)

theorem revoke_nextPermissionID :
    (r.revoke entityID entityType abilities).nextPermissionID = r.nextPermissionID :=
  (congrArg RBACRepository.nextPermissionID (r.revoke_rest entityID entityType abilities) :)

end

theorem WellFormed.revoke (hr : r.WellFormed) (entityID : ℕ) (entityType : EntityType)
    (abilities : List Ability) : (r.revoke entityID entityType abilities).WellFormed := by
  constructor
  · intro id row hrow
    rw [revoke_nextAbilityID, revoke_nextPermissionID]
    exact hr.permissions id row ((get_revoke hr entityID entityType abilities id row).1 hrow).1
  · rw [revoke_abilities, revoke_nextAbilityID]
    exact hr.abilities
  · rw [revoke_abilities]
    exact hr.unique

theorem HasRoom.revoke (h : r.HasRoom n) (entityID : ℕ) (entityType : EntityType)
    (abilities : List Ability) : (r.revoke entityID entityType abilities).HasRoom n := by
  unfold HasRoom
  rw [revoke_nextAbilityID, revoke_nextPermissionID]
  exact h

/-! ### Creating abilities -/

/-- At most `n` abilities were added, with new ids. -/
structure SavesAbilities (r r' : RBACRepository) (n : ℕ) : Prop where
  rest : { r' with abilities := r.abilities, nextAbilityID := r.nextAbilityID } = r
  next : r.nextAbilityID ≤ r'.nextAbilityID ∧ r'.nextAbilityID ≤ r.nextAbilityID + n
  old : ∀ id ≤ r.nextAbilityID, r'.abilities.get id = r.abilities.get id
  wellFormed : r'.WellFormed

variable {r' : RBACRepository}

theorem SavesAbilities.trans {r'' : RBACRepository} (h : SavesAbilities r r' n)
    (h' : SavesAbilities r' r'' m) : SavesAbilities r r'' (n + m) where
  rest := by
    have hrest := h'.rest
    rw [← h.rest, ← hrest]
  next := by
    obtain ⟨hle, hub⟩ := h.next
    obtain ⟨hle', hub'⟩ := h'.next
    exact ⟨by omega, by omega⟩
  old id hid := (h'.old id (hid.trans h.next.1)).trans (h.old id hid)
  wellFormed := h'.wellFormed

theorem SavesAbilities.permissions (h : SavesAbilities r r' n) : r'.permissions = r.permissions :=
  (congrArg RBACRepository.permissions h.rest :)

theorem SavesAbilities.nextPermissionID (h : SavesAbilities r r' n) :
    r'.nextPermissionID = r.nextPermissionID :=
  (congrArg RBACRepository.nextPermissionID h.rest :)

theorem SavesAbilities.kept (h : SavesAbilities r r' n)
    (hr : r.WellFormed) {a : Ability} (hget : r.abilities.get id = some a) :
    r'.abilities.get id = some a :=
  (h.old id (hr.abilities id a hget)).trans hget

theorem saveOrGetAbility_spec (hr : r.WellFormed) (hroom : r.HasRoom 1) (ability : Ability) :
    SavesAbilities r (r.saveOrGetAbility ability) 1 ∧
      ∃ id a, (r.saveOrGetAbility ability).abilities.get id = some a ∧
        abilitiesMatch a ability = true := by
  unfold saveOrGetAbility
  by_cases hany : (r.abilities.entries.any fun e => abilitiesMatch e.2 ability) = true
  · rw [if_pos hany]
    refine ⟨⟨rfl, ⟨le_rfl, Nat.le_succ _⟩, fun _ _ => rfl, hr⟩, ?_⟩
    obtain ⟨⟨id, a⟩, hmem, hmatch⟩ := any_eq_true.1 hany
    exact ⟨id, a, get_eq_some_iff.2 hmem, hmatch⟩
  · rw [if_neg hany, addOne_of_lt hroom.1]
    have hnot (id : ℕ) (a : Ability) (hget : r.abilities.get id = some a) :
        ¬ abilitiesMatch a ability = true := fun hmatch =>
      hany (any_eq_true.2 ⟨⟨id, a⟩, get_eq_some_iff.1 hget, hmatch⟩)
    refine ⟨⟨rfl, ⟨Nat.le_succ _, le_rfl⟩, fun id hid => ?_, ⟨?_, ?_, ?_⟩⟩, ?_⟩
    · exact get_put_ne _ (by omega) _
    · intro id row hrow
      obtain ⟨hid, habil⟩ := hr.permissions id row hrow
      exact ⟨hid, Nat.le_succ_of_le habil⟩
    · intro id a hget
      simp only [get_put] at hget
      split_ifs at hget with hid
      · exact le_of_eq hid
      · exact Nat.le_succ_of_le (hr.abilities id a hget)
    · -- the new ability matches none of the old ones
      intro id id' a a' hget hget' hmatch
      simp only [get_put] at hget hget'
      rw [abilitiesMatch_iff] at hmatch
      obtain ⟨h₁, h₂, h₃, h₄⟩ := hmatch
      split_ifs at hget hget' with hid hid' hid'
      · rw [hid, hid']
      · cases hget
        exact absurd (abilitiesMatch_iff.2 ⟨h₁.symm, h₂.symm, h₃.symm, h₄.symm⟩) (hnot id' a' hget')
      · cases hget'
        exact absurd (abilitiesMatch_iff.2 ⟨h₁, h₂, h₃, h₄⟩) (hnot id a hget)
      · exact hr.unique id id' a a' hget hget' (abilitiesMatch_iff.2 ⟨h₁, h₂, h₃, h₄⟩)
    · exact ⟨_, _, get_put_self .., abilitiesMatch_iff.2 ⟨rfl, rfl, rfl, rfl⟩⟩

theorem HasRoom.savesAbilities (h : r.HasRoom (n + m))
    (hsaves : SavesAbilities r r' n) : r'.HasRoom m := by
  obtain ⟨ha, hp⟩ := h
  have hub := hsaves.next.2
  refine ⟨by omega, ?_⟩
  rw [hsaves.nextPermissionID]
  omega

theorem foldl_saveOrGetAbility (abilities : List Ability) (hr : r.WellFormed)
    (hroom : r.HasRoom abilities.length) :
    SavesAbilities r (abilities.foldl saveOrGetAbility r) abilities.length ∧
      ∀ ability ∈ abilities, ∃ id a, (abilities.foldl saveOrGetAbility r).abilities.get id = some a ∧
        abilitiesMatch a ability = true := by
  induction abilities generalizing r with
  | nil => exact ⟨⟨rfl, ⟨le_rfl, le_rfl⟩, fun _ _ => rfl, hr⟩, nofun⟩
  | cons ability abilities ih =>
    rw [length_cons, Nat.add_comm] at hroom
    obtain ⟨hsaves, id, a, hget, hmatch⟩ :=
      saveOrGetAbility_spec hr (hroom.mono (Nat.le_add_right _ _)) ability
    obtain ⟨hrest, hfound⟩ := ih hsaves.wellFormed (hroom.savesAbilities hsaves)
    refine ⟨?_, fun b hb => ?_⟩
    · rw [length_cons, Nat.add_comm]
      exact hsaves.trans hrest
    · rcases mem_cons.1 hb with rfl | hb
      · exact ⟨id, a, hrest.kept hsaves.wellFormed hget, hmatch⟩
      · exact hfound b hb

/-! ### Adding rows -/

/-- A row that `applyAbilities` makes for one of the abilities with these ids. -/
def IsNewRow (entityID : ℕ) (entityType : EntityType) (forbidden : Bool) (abilityID : ℕ)
    (row : Permission) : Prop :=
  row.entityID = some entityID ∧ row.entityType = some entityType ∧ row.forbidden = forbidden ∧
    row.abilityID = abilityID

/-- One row was added for each of the ability ids. -/
structure AddsRows (entityID : ℕ) (entityType : EntityType) (forbidden : Bool) (ids : List ℕ)
    (r r' : RBACRepository) : Prop where
  rest : { r' with permissions := r.permissions, nextPermissionID := r.nextPermissionID } = r
  next : r'.nextPermissionID ≤ r.nextPermissionID + ids.length
  kept : ∀ id row, r.permissions.get id = some row → r'.permissions.get id = some row
  new : ∀ id row, r'.permissions.get id = some row → r.permissions.get id = some row ∨
    ∃ abilityID ∈ ids, IsNewRow entityID entityType forbidden abilityID row
  added : ∀ abilityID ∈ ids, ∃ id row, r'.permissions.get id = some row ∧
    IsNewRow entityID entityType forbidden abilityID row
  wellFormed : r'.WellFormed

section

variable {entityID : ℕ} {entityType : EntityType} {forbidden : Bool}

theorem AddsRows.trans {r'' : RBACRepository} {ids ids' : List ℕ}
    (h : AddsRows entityID entityType forbidden ids r r')
    (h' : AddsRows entityID entityType forbidden ids' r' r'') :
    AddsRows entityID entityType forbidden (ids ++ ids') r r'' where
  rest := by
    have hrest := h'.rest
    rw [← h.rest, ← hrest]
  next := by
    have hle := h.next
    have hle' := h'.next
    rw [length_append]
    omega
  kept id row hget := h'.kept id row (h.kept id row hget)
  new id row hget := by
    rcases h'.new id row hget with hget | ⟨b, hb, hnew⟩
    · exact (h.new id row hget).imp_right (.imp fun _ => .imp_left (mem_append_left _))
    · exact .inr ⟨b, mem_append_right _ hb, hnew⟩
  added b hb := by
    rcases mem_append.1 hb with hb | hb
    · obtain ⟨id, row, hget, hnew⟩ := h.added b hb
      exact ⟨id, row, h'.kept id row hget, hnew⟩
    · exact h'.added b hb
  wellFormed := h'.wellFormed

variable (entityID entityType forbidden)

theorem addPermission_adds {abilityID : ℕ} (hr : r.WellFormed)
    (hroom : r.nextPermissionID + 1 < uint32Size) (habil : abilityID ≤ r.nextAbilityID) :
    AddsRows entityID entityType forbidden [abilityID] r
      (r.addPermission entityID entityType forbidden abilityID) where
  rest := rfl
  next := (addOne_of_lt hroom).le
  kept id row hget := by
    -- the id of the new row is not in use
    have := (hr.permissions id row hget).1
    rw [addPermission, addOne_of_lt hroom]
    exact (get_put_ne _ (by omega) _).trans hget
  new id row hget := by
    rcases get_of_put hget with ⟨-, rfl⟩ | hget
    · exact .inr ⟨abilityID, mem_singleton_self _, rfl, rfl, rfl, rfl⟩
    · exact .inl hget
  added b hb := by
    cases mem_singleton.1 hb
    exact ⟨_, _, get_put_self .., rfl, rfl, rfl, rfl⟩
  wellFormed := by
    refine ⟨fun id row hget => ?_, hr.abilities, hr.unique⟩
    rcases get_of_put hget with ⟨rfl, rfl⟩ | hget
    · exact ⟨le_rfl, habil⟩
    · refine (hr.permissions id row hget).imp_left fun hle => ?_
      exact (Nat.le_succ_of_le hle).trans_eq (addOne_of_lt hroom).symm

theorem foldl_addPermission (ids : List ℕ) (hr : r.WellFormed)
    (hroom : r.nextPermissionID + ids.length < uint32Size) (hids : ∀ id ∈ ids, id ≤ r.nextAbilityID) :
    AddsRows entityID entityType forbidden ids r
      (ids.foldl (fun r id => r.addPermission entityID entityType forbidden id) r) := by
  induction ids generalizing r with
  | nil => exact ⟨rfl, le_rfl, fun _ _ h => h, fun _ _ h => .inl h, nofun, hr⟩
  | cons abilityID ids ih =>
    rw [length_cons] at hroom
    obtain ⟨habil, hids⟩ := forall_mem_cons.1 hids
    have hadds := addPermission_adds entityID entityType forbidden hr (by omega) habil
    have hnext : _ ≤ r.nextPermissionID + 1 := hadds.next
    exact hadds.trans (ih hadds.wellFormed (by omega) hids)

end

end RBACRepository

end GameAP
