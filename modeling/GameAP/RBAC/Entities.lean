import GameAP.RBAC.Checks

/-!
# `CanForEntity` and `CanAnyForEntity`

The two checks for an entity look at every row whose scope covers it, and a forbidden row wins over
all others, so what they answer can be said without an order: `Granted` is this deny-overrides rule
over the rows that the user reaches.

* `entity_checks_deny_overrides`: the checks decide `Granted`, they do not depend on the order of
  rows and roles, and a forbidden row more never makes them accept;
* `restricted_role_confined_iff`: a role that is assigned for one entity.  The filter of
  `getAllPermissionsForUser` compares the id of the ability with the id of the assignment and does
  not look at the type, so a row for an entity of another type with the same id passes.
-/

namespace GameAP

/-- The scope of the ability covers the entity: it is unscoped, or of the type of the entity and for
all ids or this one. -/
def Ability.Covers (ability : Ability) (entityType : EntityType) (entityID : ℕ) : Prop :=
  ability.entityType = none ∧ ability.entityID = none ∨
    ability.entityType = some entityType ∧
      (ability.entityID = none ∨ ability.entityID = some entityID)

open List

namespace RBAC

/-- A row of the ability `name` whose scope covers the entity. -/
def Matches (name : AbilityName) (entityType : EntityType) (entityID : ℕ) (p : Permission) : Prop :=
  ∃ ability, p.ability = some ability ∧ ability.name = name ∧ ability.Covers entityType entityID

/-- The row belongs to the user or comes through an assigned role. -/
def Content.Reaches (c : Content) (userID : ℕ) (p : Permission) : Prop :=
  p ∈ c.permissions userID .user ∨
    ∃ role ∈ c.roles userID .user, p ∈ c.permissions role.id .role ∧ admits role p = true

/-- **Deny overrides**: some row matches and no row that matches is forbidden. -/
def Content.Granted (c : Content) (userID : ℕ) (entityType : EntityType) (entityID : ℕ)
    (name : AbilityName) : Prop :=
  (∃ p, c.Reaches userID p ∧ Matches name entityType entityID p) ∧
    ∀ p, c.Reaches userID p → Matches name entityType entityID p → p.forbidden = false

section Scan

variable {entityType : EntityType} {entityID : ℕ}

theorem abilityScopeMatchesEntity_iff (ability : Ability) :
    abilityScopeMatchesEntity (some ability) entityType entityID = true ↔
      ability.Covers entityType entityID := by
  cases ht : ability.entityType <;> cases hi : ability.entityID <;>
    simp [abilityScopeMatchesEntity, Ability.Covers, ht, hi]

theorem grantsFrom_iff (rows : List Permission) (granted : Bool) :
    grantsFrom entityType entityID rows granted = true ↔ (granted = true ∨
        ∃ p ∈ rows, abilityScopeMatchesEntity p.ability entityType entityID = true) ∧
      ∀ p ∈ rows, abilityScopeMatchesEntity p.ability entityType entityID = true →
        p.forbidden = false := by
  induction rows generalizing granted with
  | nil => simp [grantsFrom]
  | cons p rows ih =>
    rw [grantsFrom]
    by_cases hmatch : abilityScopeMatchesEntity p.ability entityType entityID = true
    · cases hforb : p.forbidden with
      | true => simp [hmatch, hforb]
      | false => simp [hmatch, hforb, ih]
    · simp [hmatch, ih]

variable {name : AbilityName} {p : Permission}

theorem mem_rowsOf {c : Content} {userID : ℕ} :
    p ∈ c.rowsOf userID name ↔ c.Reaches userID p ∧ hasName name p = true := by
  simp only [Content.rowsOf, Content.rows, mem_filter, mem_append, Content.mem_roleRows,
    Content.Reaches]

theorem matches_iff : Matches name entityType entityID p ↔
      hasName name p = true ∧ abilityScopeMatchesEntity p.ability entityType entityID = true := by
  unfold Matches hasName
  cases p.ability with
  | none => simp [abilityScopeMatchesEntity]
  | some ability => simp [abilityScopeMatchesEntity_iff]

theorem grantsAbilityForEntity_iff (c : Content) (userID : ℕ) (name : AbilityName) :
    grantsAbilityForEntity (c.rowsOf userID name) entityType entityID = true ↔
      c.Granted userID entityType entityID name := by
  rw [grantsAbilityForEntity, grantsFrom_iff]
  simp only [mem_rowsOf, Content.Granted, matches_iff, Bool.false_eq_true, false_or, and_assoc,
    and_imp]

end Scan

/-! ### The rule of the two checks -/

variable {c c' : Content} {userID : ℕ} {entityType : EntityType} {entityID : ℕ}
  (abilities : List AbilityName)

theorem canForEntity_iff :
    canForEntity none c.repository userID entityType entityID abilities = .ok true ↔
      ∀ name ∈ abilities, c.Granted userID entityType entityID name := by
  rw [Content.canForEntity_content, Except.ok.injEq, all_eq_true]
  simp only [grantsAbilityForEntity_iff]

theorem canAnyForEntity_iff :
    canAnyForEntity none c.repository userID entityType entityID abilities = .ok true ↔
      ∃ name ∈ abilities, c.Granted userID entityType entityID name := by
  rw [Content.canAnyForEntity_content, Except.ok.injEq, any_eq_true]
  simp only [grantsAbilityForEntity_iff]

theorem Content.Permuted.granted (h : c.Permuted c') (name : AbilityName) :
    c'.Granted userID entityType entityID name ↔ c.Granted userID entityType entityID name := by
  have hreac (p : Permission) : c'.Reaches userID p ↔ c.Reaches userID p := by
    simp only [Content.Reaches, (h.permissions _ _).mem_iff, (h.roles _ _).mem_iff]
  simp only [Content.Granted, hreac]

/-- The content with one more row, a forbidden one, for some entity. -/
structure Content.AddsForbid (c c' : Content) : Prop where
  roles : c'.roles = c.roles
  row : ∃ id t as p bs, c.permissions id t = as ++ bs ∧ c'.permissions id t = as ++ p :: bs ∧
    p.forbidden = true ∧ ∀ id' t', ¬ (id' = id ∧ t' = t) → c'.permissions id' t' = c.permissions id' t'

theorem Content.AddsForbid.mem (h : c.AddsForbid c') (id : ℕ) (t : EntityType) (q : Permission) :
    (q ∈ c.permissions id t → q ∈ c'.permissions id t) ∧
      (q ∈ c'.permissions id t → q ∈ c.permissions id t ∨ q.forbidden = true) := by
  obtain ⟨id₁, t₁, as, p, bs, hold, hnew, hforb, hother⟩ := h.row
  by_cases heq : id = id₁ ∧ t = t₁
  · obtain ⟨rfl, rfl⟩ := heq
    rw [hold, hnew]
    constructor
    · intro hq
      rcases mem_append.1 hq with hq | hq
      · exact mem_append_left _ hq
      · exact mem_append_right _ (mem_cons_of_mem p hq)
    · intro hq
      rcases mem_append.1 hq with hq | hq
      · exact .inl (mem_append_left _ hq)
      · rcases mem_cons.1 hq with rfl | hq
        · exact .inr hforb
        · exact .inl (mem_append_right _ hq)
  · rw [hother id t heq]
    exact ⟨fun hq => hq, .inl⟩

theorem Content.AddsForbid.granted (h : c.AddsForbid c')
    (hgran : c'.Granted userID entityType entityID name) :
    c.Granted userID entityType entityID name := by
  have hkept (p : Permission) (hp : c.Reaches userID p) : c'.Reaches userID p := by
    rcases hp with hp | ⟨role, hrole, hp, hadmits⟩
    · exact .inl ((h.mem userID .user p).1 hp)
    · exact .inr ⟨role, h.roles ▸ hrole, (h.mem role.id .role p).1 hp, hadmits⟩
  have hnew (p : Permission) (hp : c'.Reaches userID p) (hallo : p.forbidden = false) :
      c.Reaches userID p := by
    have hold {id : ℕ} {t : EntityType} (hmem : p ∈ c'.permissions id t) :
        p ∈ c.permissions id t := by
      rcases (h.mem id t p).2 hmem with hmem | hforb
      · exact hmem
      · rw [hallo] at hforb
        cases hforb
    rcases hp with hp | ⟨role, hrole, hp, hadmits⟩
    · exact .inl (hold hp)
    · exact .inr ⟨role, h.roles ▸ hrole, hold hp, hadmits⟩
  obtain ⟨⟨p, hp, hmatch⟩, hall⟩ := hgran
  exact ⟨⟨p, hnew p hp (hall p hp hmatch), hmatch⟩, fun q hq => hall q (hkept q hq)⟩

theorem ok_congr {x y : Bool} (h : (Except.ok x : Except String Bool) = .ok true ↔
    (Except.ok y : Except String Bool) = .ok true) :
    (Except.ok x : Except String Bool) = .ok y := by
  cases x <;> cases y <;> simp_all

/-- The checks for an entity decide `Granted`; the order of rows and roles does not matter; and a
further forbidden row never turns a denial into an acceptance. -/
theorem entity_checks_deny_overrides (c : Content) (userID : ℕ) (entityType : EntityType)
    (entityID : ℕ) (abilities : List AbilityName) :
    (canForEntity none c.repository userID entityType entityID abilities = .ok true ↔
      ∀ name ∈ abilities, c.Granted userID entityType entityID name) ∧
    (canAnyForEntity none c.repository userID entityType entityID abilities = .ok true ↔
      ∃ name ∈ abilities, c.Granted userID entityType entityID name) ∧
    (∀ c', c.Permuted c' → canForEntity none c'.repository userID entityType entityID abilities =
        canForEntity none c.repository userID entityType entityID abilities ∧
      canAnyForEntity none c'.repository userID entityType entityID abilities =
        canAnyForEntity none c.repository userID entityType entityID abilities) ∧
    ∀ c', c.AddsForbid c' →
      (canForEntity none c'.repository userID entityType entityID abilities = .ok true →
        canForEntity none c.repository userID entityType entityID abilities = .ok true) ∧
      (canAnyForEntity none c'.repository userID entityType entityID abilities = .ok true →
        canAnyForEntity none c.repository userID entityType entityID abilities = .ok true) := by
  refine ⟨canForEntity_iff abilities, canAnyForEntity_iff abilities, fun c' hc' => ⟨?_, ?_⟩,
    fun c' hc' => ⟨fun h => ?_, fun h => ?_⟩⟩
  · have hiff : canForEntity none c'.repository userID entityType entityID abilities = .ok true ↔
        canForEntity none c.repository userID entityType entityID abilities = .ok true := by
      simp only [canForEntity_iff, hc'.granted]
    rw [Content.canForEntity_content, Content.canForEntity_content] at hiff ⊢
    exact ok_congr hiff
  · have hiff : canAnyForEntity none c'.repository userID entityType entityID abilities = .ok true ↔
        canAnyForEntity none c.repository userID entityType entityID abilities = .ok true := by
      simp only [canAnyForEntity_iff, hc'.granted]
    rw [Content.canAnyForEntity_content, Content.canAnyForEntity_content] at hiff ⊢
    exact ok_congr hiff
  · rw [canForEntity_iff] at h ⊢
    exact fun name hname => hc'.granted (h name hname)
  · rw [canAnyForEntity_iff] at h ⊢
    obtain ⟨name, hname, hgran⟩ := h
    exact ⟨name, hname, hc'.granted hgran⟩

/-! ### Roles that are assigned for one entity -/

/-- The content in which the user has other roles. -/
def Content.withRoles (c : Content) (userID : ℕ) (roles : List RestrictedRole) : Content where
  permissions := c.permissions
  roles id t := if id = userID ∧ t = .user then roles else c.roles id t

/-- The scope of the row is the type `T` of the assignment and its id, if it has one. -/
def InScope (role : RestrictedRole) (T : EntityType) (p : Permission) : Prop :=
  ∃ ability, p.ability = some ability ∧ ability.entityType = some T ∧
    ∀ I, role.restrictedToID = some I → ability.entityID = some I

/-- An entity that the assignment is not for. -/
def Outside (role : RestrictedRole) (T : EntityType) (entityType : EntityType)
    (entityID : ℕ) : Prop :=
  entityType ≠ T ∨ ∃ I, role.restrictedToID = some I ∧ entityID ≠ I

/-- The role contributes rows of its scope only, and for an entity outside the scope the user can do
nothing with the role that they could not do without it. -/
def Confined (c : Content) (userID : ℕ) (as : List RestrictedRole) (role : RestrictedRole)
    (bs : List RestrictedRole) (T : EntityType) : Prop :=
  (∀ p ∈ restrict role (c.permissions role.id .role), InScope role T p) ∧
    ∀ entityType entityID abilities, Outside role T entityType entityID →
      canForEntity none c.repository userID entityType entityID abilities = .ok true →
      canForEntity none (c.withRoles userID (as ++ bs)).repository userID entityType entityID
        abilities = .ok true

variable {role : RestrictedRole} {as bs : List RestrictedRole} {T : EntityType}

theorem not_matches_of_inScope
    (hscope : InScope role T p) (hout : Outside role T entityType entityID) (name : AbilityName) :
    ¬ Matches name entityType entityID p := by
  obtain ⟨ability, hp, htype, hid⟩ := hscope
  rintro ⟨ability', hp', _, hcovers⟩
  rw [hp] at hp'
  cases hp'
  rcases hcovers with ⟨hnone, _⟩ | ⟨hsome, hcover⟩
  · rw [htype] at hnone
    cases hnone
  · rw [htype] at hsome
    cases hsome
    rcases hout with hne | ⟨I, hI, hne⟩
    · exact hne rfl
    · rw [hid I hI] at hcover
      rcases hcover with hcover | hcover
      · cases hcover
      · cases hcover
        exact hne rfl

/-- Without the role the user reaches the same rows, except those that the role contributes. -/
theorem reaches_withRoles (hroles : c.roles userID .user = as ++ role :: bs) (p : Permission) :
    c.Reaches userID p ↔ (c.withRoles userID (as ++ bs)).Reaches userID p ∨
      p ∈ restrict role (c.permissions role.id .role) := by
  simp only [Content.Reaches, Content.withRoles, hroles, restrict_eq_filter, mem_filter,
    and_self, if_true, mem_append, mem_cons]
  constructor
  · rintro (hp | ⟨r, hr | rfl | hr, hp⟩)
    · exact .inl (.inl hp)
    · exact .inl (.inr ⟨r, .inl hr, hp⟩)
    · exact .inr hp
    · exact .inl (.inr ⟨r, .inr hr, hp⟩)
  · rintro ((hp | ⟨r, hr | hr, hp⟩) | hp)
    · exact .inl hp
    · exact .inr ⟨r, .inl hr, hp⟩
    · exact .inr ⟨r, .inr (.inr hr), hp⟩
    · exact .inr ⟨role, .inr (.inl rfl), hp⟩

theorem confined_of_inScope (hroles : c.roles userID .user = as ++ role :: bs)
    (hscope : ∀ p ∈ restrict role (c.permissions role.id .role), InScope role T p) :
    Confined c userID as role bs T := by
  refine ⟨hscope, fun entityType entityID abilities hout h => ?_⟩
  rw [canForEntity_iff] at h ⊢
  intro name hname
  obtain ⟨⟨p, hp, hmatch⟩, hall⟩ := h name hname
  refine ⟨⟨p, ?_, hmatch⟩, fun q hq => hall q ((reaches_withRoles hroles q).2 (.inl hq))⟩
  rcases (reaches_withRoles hroles p).1 hp with hp | hp
  · exact hp
  · exact absurd hmatch (not_matches_of_inScope (hscope p hp) hout name)

/-- A role assigned to the user for a type, or for a type and an id, stays within this scope exactly
when its rows for the id are rows for the type. -/
theorem restricted_role_confined_iff (c : Content) (userID : ℕ) (as : List RestrictedRole)
    (role : RestrictedRole) (bs : List RestrictedRole) (T : EntityType)
    (hroles : c.roles userID .user = as ++ role :: bs) (hT : role.restrictedToType = some T) :
    Confined c userID as role bs T ↔
      ∀ I, role.restrictedToID = some I → ∀ p ∈ c.permissions role.id .role,
        ∀ ability, p.ability = some ability → ability.entityID = some I →
          ability.entityType = some T := by
  constructor
  · rintro ⟨hscope, _⟩ I hI p hp ability habil hid
    have hadmits : admits role p = true := by
      simp [admits, hT, hI, habil, hid]
    rw [restrict_eq_filter] at hscope
    obtain ⟨ability', habil', htype, _⟩ := hscope p (List.mem_filter.2 ⟨hp, hadmits⟩)
    rw [habil] at habil'
    cases habil'
    exact htype
  · intro hcond
    refine confined_of_inScope hroles fun p hp => ?_
    rw [restrict_eq_filter] at hp
    obtain ⟨hp, hadmits⟩ := List.mem_filter.1 hp
    cases hI : role.restrictedToID with
    | none =>
      simp only [admits, hT, hI, Option.any_eq_true, decide_eq_true_eq] at hadmits
      obtain ⟨ability, habil, htype⟩ := hadmits
      exact ⟨ability, habil, htype, by simp [hI]⟩
    | some I =>
      simp only [admits, hT, hI, Option.any_eq_true, decide_eq_true_eq] at hadmits
      obtain ⟨ability, habil, hid⟩ := hadmits
      refine ⟨ability, habil, hcond I hI p hp ability habil hid, fun I' hI' => ?_⟩
      rw [hI] at hI'
      cases hI'
      exact hid

def forServer5 : RestrictedRole :=
  { id := 1, name := "operator", restrictedToID := some 5, restrictedToType := some .server }

/-- A row that allows to view the entity of type `t` with id 5. -/
def view5 (t : EntityType) : Permission :=
  { ability := some { name := "view", entityID := some 5, entityType := some t } }

/-- Role 1 has this row. -/
def operatorOf (t : EntityType) : Content where
  permissions id e := if id = 1 ∧ e = .role then [view5 t] else []
  roles id e := if id = 1 ∧ e = .user then [forServer5] else []

theorem operator_confined_to_server : Confined (operatorOf .server) 1 [] forServer5 [] .server := by
  refine (restricted_role_confined_iff (operatorOf .server) 1 [] forServer5 [] .server rfl rfl).2 ?_
  rintro I _ p hp ability habil _
  obtain rfl : p = view5 .server := List.mem_singleton.1 hp
  cases habil
  rfl

/-- A row of the role for node 5 passes the filter of the assignment for server 5. -/
theorem operator_reaches_node :
    ¬ ∀ c userID as role bs T, Content.roles c userID .user = as ++ role :: bs →
      role.restrictedToType = some T → Confined c userID as role bs T := by
  intro hall
  obtain ⟨_, hconf⟩ := hall (operatorOf .node) 1 [] forServer5 [] .server rfl rfl
  have h := hconf .node 5 ["view"] (.inl (by decide)) (by decide)
  exact absurd h (by decide)

end RBAC

end GameAP
