import GameAP.RBAC.Abilities

/-!
# Allowing and forbidding abilities for an entity

`AllowUserAbilitiesForEntity` and `RevokeOrForbidUserAbilitiesForEntity` first revoke the rows of
the user for exactly these abilities and this entity; then the one adds allowing rows, and the other
asks, through the cache, which of the abilities are still granted, and adds forbidden rows for
these.

`abilities_for_entity` says what the two do to the answers of `CanForEntity`.  It needs a cache that
agrees with the repository (`Coherent`), ids that are not in use and one ability for each key
(`WellFormed`, `HasRoom`).  The rows of an ability with a `Scope` of its own are neither revoked nor
overruled (`scoped_forbid_stays`).

`NilTransactionManager` just calls the function.  An entry that has expired is like one that was
deleted.
-/

namespace GameAP

open Tables RBAC RBACRepository

namespace RBAC

/-- `rbac.RBAC` with the in-memory repository; the cache is off when `cacheTTL` is zero. -/
structure Service where
  repo : RBACRepository
  cacheTTL : ℕ
  cache : Table ℕ PermissionMap := ∅

namespace Service

variable (s : Service)

section

variable (userID : ℕ)

/-- `permissionCache.Get`. -/
def cacheGet : Option PermissionMap :=
  if s.cacheTTL = 0 then none else s.cache.get userID

/-- `permissionCache.Set`. -/
def cacheSet (permissions : PermissionMap) : Service :=
  if s.cacheTTL = 0 then s else { s with cache := s.cache.put userID permissions }

/-- `permissionCache.Delete`. -/
def cacheDelete : Service := { s with cache := s.cache.del userID }

/-- `getAllPermissionsForUser`, which stores what it had to read. -/
def getAllPermissionsForUser : Except String (PermissionMap × Service) := do
  let permissions ← RBAC.getAllPermissionsForUser (s.cacheGet userID) s.repo.content.repository userID
  match s.cacheGet userID with
  | some _ => return (permissions, s)
  | none => return (permissions, s.cacheSet userID permissions)

def canForEntity (entityType : EntityType) (entityID : ℕ)
    (abilities : List AbilityName) : Except String (Bool × Service) := do
  let (permissions, s) ← withMessage "get permissions for user" (s.getAllPermissionsForUser userID)
  return (abilities.all fun name =>
    grantsAbilityForEntity (permissions.find name) entityType entityID, s)

end

def allowUserAbilitiesForEntity (userID entityID : ℕ) (entityType : EntityType)
    (names : List AbilityName) : Service :=
  let abilities := abilitiesFor entityID entityType names
  let s := { s with repo := s.repo.revoke userID .user abilities }
  let s := { s with repo := s.repo.allow userID .user abilities }
  s.cacheDelete userID

/-- The loop of `RevokeOrForbidUserAbilitiesForEntity`: the abilities that are still granted. -/
def stillGranted (userID entityID : ℕ) (entityType : EntityType) :
    List Ability → Service → Except String (List Ability × Service)
  | [], s => return ([], s)
  | ability :: abilities, s => do
    let (can, s) ← withMessage "failed to check abilities for user"
      (s.canForEntity userID entityType entityID [ability.name])
    let (forbidAbilities, s) ← stillGranted userID entityID entityType abilities s
    return (if can then ability :: forbidAbilities else forbidAbilities, s)

def revokeOrForbidUserAbilitiesForEntity (userID entityID : ℕ) (entityType : EntityType)
    (names : List AbilityName) : Except String Service := do
  let abilities := abilitiesFor entityID entityType names
  let s := { s with repo := s.repo.revoke userID .user abilities }
  let s := s.cacheDelete userID
  let (forbidAbilities, s) ← stillGranted userID entityID entityType abilities s
  if forbidAbilities.isEmpty then return s
  else
    let s := { s with repo := s.repo.forbid userID .user forbidAbilities }
    return s.cacheDelete userID

/-- What a check answers. -/
def answer (userID : ℕ) (entityType : EntityType) (entityID : ℕ) (abilities : List AbilityName) :
    Except String Bool :=
  (s.canForEntity userID entityType entityID abilities).map Prod.fst

/-! ### Answers through the cache -/

/-- Every entry of the cache holds the rows that the repository has for the user. -/
def Coherent : Prop :=
  ∀ userID permissions, s.cacheGet userID = some permissions →
    ∀ name p, p ∈ permissions.find name ↔ p ∈ s.repo.content.rowsOf userID name

variable {s}

theorem cacheGet_cacheSet (userID u : ℕ) (permissions : PermissionMap) :
    (s.cacheSet userID permissions).cacheGet u =
      if s.cacheTTL ≠ 0 ∧ u = userID then some permissions else s.cacheGet u := by
  unfold cacheSet cacheGet
  by_cases httl : s.cacheTTL = 0
  · simp [httl]
  · simp [httl, Table.get_put]

theorem repo_cacheSet (userID : ℕ) (permissions : PermissionMap) :
    (s.cacheSet userID permissions).repo = s.repo := by
  unfold cacheSet
  split_ifs <;> rfl

theorem cacheGet_cacheDelete (userID u : ℕ) :
    (s.cacheDelete userID).cacheGet u = if u = userID then none else s.cacheGet u := by
  unfold cacheDelete cacheGet
  by_cases httl : s.cacheTTL = 0
  · simp [httl]
  · simp [httl, Table.get_del]

theorem getAllPermissionsForUser_spec (hs : s.Coherent) (userID : ℕ) :
    ∃ permissions s', s.getAllPermissionsForUser userID = .ok (permissions, s') ∧
      s'.repo = s.repo ∧ s'.Coherent ∧
      ∀ name p, p ∈ permissions.find name ↔ p ∈ s.repo.content.rowsOf userID name := by
  unfold getAllPermissionsForUser
  cases hget : s.cacheGet userID with
  | some permissions => exact ⟨permissions, s, rfl, rfl, hs, hs userID permissions hget⟩
  | none =>
    have hrows (name : AbilityName) (p : Permission) :
        p ∈ (group (s.repo.content.rows userID)).find name ↔
          p ∈ s.repo.content.rowsOf userID name := by
      rw [find_group]
      rfl
    rw [Content.getAllPermissionsForUser_content]
    refine ⟨_, _, rfl, repo_cacheSet .., ?_, hrows⟩
    intro u permissions hu
    rw [cacheGet_cacheSet] at hu
    rw [repo_cacheSet]
    split_ifs at hu with hself
    · obtain ⟨_, rfl⟩ := hself
      cases hu
      exact hrows
    · exact hs u permissions hu

section

variable (hs : s.Coherent) (userID : ℕ) (entityType : EntityType) (entityID : ℕ)
  (abilities : List AbilityName)
include hs

theorem canForEntity_spec :
    ∃ can s', s.canForEntity userID entityType entityID abilities = .ok (can, s') ∧
      s'.repo = s.repo ∧ s'.Coherent ∧
      (can = true ↔ ∀ name ∈ abilities,
        s.repo.content.Granted userID entityType entityID name) := by
  obtain ⟨permissions, s', hget, hrepo, hcoh, hrows⟩ := getAllPermissionsForUser_spec hs userID
  refine ⟨abilities.all fun name =>
    grantsAbilityForEntity (permissions.find name) entityType entityID, s', ?_, hrepo, hcoh, ?_⟩
  · unfold canForEntity
    rw [hget]
    rfl
  · simp only [List.all_eq_true, ← grantsAbilityForEntity_iff, grantsAbilityForEntity,
      grantsFrom_iff, hrows]

theorem answer_iff : ∃ can, s.answer userID entityType entityID abilities = .ok can ∧
      (can = true ↔ ∀ name ∈ abilities,
        s.repo.content.Granted userID entityType entityID name) := by
  obtain ⟨can, s', hcan, _, _, hiff⟩ := canForEntity_spec hs userID entityType entityID abilities
  exact ⟨can, by rw [answer, hcan]; rfl, hiff⟩

end

/-! ### The two changes -/

variable {userID entityID : ℕ} {entityType : EntityType} {names : List AbilityName}

/-- The entry of a user is deleted when their exact rows change; the entries of others stay
right. -/
theorem Coherent.change (hs : s.Coherent) {repo : RBACRepository}
    (h : Content.OnlyExact userID names entityType entityID s.repo.content repo.content) :
    (cacheDelete { s with repo } userID).Coherent := by
  intro u permissions hu name p
  rw [cacheGet_cacheDelete] at hu
  split_ifs at hu with hself
  rw [hs u permissions hu name p, mem_rowsOf, mem_rowsOf]
  exact and_congr_left fun _ => (h.reaches_other hself p).symm

theorem stillGranted_spec (hs : s.Coherent) (userID entityID : ℕ) (entityType : EntityType)
    (names : List AbilityName) :
    ∃ granted s', stillGranted userID entityID entityType (abilitiesFor entityID entityType names) s =
        .ok (abilitiesFor entityID entityType granted, s') ∧
      s'.repo = s.repo ∧ s'.Coherent ∧ granted.length ≤ names.length ∧
      ∀ name, name ∈ granted ↔
        name ∈ names ∧ s.repo.content.Granted userID entityType entityID name := by
  induction names generalizing s with
  | nil => exact ⟨[], s, rfl, rfl, hs, le_rfl, by simp⟩
  | cons name names ih =>
    obtain ⟨can, s₁, hcan, hrepo₁, hs₁, hiff⟩ :=
      canForEntity_spec hs userID entityType entityID [name]
    obtain ⟨granted, s₂, hgran, hrepo₂, hs₂, hlen, hmem⟩ := ih hs₁
    rw [hrepo₁] at hrepo₂ hmem
    have hrun : stillGranted userID entityID entityType
        (abilitiesFor entityID entityType (name :: names)) s =
          .ok (if can then createAbilityForEntity name entityID entityType ::
            abilitiesFor entityID entityType granted
            else abilitiesFor entityID entityType granted, s₂) := by
      unfold abilitiesFor at hgran ⊢
      show (do
        let (can, s) ← withMessage "failed to check abilities for user"
          (s.canForEntity userID entityType entityID [name])
        let (forbidAbilities, s) ← stillGranted userID entityID entityType _ s
        return (if can then createAbilityForEntity name entityID entityType :: forbidAbilities
          else forbidAbilities, s) : Except String (List Ability × Service)) = _
      rw [hcan]
      simp only [withMessage, bind, Except.bind]
      rw [hgran]
      rfl
    rw [List.forall_mem_singleton] at hiff
    cases can with
    | true =>
      refine ⟨name :: granted, s₂, hrun, hrepo₂, hs₂, Nat.succ_le_succ hlen, fun n => ?_⟩
      have hname := hiff.1 rfl
      by_cases hn : n = name
      · simp [hn, hname]
      · simp [hn, hmem]
    | false =>
      refine ⟨granted, s₂, hrun, hrepo₂, hs₂, Nat.le_succ_of_le hlen, fun n => ?_⟩
      have hname : ¬ s.repo.content.Granted userID entityType entityID name := fun h =>
        Bool.false_ne_true (hiff.2 h)
      by_cases hn : n = name
      · simp [hn, hmem, hname]
      · simp [hn, hmem]

theorem allowUserAbilitiesForEntity_spec (hs : s.Coherent) (hwf : s.repo.WellFormed)
    (hroom : s.repo.HasRoom names.length) (userID entityID : ℕ) (entityType : EntityType) :
    (s.allowUserAbilitiesForEntity userID entityID entityType names).Coherent ∧
      ∃ c, Content.Revokes userID names entityType entityID s.repo.content c ∧
        Content.Adds userID names entityType entityID false c
          (s.allowUserAbilitiesForEntity userID entityID entityType names).repo.content := by
  have hrev : Content.Revokes userID names entityType entityID s.repo.content _ :=
    revokes_revoke hwf
  have hadds : Content.Adds userID names entityType entityID false _ _ :=
    adds_applyAbilities (hwf.revoke userID .user (abilitiesFor entityID entityType names))
      false (hroom.revoke userID .user (abilitiesFor entityID entityType names))
  exact ⟨hs.change (hrev.toOnlyExact.trans hadds.toOnlyExact), _, hrev, hadds⟩

/-- `RevokeOrForbidUserAbilitiesForEntity`: the exact rows go, and forbidden ones come for the
abilities that are still granted then. -/
theorem revokeOrForbidUserAbilitiesForEntity_spec (hs : s.Coherent)
    (hwf : s.repo.WellFormed) {n : ℕ} (hroom : s.repo.HasRoom (names.length + n))
    (userID entityID : ℕ) (entityType : EntityType) :
    ∃ s' c granted, s.revokeOrForbidUserAbilitiesForEntity userID entityID entityType names = .ok s' ∧
      s'.Coherent ∧ s'.repo.WellFormed ∧ s'.repo.HasRoom n ∧
      Content.Revokes userID names entityType entityID s.repo.content c ∧
      Content.Adds userID granted entityType entityID true c s'.repo.content ∧
      ∀ name, name ∈ granted ↔ name ∈ names ∧ c.Granted userID entityType entityID name := by
  have hrev : Content.Revokes userID names entityType entityID s.repo.content
      (s.repo.revoke userID .user (abilitiesFor entityID entityType names)).content :=
    revokes_revoke hwf
  have hwf' := hwf.revoke userID .user (abilitiesFor entityID entityType names)
  have hroom' := hroom.revoke userID .user (abilitiesFor entityID entityType names)
  obtain ⟨granted, s₁, hrun, hrepo, hs₁, hlen, hmem⟩ :=
    stillGranted_spec (hs.change hrev.toOnlyExact) userID entityID entityType names
  have hroom₁ : s₁.repo.HasRoom (granted.length + n) := by
    rw [hrepo]
    exact hroom'.mono (Nat.add_le_add_right hlen n)
  have hwf₁ : s₁.repo.WellFormed := by
    rw [hrepo]
    exact hwf'
  have hadds : Content.Adds userID granted entityType entityID true s₁.repo.content
      (s₁.repo.forbid userID .user (abilitiesFor entityID entityType granted)).content :=
    adds_applyAbilities hwf₁ true (hroom₁.mono (Nat.le_add_right _ _))
  have hwf₂ : (s₁.repo.forbid userID .user (abilitiesFor entityID entityType granted)).WellFormed ∧
      (s₁.repo.forbid userID .user (abilitiesFor entityID entityType granted)).HasRoom n :=
    hwf₁.applyAbilities true hroom₁
  have hcont : s₁.repo.content =
      (s.repo.revoke userID .user (abilitiesFor entityID entityType names)).content :=
    congrArg content hrepo
  by_cases hempty : granted = []
  · subst hempty
    refine ⟨s₁, _, [], ?_, hs₁, hwf₁, hroom₁.mono (Nat.le_add_left _ _), hrev, ?_, hmem⟩
    · unfold revokeOrForbidUserAbilitiesForEntity
      simp only [bind, Except.bind]
      rw [hrun]
      rfl
    · exact hcont ▸ hadds
  · refine ⟨_, _, granted, ?_, hs₁.change hadds.toOnlyExact, hwf₂.1, hwf₂.2, hrev, ?_, hmem⟩
    · have hne : (abilitiesFor entityID entityType granted).isEmpty = false := by
        rw [List.isEmpty_eq_false_iff, abilitiesFor, Ne, List.map_eq_nil_iff]
        exact hempty
      unfold revokeOrForbidUserAbilitiesForEntity
      simp only [bind, Except.bind]
      rw [hrun]
      simp only [hne]
      rfl
    · exact hcont ▸ hadds

theorem answer_congr {s' : Service} (hs : s.Coherent) (hs' : s'.Coherent) {abilities : List AbilityName}
    (h : ∀ name ∈ abilities, s'.repo.content.Granted userID entityType entityID name ↔
      s.repo.content.Granted userID entityType entityID name) :
    s'.answer userID entityType entityID abilities = s.answer userID entityType entityID abilities := by
  obtain ⟨can, hcan, hiff⟩ := answer_iff hs userID entityType entityID abilities
  obtain ⟨can', hcan', hiff'⟩ := answer_iff hs' userID entityType entityID abilities
  rw [hcan, hcan', Bool.eq_iff_iff.2 (hiff'.trans ((forall₂_congr h).trans hiff.symm))]

variable {name : AbilityName}

theorem answer_single (hs : s.Coherent) {can : Bool}
    (h : s.repo.content.Granted userID entityType entityID name ↔ can = true) :
    s.answer userID entityType entityID [name] = .ok can := by
  obtain ⟨can', hcan', hiff⟩ := answer_iff hs userID entityType entityID [name]
  rw [List.forall_mem_singleton] at hiff
  rw [hcan', Bool.eq_iff_iff.2 (hiff.trans h)]

/-- After the exact rows have gone and forbidden ones have come for the abilities that were still
granted, none of the abilities is granted. -/
theorem not_granted_of_revoked {c₁ c₂ : Content}
    {granted : List AbilityName}
    (hadds : Content.Adds userID granted entityType entityID true c₁ c₂)
    (hgran : ∀ name, name ∈ granted ↔
      name ∈ names ∧ c₁.Granted userID entityType entityID name) (hname : name ∈ names) :
    ¬ c₂.Granted userID entityType entityID name := by
  by_cases hmem : name ∈ granted
  · exact hadds.not_granted hmem
  · intro h
    have h₁ : c₁.Granted userID entityType entityID name :=
      (hadds.toOnlyExact.granted (.inr (.inr hmem))).1 h
    exact hmem ((hgran name).2 ⟨hname, h₁⟩)

/-- A question about another user, about another entity or about other abilities only. -/
def Elsewhere (userID entityID : ℕ) (entityType : EntityType) (names : List AbilityName)
    (u : ℕ) (t : EntityType) (i : ℕ) (abilities : List AbilityName) : Prop :=
  u ≠ userID ∨ ¬ (t = entityType ∧ i = entityID) ∨ ∀ name ∈ abilities, name ∉ names

theorem Elsewhere.ability {abilities : List AbilityName} {u i : ℕ} {t : EntityType}
    (h : Elsewhere userID entityID entityType names u t i abilities) (hname : name ∈ abilities) :
    u ≠ userID ∨ ¬ (t = entityType ∧ i = entityID) ∨ name ∉ names :=
  h.imp_right (Or.imp_right fun hall => hall name hname)

/-- **Revoking and allowing abilities for an entity.**  After `RevokeOrForbidUserAbilitiesForEntity`
none of the abilities is granted; a following `AllowUserAbilitiesForEntity` grants each of them that
nothing but an exact row forbids; and all other questions keep their answers. -/
theorem abilities_for_entity (s : Service) (userID entityID : ℕ) (entityType : EntityType)
    (names : List AbilityName) (hwf : s.repo.WellFormed)
    (hroom : s.repo.HasRoom (2 * names.length)) (hs : s.Coherent) :
    ∃ s', s.revokeOrForbidUserAbilitiesForEntity userID entityID entityType names = .ok s' ∧
      (∀ name ∈ names, s'.answer userID entityType entityID [name] = .ok false) ∧
      (∀ name ∈ names,
        ¬ s'.repo.content.ForbiddenElsewhere userID entityType entityID name →
        (s'.allowUserAbilitiesForEntity userID entityID entityType names).answer
          userID entityType entityID [name] = .ok true) ∧
      ∀ u t i abilities, Elsewhere userID entityID entityType names u t i abilities →
        s'.answer u t i abilities = s.answer u t i abilities ∧
        (s'.allowUserAbilitiesForEntity userID entityID entityType names).answer u t i abilities =
          s'.answer u t i abilities := by
  rw [Nat.two_mul] at hroom
  obtain ⟨s', c, granted, hrun, hs', hwf', hroom', hrev, hadds, hgran⟩ :=
    revokeOrForbidUserAbilitiesForEntity_spec hs hwf hroom userID entityID entityType
  obtain ⟨hs'', c', hrev', hadds'⟩ :=
    allowUserAbilitiesForEntity_spec hs' hwf' hroom' userID entityID entityType
  refine ⟨s', hrun, fun name hname => ?_, fun name hname hnot => ?_, fun u t i abilities helse =>
    ⟨?_, ?_⟩⟩
  · exact answer_single hs' (iff_of_false (not_granted_of_revoked hadds hgran hname)
      Bool.false_ne_true)
  · exact answer_single hs'' (iff_of_true (hadds'.granted hrev' hname hnot) rfl)
  · refine answer_congr hs hs' fun name hname => ?_
    have hne := helse.ability hname
    have hne' : u ≠ userID ∨ ¬ (t = entityType ∧ i = entityID) ∨ name ∉ granted :=
      hne.imp_right (Or.imp_right fun hnot hmem => hnot ((hgran name).1 hmem).1)
    exact (hadds.toOnlyExact.granted hne').trans (hrev.toOnlyExact.granted hne)
  · refine answer_congr hs' hs'' fun name hname => ?_
    have hne := helse.ability hname
    exact (hadds'.toOnlyExact.granted hne).trans (hrev'.toOnlyExact.granted hne)

def viewer : Service where
  repo := ({} : RBACRepository).allow 1 .user (abilitiesFor 5 .server ["view"])
  cacheTTL := 0

theorem viewer_revoked_and_allowed :
    ∃ s', viewer.revokeOrForbidUserAbilitiesForEntity 1 5 .server ["view"] = .ok s' ∧
      viewer.answer 1 .server 5 ["view"] = .ok true ∧
      s'.answer 1 .server 5 ["view"] = .ok false ∧
      (s'.allowUserAbilitiesForEntity 1 5 .server ["view"]).answer 1 .server 5 ["view"] =
        .ok true := by
  have hwf : viewer.repo.WellFormed ∧ viewer.repo.HasRoom 2 := by
    have hempty : WellFormed {} :=
      ⟨fun _ _ h => (by cases h), fun _ _ h => (by cases h), fun _ _ _ _ h => (by cases h)⟩
    have hroom : HasRoom {} (["view"].length + 2) := ⟨by decide, by decide⟩
    exact hempty.applyAbilities false hroom
  have hs : viewer.Coherent := fun _ _ h => (by cases h)
  obtain ⟨s', hrun, hfalse, htrue, _⟩ :=
    abilities_for_entity viewer 1 5 .server ["view"] hwf.1 hwf.2 hs
  refine ⟨s', hrun, rfl, hfalse "view" (by decide), htrue "view" (by decide) ?_⟩
  have hs' : s' = _ := (Except.ok.inj hrun).symm
  subst hs'
  rintro ⟨p, hforb, hmatch, ⟨role, hrole, _⟩ | ⟨hp, _⟩⟩
  · cases hrole
  · cases hp

/-- A row of a role or a row with a wider scope forbids the ability. -/
def ForbiddenWider (c : Content) (userID : ℕ) (entityType : EntityType) (entityID : ℕ)
    (name : AbilityName) : Prop :=
  ∃ p, p.forbidden = true ∧ Matches name entityType entityID p ∧
    ((∃ role ∈ c.roles userID .user, p ∈ c.permissions role.id .role ∧ admits role p = true) ∨
      p ∈ c.permissions userID .user ∧
        ∀ ability, p.ability = some ability → ability.entityID = none)

def scopedForbid : Service where
  repo := (({} : RBACRepository).saveAbility
    { name := "view", entityID := some 5, entityType := some .server, scope := some 1 }).savePermission
    { abilityID := 1, entityID := some 1, entityType := some .user, forbidden := true }
  cacheTTL := 0

/-- The row of the ability with a scope covers the entity, but its ability has another key, so no
call revokes it. -/
theorem scoped_forbid_stays : ¬ ∀ (s s' : Service) userID entityID entityType names,
      s.revokeOrForbidUserAbilitiesForEntity userID entityID entityType names = .ok s' →
        ∀ name ∈ names, ¬ ForbiddenWider s'.repo.content userID entityType entityID name →
          (s'.allowUserAbilitiesForEntity userID entityID entityType names).answer
            userID entityType entityID [name] = .ok true := by
  intro hall
  have h := hall scopedForbid scopedForbid 1 5 .server ["view"] rfl "view" (by decide) (by
    rintro ⟨p, hforb, hmatch, ⟨role, hrole, _⟩ | ⟨hp, hwide⟩⟩
    · cases hrole
    · obtain rfl := List.mem_singleton.1 hp
      exact absurd (hwide _ rfl) (by decide))
  have hfalse : (scopedForbid.allowUserAbilitiesForEntity 1 5 .server ["view"]).answer
    1 .server 5 ["view"] = .ok false := rfl
  cases h

/-- Two abilities with one key, and a forbidden row for the one that is found second: it stays. -/
example :
    let ability := createAbilityForEntity "view" 5 .server
    let repo := ((({} : RBACRepository).saveAbility ability).saveAbility ability).savePermission
      { abilityID := 1, entityID := some 1, entityType := some .user, forbidden := true }
    ((Service.mk repo 0 ∅).allowUserAbilitiesForEntity 1 5 .server ["view"]).answer
      1 .server 5 ["view"] = .ok false := rfl

/-- A row that was saved with an id of its own: the next new row takes the id, and user 2 loses
their permission by a change for user 1. -/
example :
    let repo := ((({} : RBACRepository).saveAbility { name := "view" }).savePermission
      { id := 1, abilityID := 1, entityID := some 2, entityType := some .user })
    (Service.mk repo 0 ∅).answer 2 .server 5 ["view"] = .ok true ∧
      ((Service.mk repo 0 ∅).allowUserAbilitiesForEntity 1 5 .server ["view"]).answer
        2 .server 5 ["view"] = .ok false := ⟨rfl, rfl⟩

end Service

end RBAC

end GameAP
