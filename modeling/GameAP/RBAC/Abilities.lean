import GameAP.RBAC.Entities
import GameAP.Repositories.RBAC

/-!
# Rows for exactly one entity

`AllowUserAbilitiesForEntity` and `RevokeOrForbidUserAbilitiesForEntity` work on the rows of a user
for certain abilities and exactly one entity.

* On contents: `Revokes` and `Adds` say what happened to the rows of the user, and `Granted` is
  followed through them (`OnlyExact.granted`, `Adds.not_granted`, `Adds.granted`);
* on the repository: `revokes_revoke` and `adds_applyAbilities` show that the in-memory operations
  do this, when the repository is well formed.
-/

namespace GameAP

open Tables

namespace RBAC

/-- A row for one of the abilities, for this very entity, without a scope. -/
def Exact (names : List AbilityName) (entityType : EntityType) (entityID : ℕ) (p : Permission) :
    Prop :=
  ∃ ability, p.ability = some ability ∧ ability.name ∈ names ∧ ability.entityID = some entityID ∧
    ability.entityType = some entityType ∧ ability.scope = none

namespace Content

variable {c c' c'' : Content} {userID entityID id i : ℕ} {names : List AbilityName}
  {entityType t : EntityType} {forbidden : Bool} {name : AbilityName}

/-- Nothing but exact rows of the user came or went. -/
structure OnlyExact (userID : ℕ) (names : List AbilityName) (entityType : EntityType)
    (entityID : ℕ) (c c' : Content) : Prop where
  roles : c'.roles = c.roles
  others : ∀ id t, ¬ (id = userID ∧ t = .user) → ∀ p, p ∈ c'.permissions id t ↔ p ∈ c.permissions id t
  own : ∀ p, ¬ Exact names entityType entityID p →
    (p ∈ c'.permissions userID .user ↔ p ∈ c.permissions userID .user)

/-- The exact rows of the user are gone. -/
structure Revokes (userID : ℕ) (names : List AbilityName) (entityType : EntityType)
    (entityID : ℕ) (c c' : Content) : Prop extends OnlyExact userID names entityType entityID c c' where
  gone : ∀ p ∈ c'.permissions userID .user, ¬ Exact names entityType entityID p

/-- There are exact rows for all the abilities, and all exact rows that are new are forbidden, or
all are allowed. -/
structure Adds (userID : ℕ) (names : List AbilityName) (entityType : EntityType) (entityID : ℕ)
    (forbidden : Bool) (c c' : Content) : Prop
    extends OnlyExact userID names entityType entityID c c' where
  new : ∀ p ∈ c'.permissions userID .user, p ∈ c.permissions userID .user ∨ p.forbidden = forbidden
  added : ∀ name ∈ names, ∃ p ∈ c'.permissions userID .user, p.forbidden = forbidden ∧
    Exact [name] entityType entityID p

section

variable (h : OnlyExact userID names entityType entityID c c')

include h

theorem OnlyExact.trans (h' : OnlyExact userID names entityType entityID c' c'') :
    OnlyExact userID names entityType entityID c c'' :=
  ⟨h'.roles.trans h.roles, fun id t hne p => (h'.others id t hne p).trans (h.others id t hne p),
    fun p hp => (h'.own p hp).trans (h.own p hp)⟩

theorem OnlyExact.role (id : ℕ)
    (p : Permission) : p ∈ c'.permissions id .role ↔ p ∈ c.permissions id .role :=
  h.others id .role (by simp) p

theorem OnlyExact.reaches_other
    (hid : id ≠ userID) (p : Permission) : c'.Reaches id p ↔ c.Reaches id p := by
  unfold Reaches
  simp only [h.roles, h.role, h.others id .user (fun heq => hid heq.1) p]

variable {p : Permission}

end

theorem not_exact_of_matches
    (hmatch : Matches name t i p) (hne : ¬ (t = entityType ∧ i = entityID) ∨ name ∉ names) :
    ¬ Exact names entityType entityID p := by
  rintro ⟨ability, hp, hname, hid, htype, _⟩
  obtain ⟨ability', hp', hname', hcovers⟩ := hmatch
  rw [hp] at hp'
  cases hp'
  rcases hne with hne | hne
  · rcases hcovers with ⟨hnone, _⟩ | ⟨hsome, hcover⟩
    · rw [htype] at hnone
      cases hnone
    · rw [htype] at hsome
      cases hsome
      rcases hcover with hcover | hcover
      · rw [hid] at hcover
        cases hcover
      · rw [hid] at hcover
        cases hcover
        exact hne ⟨rfl, rfl⟩
  · exact hne (hname' ▸ hname)

/-- **Frame**: another user, another entity or another ability. -/
theorem OnlyExact.granted (h : OnlyExact userID names entityType entityID c c')
    (hne : id ≠ userID ∨ ¬ (t = entityType ∧ i = entityID) ∨ name ∉ names) :
    c'.Granted id t i name ↔ c.Granted id t i name := by
  have hreac (p : Permission) (hmatch : Matches name t i p) :
      c'.Reaches id p ↔ c.Reaches id p := by
    by_cases hid : id = userID
    · subst hid
      rcases hne with hid | hne
      · exact absurd rfl hid
      · unfold Reaches
        simp only [h.roles, h.role, h.own p (not_exact_of_matches hmatch hne)]
    · exact h.reaches_other hid p
  constructor
  · rintro ⟨⟨p, hp, hmatch⟩, hall⟩
    exact ⟨⟨p, (hreac p hmatch).1 hp, hmatch⟩, fun q hq hm => hall q ((hreac q hm).2 hq) hm⟩
  · rintro ⟨⟨p, hp, hmatch⟩, hall⟩
    exact ⟨⟨p, (hreac p hmatch).2 hp, hmatch⟩, fun q hq hm => hall q ((hreac q hm).1 hq) hm⟩

theorem matches_of_exact (h : Exact [name] entityType entityID p) :
    Matches name entityType entityID p := by
  obtain ⟨ability, hp, hname, hid, htype, _⟩ := h
  exact ⟨ability, hp, List.mem_singleton.1 hname, .inr ⟨htype, .inr hid⟩⟩

theorem Adds.not_granted (h : Adds userID names entityType entityID true c c')
    (hname : name ∈ names) : ¬ c'.Granted userID entityType entityID name := by
  rintro ⟨_, hall⟩
  obtain ⟨p, hp, hforb, hexact⟩ := h.added name hname
  rw [hall p (.inl hp) (matches_of_exact hexact)] at hforb
  cases hforb

/-- Something other than an exact row of the user forbids the ability: a row of a role, a row with a
wider scope, or a row of an ability with a scope of its own. -/
def ForbiddenElsewhere (c : Content) (userID : ℕ) (entityType : EntityType) (entityID : ℕ)
    (name : AbilityName) : Prop :=
  ∃ p, p.forbidden = true ∧ Matches name entityType entityID p ∧
    ((∃ role ∈ c.roles userID .user, p ∈ c.permissions role.id .role ∧ admits role p = true) ∨
      p ∈ c.permissions userID .user ∧
        ∀ ability, p.ability = some ability → ability.entityID = none ∨ ability.scope ≠ none)

theorem Adds.granted (h : Revokes userID names entityType entityID c c')
    (h' : Adds userID names entityType entityID false c' c'') (hname : name ∈ names)
    (hnot : ¬ c.ForbiddenElsewhere userID entityType entityID name) :
    c''.Granted userID entityType entityID name := by
  constructor
  · obtain ⟨p, hp, _, hexact⟩ := h'.added name hname
    exact ⟨p, .inl hp, matches_of_exact hexact⟩
  · intro p hp hmatch
    refine Bool.eq_false_iff.2 fun hforb => hnot ⟨p, hforb, hmatch, ?_⟩
    rcases hp with hp | ⟨role, hrole, hp, hadmits⟩
    · right
      -- a forbidden row of the user was there before, and it is not exact
      rcases h'.new p hp with hp | hall
      · have hexact := h.gone p hp
        refine ⟨(h.own p hexact).1 hp, fun ability habil => ?_⟩
        obtain ⟨ability', habil', hname', hcovers⟩ := hmatch
        rw [habil] at habil'
        cases habil'
        rcases hcovers with ⟨_, hid⟩ | ⟨htype, hid | hid⟩
        · exact .inl hid
        · exact .inl hid
        · refine .inr fun hscope => hexact ⟨ability, habil, ?_, hid, htype, hscope⟩
          rw [hname']
          exact hname
      · rw [hall] at hforb
        cases hforb
    · left
      refine ⟨role, ?_, ?_, hadmits⟩
      · rw [h'.roles, h.roles] at hrole
        exact hrole
      · exact (h.role role.id p).1 ((h'.role role.id p).1 hp)

end Content

/-! ### The repository does this -/

/-- The abilities that the operations pass to the repository. -/
def abilitiesFor (entityID : ℕ) (entityType : EntityType) (names : List AbilityName) :
    List Ability :=
  names.map fun name => createAbilityForEntity name entityID entityType

end RBAC

open RBAC

namespace RBACRepository

variable {r : RBACRepository} {userID entityID : ℕ} {entityType : EntityType}
  {names : List AbilityName}

theorem exact_attach {row : Permission} : Exact names entityType entityID (r.attach row) ↔
      ∃ ability ∈ abilitiesFor entityID entityType names, ∃ a,
        r.abilities.get row.abilityID = some a ∧ abilitiesMatch a ability = true := by
  constructor
  · rintro ⟨a, hget, hname, hid, htype, hscope⟩
    refine ⟨createAbilityForEntity a.name entityID entityType, List.mem_map_of_mem hname, a, hget, ?_⟩
    rw [abilitiesMatch_iff]
    exact ⟨rfl, hid, htype, hscope⟩
  · rintro ⟨ability, habil, a, hget, hmatch⟩
    obtain ⟨name, hname, rfl⟩ := List.mem_map.1 habil
    rw [abilitiesMatch_iff] at hmatch
    obtain ⟨h₁, h₂, h₃, h₄⟩ := hmatch
    exact ⟨a, hget, h₁ ▸ hname, h₂, h₃, h₄⟩

theorem revokes_revoke (hr : r.WellFormed) :
    Content.Revokes userID names entityType entityID r.content
      (r.revoke userID .user (abilitiesFor entityID entityType names)).content := by
  have hrest := r.revoke_rest userID .user (abilitiesFor entityID entityType names)
  have hattach (row : Permission) :
      (r.revoke userID .user (abilitiesFor entityID entityType names)).attach row = r.attach row :=
    (congrArg (fun t : RBACRepository => t.attach row) hrest :)
  -- a row is still there unless it is an exact one of the user
  have hmem (id : ℕ) (t : EntityType) (p : Permission) :
      p ∈ (r.revoke userID .user (abilitiesFor entityID entityType names)).getPermissions id t ↔
        p ∈ r.getPermissions id t ∧
          ¬ (id = userID ∧ t = .user ∧ Exact names entityType entityID p) := by
    simp only [mem_getPermissions, hattach, get_revoke hr]
    constructor
    · rintro ⟨k, row, ⟨hget, hnot⟩, hid, htype, rfl⟩
      refine ⟨⟨k, row, hget, hid, htype, rfl⟩, ?_⟩
      rintro ⟨rfl, rfl, hexact⟩
      exact hnot ⟨hid, htype, exact_attach.1 hexact⟩
    · rintro ⟨⟨k, row, hget, hid, htype, rfl⟩, hnot⟩
      refine ⟨k, row, ⟨hget, ?_⟩, hid, htype, rfl⟩
      rintro ⟨hid', htype', hfound⟩
      rw [hid] at hid'
      rw [htype] at htype'
      cases hid'
      cases htype'
      exact hnot ⟨rfl, rfl, exact_attach.2 hfound⟩
  refine ⟨⟨?_, fun id t hne p => ?_, fun p hp => ?_⟩, fun p hp hexact => ?_⟩
  · exact (congrArg (fun t : RBACRepository => t.content.roles) hrest :)
  · exact ((hmem id t p).trans (and_iff_left fun h => hne ⟨h.1, h.2.1⟩))
  · exact ((hmem userID .user p).trans (and_iff_left fun h => hp h.2.2))
  · exact ((hmem userID .user p).1 hp).2 ⟨rfl, rfl, hexact⟩

/-- What `applyAbilities` does: new abilities, then new rows for the abilities that are asked
for. -/
theorem applyAbilities_spec (hr : r.WellFormed) (userID : ℕ) (entityType : EntityType)
    (abilities : List Ability) (forbidden : Bool) (hroom : r.HasRoom abilities.length) :
    ∃ r₁, SavesAbilities r r₁ abilities.length ∧
      (∀ ability ∈ abilities, ∃ id a, r₁.abilities.get id = some a ∧
        abilitiesMatch a ability = true) ∧
      AddsRows userID entityType forbidden (r₁.findAbilityIDs abilities) r₁
        (r.applyAbilities userID entityType abilities forbidden) := by
  obtain ⟨hsaves, hfound⟩ := foldl_saveOrGetAbility abilities hr hroom
  have hlen : ((abilities.foldl saveOrGetAbility r).findAbilityIDs abilities).length ≤
      abilities.length := List.length_filterMap_le _ _
  have hroom' : (abilities.foldl saveOrGetAbility r).nextPermissionID +
      ((abilities.foldl saveOrGetAbility r).findAbilityIDs abilities).length < uint32Size := by
    rw [hsaves.nextPermissionID]
    exact Nat.lt_of_le_of_lt (Nat.add_le_add_left hlen _) hroom.2
  have hids : ∀ id ∈ (abilities.foldl saveOrGetAbility r).findAbilityIDs abilities,
      id ≤ (abilities.foldl saveOrGetAbility r).nextAbilityID := by
    intro id hid
    obtain ⟨_, _, a, hget, _⟩ := (mem_findAbilityIDs hsaves.wellFormed).1 hid
    exact hsaves.wellFormed.abilities id a hget
  refine ⟨_, hsaves, hfound, ?_⟩
  have hadds := foldl_addPermission userID entityType forbidden _ hsaves.wellFormed hroom' hids
  unfold applyAbilities
  by_cases hempty : abilities.isEmpty = true
  · rw [List.isEmpty_iff] at hempty
    subst hempty
    exact hadds
  · rw [if_neg hempty]
    exact hadds

theorem adds_applyAbilities (hr : r.WellFormed) (forbidden : Bool)
    (hroom : r.HasRoom names.length) :
    Content.Adds userID names entityType entityID forbidden r.content
      (r.applyAbilities userID .user (abilitiesFor entityID entityType names) forbidden).content := by
  have hlen : (abilitiesFor entityID entityType names).length = names.length := List.length_map _
  obtain ⟨r₁, hsaves, hfound, hadds⟩ := applyAbilities_spec hr userID .user
    (abilitiesFor entityID entityType names) forbidden (hlen.symm ▸ hroom)
  generalize r.applyAbilities userID .user (abilitiesFor entityID entityType names) forbidden = r'
    at hadds
  have habili : r'.abilities = r₁.abilities := (congrArg RBACRepository.abilities hadds.rest :)
  have hroles : r'.content.roles = r.content.roles :=
    Eq.trans (congrArg (fun t : RBACRepository => t.content.roles) hadds.rest :)
      (congrArg (fun t : RBACRepository => t.content.roles) hsaves.rest :)
  -- an old row keeps its ability, because the new abilities have new ids
  have hattach {k : ℕ} {row : Permission} (hget : r.permissions.get k = some row) :
      r'.attach row = r.attach row := by
    unfold attach
    rw [habili, hsaves.old _ (hr.permissions k row hget).2]
  -- a new row is an exact row of the user
  have hnew {row : Permission} {id : ℕ}
      (hid : id ∈ r₁.findAbilityIDs (abilitiesFor entityID entityType names))
      (hrow : IsNewRow userID .user forbidden id row) :
      Exact names entityType entityID (r'.attach row) := by
    rw [exact_attach, habili, hrow.2.2.2]
    exact (mem_findAbilityIDs hsaves.wellFormed).1 hid
  have hold (id : ℕ) (t : EntityType) (p : Permission) (hp : p ∈ r.getPermissions id t) :
      p ∈ r'.getPermissions id t := by
    rw [mem_getPermissions] at hp ⊢
    obtain ⟨k, row, hget, hid, htype, rfl⟩ := hp
    exact ⟨k, row, hadds.kept k row (hsaves.permissions ▸ hget), hid, htype, hattach hget⟩
  have hmem (id : ℕ) (t : EntityType) (p : Permission) (hp : p ∈ r'.getPermissions id t) :
      p ∈ r.getPermissions id t ∨ (id = userID ∧ t = .user) ∧ p.forbidden = forbidden ∧
        Exact names entityType entityID p := by
    rw [mem_getPermissions] at hp
    obtain ⟨k, row, hget, hid, htype, rfl⟩ := hp
    rcases hadds.new k row hget with hget | ⟨abilityID, habil, hrow⟩
    · rw [hsaves.permissions] at hget
      exact .inl (mem_getPermissions.2 ⟨k, row, hget, hid, htype, (hattach hget).symm⟩)
    · refine .inr ⟨⟨?_, ?_⟩, hrow.2.2.1, hnew habil hrow⟩
      · exact Option.some.inj (hid.symm.trans hrow.1)
      · exact Option.some.inj (htype.symm.trans hrow.2.1)
  refine ⟨⟨hroles, fun id t hne p => ⟨fun hp => ?_, hold id t p⟩, fun p hp => ⟨fun hmem' => ?_,
    hold userID .user p⟩⟩, fun p hp => ?_, fun name hname => ?_⟩
  · rcases hmem id t p hp with hp | ⟨heq, _⟩
    · exact hp
    · exact absurd heq hne
  · rcases hmem userID .user p hmem' with hmem' | ⟨_, _, hexact⟩
    · exact hmem'
    · exact absurd hexact hp
  · rcases hmem userID .user p hp with hp | ⟨_, hforb, _⟩
    · exact .inl hp
    · exact .inr hforb
  · -- the row for `name`
    have habilit : createAbilityForEntity name entityID entityType ∈
        abilitiesFor entityID entityType names := List.mem_map_of_mem hname
    obtain ⟨id, a, hget, hmatch⟩ := hfound _ habilit
    have hid := (mem_findAbilityIDs hsaves.wellFormed).2 ⟨_, habilit, a, hget, hmatch⟩
    obtain ⟨k, row, hrow, hnewRow⟩ := hadds.added id hid
    refine ⟨r'.attach row, mem_getPermissions.2 ⟨k, row, hrow, hnewRow.1, hnewRow.2.1, rfl⟩,
      hnewRow.2.2.1, ?_⟩
    rw [exact_attach, habili, hnewRow.2.2.2]
    exact ⟨_, List.mem_singleton_self _, a, hget, hmatch⟩

theorem WellFormed.applyAbilities (hr : r.WellFormed) (forbidden : Bool) {n : ℕ}
    (hroom : r.HasRoom (names.length + n)) :
    (r.applyAbilities userID .user (abilitiesFor entityID entityType names) forbidden).WellFormed ∧
      (r.applyAbilities userID .user (abilitiesFor entityID entityType names)
        forbidden).HasRoom n := by
  have hlen : (abilitiesFor entityID entityType names).length = names.length := List.length_map _
  obtain ⟨r₁, hsaves, _, hadds⟩ := applyAbilities_spec hr userID .user
    (abilitiesFor entityID entityType names) forbidden
    (hlen.symm ▸ hroom.mono (Nat.le_add_right _ _))
  refine ⟨hadds.wellFormed, ?_⟩
  have hids : (r₁.findAbilityIDs (abilitiesFor entityID entityType names)).length ≤ names.length := by
    rw [← hlen]
    exact List.length_filterMap_le _ _
  have hnextA : (r.applyAbilities userID .user (abilitiesFor entityID entityType names)
      forbidden).nextAbilityID = r₁.nextAbilityID :=
    (congrArg RBACRepository.nextAbilityID hadds.rest :)
  obtain ⟨hroomA, hroomP⟩ := hroom
  have hubA := hsaves.next.2
  have hubP := hadds.next
  rw [hsaves.nextPermissionID] at hubP
  exact ⟨by omega, by omega⟩

end RBACRepository

end GameAP
