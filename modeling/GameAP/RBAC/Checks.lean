import GameAP.RBAC.Permissions

/-!
# `Can` and `CanOneOf`

Both checks walk the rows of an ability in the order in which the repository returned them.  `Can`
stops at the first forbidden row with a denial and at the first unscoped allowing row with an
acceptance; `CanOneOf` skips forbidden rows.

* `order_independent_iff`: exactly when the order does not matter to `Can`.  The rows of the roles,
  which come later, count only for abilities that the rows of the user leave open;
* `canOneOf_agrees_iff`: exactly when `CanOneOf` accepts the abilities that `Can` accepts.
-/

namespace GameAP

open List

namespace RBAC

/-! ### The vote of a row -/

theorem vote_eq_false_iff (p : Permission) : vote p = some false ↔ p.forbidden = true := by
  unfold vote
  cases p.forbidden with
  | true => simp
  | false =>
    cases p.ability with
    | none => simp
    | some ability => cases ability.entityType <;> cases ability.entityID <;> simp

theorem vote_eq_true_iff (p : Permission) : vote p = some true ↔ accepts p = true := by
  unfold vote accepts
  cases p.forbidden with
  | true => simp
  | false =>
    cases p.ability with
    | none => simp
    | some ability => cases ability.entityType <;> cases ability.entityID <;> simp

/-- The first row of the ability that decides. -/
def verdict (name : AbilityName) (rows : List Permission) : Option Bool :=
  (rows.filter (hasName name)).findSome? vote

/-- The rows of the ability hold a vote for `b`. -/
def Votes (name : AbilityName) (b : Bool) (rows : List Permission) : Prop :=
  ∃ p ∈ rows, hasName name p = true ∧ vote p = some b

/-- The rows of the ability both accept and deny. -/
def Mixed (name : AbilityName) (rows : List Permission) : Prop :=
  Votes name true rows ∧ Votes name false rows

variable {name : AbilityName} {rows rows' : List Permission} {b : Bool} {p : Permission}

theorem votes_of_verdict (h : verdict name rows = some b) : Votes name b rows := by
  obtain ⟨p, hp, hvote⟩ := exists_of_findSome?_eq_some h
  obtain ⟨hp, hname⟩ := mem_filter.1 hp
  exact ⟨p, hp, hname, hvote⟩

theorem verdict_eq_none_iff : verdict name rows = none ↔ ∀ b, ¬ Votes name b rows := by
  constructor
  · rintro h b ⟨p, hp, hname, hvote⟩
    have := findSome?_eq_none_iff.1 h p (mem_filter.2 ⟨hp, hname⟩)
    rw [hvote] at this
    cases this
  · intro hnone
    cases h : verdict name rows with
    | none => rfl
    | some b => exact absurd (votes_of_verdict h) (hnone b)

/-- Rows that are not mixed decide by what votes there are, in whatever order they come. -/
theorem verdict_eq_some_iff (h : ¬ Mixed name rows) :
    verdict name rows = some b ↔ Votes name b rows := by
  refine ⟨votes_of_verdict, fun hb => ?_⟩
  cases hv : verdict name rows with
  | none => exact absurd hb (verdict_eq_none_iff.1 hv b)
  | some b' =>
    have hb' := votes_of_verdict hv
    cases b <;> cases b'
    · rfl
    · exact absurd ⟨hb', hb⟩ h
    · exact absurd ⟨hb, hb'⟩ h
    · rfl

theorem Votes.of_mem_iff (h : Votes name b rows) (hmem : ∀ p, p ∈ rows → p ∈ rows') :
    Votes name b rows' := by
  obtain ⟨p, hp, hvote⟩ := h
  exact ⟨p, hmem p hp, hvote⟩

theorem votes_congr (hmem : ∀ p, p ∈ rows ↔ p ∈ rows') : Votes name b rows ↔ Votes name b rows' :=
  ⟨fun h => h.of_mem_iff fun p => (hmem p).1, fun h => h.of_mem_iff fun p => (hmem p).2⟩

theorem verdict_congr (hmem : ∀ p, p ∈ rows ↔ p ∈ rows') (h : ¬ Mixed name rows) :
    verdict name rows' = verdict name rows := by
  have h' : ¬ Mixed name rows' := fun hm =>
    h ⟨(votes_congr hmem).2 hm.1, (votes_congr hmem).2 hm.2⟩
  refine Option.ext fun b => ?_
  rw [verdict_eq_some_iff h, verdict_eq_some_iff h', votes_congr hmem]

theorem verdict_cons (hname : hasName name p = true) (hvote : vote p = some b)
    (rows : List Permission) : verdict name (p :: rows) = some b := by
  rw [verdict, filter_cons_of_pos hname, findSome?_cons_of_isSome]
  · exact hvote
  · rw [hvote]
    rfl

/-! ### Other orders -/

/-- The same content, returned in another order. -/
structure Content.Permuted (c c' : Content) : Prop where
  permissions : ∀ id t, (c'.permissions id t).Perm (c.permissions id t)
  roles : ∀ id t, (c'.roles id t).Perm (c.roles id t)

namespace Content

variable {c c' : Content} {userID : ℕ}

theorem mem_roleRows (c : Content) (userID : ℕ) (p : Permission) :
    p ∈ c.roleRows userID ↔ ∃ role ∈ c.roles userID .user,
      p ∈ c.permissions role.id .role ∧ admits role p = true := by
  simp [roleRows, restrict_eq_filter]

section

variable (h : Permuted c c') (userID : ℕ)
include h

theorem Permuted.mem_user (p : Permission) :
    p ∈ c.permissions userID .user ↔ p ∈ c'.permissions userID .user :=
  (h.permissions userID .user).mem_iff.symm

theorem Permuted.mem_roleRows (p : Permission) :
    p ∈ c.roleRows userID ↔ p ∈ c'.roleRows userID := by
  simp only [Content.mem_roleRows, (h.roles userID .user).mem_iff, (h.permissions _ .role).mem_iff]

theorem Permuted.mem_rowsOf (name : AbilityName)
    (p : Permission) : p ∈ c.rowsOf userID name ↔ p ∈ c'.rowsOf userID name := by
  simp only [rowsOf, rows, mem_filter, mem_append, h.mem_user, h.mem_roleRows]

end

theorem rowsOf_findSome? (c : Content) (userID : ℕ) (name : AbilityName) :
    (c.rowsOf userID name).findSome? vote =
      (verdict name (c.permissions userID .user)).or (verdict name (c.roleRows userID)) := by
  rw [rowsOf, rows, filter_append, findSome?_append]
  rfl

/-- The order cannot matter: the rows of the user do not both accept and deny the ability, and if
they say nothing about it then neither do the rows of the roles. -/
def Unambiguous (c : Content) (userID : ℕ) (name : AbilityName) : Prop :=
  ¬ Mixed name (c.permissions userID .user) ∧
    ((∀ b, ¬ Votes name b (c.permissions userID .user)) → ¬ Mixed name (c.roleRows userID))

theorem Unambiguous.findSome?_congr (hu : c.Unambiguous userID name) (h : Permuted c c') :
    (c'.rowsOf userID name).findSome? vote = (c.rowsOf userID name).findSome? vote := by
  obtain ⟨huser, hroles⟩ := hu
  rw [rowsOf_findSome?, rowsOf_findSome?, verdict_congr (h.mem_user userID) huser]
  cases hv : verdict name (c.permissions userID .user) with
  | none => rw [verdict_congr (h.mem_roleRows userID) (hroles (verdict_eq_none_iff.1 hv))]
  | some b => rfl

/-! ### Orders that decide one way or the other -/

/-- The content with row `p` of one entity returned first. -/
def rowFirst (c : Content) (id : ℕ) (t : EntityType) (p : Permission) : Content where
  permissions id' t' :=
    if id' = id ∧ t' = t then p :: (c.permissions id t).erase p else c.permissions id' t'
  roles := c.roles

/-- The content with one role of the user returned first. -/
def roleFirst (c : Content) (userID : ℕ) (role : RestrictedRole) : Content where
  permissions := c.permissions
  roles id t :=
    if id = userID ∧ t = .user then role :: (c.roles userID .user).erase role else c.roles id t

theorem permuted_rowFirst {id : ℕ} {t : EntityType}
    (hp : p ∈ c.permissions id t) : Permuted c (c.rowFirst id t p) := by
  refine ⟨fun id' t' => ?_, fun _ _ => .refl _⟩
  simp only [rowFirst]
  split_ifs with h
  · obtain ⟨rfl, rfl⟩ := h
    exact (perm_cons_erase hp).symm
  · exact .refl _

theorem permuted_roleFirst {role : RestrictedRole} (hrole : role ∈ c.roles userID .user) :
    Permuted c (c.roleFirst userID role) := by
  refine ⟨fun _ _ => .refl _, fun id t => ?_⟩
  simp only [roleFirst]
  split_ifs with h
  · obtain ⟨rfl, rfl⟩ := h
    exact (perm_cons_erase hrole).symm
  · exact .refl _

theorem Permuted.trans {c'' : Content} (h : Permuted c c') (h' : Permuted c' c'') :
    Permuted c c'' :=
  ⟨fun id t => (h'.permissions id t).trans (h.permissions id t),
    fun id t => (h'.roles id t).trans (h.roles id t)⟩

theorem exists_permuted_of_user (h : Votes name b (c.permissions userID .user)) :
    ∃ c', Permuted c c' ∧ (c'.rowsOf userID name).findSome? vote = some b := by
  obtain ⟨p, hp, hname, hvote⟩ := h
  refine ⟨_, permuted_rowFirst hp, ?_⟩
  have hfirst : (c.rowFirst userID .user p).permissions userID .user =
      p :: (c.permissions userID .user).erase p := by
    simp [rowFirst]
  rw [rowsOf_findSome?, hfirst, verdict_cons hname hvote]
  rfl

theorem exists_permuted_of_role (hnone : verdict name (c.permissions userID .user) = none)
    (h : Votes name b (c.roleRows userID)) :
    ∃ c', Permuted c c' ∧ (c'.rowsOf userID name).findSome? vote = some b := by
  obtain ⟨p, hp, hname, hvote⟩ := h
  obtain ⟨role, hrole, hp, hadmits⟩ := (c.mem_roleRows userID p).1 hp
  have hrow : Permuted c (c.rowFirst role.id .role p) := permuted_rowFirst hp
  have hperm : Permuted c ((c.rowFirst role.id .role p).roleFirst userID role) :=
    hrow.trans (permuted_roleFirst hrole)
  refine ⟨_, hperm, ?_⟩
  have huser : ((c.rowFirst role.id .role p).roleFirst userID role).permissions userID .user =
      c.permissions userID .user := by
    simp [rowFirst, roleFirst]
  -- the first row of the first role is `p`
  have hroles : ∃ rest, ((c.rowFirst role.id .role p).roleFirst userID role).roleRows userID =
      p :: rest := by
    simp only [roleRows, roleFirst, rowFirst, and_self, if_true, flatMap_cons,
      restrict_eq_filter, filter_cons_of_pos hadmits, cons_append]
    exact ⟨_, rfl⟩
  obtain ⟨rest, hrest⟩ := hroles
  rw [rowsOf_findSome?, huser, hnone, hrest, verdict_cons hname hvote]
  rfl

end Content

/-! ### The order of the rows -/

/-- Neither `Can` nor `CanOneOf` depends on the order in which the content is returned. -/
def OrderIndependent (cached : Option PermissionMap) (c : Content) (userID : ℕ)
    (abilities : List AbilityName) : Prop :=
  ∀ c', c.Permuted c' →
    can cached c'.repository userID abilities = can cached c.repository userID abilities ∧
    canOneOf cached c'.repository userID abilities = canOneOf cached c.repository userID abilities

open Content

theorem can_singleton (c : Content) (userID : ℕ) (name : AbilityName) :
    can none c.repository userID [name] =
      .ok ((c.rowsOf userID name).findSome? vote == some true) := by
  rw [can_content, all_cons, all_nil, Bool.and_true]

/-- A mixed ability is accepted in one order and denied in another. -/
theorem unambiguous_of_orderIndependent {c : Content} {userID : ℕ}
    (h : OrderIndependent none c userID [name]) : c.Unambiguous userID name := by
  have hsame {c₁ c₂ : Content} (h₁ : c.Permuted c₁) (h₂ : c.Permuted c₂)
      (ht : (c₁.rowsOf userID name).findSome? vote = some true)
      (hf : (c₂.rowsOf userID name).findSome? vote = some false) : False := by
    have heq := (h c₁ h₁).1.trans (h c₂ h₂).1.symm
    rw [can_singleton, can_singleton, ht, hf] at heq
    cases heq
  constructor
  · rintro ⟨htrue, hfalse⟩
    obtain ⟨c₁, h₁, ht⟩ := exists_permuted_of_user htrue
    obtain ⟨c₂, h₂, hf⟩ := exists_permuted_of_user hfalse
    exact hsame h₁ h₂ ht hf
  · rintro hnone ⟨htrue, hfalse⟩
    have hnone := verdict_eq_none_iff.2 hnone
    obtain ⟨c₁, h₁, ht⟩ := exists_permuted_of_role hnone htrue
    obtain ⟨c₂, h₂, hf⟩ := exists_permuted_of_role hnone hfalse
    exact hsame h₁ h₂ ht hf

/-- A repository in which every user has these rows and no role. -/
def userRows (rows : List Permission) : Content where
  permissions _ t := if t = .user then rows else []
  roles _ _ := []

def allowedThenForbidden : Content :=
  userRows [{ ability := some { name := "view" } },
    { forbidden := true, ability := some { name := "view" } }]

def forbiddenThenAllowed : Content :=
  userRows [{ forbidden := true, ability := some { name := "view" } },
    { ability := some { name := "view" } }]

theorem permuted_forbiddenThenAllowed : allowedThenForbidden.Permuted forbiddenThenAllowed := by
  refine ⟨fun id t => ?_, fun _ _ => .refl _⟩
  by_cases ht : t = .user
  · simp only [allowedThenForbidden, forbiddenThenAllowed, userRows, ht, if_true]
    exact .swap ..
  · simp only [allowedThenForbidden, forbiddenThenAllowed, userRows, ht, if_false]
    exact .refl _

section

variable (c : Content) (userID : ℕ) (abilities : List AbilityName)

/-- `CanOneOf` accepts exactly when `Can` accepts one of the abilities. -/
def Agrees : Prop :=
  canOneOf none c.repository userID abilities = .ok true ↔
    ∃ name ∈ abilities, can none c.repository userID [name] = .ok true

/-- Neither check accepts an ability that has a forbidden row. -/
def RespectsForbid : Prop :=
  ∀ name ∈ abilities, (∃ p ∈ c.rowsOf userID name, p.forbidden = true) →
    can none c.repository userID [name] = .ok false ∧
    canOneOf none c.repository userID [name] = .ok false

end

theorem findSome?_vote_iff (rows : List Permission) :
    rows.findSome? vote = some true ↔ ∃ as p bs, rows = as ++ p :: bs ∧ accepts p = true ∧
      ∀ q ∈ as, q.forbidden = false := by
  constructor
  · intro h
    obtain ⟨as, p, bs, heq, hp, hbef⟩ := findSome?_eq_some_iff.1 h
    refine ⟨as, p, bs, heq, (vote_eq_true_iff p).1 hp, fun q hq => ?_⟩
    refine Bool.eq_false_iff.2 fun hforb => ?_
    have := hbef q hq
    rw [(vote_eq_false_iff q).2 hforb] at this
    cases this
  · rintro ⟨as, p, bs, rfl, hp, hbef⟩
    rw [findSome?_append]
    cases has : as.findSome? vote with
    | none =>
      rw [findSome?_cons, (vote_eq_true_iff p).2 hp]
      rfl
    | some b =>
      -- no row before `p` denies
      obtain ⟨q, hq, hvote⟩ := exists_of_findSome?_eq_some has
      cases b with
      | true => rfl
      | false =>
        rw [vote_eq_false_iff, hbef q hq] at hvote
        cases hvote

section

variable (c : Content) (userID : ℕ) (abilities : List AbilityName)

theorem canOneOf_iff :
    canOneOf none c.repository userID abilities = .ok true ↔
      ∃ name ∈ abilities, ∃ p ∈ c.rowsOf userID name, accepts p = true := by
  rw [canOneOf_content, Except.ok.injEq]
  simp only [any_eq_true]

/-- `CanOneOf` accepts nothing that `Can` denies: no ability has an unscoped allowing row, or for
some ability such a row comes before every forbidden one. -/
theorem agrees_iff : Agrees c userID abilities ↔
      (∀ name ∈ abilities, ∀ p ∈ c.rowsOf userID name, accepts p = false) ∨
      ∃ name ∈ abilities, ∃ as p bs, c.rowsOf userID name = as ++ p :: bs ∧ accepts p = true ∧
        ∀ q ∈ as, q.forbidden = false := by
  unfold Agrees
  simp only [canOneOf_iff, can_singleton, Except.ok.injEq, beq_iff_eq, findSome?_vote_iff]
  have hacce : (∃ name ∈ abilities, ∃ as p bs, c.rowsOf userID name = as ++ p :: bs ∧
      accepts p = true ∧ ∀ q ∈ as, q.forbidden = false) →
      ∃ name ∈ abilities, ∃ p ∈ c.rowsOf userID name, accepts p = true := by
    rintro ⟨name, hname, as, p, bs, heq, hacc, _⟩
    exact ⟨name, hname, p, by simp [heq], hacc⟩
  refine (iff_def.trans ((and_iff_left hacce).trans imp_iff_not_or)).trans ?_
  simp only [not_exists, not_and, Bool.not_eq_true]

/-- No listed ability has both a forbidden row and an unscoped allowing row. -/
def NoConflict (abilities : List AbilityName) : Prop :=
  ∀ name ∈ abilities, (∃ p ∈ c.rowsOf userID name, p.forbidden = true) →
    ∀ p ∈ c.rowsOf userID name, accepts p = false

theorem respectsForbid_iff : RespectsForbid c userID abilities ↔ NoConflict c userID abilities := by
  constructor
  · intro h name hname hforb p hp
    obtain ⟨_, hone⟩ := h name hname hforb
    refine Bool.eq_false_iff.2 fun hacc => ?_
    have hok := (canOneOf_iff c userID [name]).2 ⟨name, mem_singleton_self name, p, hp, hacc⟩
    rw [hone] at hok
    cases hok
  · intro h name hname hforb
    have hnone := h name hname hforb
    constructor
    · rw [can_singleton, Except.ok.injEq, beq_eq_false_iff_ne]
      intro hvote
      obtain ⟨as, p, bs, heq, hacc, _⟩ := (findSome?_vote_iff _).1 hvote
      rw [hnone p (by simp [heq])] at hacc
      cases hacc
    · rw [canOneOf_content, any_cons, any_nil, Bool.or_false, Except.ok.injEq,
        any_eq_false]
      exact fun p hp => by simp [hnone p hp]

end

theorem agrees_of_noConflict {c : Content} {userID : ℕ} {abilities : List AbilityName}
    (h : NoConflict c userID abilities) : Agrees c userID abilities := by
  rw [agrees_iff]
  by_cases haccept : ∃ name ∈ abilities, ∃ p ∈ c.rowsOf userID name, accepts p = true
  · right
    obtain ⟨name, hname, p, hp, hacc⟩ := haccept
    obtain ⟨as, bs, heq⟩ := append_of_mem hp
    refine ⟨name, hname, as, p, bs, heq, hacc, fun q hq => ?_⟩
    refine Bool.eq_false_iff.2 fun hforb => ?_
    rw [h name hname ⟨q, by simp [heq, hq], hforb⟩ p hp] at hacc
    cases hacc
  · left
    simpa only [not_exists, not_and, Bool.not_eq_true] using haccept

/-- `CanOneOf` accepts exactly when `Can` accepts one of the abilities, and neither accepts a
forbidden one, exactly when no listed ability has both a forbidden row and an unscoped allowing
row. -/
theorem canOneOf_agrees_iff (c : Content) (userID : ℕ) (abilities : List AbilityName) :
    (Agrees c userID abilities ∧ RespectsForbid c userID abilities) ↔
      NoConflict c userID abilities := by
  rw [respectsForbid_iff]
  exact ⟨fun h => h.2, fun h => ⟨agrees_of_noConflict h, h⟩⟩

/-- A forbidden row in front of an allowing one: `Can` denies, `CanOneOf` accepts. -/
theorem canOneOf_accepts_forbidden :
    ¬ ∀ c userID abilities, Agrees c userID abilities ∧ RespectsForbid c userID abilities := by
  intro hall
  obtain ⟨hagrees, _⟩ := hall forbiddenThenAllowed 1 ["view"]
  have hdenied : ¬ ∃ name ∈ ["view"],
      can none forbiddenThenAllowed.repository 1 [name] = .ok true := by
    decide
  exact hdenied (hagrees.1 (by decide))

end RBAC

end GameAP
