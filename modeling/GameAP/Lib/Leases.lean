import GameAP.Lib.Tables

/-!
# Leases

A lease gives a key to the holder of a token until it is over.  What the table keeps as the end of a
lease need not be an instant: `isOver e now` says whether the end `e` has passed at `now`, and it is
`Lasting` if what is over stays over.

`steal`, `insert`, `acquire`, `refresh`, `release` and `sweep` leave alone the leases that are not
over and that another token holds (`Spares`), also when they compare with an earlier instant.
`Holds` is what the owner of a token may rely on, `Holds.of_spares` keeps it, and `Holds.eq_token`
is the exclusion.
-/

namespace Leases

open Tables

/-- The lease of a key: who holds it, and its end as the table keeps it. -/
structure Lease (τ T : Type*) where
  token : τ
  expires : T
  deriving DecidableEq

/-- The leases, by key. -/
abbrev LeaseTable (κ τ T : Type*) := Table κ (Lease τ T)

variable {κ τ T Θ : Type*} [DecidableEq κ]

section Operations

variable (isOver live : T → Θ → Bool) (ls : LeaseTable κ τ T)

section

variable (k : κ) (new : Lease τ T)

/-- Replace a lease that is over. -/
def steal (now : Θ) : Option (LeaseTable κ τ T) :=
  match ls.get k with
  | some l => if isOver l.expires now then some (ls.put k new) else none
  | none => none

/-- Take a key that has no lease. -/
def insert : Option (LeaseTable κ τ T) :=
  match ls.get k with
  | some _ => none
  | none => some (ls.put k new)

/-- Take a key that has no lease, or replace a lease that is over. -/
def acquire (now : Θ) : Option (LeaseTable κ τ T) :=
  match ls.get k with
  | some l => if isOver l.expires now then some (ls.put k new) else none
  | none => some (ls.put k new)

end

/-- Give a lease that its token still holds another end. -/
def refresh [DecidableEq τ] (k : κ) (new : Lease τ T) (now : Θ) : Option (LeaseTable κ τ T) :=
  match ls.get k with
  | some l => if l.token = new.token ∧ live l.expires now = true then some (ls.put k new) else none
  | none => none

/-- Delete the lease if the token holds it. -/
def release [DecidableEq τ] (k : κ) (token : τ) : LeaseTable κ τ T :=
  match ls.get k with
  | some l => if l.token = token then ls.del k else ls
  | none => ls

/-- Delete the leases that are over. -/
def sweep (now : Θ) : LeaseTable κ τ T :=
  ls.delWhere fun k => (ls.get k).any fun l => isOver l.expires now

end Operations

/-- What is over stays over. -/
def Lasting [Preorder Θ] (isOver : T → Θ → Bool) : Prop :=
  ∀ e s t, s ≤ t → isOver e s = true → isOver e t = true

/-- The leases that are not over at `now` and that other tokens than `token` hold are still
there. -/
def Spares (isOver : T → Θ → Bool) (now : Θ) (token : τ) (ls ls' : LeaseTable κ τ T) : Prop :=
  ∀ k l, ls.get k = some l → isOver l.expires now = false → l.token ≠ token → ls'.get k = some l

/-- The key has the lease of the token with this end, or that end has passed. -/
def Holds (isOver : T → Θ → Bool) (now : Θ) (ls : LeaseTable κ τ T) (k : κ) (l : Lease τ T) : Prop :=
  ls.get k = some l ∨ isOver l.expires now = true

section Rules

variable {isOver live : T → Θ → Bool} {ls ls' : LeaseTable κ τ T} {k : κ} {l l' new : Lease τ T}
  {token : τ} {s now : Θ}

theorem Spares.refl (isOver : T → Θ → Bool) (now : Θ) (token : τ) (ls : LeaseTable κ τ T) :
    Spares isOver now token ls ls := fun _ _ hget _ _ => hget

theorem spares_put (h : ∀ l, ls.get k = some l → isOver l.expires now = true ∨ l.token = token) :
    Spares isOver now token ls (ls.put k new) := by
  intro k' l hget hover htoken
  by_cases hk : k' = k
  · subst hk
    rcases h l hget with h | h
    · rw [hover] at h
      cases h
    · exact absurd h htoken
  · rw [Table.get_put_ne ls hk]
    exact hget

theorem insert_eq_some (h : insert ls k new = some ls') : ls' = ls.put k new ∧ ls.get k = none := by
  unfold insert at h
  cases hget : ls.get k with
  | none =>
    rw [hget] at h
    cases h
    exact ⟨rfl, rfl⟩
  | some l =>
    rw [hget] at h
    cases h

theorem acquire_eq_some (h : acquire isOver ls k new s = some ls') :
    ls' = ls.put k new ∧ ∀ l, ls.get k = some l → isOver l.expires s = true := by
  unfold acquire at h
  cases hget : ls.get k with
  | none =>
    rw [hget] at h
    cases h
    exact ⟨rfl, fun l hl => by cases hl⟩
  | some l =>
    rw [hget] at h
    dsimp only at h
    split_ifs at h with hover
    cases h
    refine ⟨rfl, fun l' hl' => ?_⟩
    cases hl'
    exact hover

theorem acquire_of_steal (h : steal isOver ls k new s = some ls') :
    acquire isOver ls k new s = some ls' := by
  unfold steal at h
  unfold acquire
  cases hget : ls.get k with
  | none =>
    rw [hget] at h
    cases h
  | some l =>
    rw [hget] at h
    exact h

theorem refresh_eq_some [DecidableEq τ] (h : refresh live ls k new s = some ls') :
    ls' = ls.put k new ∧ ∃ l, ls.get k = some l ∧ l.token = new.token ∧ live l.expires s = true := by
  unfold refresh at h
  cases hget : ls.get k with
  | none =>
    rw [hget] at h
    cases h
  | some l =>
    rw [hget] at h
    dsimp only at h
    split_ifs at h with hlive
    cases h
    exact ⟨rfl, l, rfl, hlive⟩

theorem get_release [DecidableEq τ] (ls : LeaseTable κ τ T) (k : κ) (token : τ) {k' : κ}
    (hget : ls.get k' = some l) (htoken : l.token ≠ token) : (release ls k token).get k' = some l := by
  unfold release
  cases hk : ls.get k with
  | none => exact hget
  | some l' =>
    dsimp only
    split_ifs with heq
    · have hne : k' ≠ k := by
        rintro rfl
        rw [hget] at hk
        cases hk
        exact htoken heq
      rw [Table.get_del_ne ls hne]
      exact hget
    · exact hget

theorem spares_release [DecidableEq τ] : Spares isOver now token ls (release ls k token) :=
  fun _ _ hget _ htoken => get_release ls k token hget htoken

theorem spares_refresh [DecidableEq τ] (h : refresh live ls k new s = some ls') :
    Spares isOver now new.token ls ls' := by
  obtain ⟨rfl, l, hget, htoken, -⟩ := refresh_eq_some h
  refine spares_put fun l' hl' => .inr ?_
  rw [hget] at hl'
  cases hl'
  exact htoken

theorem spares_acquire [Preorder Θ] (hlast : Lasting isOver) (hs : s ≤ now)
    (h : acquire isOver ls k new s = some ls') : Spares isOver now token ls ls' := by
  obtain ⟨rfl, hover⟩ := acquire_eq_some h
  exact spares_put fun l hl => .inl (hlast _ _ _ hs (hover l hl))

theorem spares_sweep [Preorder Θ] (hlast : Lasting isOver) (hs : s ≤ now) :
    Spares isOver now token ls (sweep isOver ls s) := by
  intro k l hget hover _
  unfold sweep
  rw [Table.get_delWhere, hget, if_neg]
  intro h
  have hlate := hlast l.expires s now hs h
  rw [hover] at hlate
  cases hlate

theorem Holds.later [Preorder Θ] (hlast : Lasting isOver) (hs : s ≤ now) (h : Holds isOver s ls k l) :
    Holds isOver now ls k l := h.imp_right (hlast _ _ _ hs)

/-- What one token does leaves the leases of the others as they are. -/
theorem Holds.of_spares (h : Holds isOver now ls k l) (hspares : Spares isOver now token ls ls')
    (htoken : l.token ≠ token) : Holds isOver now ls' k l := by
  rcases h with hget | hover
  · cases hover : isOver l.expires now with
    | true => exact .inr hover
    | false => exact .inl (hspares k l hget hover htoken)
  · exact .inr hover

theorem Holds.get (h : Holds isOver now ls k l) (hover : isOver l.expires now = false) :
    ls.get k = some l := by
  refine h.resolve_right fun h => ?_
  rw [hover] at h
  cases h

/-- **Exclusion**: two leases of a key that are not over are the same one. -/
theorem Holds.eq_token (h : Holds isOver now ls k l) (h' : Holds isOver now ls k l')
    (hover : isOver l.expires now = false) (hover' : isOver l'.expires now = false) :
    l.token = l'.token := by
  have hget := h.get hover
  rw [h'.get hover'] at hget
  cases hget
  rfl

end Rules

end Leases
