import Mathlib.Data.List.Basic

/-!
# The versions of a store

Transactions commit one after another, and every commit makes a new version of the store.  A
`Versioned` store remembers all its versions, so that one can say when something that a reader holds
was true: `ReadBetween lo hi f a` says that `f` gave `a` in a version from `lo` to `hi`.  A commit
keeps what is known of the earlier versions, and what was read in one version only is what that
version says.
-/

namespace Versions

/-- The current version of a store and the ones before it, the oldest first. -/
structure Versioned (ρ : Type*) where
  past : List ρ := []
  current : ρ

namespace Versioned

variable {ρ α : Type*} (s : Versioned ρ)

def version : ℕ := s.past.length

/-- The state of a version. -/
def state? (k : ℕ) : Option ρ := (s.past ++ [s.current])[k]?

def commit (r : ρ) : Versioned ρ := ⟨s.past ++ [s.current], r⟩

/-- `f` gave `a` in one of the versions from `lo` to `hi`. -/
def ReadBetween (lo hi : ℕ) (f : ρ → α) (a : α) : Prop :=
  ∃ k r, lo ≤ k ∧ k ≤ hi ∧ s.state? k = some r ∧ f r = a

variable {s} {k : ℕ} {r : ρ}

theorem version_commit (r : ρ) : (s.commit r).version = s.version + 1 := by
  simp [version, commit]

theorem state?_commit (h : s.state? k = some r) (r' : ρ) : (s.commit r').state? k = some r := by
  have hlt : k < (s.past ++ [s.current]).length := (List.getElem?_eq_some_iff.1 h).1
  rw [state?, commit, List.getElem?_append_left hlt]
  exact h

variable {lo hi lo' hi' : ℕ} {f : ρ → α} {a : α}

theorem readBetween_current (hlo : lo ≤ s.version) (hhi : s.version ≤ hi) :
    s.ReadBetween lo hi f (f s.current) :=
  ⟨s.version, s.current, hlo, hhi, by simp [state?, version], rfl⟩

theorem ReadBetween.mono (h : s.ReadBetween lo hi f a) (hlo : lo' ≤ lo) (hhi : hi ≤ hi') :
    s.ReadBetween lo' hi' f a := by
  obtain ⟨k, r, hk, hk', hr, ha⟩ := h
  exact ⟨k, r, Nat.le_trans hlo hk, Nat.le_trans hk' hhi, hr, ha⟩

theorem ReadBetween.commit (h : s.ReadBetween lo hi f a) (r' : ρ) :
    (s.commit r').ReadBetween lo hi f a := by
  obtain ⟨k, r, hk, hk', hr, ha⟩ := h
  exact ⟨k, r, hk, hk', state?_commit hr r', ha⟩

theorem ReadBetween.eq (h : s.ReadBetween k k f a) (hr : s.state? k = some r) : a = f r := by
  obtain ⟨k', r', hk, hk', hr', rfl⟩ := h
  obtain rfl := Nat.le_antisymm hk' hk
  rw [hr] at hr'
  cases hr'
  rfl

end Versioned

end Versions
