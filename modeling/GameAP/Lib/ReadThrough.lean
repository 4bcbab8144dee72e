import GameAP.Lib.Tables

/-!
# Caches that are filled by reading

A query is answered from the cache if there is an entry under its key, and otherwise from the
source, with an entry for the next time; a query without a key always goes to the source.  Several
queries may share a key.  An entry carries the query that has filled it, as history.

`Fresh` says that every entry has the answer that the source would give to that query now.  Reading
keeps it (`Fresh.read`), and so does a write that deletes the entries it makes wrong
(`Fresh.delWhere`).  A query is then answered right exactly if the source has the same answer for it
as for the query that has filled its entry (`Fresh.answer_iff`).
-/

namespace ReadThrough

open Tables

/-- A cached answer, with the query that was answered. -/
structure Entry (Q V : Type*) where
  query : Q
  value : V
  deriving DecidableEq

/-- The entries by key. -/
abbrev Cache (K Q V : Type*) := Table K (Entry Q V)

variable {K Q V : Type*} [DecidableEq K]

section

variable (key : Q → Option K) (eval : Q → V) (cache : Cache K Q V)

/-- The answer to a query, and the cache afterwards; `eval` is the source. -/
def read (q : Q) : V × Cache K Q V :=
  match key q with
  | none => (eval q, cache)
  | some k =>
    match cache.get k with
    | some entry => (entry.value, cache)
    | none => (eval q, cache.put k ⟨q, eval q⟩)

/-- Every entry is under the key of its query and has the answer that the source gives to it. -/
def Fresh : Prop :=
  ∀ k entry, cache.get k = some entry → key entry.query = some k ∧ entry.value = eval entry.query

end

variable {key : Q → Option K} {eval eval' : Q → V} {cache : Cache K Q V} {q : Q}

theorem fresh_empty (key : Q → Option K) (eval : Q → V) : Fresh key eval ∅ := by
  intro k entry hget
  cases hget

theorem Fresh.read (h : Fresh key eval cache) (q : Q) :
    Fresh key eval (ReadThrough.read key eval cache q).2 := by
  unfold ReadThrough.read
  cases hkey : key q with
  | none => exact h
  | some k =>
    dsimp only
    cases hget : cache.get k with
    | some entry => exact h
    | none =>
      intro k' entry hentry
      rw [Table.get_put] at hentry
      split_ifs at hentry with hk
      · cases hentry
        exact ⟨hk ▸ hkey, rfl⟩
      · exact h k' entry hentry

theorem Fresh.answer_iff (h : Fresh key eval cache) (q : Q) :
    (ReadThrough.read key eval cache q).1 = eval q ↔
      ∀ k entry, key q = some k → cache.get k = some entry → eval entry.query = eval q := by
  unfold ReadThrough.read
  cases hkey : key q with
  | none => simp
  | some k =>
    dsimp only
    cases hget : cache.get k with
    | some entry =>
      dsimp only
      rw [(h k entry hget).2]
      constructor
      · intro heq k' entry' hk' hentry'
        cases hk'
        rw [hget] at hentry'
        cases hentry'
        exact heq
      · intro hall
        exact hall k entry rfl hget
    | none =>
      refine ⟨fun _ k' entry hk' hentry => ?_, fun _ => rfl⟩
      cases hk'
      rw [hget] at hentry
      cases hentry

theorem Fresh.delWhere (h : Fresh key eval cache) (f : K → Bool)
    (hsame : ∀ k entry, cache.get k = some entry → f k = false →
      eval' entry.query = eval entry.query) : Fresh key eval' (Table.delWhere cache f) := by
  intro k entry hget
  rw [Table.get_delWhere] at hget
  split_ifs at hget with hf
  obtain ⟨hkey, hvalue⟩ := h k entry hget
  exact ⟨hkey, hvalue.trans (hsame k entry hget (Bool.eq_false_iff.2 hf)).symm⟩

end ReadThrough
