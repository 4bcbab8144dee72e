import GameAP.Domain
import GameAP.Lib.Tables

/-!
# The in-memory server repository

The part of `inmemory.ServerRepository` that the task handler uses: the rows by id, `Find` with an
id filter and `Save`.  A search by ids reads the rows themselves, so the secondary indexes of the
other filters play no role here.
-/

namespace GameAP

open Tables

/-- The rows and the counter. -/
structure ServerRepository where
  servers : Table ℕ Server
  nextID : ℕ

namespace ServerRepository

variable (r : ServerRepository)

def new : ServerRepository := ⟨∅, 0⟩

/-- The row of an id. -/
def row (id : ℕ) : Option Server := r.servers.get id

/-- `Find` with `IDs` set and `WithDeleted` unset: the rows that are not soft-deleted. -/
def findByIDs (ids : List ℕ) : List Server :=
  (ascending (ids.toFinset.filter fun id => ∃ s ∈ r.servers.get id, s.deletedAt = none)).filterMap
    r.servers.get

def save (now : Time) (s : Server) : ServerRepository :=
  let s := { s with
    updatedAt := some now
    createdAt := if s.id = 0 ∧ (s.createdAt = none ∨ s.createdAt = some 0) then some now
      else s.createdAt }
  if s.id = 0 then
    let id := (r.nextID + 1) % 2 ^ 32
    ⟨r.servers.put id { s with id := id }, id⟩
  else ⟨r.servers.put s.id s, r.nextID⟩

/-- Rows are stored under their own id, and no row has the id `0`. -/
def Keyed : Prop := ∀ id s, r.row id = some s → s.id = id ∧ id ≠ 0

theorem new_keyed : new.Keyed := by intro id s h; cases h

theorem findByIDs_id (id : ℕ) :
    r.findByIDs [id] = ((r.row id).filter fun s => s.deletedAt = none).toList := by
  unfold findByIDs row
  cases h : r.servers.get id with
  | none => simp [Finset.filter_singleton, h]
  | some s =>
    by_cases hd : s.deletedAt = none
    all_goals simp [Finset.filter_singleton, h, hd, Option.filter]

variable {s : Server}

theorem row_save (hs : s.id ≠ 0) (now : Time) (j : ℕ) :
    (r.save now s).row j = if j = s.id then some { s with updatedAt := some now } else r.row j := by
  simp only [save, hs, if_false, false_and, row]
  exact Table.get_put r.servers s.id j _

variable {r}

theorem Keyed.save (h : r.Keyed) (hs : s.id ≠ 0) (now : Time) : (r.save now s).Keyed := by
  intro id u hu
  rw [r.row_save hs] at hu
  split_ifs at hu with hid
  · cases hu; exact ⟨hid.symm, hid ▸ hs⟩
  · exact h id u hu

end ServerRepository

end GameAP
