import Mathlib.Data.List.Basic

/-!
# Copies that are written back

Callers read a shared object, work on their copies, and write.  A history, the newest event first,
says who has read and what was written.  `fresh h i` says that caller `i` has read since the last
write, so that its copy is the object as it stands; a write of anybody makes all the copies old.
-/

namespace Snapshots

variable {ω : Type*}

/-- Caller `i` reads the object, or something is written to it. -/
inductive Event (ω : Type*)
  | read (i : ℕ)
  | write (w : ω)
  deriving DecidableEq

/-- Caller `i` has read since the last write. -/
def fresh : List (Event ω) → ℕ → Bool
  | [], _ => false
  | .read j :: h, i => j = i || fresh h i
  | .write _ :: _, _ => false

/-- What was written last. -/
def lastWrite : List (Event ω) → Option ω
  | [] => none
  | .read _ :: h => lastWrite h
  | .write w :: _ => some w

@[simp] theorem fresh_write (w : ω) (h : List (Event ω)) (i : ℕ) : fresh (.write w :: h) i = false := rfl

theorem fresh_read_ne {i j : ℕ} (hij : j ≠ i) (h : List (Event ω)) :
    fresh (.read j :: h) i = fresh h i := by
  simp [fresh, hij]

end Snapshots
