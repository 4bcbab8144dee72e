import Mathlib.Algebra.Ring.Nat
import Mathlib.Tactic.Common

/-!
# Keys of cached repositories

The arguments that all repositories have in common, and the keys under which the cached ones keep
what they have read.  A key is the prefix of the repository, the operation and a hash of the
parameters; the type `H` of the hashes stays open.  A pattern ends in a star: `games:*` are all the
keys of a repository, `node:find*` those of the operations that begin with `find`.

An absent list and an empty one are the same here.
-/

namespace GameAP

/-- `filters.SortDirection`. -/
inductive SortDirection
  | asc
  | desc
  deriving DecidableEq

/-- `filters.Sorting`. -/
structure Sorting where
  field : String
  direction : SortDirection := .asc
  deriving DecidableEq

/-- `filters.DefaultLimit`. -/
def defaultLimit : ℕ := 20

/-- Two numbers of 64 bits.  A page whose end does not fit into 64 bits makes the slice expression
panic, and cannot be asked for here. -/
structure Pagination where
  limit : ℕ
  offset : ℕ := 0
  fits : offset + (if limit = 0 then defaultLimit else limit) < 2 ^ 64 := by decide
  deriving DecidableEq

/-- `applyPagination` of the repositories. -/
def applyPagination {α : Type*} (rows : List α) : Option Pagination → List α
  | none => rows
  | some p =>
    if rows.length ≤ p.offset then []
    else (rows.drop p.offset).take (if p.limit = 0 then defaultLimit else p.limit)

/-- The comparison of `sort.Slice`: the first field that differs decides. -/
def lessBy {α : Type*} (compare : String → α → α → Ordering) : List Sorting → α → α → Bool
  | [], _, _ => false
  | sorting :: order, a, b =>
    match compare sorting.field a b with
    | .eq => lessBy compare order a b
    | .lt => sorting.direction = .asc
    | .gt => sorting.direction = .desc

/-- Rows in an order, or as they are if none is asked for. -/
def sortRows {α : Type*} (compare : String → α → α → Ordering) (order : List Sorting)
    (rows : List α) : List α :=
  if order = [] then rows else rows.mergeSort fun a b => !lessBy compare order b a

section Rows

variable {α : Type*} {rows : List α} {row : α}

theorem mem_of_mem_applyPagination {page : Option Pagination} (h : row ∈ applyPagination rows page) :
    row ∈ rows := by
  cases page with
  | none => exact h
  | some p =>
    simp only [applyPagination] at h
    split_ifs at h
    · cases h
    all_goals exact List.mem_of_mem_drop (List.mem_of_mem_take h)

end Rows

/-- The results of a call with this pagination are not cached. -/
def paginated : Option Pagination → Bool
  | none => false
  | some p => 1 < p.limit || 0 < p.offset

/-- `BuildKey`. -/
structure CacheKey (H : Type*) where
  repository : String
  operation : String
  params : H
  deriving DecidableEq

end GameAP
