import Mathlib.Data.Finset.Basic

/-!
# Searches with optional fields

A filter has several fields, each of them set or not.  The usual search takes what the first field
that is set selects (`candidates`), and intersects it with what the later ones select (`narrow`);
the first one needs no intersection.  `mem_narrow_candidates` says that this is the conjunction of
the fields that are set.
-/

namespace Selection

variable {α : Type*} [DecidableEq α] {a : α} {s : Finset α}

/-- A field of a filter: whether it is set, and what it selects. -/
structure Criterion (α : Type*) where
  set : Bool
  ids : Finset α

/-- What the first field that is set selects; everything if none is. -/
def candidates (all : Finset α) : List (Criterion α) → Finset α
  | [] => all
  | f :: fs => if f.set then f.ids else candidates all fs

/-- The intersection with each field that is set after another one; `seen` says whether there was
one before. -/
def narrow : Bool → Finset α → List (Criterion α) → Finset α
  | _, s, [] => s
  | seen, s, f :: fs => narrow (seen || f.set) (if f.set && seen then s ∩ f.ids else s) fs

theorem narrow_append (seen : Bool) (s : Finset α) (fs gs : List (Criterion α)) :
    narrow seen s (fs ++ gs) = narrow (seen || fs.any Criterion.set) (narrow seen s fs) gs := by
  induction fs generalizing seen s with
  | nil => simp [narrow]
  | cons f fs ih => simp [narrow, ih, Bool.or_assoc]

theorem mem_narrow_true {fs : List (Criterion α)} :
    a ∈ narrow true s fs ↔ a ∈ s ∧ ∀ f ∈ fs, f.set = true → a ∈ f.ids := by
  induction fs generalizing s with
  | nil => simp [narrow]
  | cons f fs ih =>
    rw [narrow, Bool.true_or, ih, List.forall_mem_cons]
    cases f.set with
    | false => simp
    | true => simp [and_assoc]

theorem mem_narrow_filter {seen : Bool} {p : α → Prop} [DecidablePred p]
    {fs : List (Criterion α)} : a ∈ narrow seen (s.filter p) fs ↔ p a ∧ a ∈ narrow seen s fs := by
  induction fs generalizing seen s with
  | nil => rw [narrow, narrow, Finset.mem_filter, and_comm]
  | cons f fs ih =>
    rw [narrow, narrow]
    split_ifs
    · rw [Finset.filter_inter, ih]
    · exact ih

variable {all : Finset α} {fs gs : List (Criterion α)}

omit [DecidableEq α] in
theorem candidates_of_none (h : fs.any Criterion.set = false) :
    candidates all (fs ++ gs) = candidates all gs := by
  induction fs with
  | nil => rfl
  | cons f fs ih =>
    rw [List.any_cons, Bool.or_eq_false_iff] at h
    rw [List.cons_append, candidates, h.1, ih h.2]
    rfl

theorem narrow_of_none (h : fs.any Criterion.set = false) (s : Finset α) : narrow false s fs = s := by
  induction fs with
  | nil => rfl
  | cons f fs ih =>
    rw [List.any_cons, Bool.or_eq_false_iff] at h
    rw [narrow, h.1]
    exact ih h.2

/-- **The search is the conjunction of the fields that are set**, if there is one among them. -/
theorem mem_narrow_candidates (h : fs.any Criterion.set = true) :
    a ∈ narrow false (candidates all (fs ++ gs)) fs ↔ ∀ f ∈ fs, f.set = true → a ∈ f.ids := by
  induction fs with
  | nil => cases h
  | cons f fs ih =>
    rw [List.cons_append, candidates, narrow, List.forall_mem_cons]
    cases hset : f.set with
    | true => simp [mem_narrow_true]
    | false =>
      rw [List.any_cons, hset] at h
      simpa using ih h

theorem mem_narrow_candidates_all (hall : ∀ f ∈ fs, a ∈ f.ids → a ∈ all) :
    a ∈ narrow false (candidates all fs) fs ↔ a ∈ all ∧ ∀ f ∈ fs, f.set = true → a ∈ f.ids := by
  have happ : candidates all fs = candidates all (fs ++ []) := by rw [List.append_nil]
  rw [happ]
  cases h : fs.any Criterion.set with
  | true =>
    rw [mem_narrow_candidates h, iff_and_self]
    intro hfs
    obtain ⟨f, hf, hset⟩ := List.any_eq_true.1 h
    exact hall f hf (hfs f hf hset)
  | false =>
    rw [candidates_of_none h, narrow_of_none h, candidates, iff_self_and]
    intro _ f hf hset
    exact absurd hset (List.any_eq_false.1 h f hf)

end Selection
