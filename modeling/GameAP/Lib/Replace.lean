import Mathlib.Data.List.Infix

/-!
# Replacing a pattern in a text

`replaceAll p v s` replaces every occurrence of the pattern `p` in `s` by `v`, from left to right
and without overlaps; the pattern is not empty.  What is inserted is not searched again.

* `rec` is the induction that follows the search: the text begins with an occurrence, or it does
  not;
* `replaceAll_append_cons` splits the text at an element that the pattern does not have;
* `count_replaceAll_le` counts an element that is not inserted;
* `replaceEach` makes several replacements, each in the result of the one before; `met` are those
  that find their pattern.
-/

namespace Replace

open List

variable {α : Type*} [DecidableEq α]

/-- The first `skip` elements are passed over, and then the search goes on. -/
def scan (p v : List α) : ℕ → List α → List α
  | _, [] => []
  | skip + 1, _ :: s => scan p v skip s
  | 0, a :: s => if p.isPrefixOf (a :: s) then v ++ scan p v (p.length - 1) s else a :: scan p v 0 s

def replaceAll (p v s : List α) : List α := scan p v 0 s

variable {p v s t a b q : List α} {x : α}

theorem scan_eq (skip : ℕ) (s : List α) : scan p v skip s = replaceAll p v (s.drop skip) := by
  induction skip generalizing s with
  | zero => rfl
  | succ skip ih =>
    cases s with
    | nil => rfl
    | cons a s => exact ih s

@[simp] theorem replaceAll_nil : replaceAll p v [] = [] := rfl

theorem replaceAll_append (hp : p ≠ []) (t : List α) :
    replaceAll p v (p ++ t) = v ++ replaceAll p v t := by
  cases p with
  | nil => exact absurd rfl hp
  | cons a p =>
    have hbeg : (a :: p).isPrefixOf (a :: (p ++ t)) = true := by
      rw [List.isPrefixOf_iff_prefix]
      exact prefix_append (a :: p) t
    show scan (a :: p) v 0 (a :: (p ++ t)) = _
    rw [scan, if_pos hbeg, scan_eq]
    simp

theorem replaceAll_cons (h : ¬ p <+: x :: s) : replaceAll p v (x :: s) = x :: replaceAll p v s := by
  show scan p v 0 (x :: s) = _
  rw [scan, if_neg]
  · rfl
  · rwa [List.isPrefixOf_iff_prefix]

/-- **Induction along the search.** -/
theorem rec {motive : List α → Prop} (hp : p ≠ []) (nil : motive [])
    (occurrence : ∀ t, motive t → motive (p ++ t))
    (other : ∀ x s, ¬ p <+: x :: s → motive s → motive (x :: s)) (s : List α) : motive s := by
  induction hn : s.length using Nat.strong_induction_on generalizing s with
  | _ n ih =>
    cases s with
    | nil => exact nil
    | cons x s =>
      by_cases h : p <+: x :: s
      · obtain ⟨t, ht⟩ := h
        rw [← ht]
        refine occurrence t (ih t.length ?_ t rfl)
        have hlen := congrArg List.length ht
        have hpos := length_pos_iff.2 hp
        simp only [length_append] at hlen
        omega
      · exact other x s h (ih s.length (by rw [← hn]; exact Nat.lt_succ_self _) s rfl)

omit [DecidableEq α] in
theorem prefix_of_prefix_append_cons (hx : x ∉ p) (h : p <+: a ++ x :: b) : p <+: a := by
  induction a generalizing p with
  | nil =>
    cases p with
    | nil => exact nil_prefix
    | cons y p =>
      obtain ⟨rfl, -⟩ := cons_prefix_cons.1 h
      exact absurd mem_cons_self hx
  | cons z a ih =>
    cases p with
    | nil => exact nil_prefix
    | cons y p =>
      obtain ⟨rfl, hrest⟩ := cons_prefix_cons.1 h
      exact cons_prefix_cons.2 ⟨rfl, ih (fun hmem => hx (mem_cons_of_mem _ hmem)) hrest⟩

/-- No occurrence has an element that the pattern does not have. -/
theorem replaceAll_append_cons (hp : p ≠ []) (hx : x ∉ p) (a b : List α) :
    replaceAll p v (a ++ x :: b) = replaceAll p v a ++ x :: replaceAll p v b := by
  have hsep : ∀ a, p <+: a ++ x :: b → p <+: a := fun a => prefix_of_prefix_append_cons hx
  induction a using Replace.rec hp with
  | nil =>
    rw [nil_append, replaceAll_cons]
    · rfl
    · intro h
      exact hp (prefix_nil.1 (hsep [] h))
  | occurrence t ih =>
    rw [append_assoc, replaceAll_append hp, replaceAll_append hp, ih, append_assoc]
  | other y s h ih =>
    have hnot : ¬ p <+: y :: (s ++ x :: b) := fun hpre => h (hsep (y :: s) hpre)
    rw [cons_append, replaceAll_cons hnot, replaceAll_cons h, ih, cons_append]

theorem replaceAll_append_head (hx : x ∉ q) (a b : List α) :
    replaceAll (x :: q) v (a ++ x :: b) = replaceAll (x :: q) v a ++ replaceAll (x :: q) v (x :: b) := by
  have hp : x :: q ≠ [] := cons_ne_nil x q
  induction a using Replace.rec hp with
  | nil => rfl
  | occurrence t ih =>
    rw [append_assoc, replaceAll_append hp, replaceAll_append hp, ih, append_assoc]
  | other y s h ih =>
    have hnot : ¬ x :: q <+: y :: (s ++ x :: b) := by
      intro hpre
      obtain ⟨rfl, hrest⟩ := cons_prefix_cons.1 hpre
      exact h (cons_prefix_cons.2 ⟨rfl, prefix_of_prefix_append_cons hx hrest⟩)
    rw [cons_append, replaceAll_cons hnot, replaceAll_cons h, ih, cons_append]

theorem replaceAll_append_of_notMem (hx : x ∉ a) (b : List α) :
    replaceAll (x :: q) v (a ++ b) = a ++ replaceAll (x :: q) v b := by
  induction a with
  | nil => rfl
  | cons y a ih =>
    obtain ⟨hne, ha⟩ := not_or.1 (mem_cons.not.1 hx)
    rw [cons_append, replaceAll_cons fun h => hne (cons_prefix_cons.1 h).1, ih ha,
      cons_append]

theorem replaceAll_of_absent (hp : p ≠ []) (h : ¬ p <:+: s) : replaceAll p v s = s := by
  induction s using Replace.rec hp with
  | nil => rfl
  | occurrence t _ => exact absurd (prefix_append p t).isInfix h
  | other x s hpre ih =>
    rw [replaceAll_cons hpre, ih fun hocc => h (hocc.trans (suffix_cons x s).isInfix)]

theorem replaceAll_self (hp : p ≠ []) (s : List α) : replaceAll p p s = s := by
  induction s using Replace.rec hp with
  | nil => rfl
  | occurrence t ih => rw [replaceAll_append hp, ih]
  | other x s hpre ih => rw [replaceAll_cons hpre, ih]

/-! ### When nothing is replaced -/

/-- Each of the `n` occurrences changes the length by the same amount. -/
theorem length_replaceAll (hp : p ≠ []) (v s : List α) : ∃ n, (p <:+: s → 0 < n) ∧
    (replaceAll p v s).length + n * p.length = s.length + n * v.length := by
  induction s using Replace.rec hp with
  | nil => exact ⟨0, fun h => absurd (infix_nil.1 h) hp, by simp⟩
  | occurrence t ih =>
    obtain ⟨n, -, hn⟩ := ih
    refine ⟨n + 1, fun _ => n.succ_pos, ?_⟩
    rw [replaceAll_append hp, length_append, length_append, Nat.succ_mul, Nat.succ_mul]
    omega
  | other x s hpre ih =>
    obtain ⟨n, hpos, hn⟩ := ih
    refine ⟨n, fun h => hpos ((infix_cons_iff.1 h).resolve_left hpre), ?_⟩
    rw [replaceAll_cons hpre, length_cons, length_cons]
    omega

theorem replaceAll_eq_self_iff (hp : p ≠ []) : replaceAll p v s = s ↔ ¬ p <:+: s ∨ p = v := by
  refine ⟨fun h => or_iff_not_imp_left.2 fun hocc => ?_, ?_⟩
  · rw [not_not] at hocc
    have hlen : p.length = v.length := by
      obtain ⟨n, hpos, hn⟩ := length_replaceAll hp v s
      rw [h] at hn
      exact Nat.eq_of_mul_eq_mul_left (hpos hocc) (Nat.add_left_cancel hn)
    induction s using Replace.rec hp with
    | nil => exact absurd (infix_nil.1 hocc) hp
    | occurrence t _ =>
      rw [replaceAll_append hp] at h
      exact (append_inj_left h hlen.symm).symm
    | other x s hpre ih =>
      rw [replaceAll_cons hpre] at h
      exact ih (cons.inj h).2 ((infix_cons_iff.1 hocc).resolve_left hpre)
  · rintro (habs | rfl)
    · exact replaceAll_of_absent hp habs
    · exact replaceAll_self hp s

theorem count_replaceAll_le (hp : p ≠ []) (hv : x ∉ v) (s : List α) :
    (replaceAll p v s).count x ≤ s.count x := by
  induction s using Replace.rec hp with
  | nil => exact Nat.le_refl _
  | occurrence t ih =>
    rw [replaceAll_append hp, count_append, count_append, count_eq_zero_of_not_mem hv]
    omega
  | other y s hpre ih =>
    rw [replaceAll_cons hpre, count_cons, count_cons]
    omega

theorem count_replaceAll_lt (hx : x ∈ p) (hv : x ∉ v) (h : p <:+: s) :
    (replaceAll p v s).count x < s.count x := by
  have hp : p ≠ [] := ne_nil_of_mem hx
  induction s using Replace.rec hp with
  | nil => exact absurd (infix_nil.1 h) hp
  | occurrence t _ =>
    have hpos := count_pos_iff.2 hx
    have hle := count_replaceAll_le hp hv t
    rw [replaceAll_append hp, count_append, count_append, count_eq_zero_of_not_mem hv]
    omega
  | other y s hpre ih =>
    have hlt := ih ((infix_cons_iff.1 h).resolve_left hpre)
    rw [replaceAll_cons hpre, count_cons, count_cons]
    omega

/-! ### Several replacements, one after the other -/

/-- Each pattern is replaced in the result of the one before. -/
def replaceEach (pvs : List (List α × List α)) (s : List α) : List α :=
  pvs.foldl (fun s pv => replaceAll pv.1 pv.2 s) s

theorem replaceEach_cons (pv : List α × List α) (pvs : List (List α × List α)) (s : List α) :
    replaceEach (pv :: pvs) s = replaceEach pvs (replaceAll pv.1 pv.2 s) := rfl

/-- The replacements whose pattern is in the text when its turn comes. -/
def met : List (List α × List α) → List α → List (List α × List α)
  | [], _ => []
  | pv :: pvs, s => if pv.1 <:+: s then pv :: met pvs (replaceAll pv.1 pv.2 s) else met pvs s

theorem met_cons_of_infix {pv : List α × List α} (h : pv.1 <:+: s) (pvs : List (List α × List α)) :
    met (pv :: pvs) s = pv :: met pvs (replaceAll pv.1 pv.2 s) := if_pos h

theorem met_cons_of_absent {pv : List α × List α} (h : ¬ pv.1 <:+: s)
    (pvs : List (List α × List α)) : met (pv :: pvs) s = met pvs s := if_neg h

section

variable {pvs : List (List α × List α)}

theorem count_replaceEach_le (hp : ∀ pv ∈ pvs, x ∈ pv.1) (hv : ∀ pv ∈ met pvs s, x ∉ pv.2) :
    (replaceEach pvs s).count x ≤ s.count x := by
  induction pvs generalizing s with
  | nil => exact Nat.le_refl _
  | cons pv pvs ih =>
    obtain ⟨hp, hrest⟩ := forall_mem_cons.1 hp
    rw [replaceEach_cons]
    by_cases hocc : pv.1 <:+: s
    · rw [ met_cons_of_infix hocc, forall_mem_cons] at hv
      exact (ih hrest hv.2).trans (count_replaceAll_le (ne_nil_of_mem hp) hv.1 s)
    · rw [met_cons_of_absent hocc] at hv
      rw [replaceAll_of_absent (ne_nil_of_mem hp) hocc]
      exact ih hrest hv

theorem replaceEach_eq_self_iff (hp : ∀ pv ∈ pvs, x ∈ pv.1) (hv : ∀ pv ∈ met pvs s, x ∉ pv.2) :
    replaceEach pvs s = s ↔ ∀ pv ∈ pvs, ¬ pv.1 <:+: s := by
  induction pvs with
  | nil => simp [replaceEach]
  | cons pv pvs ih =>
    obtain ⟨hp, hrest⟩ := forall_mem_cons.1 hp
    rw [replaceEach_cons, forall_mem_cons]
    by_cases hocc : pv.1 <:+: s
    · rw [ met_cons_of_infix hocc, forall_mem_cons] at hv
      refine ⟨fun heq => absurd (congrArg (List.count x) heq) (Nat.ne_of_lt ?_), fun h => absurd hocc h.1⟩
      exact (count_replaceEach_le hrest hv.2).trans_lt (count_replaceAll_lt hp hv.1 hocc)
    · rw [met_cons_of_absent hocc] at hv
      rw [replaceAll_of_absent (ne_nil_of_mem hp) hocc, ih hrest hv]
      exact ⟨fun h => ⟨hocc, h⟩, fun h => h.2⟩

theorem met_eq_nil (h : ∀ pv ∈ pvs, ¬ pv.1 <:+: s) : met pvs s = [] := by
  induction pvs with
  | nil => rfl
  | cons pv pvs ih =>
    obtain ⟨hocc, hrest⟩ := forall_mem_cons.1 h
    rw [met_cons_of_absent hocc, ih hrest]

end

end Replace
