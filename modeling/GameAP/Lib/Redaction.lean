import GameAP.Lib.Replace

/-!
# Redacting a text that comes in chunks

A secret is replaced in every chunk of a text by a text that has nothing in common with it.  What
does not meet the inserted text was there before, at the same place (`prefix_of_prefix_replaceAll`,
`suffix_of_suffix_replaceAll`), and so

* `not_infix_replaceAll`: the secret is not in a redacted chunk, and no other secret comes into it
  (`infix_of_infix_replaceAll`);
* `cut_of_infix`: if the secret is in the redacted chunks one after the other, then an occurrence of
  it in the text has been cut (`Cut`);
* `infix_of_cut`: a cut occurrence remains, if occurrences of the secret cannot overlap
  (`Borderless`).
-/

namespace Replace

open List

variable {α : Type*} [DecidableEq α] {p q v s : List α} {cs : List (List α)}

/-! ### What is left of a text -/

omit [DecidableEq α] in
theorem eq_nil_of_subset (hq : v.Disjoint q) (h : q ⊆ v) : q = [] :=
  eq_nil_iff_forall_not_mem.2 fun _ hx => hq (h hx) hx

omit [DecidableEq α] in
theorem eq_nil_of_prefix_append (hv : v ≠ []) (hq : v.Disjoint q) (h : q <+: v ++ s) : q = [] := by
  cases q with
  | nil => rfl
  | cons x q =>
    cases v with
    | nil => exact absurd rfl hv
    | cons y v =>
      obtain ⟨rfl, -⟩ := cons_prefix_cons.1 h
      exact absurd mem_cons_self (fun hmem => hq hmem mem_cons_self)

section

variable (hp : p ≠ []) (hv : v ≠ [])
include hp hv

theorem prefix_of_prefix_replaceAll (hq : v.Disjoint q) (h : q <+: replaceAll p v s) : q <+: s := by
  induction s using Replace.rec hp generalizing q with
  | nil => exact h
  | occurrence t _ =>
    rw [replaceAll_append hp] at h
    rw [eq_nil_of_prefix_append hv hq h]
    exact nil_prefix
  | other x s hpre ih =>
    rw [replaceAll_cons hpre] at h
    cases q with
    | nil => exact nil_prefix
    | cons y q =>
      obtain ⟨rfl, hrest⟩ := cons_prefix_cons.1 h
      exact cons_prefix_cons.2 ⟨rfl, ih (disjoint_of_disjoint_cons_right hq) hrest⟩

/-- Nothing has been replaced if nothing of the inserted text is in the result. -/
theorem replaceAll_of_disjoint (h : v.Disjoint (replaceAll p v s)) : replaceAll p v s = s := by
  induction s using Replace.rec hp with
  | nil => rfl
  | occurrence t _ =>
    rw [replaceAll_append hp] at h
    exact absurd (eq_nil_of_prefix_append hv h (prefix_refl _)) (by simp [hv])
  | other x s hpre ih =>
    rw [replaceAll_cons hpre] at h ⊢
    rw [ih (disjoint_of_disjoint_cons_right h)]

theorem suffix_of_suffix_replaceAll (hq : v.Disjoint q) (h : q <:+ replaceAll p v s) : q <:+ s := by
  induction s using Replace.rec hp with
  | nil => exact h
  | occurrence t ih =>
    rw [replaceAll_append hp] at h
    refine (?_ : q <:+ t).trans (suffix_append p t)
    rcases suffix_or_suffix_of_suffix h (suffix_append v _) with hshort | ⟨u, rfl⟩
    · exact ih hshort
    · -- The part before the rest would be of the inserted text.
      obtain ⟨w, hw⟩ := h
      have hu : w ++ u = v := append_cancel_right ((append_assoc _ _ _).trans hw)
      have hnil : u = [] := eq_nil_of_subset (disjoint_of_disjoint_append_right_left hq)
        (hu ▸ subset_append_right w u)
      exact ih (by rw [hnil, nil_append])
  | other x s hpre ih =>
    rw [replaceAll_cons hpre, suffix_cons_iff] at h
    rcases h with rfl | h
    · rw [← replaceAll_cons hpre] at hq ⊢
      rw [replaceAll_of_disjoint hp hv hq]
    · exact (ih h).trans (suffix_cons x s)

/-- What has nothing of the inserted text begins where the search has passed on. -/
theorem exists_suffix_of_infix (hq : v.Disjoint q) (hne : q ≠ []) (h : q <:+: replaceAll p v s) :
    ∃ t, t <:+ s ∧ ¬ p <+: t ∧ q <+: t := by
  induction s using Replace.rec hp with
  | nil => exact absurd (infix_nil.1 h) hne
  | occurrence t ih =>
    have hrest : q <:+: replaceAll p v t := by
      rw [replaceAll_append hp, infix_append_iff] at h
      rcases h with h | h | ⟨l₁, l₂, rfl, h₁, h₂⟩
      · exact absurd (eq_nil_of_subset hq h.subset) hne
      · exact h
      · obtain rfl : l₁ = [] :=
          eq_nil_of_subset (disjoint_of_disjoint_append_right_left hq) h₁.subset
        exact h₂.isInfix
    obtain ⟨u, hu, hsearch⟩ := ih hrest
    exact ⟨u, hu.trans (suffix_append p t), hsearch⟩
  | other x s hpre ih =>
    rw [replaceAll_cons hpre, infix_cons_iff, ← replaceAll_cons hpre] at h
    rcases h with h | h
    · exact ⟨x :: s, suffix_refl _, hpre, prefix_of_prefix_replaceAll hp hv hq h⟩
    · obtain ⟨u, hu, hsearch⟩ := ih h
      exact ⟨u, hu.trans (suffix_cons x s), hsearch⟩

/-- **The secret is not in a redacted text.** -/
theorem not_infix_replaceAll (hpv : v.Disjoint p) (s : List α) : ¬ p <:+: replaceAll p v s := by
  intro h
  obtain ⟨t, -, hnot, hpre⟩ := exists_suffix_of_infix hp hv hpv hp h
  exact hnot hpre

/-- **Another secret that is in a redacted text was there before.** -/
theorem infix_of_infix_replaceAll (hq : v.Disjoint q) (hne : q ≠ []) (h : q <:+: replaceAll p v s) :
    q <:+: s := by
  obtain ⟨t, hsuf, -, hpre⟩ := exists_suffix_of_infix hp hv hq hne h
  exact hpre.isInfix.trans hsuf.isInfix

end

/-! ### Chunks -/

/-- An occurrence of the secret in the text begins in a chunk and ends in a later one. -/
def Cut (p : List α) (cs : List (List α)) : Prop :=
  ∃ i n, 0 < i ∧ i < p.length ∧ p.take i <:+ cs.getD n [] ∧ p.drop i <+: (cs.drop (n + 1)).flatten

omit [DecidableEq α] in
theorem cut_cons {c : List α} : Cut p (c :: cs) ↔
    (∃ i, 0 < i ∧ i < p.length ∧ p.take i <:+ c ∧ p.drop i <+: cs.flatten) ∨ Cut p cs := by
  constructor
  · rintro ⟨i, n, hpos, hlt, htake, hdrop⟩
    cases n with
    | zero => exact .inl ⟨i, hpos, hlt, htake, hdrop⟩
    | succ n => exact .inr ⟨i, n, hpos, hlt, htake, hdrop⟩
  · rintro (⟨i, hpos, hlt, htake, hdrop⟩ | ⟨i, n, hpos, hlt, htake, hdrop⟩)
    · exact ⟨i, 0, hpos, hlt, htake, hdrop⟩
    · exact ⟨i, n + 1, hpos, hlt, htake, hdrop⟩

theorem prefix_of_prefix_flatten (hp : p ≠ []) (hv : v ≠ []) (hq : v.Disjoint q)
    (h : q <+: (cs.map (replaceAll p v)).flatten) : q <+: cs.flatten := by
  induction cs generalizing q with
  | nil => exact h
  | cons c cs ih =>
    rw [map_cons, flatten_cons] at h
    rw [flatten_cons]
    rcases prefix_or_prefix_of_prefix h (prefix_append _ _) with hshort | ⟨t, rfl⟩
    · exact (prefix_of_prefix_replaceAll hp hv hq hshort).trans (prefix_append c _)
    · -- The whole chunk is in `q`, so nothing has been replaced in it.
      rw [replaceAll_of_disjoint hp hv (disjoint_of_disjoint_append_right_left hq)] at h ⊢
      rw [prefix_append_right_inj] at h ⊢
      exact ih (disjoint_of_disjoint_append_right_right hq) h

/-- **Only a cut occurrence can be left.** -/
theorem cut_of_infix (hp : p ≠ []) (hv : v ≠ []) (hpv : v.Disjoint p)
    (h : p <:+: (cs.map (replaceAll p v)).flatten) : Cut p cs := by
  induction cs with
  | nil => exact absurd (infix_nil.1 h) hp
  | cons c cs ih =>
    rw [map_cons, flatten_cons, infix_append_iff] at h
    rw [cut_cons]
    have hnot := not_infix_replaceAll hp hv hpv c
    rcases h with h | h | ⟨a, b, rfl, ha, hb⟩
    · exact absurd h hnot
    · exact .inr (ih h)
    · have ha' := suffix_of_suffix_replaceAll hp hv (disjoint_of_disjoint_append_right_left hpv) ha
      have hb' := prefix_of_prefix_flatten hp hv (disjoint_of_disjoint_append_right_right hpv) hb
      rcases eq_nil_or_concat' a with rfl | ⟨a, x, rfl⟩
      · exact .inr (ih hb.isInfix)
      · cases b with
        | nil => exact absurd (by simpa using ha.isInfix) hnot
        | cons y b =>
          refine .inl ⟨(a ++ [x]).length, by simp, by simp, ?_, ?_⟩
          · rwa [take_left]
          · rwa [drop_left]

/-! ### Secrets whose occurrences do not overlap -/

/-- Nothing is both a proper beginning and an end of the secret. -/
def Borderless (p : List α) : Prop := ∀ i, 0 < i → i < p.length → ¬ p.take i <:+ p

omit [DecidableEq α] in
theorem Borderless.eq_nil (h : Borderless p) (hbegin : q <+: p) (hsuf : q <:+ p)
    (hlt : q.length < p.length) : q = [] := by
  by_contra hne
  refine h q.length (length_pos_iff.2 hne) hlt ?_
  rwa [← prefix_iff_eq_take.1 hbegin]

theorem Borderless.replaceAll_append_take (h : Borderless p) {i : ℕ} (hlt : i < p.length)
    (u : List α) : replaceAll p v (u ++ p.take i) = replaceAll p v u ++ p.take i := by
  have hp : p ≠ [] := ne_nil_of_length_pos (by omega)
  induction u using Replace.rec hp with
  | nil =>
    refine replaceAll_of_absent hp fun hocc => ?_
    have hle := hocc.length_le
    rw [nil_append, length_take] at hle
    omega
  | occurrence t ih =>
    rw [append_assoc, replaceAll_append hp, replaceAll_append hp, ih, append_assoc]
  | other x u hpre ih =>
    have hnot : ¬ p <+: x :: (u ++ p.take i) := by
      intro hbeg
      rcases prefix_or_prefix_of_prefix hbeg (prefix_append (x :: u) _) with
        hshort | ⟨w, hw⟩
      · exact hpre hshort
      · -- The rest of the occurrence is a border.
        have hrest : w <+: p.take i :=
          (prefix_append_right_inj (x :: u)).1 (by rw [hw]; exact hbeg)
        have hshor : w.length < p.length := by
          rw [← hw, length_append, length_cons]
          omega
        have hnil := h.eq_nil (hrest.trans (List.take_prefix i p)) ⟨x :: u, hw⟩ hshor
        rw [hnil, append_nil] at hw
        exact hpre (hw ▸ prefix_refl _)
    rw [cons_append, replaceAll_cons hnot, replaceAll_cons hpre, ih, cons_append]

theorem Borderless.replaceAll_suffix_append (h : Borderless p) (hq : q <:+ p)
    (hlt : q.length < p.length) (w : List α) :
    replaceAll p v (q ++ w) = q ++ replaceAll p v w := by
  induction q with
  | nil => rfl
  | cons x q ih =>
    have hnot : ¬ p <+: x :: (q ++ w) := by
      intro hbeg
      have hborder : x :: q <+: p :=
        prefix_of_prefix_length_le (prefix_append (x :: q) w) hbeg hlt.le
      cases h.eq_nil hborder hq hlt
    rw [cons_append, replaceAll_cons hnot, cons_append,
      ih ((suffix_cons x q).trans hq) (Nat.lt_of_succ_lt hlt)]

theorem Borderless.prefix_flatten (h : Borderless p) (hq : q <:+ p) (hlt : q.length < p.length)
    (hcs : q <+: cs.flatten) : q <+: (cs.map (replaceAll p v)).flatten := by
  induction cs generalizing q with
  | nil => exact hcs
  | cons c cs ih =>
    have hp : p ≠ [] := ne_nil_of_length_pos (by omega)
    rw [flatten_cons] at hcs
    rw [map_cons, flatten_cons]
    rcases prefix_or_prefix_of_prefix hcs (prefix_append _ _) with ⟨w, rfl⟩ | ⟨t, rfl⟩
    · rw [h.replaceAll_suffix_append hq hlt, append_assoc]
      exact prefix_append q _
    · rw [prefix_append_right_inj] at hcs
      rw [length_append] at hlt
      have habs : ¬ p <:+: c := fun hocc => by
        have hle := hocc.length_le
        omega
      rw [replaceAll_of_absent hp habs, prefix_append_right_inj]
      exact ih ((suffix_append c t).trans hq) (by omega) hcs

/-- **A cut occurrence is left.** -/
theorem Borderless.infix_of_cut (h : Borderless p) (hcut : Cut p cs) :
    p <:+: (cs.map (replaceAll p v)).flatten := by
  induction cs with
  | nil =>
    obtain ⟨i, n, hpos, hlt, htake, -⟩ := hcut
    have hlen := htake.length_le
    rw [length_take, getD_nil, length_nil] at hlen
    omega
  | cons c cs ih =>
    rw [map_cons, flatten_cons]
    rcases cut_cons.1 hcut with ⟨i, hpos, hlt, ⟨u, rfl⟩, hdrop⟩ | hcut
    · have hrest := h.prefix_flatten (v := v) (drop_suffix i p)
        (by rw [length_drop]; omega) hdrop
      obtain ⟨t, ht⟩ := hrest
      refine ⟨replaceAll p v u, t, ?_⟩
      rw [h.replaceAll_append_take hlt, ← ht, append_assoc, append_assoc,
        ← append_assoc (p.take i), take_append_drop]
    · exact (ih hcut).trans (suffix_append _ _).isInfix

end Replace
