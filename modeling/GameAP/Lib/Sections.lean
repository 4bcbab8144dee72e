import GameAP.Lib.Runs

/-!
# Exclusive sections

A call of a pool may pass through a section: the part of its way on which it works on one row, cache
entry or file.  `In c` says that a call stands in the section.

`SectionInv` is the resource invariant of a section: at most one call is inside, `Held` is what is
known while it is there, and `Rest` what is known while nobody is.  `Program.sectionInv_step` is the
rule that a step keeps it: a call enters only when nobody is inside, a call that is inside keeps
`Held` or leaves `Rest` behind, and a call that is not inside does not disturb either.
-/

namespace Runs

variable {σ τ ι : Type*}

/-- At most one call in the section, with the facts of the section. -/
structure SectionInv (In : τ → Prop) (Rest : σ → Prop) (Held : σ → τ → Prop) (p : Pool σ τ) :
    Prop where
  exclusive : ∀ (i j : ℕ) c d, p.calls[i]? = some c → p.calls[j]? = some d → In c → In d → i = j
  held : ∀ (i : ℕ) c, p.calls[i]? = some c → In c → Held p.store c
  rest : (∀ d ∈ p.calls, ¬ In d) → Rest p.store

variable {P : Program σ τ ι} {In : τ → Prop} {Rest : σ → Prop} {Held : σ → τ → Prop} {p : Pool σ τ}

theorem SectionInv.idle {s : σ} (h : Rest s) : SectionInv In Rest Held (Pool.idle s) where
  exclusive i j c d hc := by simp [Pool.idle] at hc
  held i c hc := by simp [Pool.idle] at hc
  rest _ := h

open List

theorem SectionInv.always {J : σ → Prop} (hp : SectionInv In Rest Held p)
    (hrest : Rest p.store → J p.store) (hheld : ∀ c, Held p.store c → J p.store) : J p.store := by
  by_cases hin : ∃ d ∈ p.calls, In d
  · obtain ⟨d, hd, hdin⟩ := hin
    obtain ⟨j, hj⟩ := mem_iff_getElem?.1 hd
    exact hheld d (hp.held j d hj hdin)
  · exact hrest (hp.rest fun d hd hdin => hin ⟨d, hd, hdin⟩)

theorem SectionInv.spawn {c : τ} (hp : SectionInv In Rest Held p) (hc : ¬ In c) :
    SectionInv In Rest Held ⟨p.store, p.calls ++ [c]⟩ := by
  -- a call that is inside is one of the old ones
  have hold : ∀ (j : ℕ) d, (p.calls ++ [c])[j]? = some d → In d → p.calls[j]? = some d := by
    intro j d hd hin
    rw [getElem?_append] at hd
    split_ifs at hd with hj
    · exact hd
    · rw [mem_singleton.1 (mem_of_getElem? hd)] at hin
      exact absurd hin hc
  refine ⟨fun i j d d' hi hj hd hd' => ?_, fun i d hi hd => ?_, fun hempty => ?_⟩
  · exact hp.exclusive i j d d' (hold i d hi hd) (hold j d' hj hd') hd hd'
  · exact hp.held i d (hold i d hi hd) hd
  · exact hp.rest fun d hd => hempty d (mem_append_left _ hd)

/-- **Resource invariants**: the rule for one move of a pool with an exclusive section. -/
theorem Program.sectionInv_step {G : Pool σ τ → τ → ι → Prop}
    (hstart : ∀ s c, P.start s c = true → ¬ In c)
    (henter : ∀ p i e c s' c', SectionInv In Rest Held p → G p c e → p.calls[i]? = some c →
      P.next i p.store c e = some (s', c') → ¬ In c → In c' →
      (∀ d ∈ p.calls, ¬ In d) ∧ (Rest p.store → Held s' c'))
    (hinside : ∀ p i e c s' c', G p c e → P.next i p.store c e = some (s', c') → In c →
      Held p.store c → (In c' → Held s' c') ∧ (¬ In c' → Rest s'))
    (hframe : ∀ i e s c s' c', P.next i s c e = some (s', c') → ¬ In c → ¬ In c' →
      (Rest s → Rest s') ∧ ∀ d, Held s d → Held s' d) :
    StableUnder P.step (Guarded G) (SectionInv In Rest Held) := by
  intro p m p' hp hG h
  obtain ⟨c, rfl, hc, rfl⟩ | ⟨i, e, c, s', c', rfl, hc, hn, rfl⟩ := Program.step_cases h
  · exact hp.spawn (hstart _ _ hc)
  have hguard := hG c hc
  have hlt : i < p.calls.length := (List.getElem?_eq_some_iff.1 hc).1
  have hself : (p.calls.set i c')[i]? = some c' := getElem?_set_self hlt
  have hother : ∀ j : ℕ, j ≠ i → (p.calls.set i c')[j]? = p.calls[j]? := fun j hj =>
    getElem?_set_ne (Ne.symm hj)
  -- nobody else is inside when the call is inside after the step
  have hfree : ∀ (j : ℕ) d, j ≠ i → p.calls[j]? = some d → In c' → ¬ In d := by
    intro j d hj hd hin hdin
    by_cases hcin : In c
    · exact hj (hp.exclusive j i d c hd hc hdin hcin)
    · exact (henter p i e c s' c' hp hguard hc hn hcin hin).1 d (mem_of_getElem? hd) hdin
  refine ⟨fun a b d d' ha hb hd hd' => ?_, fun a d ha hd => ?_, fun hempty => ?_⟩
  · rcases getElem?_set_cases ha with ⟨rfl, rfl⟩ | ⟨hai, hda⟩
    · rcases getElem?_set_cases hb with ⟨rfl, rfl⟩ | ⟨hbi, hdb⟩
      · rfl
      · exact absurd hd' (hfree b d' hbi hdb hd)
    · rcases getElem?_set_cases hb with ⟨rfl, rfl⟩ | ⟨hbi, hdb⟩
      · exact absurd hd (hfree a d hai hda hd')
      · exact hp.exclusive a b d d' hda hdb hd hd'
  · rcases getElem?_set_cases ha with ⟨rfl, rfl⟩ | ⟨hai, hda⟩
    · by_cases hcin : In c
      · exact (hinside p a e c s' d hguard hn hcin (hp.held a c hc hcin)).1 hd
      · obtain ⟨hnone, hheld⟩ := henter p a e c s' d hp hguard hc hn hcin hd
        exact hheld (hp.rest hnone)
    · have hcin : ¬ In c := fun hcin => hai (hp.exclusive a i d c hda hc hd hcin)
      have hcin' : ¬ In c' := fun hcin' => hfree a d hai hda hcin' hd
      exact (hframe i e p.store c s' c' hn hcin hcin').2 d (hp.held a d hda hd)
  · have hcin' : ¬ In c' := hempty c' (mem_of_getElem? hself)
    by_cases hcin : In c
    · exact (hinside p i e c s' c' hguard hn hcin (hp.held i c hc hcin)).2 hcin'
    · refine (hframe i e p.store c s' c' hn hcin hcin').1 (hp.rest fun d hd => ?_)
      obtain ⟨j, hj⟩ := mem_iff_getElem?.1 hd
      by_cases hji : j = i
      · subst hji
        rw [hc] at hj
        exact Option.some.inj hj ▸ hcin
      · exact hempty d (mem_of_getElem? ((hother j hji).trans hj))

end Runs
