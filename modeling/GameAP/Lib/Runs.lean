import Mathlib.Data.List.Basic

/-!
# Runs of labelled steps and pools of interleaved calls

A system is a partial step function `step : σ → α → Option σ`: the label `α` names the step and
carries whatever the environment chooses, and `none` means that the step is not enabled.

* `run step s as` follows a list of labels, `Along step G s as` says that `G` holds before each
  step;
* `run_inv` and `run_rel` are the induction rules: what one step preserves a run preserves;
* a `Pool` is a shared store with the local states of the calls in progress, and a `Program` says
  which calls may begin and what one atomic step of a call does.  `Program.inv_step` is the rule of
  Owicki and Gries: a store invariant and one assertion for each call, which the steps of the others
  must keep.  `Program.slotsInv_step` is the same rule for what the store says about positions of
  the pool, `Program.calls_step` for what the calls know without the store.
-/

namespace Runs

variable {σ α : Type*} {as : List α} {I : σ → Prop} {s t : σ}

/-- Follow a list of labels; `none` once a label is not enabled. -/
def run (step : σ → α → Option σ) : σ → List α → Option σ
  | s, [] => some s
  | s, a :: as => (step s a).bind fun s' => run step s' as

/-- The condition `G` holds of the state and the label before each step of the run. -/
def Along (step : σ → α → Option σ) (G : σ → α → Prop) : σ → List α → Prop
  | _, [] => True
  | s, a :: as => G s a ∧ match step s a with
    | none => True
    | some s' => Along step G s' as

instance decidableAlong (step : σ → α → Option σ) (G : σ → α → Prop)
    [∀ s a, Decidable (G s a)] : ∀ s as, Decidable (Along step G s as)
  | _, [] => .isTrue trivial
  | s, a :: as =>
    match h : step s a with
    | none => decidable_of_iff (G s a) (by simp [Along, h])
    | some s' =>
      have := decidableAlong step G s' as
      decidable_of_iff (G s a ∧ Along step G s' as) (by simp [Along, h])

/-- Every step under the condition `G` keeps `I`. -/
def StableUnder (step : σ → α → Option σ) (G : σ → α → Prop) (I : σ → Prop) : Prop :=
  ∀ s a s', I s → G s a → step s a = some s' → I s'

/-- Every step keeps `I`. -/
def Stable (step : σ → α → Option σ) (I : σ → Prop) : Prop :=
  ∀ s a s', I s → step s a = some s' → I s'

theorem StableUnder.stable {step : σ → α → Option σ} {G : σ → α → Prop}
    (h : StableUnder step G I) (hG : ∀ s a, G s a) : Stable step I :=
  fun s a s' hs => h s a s' hs (hG s a)

open List

section Rules

variable {step : σ → α → Option σ} {G : σ → α → Prop}

theorem run_cons (s : σ) (a : α) (as : List α) :
    run step s (a :: as) = (step s a).bind fun s' => run step s' as := rfl

theorem along_cons_of_step {s' : σ} {a : α} (h : step s a = some s') :
    Along step G s (a :: as) ↔ G s a ∧ Along step G s' as := by
  simp [Along, h]

theorem along_append {bs : List α} (h : run step s as = some t) :
    Along step G s (as ++ bs) ↔ Along step G s as ∧ Along step G t bs := by
  induction as generalizing s with
  | nil => cases h; simp [Along]
  | cons a as ih =>
    obtain ⟨s', hs, ht⟩ := Option.bind_eq_some_iff.1 h
    rw [cons_append, along_cons_of_step hs, along_cons_of_step hs, ih ht, and_assoc]

/-- **Invariant rule**: what every step under the condition `G` keeps, every run along `G`
keeps. -/
theorem run_inv (I : σ → Prop) (hI : StableUnder step G I)
    {s t : σ} (h0 : I s) (hG : Along step G s as) (h : run step s as = some t) : I t := by
  induction as generalizing s with
  | nil => cases h; exact h0
  | cons a as ih =>
    obtain ⟨s', hs, ht⟩ := Option.bind_eq_some_iff.1 h
    obtain ⟨ha, has⟩ := (along_cons_of_step hs).1 hG
    exact ih (hI s a s' h0 ha hs) has ht

theorem along_true (s : σ) (as : List α) : Along step (fun _ _ => True) s as := by
  induction as generalizing s with
  | nil => trivial
  | cons a as ih =>
    refine ⟨trivial, ?_⟩
    cases step s a with
    | none => trivial
    | some s' => exact ih s'

theorem along_of_forall_mem {L : α → Prop} (h : ∀ a ∈ as, L a) (s : σ) :
    Along step (fun _ a => L a) s as := by
  induction as generalizing s with
  | nil => trivial
  | cons a as ih =>
    obtain ⟨ha, has⟩ := forall_mem_cons.1 h
    refine ⟨ha, ?_⟩
    cases step s a with
    | none => trivial
    | some s' => exact ih has s'

theorem run_inv_all (I : σ → Prop) (hI : Stable step I) (h0 : I s)
    (h : run step s as = some t) : I t :=
  run_inv I (fun s a s' hs _ => hI s a s' hs) h0 (along_true s as) h

/-- What every step keeps and a step of some kind brings about holds after a run in which such a
step was made. -/
theorem run_since (I : σ → Prop) (hI : Stable step I) {L : α → Prop}
    (hL : ∀ s a s', L a → step s a = some s' → I s') (hmem : ∃ a ∈ as, L a)
    (h : run step s as = some t) : I t := by
  induction as generalizing s with
  | nil => simp at hmem
  | cons a as ih =>
    obtain ⟨s', hs, ht⟩ := Option.bind_eq_some_iff.1 h
    by_cases ha : L a
    · exact run_inv_all I hI (hL s a s' ha hs) ht
    · exact ih (by simpa [ha] using hmem) ht

/-- **Relation rule**: a preorder that every step under `G` from a state satisfying the invariant
`I` respects relates the ends of a run. -/
theorem run_rel (I : σ → Prop) (R : σ → σ → Prop) (hrefl : ∀ s, R s s)
    (htrans : ∀ s t u, R s t → R t u → R s u) (hI : StableUnder step G I)
    (hR : ∀ s a s', I s → G s a → step s a = some s' → R s s')
    (h0 : I s) (hG : Along step G s as) (h : run step s as = some t) : R s t := by
  refine (run_inv (fun t => I t ∧ R s t) ?_ ⟨h0, hrefl s⟩ hG h).2
  rintro t a u ⟨ht, hst⟩ ha htu
  exact ⟨hI t a u ht ha htu, htrans s t u hst (hR t a u ht ha htu)⟩

end Rules

/-! ### Pools of calls -/

/-- A shared store and the local states of the calls made so far, finished ones included. -/
structure Pool (σ τ : Type*) where
  store : σ
  calls : List τ
  deriving DecidableEq

/-- A move of a pool: a new call begins, or call `i` makes its next atomic step, with `e` chosen
by the environment (the clock, the outcome of an operation that may fail). -/
inductive Move (τ ι : Type*)
  | spawn (c : τ)
  | advance (i : ℕ) (e : ι)
  deriving DecidableEq

/-- Which calls may begin, and what one atomic step of call `i` does to the store and to the
call's own state; `none` when the call cannot make that step (it has returned, or it waits). -/
structure Program (σ τ ι : Type*) where
  start : σ → τ → Bool
  next : ℕ → σ → τ → ι → Option (σ × τ)

variable {τ ι : Type*}

/-- The pool of a store on which no call has begun. -/
def Pool.idle (s : σ) : Pool σ τ := ⟨s, []⟩

/-- A move of the pool. -/
def Program.step (P : Program σ τ ι) (p : Pool σ τ) : Move τ ι → Option (Pool σ τ)
  | .spawn c => if P.start p.store c then some ⟨p.store, p.calls ++ [c]⟩ else none
  | .advance i e =>
    p.calls[i]?.bind fun c => (P.next i p.store c e).map fun r => ⟨r.1, p.calls.set i r.2⟩

variable {P : Program σ τ ι} {p p' : Pool σ τ} {i : ℕ} {m : Move τ ι} {cs : List τ} {c : τ}

theorem Program.step_advance {e : ι} (h : P.step p (.advance i e) = some p') :
    ∃ c s' c', p.calls[i]? = some c ∧ P.next i p.store c e = some (s', c') ∧
      p' = ⟨s', p.calls.set i c'⟩ := by
  obtain ⟨c, hc, h⟩ := Option.bind_eq_some_iff.1 h
  obtain ⟨⟨s', c'⟩, hn, rfl⟩ := Option.map_eq_some_iff.1 h
  exact ⟨c, s', c', hc, hn, rfl⟩

theorem Program.step_cases (h : P.step p m = some p') :
    (∃ c, m = .spawn c ∧ P.start p.store c = true ∧ p' = ⟨p.store, p.calls ++ [c]⟩) ∨
    (∃ i e c s' c', m = .advance i e ∧ p.calls[i]? = some c ∧
      P.next i p.store c e = some (s', c') ∧ p' = ⟨s', p.calls.set i c'⟩) := by
  cases m with
  | spawn c =>
    simp only [Program.step] at h
    split_ifs at h with hc
    cases h
    exact .inl ⟨c, rfl, hc, rfl⟩
  | advance i e =>
    obtain ⟨c, s', c', hc, hn, rfl⟩ := Program.step_advance h
    exact .inr ⟨i, e, c, s', c', rfl, hc, hn, rfl⟩

/-! ### Invariants of pools -/

section

variable {A : τ → Prop} (hstart : ∀ s c, P.start s c = true → A c)
  (hnext : ∀ i s c e s' c', A c → P.next i s c e = some (s', c') → A c')
include hstart hnext

/-- An assertion about the calls alone, which the store has no part in. -/
theorem Program.calls_step : Stable P.step fun p => ∀ c ∈ p.calls, A c := by
  intro p m p' hp h
  obtain ⟨c, rfl, hc, rfl⟩ | ⟨i, e, c, s', c', rfl, hc, hn, rfl⟩ := Program.step_cases h
  · exact forall_mem_append.2 ⟨hp, forall_mem_singleton.2 (hstart _ c hc)⟩
  · intro d hd
    rcases mem_or_eq_of_mem_set hd with hd | rfl
    · exact hp d hd
    · exact hnext i _ c e s' d (hp c (mem_of_getElem? hc)) hn

end

/-- A store invariant together with an assertion about every call. -/
structure PoolInv (I : σ → Prop) (A : ℕ → σ → τ → Prop) (p : Pool σ τ) : Prop where
  store : I p.store
  call : ∀ i c, p.calls[i]? = some c → A i p.store c

theorem PoolInv.idle {A : ℕ → σ → τ → Prop} (h : I s) : PoolInv I A (Pool.idle s) :=
  ⟨h, fun i c hc => by simp [Pool.idle] at hc⟩

/-- The condition `G` on the call that is about to step; a call may always begin. -/
def Guarded (G : Pool σ τ → τ → ι → Prop) (p : Pool σ τ) : Move τ ι → Prop
  | .spawn _ => True
  | .advance i e => ∀ c ∈ p.calls[i]?, G p c e

instance (G : Pool σ τ → τ → ι → Prop) [∀ p c e, Decidable (G p c e)] (p : Pool σ τ) :
    (m : Move τ ι) → Decidable (Guarded G p m)
  | .spawn _ => .isTrue trivial
  | .advance i e => inferInstanceAs (Decidable (∀ c ∈ p.calls[i]?, G p c e))

/-- The condition `G` on the call that is about to step, which may name its position. -/
def GuardedAt (G : Pool σ τ → ℕ → τ → ι → Prop) (p : Pool σ τ) : Move τ ι → Prop
  | .spawn _ => True
  | .advance i e => ∀ c ∈ p.calls[i]?, G p i c e

instance (G : Pool σ τ → ℕ → τ → ι → Prop) [∀ p i c e, Decidable (G p i c e)] (p : Pool σ τ) :
    (m : Move τ ι) → Decidable (GuardedAt G p m)
  | .spawn _ => .isTrue trivial
  | .advance i e => inferInstanceAs (Decidable (∀ c ∈ p.calls[i]?, G p i c e))

theorem guarded_true (p : Pool σ τ) (m : Move τ ι) : Guarded (fun _ _ _ => True) p m := by
  cases m with
  | spawn c => trivial
  | advance i e => exact fun _ _ => trivial

theorem guardedAt_true (p : Pool σ τ) (m : Move τ ι) : GuardedAt (fun _ _ _ _ => True) p m := by
  cases m with
  | spawn c => trivial
  | advance i e => exact fun _ _ => trivial

theorem Guarded.and {G : Pool σ τ → τ → ι → Prop} {H : Pool σ τ → Prop} (hp : H p)
    (hG : Guarded G p m) : Guarded (fun p c e => H p ∧ G p c e) p m := by
  cases m with
  | spawn c => trivial
  | advance i e => exact fun c hc => ⟨hp, hG c hc⟩

theorem Guarded.mono {G G' : Pool σ τ → τ → ι → Prop}
    (h : ∀ c e, G p c e → G' p c e) (hG : Guarded G p m) : Guarded G' p m := by
  cases m with
  | spawn c => trivial
  | advance i e => exact fun c hc => h c e (hG c hc)

theorem getElem?_set_cases {j : ℕ} {d : τ} (h : (cs.set i c)[j]? = some d) :
    j = i ∧ d = c ∨ j ≠ i ∧ cs[j]? = some d := by
  by_cases hj : j = i
  · subst hj
    rw [getElem?_set] at h
    simp only [if_true] at h
    split_ifs at h
    exact .inl ⟨rfl, (Option.some.inj h).symm⟩
  · rw [getElem?_set_ne (Ne.symm hj)] at h
    exact .inr ⟨hj, h⟩

theorem toNat_le_countP (hc : cs[i]? = some c) (f : τ → Bool) : (f c).toNat ≤ cs.countP f := by
  cases hf : f c with
  | false => exact Nat.zero_le _
  | true => exact countP_pos_iff.2 ⟨c, mem_of_getElem? hc, hf⟩

theorem countP_set_add (hc : cs[i]? = some c) (c' : τ) (f : τ → Bool) :
    (cs.set i c').countP f + (f c).toNat = cs.countP f + (f c').toNat := by
  obtain ⟨hlt, rfl⟩ := List.getElem?_eq_some_iff.1 hc
  have hle := toNat_le_countP hc f
  rw [countP_set hlt]
  cases hf : f cs[i] <;> cases hf' : f c' <;> simp_all

/-- **Owicki–Gries**: the assertions hold when a call begins, the moving call keeps the store
invariant and its own assertion, and it does not interfere with the assertions of the others. -/
theorem Program.inv_step {A : ℕ → σ → τ → Prop} {G : Pool σ τ → τ → ι → Prop}
    (hspawn : ∀ p c, PoolInv I A p → P.start p.store c = true → A p.calls.length p.store c)
    (hnext : ∀ p i e c s' c', PoolInv I A p → G p c e → p.calls[i]? = some c →
      P.next i p.store c e = some (s', c') →
      I s' ∧ A i s' c' ∧ ∀ j d, j ≠ i → p.calls[j]? = some d → A j s' d) :
    StableUnder P.step (Guarded G) (PoolInv I A) := by
  intro p m p' hp hG h
  obtain ⟨c, rfl, hc, rfl⟩ | ⟨i, e, c, s', c', rfl, hc, hn, rfl⟩ := Program.step_cases h
  · refine ⟨hp.store, fun j d hd => ?_⟩
    rw [getElem?_append] at hd
    split_ifs at hd with hj
    · exact hp.call j d hd
    · -- the only new position is the one after the old calls
      obtain ⟨hlt, rfl⟩ := List.getElem?_eq_some_iff.1 hd
      have hj' : j = p.calls.length := by simp at hlt; omega
      subst hj'
      simpa using hspawn p c hp hc
  · obtain ⟨hI, hA, hother⟩ := hnext p i e c s' c' hp (hG c hc) hc hn
    refine ⟨hI, fun j d hd => ?_⟩
    rcases getElem?_set_cases hd with ⟨rfl, rfl⟩ | ⟨hj, hd⟩
    · exact hA
    · exact hother j d hj hd

/-- A store invariant together with what the store says about every position of the pool, whether a
call has begun there or not. -/
structure SlotsInv (I : σ → Prop) (D : σ → ℕ → Option τ → Prop) (p : Pool σ τ) : Prop where
  store : I p.store
  slot : ∀ j, D p.store j p.calls[j]?

/-- **Slots**: the store may name the call that has something to do.  A step of one call must keep
the store invariant and what is said of all the positions. -/
theorem Program.slotsInv_step {D : σ → ℕ → Option τ → Prop} {G : Pool σ τ → ℕ → τ → ι → Prop}
    (hspawn : ∀ s i c, I s → P.start s c = true → D s i none → D s i (some c))
    (hnext : ∀ p i e c s' c', I p.store → D p.store i (some c) → G p i c e →
      P.next i p.store c e = some (s', c') → I s' ∧ D s' i (some c') ∧
      ∀ j, j ≠ i → D p.store j p.calls[j]? → D s' j p.calls[j]?) :
    StableUnder P.step (GuardedAt G) (SlotsInv I D) := by
  intro p m p' hp hG h
  obtain ⟨c, rfl, hc, rfl⟩ | ⟨i, e, c, s', c', rfl, hc, hn, rfl⟩ := Program.step_cases h
  · refine ⟨hp.store, fun j => ?_⟩
    have hj := hp.slot j
    by_cases hlt : j < p.calls.length
    · rwa [getElem?_append_left hlt]
    · rw [getElem?_eq_none (Nat.le_of_not_lt hlt)] at hj
      rw [getElem?_append_right (Nat.le_of_not_lt hlt)]
      cases hx : [c][j - p.calls.length]? with
      | none => exact hj
      | some d =>
        rw [mem_singleton.1 (mem_of_getElem? hx)]
        exact hspawn _ j c hp.store hc hj
  · have hi := hp.slot i
    rw [hc] at hi
    obtain ⟨hI, hD, hother⟩ := hnext p i e c s' c' hp.store hi (hG c hc) hn
    refine ⟨hI, fun j => ?_⟩
    by_cases hj : j = i
    · subst hj
      rwa [getElem?_set_self (List.getElem?_eq_some_iff.1 hc).1]
    · rw [getElem?_set_ne (Ne.symm hj)]
      exact hother j hj (hp.slot j)

end Runs
