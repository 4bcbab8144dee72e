import Mathlib.Data.List.Basic

/-!
# Noninterference

A system takes steps `step : σ → α → σ`, and somebody sees `view s` of its state.  Some of the steps
are *visible*, the others are not supposed to matter.

`unwinding` is the rule for this: when an invisible step leaves the view as it is, and a visible
step takes states with the same view to states with the same view, then the view after a run is the
view after the run without the invisible steps.  The condition `G` on the steps and the invariant
`I` may be used for the first half, the invariant of both runs for the second one.
-/

namespace Noninterference

variable {σ α ν : Type*}

def after (step : σ → α → σ) (s : σ) (as : List α) : σ := as.foldl step s

/-- The condition `G` holds of the state and the step before each step. -/
def Throughout (step : σ → α → σ) (G : σ → α → Prop) : σ → List α → Prop
  | _, [] => True
  | s, a :: as => G s a ∧ Throughout step G (step s a) as

instance decidableThroughout (step : σ → α → σ) (G : σ → α → Prop) [∀ s a, Decidable (G s a)] :
    ∀ s as, Decidable (Throughout step G s as)
  | _, [] => .isTrue trivial
  | s, a :: as =>
    have := decidableThroughout step G (step s a) as
    inferInstanceAs (Decidable (G s a ∧ Throughout step G (step s a) as))

variable {step : σ → α → σ} {G : σ → α → Prop} {visible : α → Bool}

/-- **Unwinding**. -/
theorem unwinding (I : σ → Prop) (view : σ → ν) (hI : ∀ s a, I s → I (step s a))
    (hlocal : ∀ s a, I s → visible a = false → G s a → view (step s a) = view s)
    (hcons : ∀ s t a, I s → I t → visible a = true → view s = view t →
      view (step s a) = view (step t a))
    {s t : σ} (hs : I s) (ht : I t) (hst : view s = view t) {as : List α}
    (hG : Throughout step G s as) :
    view (after step s as) = view (after step t (as.filter visible)) := by
  induction as generalizing s t with
  | nil => exact hst
  | cons a as ih =>
    obtain ⟨ha, has⟩ := hG
    cases hvis : visible a with
    | true =>
      rw [List.filter_cons_of_pos hvis]
      exact ih (hI s a hs) (hI t a ht) (hcons s t a hs ht hvis hst) has
    | false =>
      rw [List.filter_cons_of_neg (by simp [hvis])]
      exact ih (hI s a hs) ht ((hlocal s a hs hvis ha).trans hst) has

end Noninterference
