import Mathlib.Data.List.Basic

/-!
# Reading from a stream in segments

A stream comes in segments of any length, one at each read, and then ends.  `readFull` is
`io.ReadFull`: it reads until it has the number of letters that is asked for.
-/

namespace Readers

variable {α : Type}

/-- The letters and the rest of the stream.  What is left of a segment is the next segment. -/
def readFull : ℕ → List (List α) → Except String (List α × List (List α))
  | 0, r => .ok ([], r)
  | _ + 1, [] => .error "EOF"
  | n + 1, s :: r =>
    if n + 1 ≤ s.length then .ok (s.take (n + 1), s.drop (n + 1) :: r)
    else match readFull (n + 1 - s.length) r with
      | .ok (t, r) => .ok (s ++ t, r)
      | .error e => .error (if s.isEmpty then e else "unexpected EOF")

theorem readFull_append {t u : List α} {r : List (List α)} (h : r.flatten = t ++ u) :
    ∃ r', readFull t.length r = .ok (t, r') ∧ r'.flatten = u := by
  induction r generalizing t with
  | nil =>
    obtain ⟨rfl, rfl⟩ := List.append_eq_nil_iff.1 h.symm
    exact ⟨[], rfl, rfl⟩
  | cons s r ih =>
    cases t with
    | nil => exact ⟨s :: r, rfl, h⟩
    | cons a t =>
      obtain ⟨v, heq, hrest⟩ | ⟨v, rfl, rfl⟩ := List.append_eq_append_iff.1 h
      · obtain ⟨r', hread, hr'⟩ := ih hrest
        have hlen : t.length + 1 = s.length + v.length := by
          rw [← List.length_append, ← heq, List.length_cons]
        cases v with
        | nil =>
          obtain rfl : a :: t = s := by simpa using heq
          exact ⟨[] :: r, by simp [readFull], hrest⟩
        | cons b v =>
          have hlong : ¬ t.length + 1 ≤ s.length := by
            rw [hlen]
            simp
          refine ⟨r', ?_, hr'⟩
          rw [List.length_cons, readFull, if_neg hlong, hlen, Nat.add_sub_cancel_left, hread, heq]
      · exact ⟨v :: r, by simp [readFull], rfl⟩

theorem readFull_sound {n : ℕ} {r r' : List (List α)} {t : List α}
    (h : readFull n r = .ok (t, r')) : t.length = n ∧ r.flatten = t ++ r'.flatten := by
  fun_induction readFull n r generalizing t with
  | case1 => cases h; exact ⟨rfl, rfl⟩
  | case2 => cases h
  | case3 n s r hle =>
    cases h
    simp [hle, ← List.append_assoc]
  | case4 n s r hlt u r'' hread ih =>
    cases h
    obtain ⟨hlen, hflat⟩ := ih hread
    simp only [List.length_append, hlen, List.flatten_cons, hflat, List.append_assoc, and_true]
    omega
  | case5 => cases h

end Readers
