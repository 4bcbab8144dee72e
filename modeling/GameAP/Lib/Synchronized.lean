import Mathlib.Data.List.DropRight

/-!
# Codes that show where a letter begins

A code writes each letter as a first unit and a bounded number of further ones, and every unit
shows which of the two it is.  A text that has lost its beginning, at whatever unit, can be read
again after at most that many units.
-/

namespace Synchronized

variable {α β : Type} (as : List α) (n : ℕ)

/-- A code whose first units differ from all others. -/
structure Code (α β : Type) where
  encode : α → List β
  starts : β → Bool
  further : ℕ
  encode_eq : ∀ a, ∃ b rest, encode a = b :: rest ∧ starts b = true ∧
    (∀ c ∈ rest, starts c = false) ∧ rest.length ≤ further

open List

namespace Code

variable (C : Code α β)

/-- The units of a text. -/
def text (as : List α) : List β := as.flatMap C.encode

/-- The units are those of a text. -/
def Valid (bs : List β) : Prop := ∃ as, bs = C.text as

/-- There are no units, or a letter begins with the first one. -/
def Aligned (bs : List β) : Prop := ∀ b ∈ bs.head?, C.starts b = true

/-- The units from the first one with which a letter begins. -/
def realign (bs : List β) : List β := bs.dropWhile fun b => !C.starts b

@[simp] theorem text_nil : C.text [] = [] := rfl

theorem text_cons (a : α) (as : List α) : C.text (a :: as) = C.encode a ++ C.text as := rfl

theorem text_append (as bs : List α) : C.text (as ++ bs) = C.text as ++ C.text bs :=
  flatMap_append

theorem flatten_map_text (ass : List (List α)) : (ass.map C.text).flatten = C.text ass.flatten := by
  induction ass with
  | nil => rfl
  | cons as ass ih => simp [C.text_append, ih]

theorem length_le_length_text : as.length ≤ (C.text as).length := by
  induction as with
  | nil => simp
  | cons a as ih =>
    obtain ⟨b, rest, henc, _⟩ := C.encode_eq a
    simp [C.text_cons, henc]
    omega

theorem aligned_text : C.Aligned (C.text as) := by
  cases as with
  | nil => simp [Aligned]
  | cons a as =>
    obtain ⟨b, rest, henc, hstarts, _⟩ := C.encode_eq a
    simpa [Aligned, C.text_cons, henc] using hstarts

theorem realign_of_aligned {bs : List β} (h : C.Aligned bs) : C.realign bs = bs := by
  cases bs with
  | nil => rfl
  | cons b bs => simp [realign, h b rfl]

/-- Where a text is cut, the units that follow belong to the rest of one letter, and then come whole
letters. -/
theorem drop_text :
    ∃ cut as', (C.text as).drop n = cut ++ C.text as' ∧ cut.length ≤ C.further ∧
      ∀ b ∈ cut, C.starts b = false := by
  induction as generalizing n with
  | nil => exact ⟨[], [], by simp⟩
  | cons a as ih =>
    obtain ⟨b, rest, henc, _, hrest, hlen⟩ := C.encode_eq a
    cases n with
    | zero => exact ⟨[], a :: as, by simp⟩
    | succ n =>
      have hdrop : (C.text (a :: as)).drop (n + 1) = (rest ++ C.text as).drop n := by
        simp [C.text_cons, henc]
      by_cases hn : n ≤ rest.length
      · refine ⟨rest.drop n, as, ?_, ?_, fun c hc => hrest c (mem_of_mem_drop hc)⟩
        · rw [hdrop, drop_append_of_le_length hn]
        · simp
          omega
      · obtain ⟨cut, as', htext, hcut⟩ := ih (n - rest.length)
        refine ⟨cut, as', ?_, hcut⟩
        rw [hdrop, ← htext, drop_append, drop_eq_nil_of_le (by omega), nil_append]

/-- What is left of a text is a text again after at most `further` units. -/
theorem realign_drop :
    ∃ cut, (C.text as).drop n = cut ++ C.realign ((C.text as).drop n) ∧ cut.length ≤ C.further := by
  obtain ⟨cut, as', htext, hlen, hcut⟩ := C.drop_text as n
  refine ⟨cut, ?_, hlen⟩
  have hreal : C.realign (cut ++ C.text as') = C.text as' := by
    unfold realign
    rw [dropWhile_append_of_pos fun b hb => by simp [hcut b hb]]
    exact C.realign_of_aligned (C.aligned_text as')
  rw [htext, hreal]

theorem valid_drop_iff : C.Valid ((C.text as).drop n) ↔ C.Aligned ((C.text as).drop n) := by
  constructor
  · rintro ⟨as', htext⟩
    rw [htext]
    exact C.aligned_text as'
  · intro h
    obtain ⟨cut, as', htext, _, hcut⟩ := C.drop_text as n
    cases cut with
    | nil => exact ⟨as', htext⟩
    | cons b cut =>
      have hstarts := h b (by simp [htext])
      rw [hcut b mem_cons_self] at hstarts
      cases hstarts

end Code

/-- The last `n` elements, taken again after every piece, are the last `n` of all pieces. -/
theorem rtake_append (as bs : List α) (n : ℕ) :
    (as.rtake n ++ bs).rtake n = (as ++ bs).rtake n := by
  have htake : as.rtake n ++ bs = (as ++ bs).drop (as.length - n) :=
    (drop_append_of_le_length (Nat.sub_le ..)).symm
  rw [htake]
  simp only [rtake, drop_drop, length_drop, length_append]
  congr 1
  omega

theorem rtake_of_length_le {as : List α} {n : ℕ} (h : as.length ≤ n) : as.rtake n = as := by
  simp [rtake, Nat.sub_eq_zero_of_le h]

end Synchronized
