import Mathlib.Algebra.Ring.Nat
import Mathlib.Data.List.TakeWhile
import Mathlib.Tactic.Common

/-!
# Zero-padded decimal numbers

`pad w n` writes `n` in decimal with at least `w` digits, as the verb `%0wd` of a formatter does,
and `scan w` reads a number of at most `w` digits, as the same verb of a scanner does.  The two are
inverse to each other only for numbers that fit into `w` digits: `pad` does not cut a longer number,
`scan` stops after `w` digits and leaves the rest.  `scan_exact_iff` says on which texts scanning
accepts exactly what `pad` writes.

A text of two numbers with a separator has one reading (`eq_of_separated`).
-/

namespace Decimal

open List Char

/-- At least `w` decimal digits, filled up with zeros on the left. -/
def pad (w n : ℕ) : String :=
  String.ofList (List.replicate (w - (Nat.toDigits 10 n).length) '0' ++ Nat.toDigits 10 n)

/-- The white space that a scanner skips, which stops at the end of a line. -/
def isBlank (c : Char) : Bool :=
  c.toNat ∈ [0x09, 0x0B, 0x0C, 0x0D, 0x20, 0x85, 0xA0, 0x1680, 0x2028, 0x2029, 0x202F, 0x205F,
    0x3000] ∨ (0x2000 ≤ c.toNat ∧ c.toNat ≤ 0x200A)

/-- The number formed by the first digits after leading blanks, at most `w` of them; `none` when
there is no digit. -/
def scan (w : ℕ) (s : String) : Option ℕ :=
  let digits := ((s.toList.dropWhile isBlank).take w).takeWhile Char.isDigit
  if digits = [] then none else some (Nat.ofDigitChars 10 digits 0)

theorem toList_pad (w n : ℕ) : (pad w n).toList =
    List.replicate (w - (Nat.toDigits 10 n).length) '0' ++ Nat.toDigits 10 n :=
  String.toList_ofList

theorem ofDigitChars_pad (w n : ℕ) : Nat.ofDigitChars 10 (pad w n).toList 0 = n := by
  rw [toList_pad, Nat.ofDigitChars_append, Nat.ofDigitChars_replicate_zero, Nat.mul_zero,
    Nat.ofDigitChars_ten_toDigits]

theorem pad_injective (w : ℕ) : Function.Injective (pad w) := by
  intro a b h
  rw [← ofDigitChars_pad w a, h, ofDigitChars_pad]

variable {w n : ℕ} {c : Char} {cs : List Char}

theorem isDigit_of_mem_pad (hc : c ∈ (pad w n).toList) : c.isDigit = true := by
  rw [toList_pad, mem_append] at hc
  rcases hc with hc | hc
  · rw [eq_of_mem_replicate hc]
    rfl
  · exact Nat.isDigit_of_mem_toDigits (by omega) (by omega) hc

theorem pad_ne_nil (w n : ℕ) : (pad w n).toList ≠ [] := by
  rw [toList_pad]
  exact append_ne_nil_of_right_ne_nil _ Nat.toDigits_ne_nil

theorem length_pad (hw : 0 < w) (hn : n < 10 ^ w) : (pad w n).toList.length = w := by
  have hlen : (Nat.toDigits 10 n).length ≤ w := (Nat.length_toDigits_le_iff (by omega) hw).2 hn
  rw [toList_pad, length_append, length_replicate]
  omega

theorem toNat_of_isDigit (hc : c.isDigit = true) : 48 ≤ c.toNat ∧ c.toNat ≤ 57 := by
  rw [isDigit, Bool.and_eq_true, decide_eq_true_iff, decide_eq_true_iff] at hc
  exact ⟨hc.1, hc.2⟩

theorem isBlank_of_isDigit (hc : c.isDigit = true) : isBlank c = false := by
  obtain ⟨hlow, hhigh⟩ := toNat_of_isDigit hc
  simp only [isBlank, decide_eq_false_iff_not, mem_cons, not_mem_nil, or_false]
  omega

/-- **Round trip** for the numbers that fit. -/
theorem scan_pad (hw : 0 < w) (hn : n < 10 ^ w) : scan w (pad w n) = some n := by
  have hblank : (pad w n).toList.dropWhile isBlank = (pad w n).toList := by
    cases hl : (pad w n).toList with
    | nil => rfl
    | cons c cs =>
      have hc : isBlank c = false :=
        isBlank_of_isDigit (isDigit_of_mem_pad (hl ▸ mem_cons_self ..))
      rw [dropWhile_cons_of_neg (by rw [hc]; exact Bool.false_ne_true)]
  have htake : (pad w n).toList.take w = (pad w n).toList :=
    take_of_length_le (le_of_eq (length_pad hw hn))
  have hdig : (pad w n).toList.takeWhile isDigit = (pad w n).toList :=
    takeWhile_eq_self_iff.2 fun c hc => isDigit_of_mem_pad hc
  simp only [scan, hblank, htake, hdig, if_neg (pad_ne_nil w n), ofDigitChars_pad]

-- a seventh digit is not read
example : scan 6 (pad 6 1000000) = some 100000 := by decide

/-! ### Numerals -/

theorem ofDigitChars_cons_zero (c : Char) (cs : List Char) : Nat.ofDigitChars 10 (c :: cs) 0 =
      10 ^ cs.length * (c.toNat - 48) + Nat.ofDigitChars 10 cs 0 := by
  rw [Nat.ofDigitChars_cons, Nat.ofDigitChars_eq_ofDigitChars_zero, Nat.mul_zero, Nat.zero_add]
  rfl

theorem ofDigitChars_lt (h : ∀ c ∈ cs, c.isDigit = true) :
    Nat.ofDigitChars 10 cs 0 < 10 ^ cs.length := by
  induction cs with
  | nil => decide
  | cons c cs ih =>
    obtain ⟨hc, hcs⟩ := forall_mem_cons.1 h
    have hlt := ih hcs
    have hdigit : c.toNat - 48 ≤ 9 := by
      have := toNat_of_isDigit hc
      omega
    have hmul := Nat.mul_le_mul_left (10 ^ cs.length) hdigit
    rw [ofDigitChars_cons_zero, length_cons, Nat.pow_succ]
    omega

variable {as bs : List Char}

theorem eq_of_length_eq (ha : ∀ c ∈ as, c.isDigit = true)
    (hb : ∀ c ∈ bs, c.isDigit = true) (hlen : as.length = bs.length)
    (h : Nat.ofDigitChars 10 as 0 = Nat.ofDigitChars 10 bs 0) : as = bs := by
  induction as generalizing bs with
  | nil => exact (length_eq_zero_iff.1 hlen.symm).symm
  | cons a as ih =>
    cases bs with
    | nil => cases hlen
    | cons b bs =>
      obtain ⟨ha1, has⟩ := forall_mem_cons.1 ha
      obtain ⟨hb1, hbs⟩ := forall_mem_cons.1 hb
      have hlen' : as.length = bs.length := Nat.succ.inj hlen
      rw [ofDigitChars_cons_zero, ofDigitChars_cons_zero, hlen'] at h
      have hlta := ofDigitChars_lt has
      have hltb := ofDigitChars_lt hbs
      rw [hlen'] at hlta
      -- the first digit is the quotient, the number of the others the remainder
      have hdigit : a.toNat - 48 = b.toNat - 48 := by
        have hdiv := congrArg (· / 10 ^ bs.length) h
        have hpos : 0 < 10 ^ bs.length := Nat.pow_pos (by decide)
        simpa [Nat.mul_add_div hpos, Nat.div_eq_of_lt hlta, Nat.div_eq_of_lt hltb] using hdiv
      have hrest : Nat.ofDigitChars 10 as 0 = Nat.ofDigitChars 10 bs 0 := by
        rw [hdigit] at h
        exact Nat.add_left_cancel h
      have hchar : a = b := by
        have ha48 := toNat_of_isDigit ha1
        have hb48 := toNat_of_isDigit hb1
        exact toNat_inj.1 (by omega)
      rw [hchar, ih has hbs hlen' hrest]

/-! ### What a scanner accepts -/

/-- Exactly `w` digits. -/
def isNumeral (w : ℕ) (s : String) : Bool := s.toList.length = w && s.toList.all Char.isDigit

/-- The text has a digit after its leading blanks. -/
def leadsWithDigit (s : String) : Bool := (s.toList.dropWhile isBlank).head?.any Char.isDigit

variable {s : String}

theorem scan_eq_none (h : leadsWithDigit s = false) : scan w s = none := by
  unfold leadsWithDigit at h
  unfold scan
  cases hrest : s.toList.dropWhile isBlank with
  | nil => simp
  | cons c cs =>
    rw [hrest] at h
    have hc : c.isDigit = false := h
    cases w with
    | zero => simp
    | succ w => simp [hc]

theorem scan_eq_some (hw : 0 < w) (h : leadsWithDigit s = true) :
    ∃ n < 10 ^ w, scan w s = some n := by
  unfold leadsWithDigit at h
  cases hrest : s.toList.dropWhile isBlank with
  | nil => rw [hrest] at h; cases h
  | cons c cs =>
    rw [hrest] at h
    have hc : c.isDigit = true := h
    obtain ⟨w, rfl⟩ := Nat.exists_eq_add_one.2 hw
    have hne : (((c :: cs).take (w + 1)).takeWhile isDigit) ≠ [] := by simp [hc]
    refine ⟨Nat.ofDigitChars 10 (((c :: cs).take (w + 1)).takeWhile isDigit) 0, ?_, ?_⟩
    · have hlen : (((c :: cs).take (w + 1)).takeWhile isDigit).length ≤ w + 1 :=
        (List.takeWhile_prefix _).length_le.trans (length_take_le _ _)
      calc Nat.ofDigitChars 10 (((c :: cs).take (w + 1)).takeWhile isDigit) 0
          < 10 ^ (((c :: cs).take (w + 1)).takeWhile isDigit).length :=
            ofDigitChars_lt fun d hd => mem_takeWhile_imp hd
        _ ≤ 10 ^ (w + 1) := Nat.pow_le_pow_right (by decide) hlen
    · unfold scan
      rw [hrest]
      exact if_neg hne

theorem leadsWithDigit_pad (w n : ℕ) : leadsWithDigit (pad w n) = true := by
  unfold leadsWithDigit
  cases hl : (pad w n).toList with
  | nil => exact absurd hl (pad_ne_nil w n)
  | cons c cs =>
    have hc : c.isDigit = true := isDigit_of_mem_pad (hl ▸ mem_cons_self ..)
    rw [dropWhile_cons_of_neg (by rw [isBlank_of_isDigit hc]; exact Bool.false_ne_true)]
    exact hc

theorem isNumeral_pad (hw : 0 < w) (hn : n < 10 ^ w) : isNumeral w (pad w n) = true := by
  rw [isNumeral, length_pad hw hn, decide_eq_true rfl, Bool.true_and, all_eq_true]
  exact fun c hc => isDigit_of_mem_pad hc

theorem pad_of_isNumeral (hw : 0 < w) (h : isNumeral w s = true) : ∃ n < 10 ^ w, s = pad w n := by
  rw [isNumeral, Bool.and_eq_true, decide_eq_true_eq, all_eq_true] at h
  obtain ⟨hlen, hdig⟩ := h
  have hlt : Nat.ofDigitChars 10 s.toList 0 < 10 ^ w := hlen ▸ ofDigitChars_lt hdig
  refine ⟨_, hlt, String.toList_inj.1 ?_⟩
  refine eq_of_length_eq hdig (fun c hc => isDigit_of_mem_pad hc) ?_ (ofDigitChars_pad w _).symm
  rw [hlen, length_pad hw hlt]

/-- **Scanning is exact**, that is, it accepts the padded numbers and nothing else, precisely on the
texts that are numerals of `w` digits or do not begin with a number. -/
theorem scan_exact_iff (hw : 0 < w) (s : String) :
    (∀ n, scan w s = some n ↔ s = pad w n) ↔ isNumeral w s = true ∨ leadsWithDigit s = false := by
  constructor
  · intro h
    cases hlead : leadsWithDigit s with
    | false => exact .inr rfl
    | true =>
      obtain ⟨n, hlt, hscan⟩ := scan_eq_some hw hlead
      rw [(h n).1 hscan]
      exact .inl (isNumeral_pad hw hlt)
  · rintro (hnum | hlead) n
    · obtain ⟨m, hlt, rfl⟩ := pad_of_isNumeral hw hnum
      rw [scan_pad hw hlt, Option.some_inj]
      exact ⟨fun h => by rw [h], fun h => pad_injective w h⟩
    · rw [scan_eq_none hlead]
      refine ⟨fun h => absurd h (Option.some_ne_none n).symm, ?_⟩
      rintro rfl
      rw [leadsWithDigit_pad] at hlead
      cases hlead

/-! ### Two numbers with a separator -/

theorem takeWhile_toDigits_append (hc : c.isDigit = false) (n : ℕ) (cs : List Char) :
    (Nat.toDigits 10 n ++ c :: cs).takeWhile isDigit = Nat.toDigits 10 n := by
  have hdig : ∀ d ∈ Nat.toDigits 10 n, d.isDigit = true := fun d hd =>
    Nat.isDigit_of_mem_toDigits (by omega) (by omega) hd
  rw [takeWhile_append_of_pos hdig, takeWhile_cons_of_neg (by rw [hc]; exact Bool.false_ne_true),
    append_nil]

theorem toDigits_injective : Function.Injective (Nat.toDigits 10) := by
  intro a b h
  rw [← @Nat.ofDigitChars_ten_toDigits a, h, Nat.ofDigitChars_ten_toDigits]

/-- The text of two numbers with a separator between them says which numbers they are. -/
theorem eq_of_separated (hc : c.isDigit = false) {a a' b b' : ℕ}
    (h : Nat.toDigits 10 a ++ c :: Nat.toDigits 10 b = Nat.toDigits 10 a' ++ c :: Nat.toDigits 10 b') :
    a = a' ∧ b = b' := by
  have hhead := congrArg (List.takeWhile isDigit) h
  rw [takeWhile_toDigits_append hc, takeWhile_toDigits_append hc] at hhead
  rw [hhead] at h
  exact ⟨toDigits_injective hhead, toDigits_injective (List.cons.inj (append_cancel_left h)).2⟩

end Decimal
