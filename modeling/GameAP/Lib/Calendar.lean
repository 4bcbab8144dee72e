import GameAP.Lib.Decimal
import Mathlib.Data.List.Basic

/-!
# Civil dates and RFC 3339

Dates of the Gregorian calendar, extended to all years, and days counted from the first of January
of the year 1.

* `dateOf` finds the date of a day, through the cycles of 400, 100, 4 and 1 years; `days_dateOf`
  says that the date has that day, `valid_dateOf` that its month and day are in range;
* `formatRFC3339` writes an instant in whole seconds in UTC, and `parseRFC3339` reads a time with an
  optional fraction and a zone, in nanoseconds.  A year that does not have four digits is written
  with more, or with a sign, and is not read; `parse_format` is the round trip for the others.
-/

namespace Calendar

open Decimal

/-! ### Dates -/

def isLeap (y : ℤ) : Bool := y % 4 = 0 && (y % 100 ≠ 0 || y % 400 = 0)

/-- The days of a year. -/
def yearLength (y : ℤ) : ℕ := if isLeap y then 366 else 365

/-- The days of the months. -/
def monthLengths (leap : Bool) : List ℕ :=
  [31, if leap then 29 else 28, 31, 30, 31, 30, 31, 31, 30, 31, 30, 31]

/-- A day of the calendar. -/
structure Date where
  year : ℤ
  month : ℕ
  day : ℕ
  deriving DecidableEq

/-- The days before the first of January of the year `y`. -/
def daysBeforeYear (y : ℤ) : ℤ := 365 * (y - 1) + (y - 1) / 4 - (y - 1) / 100 + (y - 1) / 400

/-- The days before the date. -/
def Date.days (d : Date) : ℤ :=
  daysBeforeYear d.year + ((monthLengths (isLeap d.year)).take (d.month - 1)).sum + (d.day - 1 : ℕ)

/-- The month and the day are in range. -/
def Date.Valid (d : Date) : Prop :=
  1 ≤ d.month ∧ 1 ≤ d.day ∧ ∃ len, (monthLengths (isLeap d.year))[d.month - 1]? = some len ∧
    d.day ≤ len

instance (d : Date) : Decidable d.Valid :=
  match h : (monthLengths (isLeap d.year))[d.month - 1]? with
  | none => .isFalse fun hv => by
      obtain ⟨-, -, len, hlen, -⟩ := hv
      rw [h] at hlen
      cases hlen
  | some len => decidable_of_iff (1 ≤ d.month ∧ 1 ≤ d.day ∧ d.day ≤ len) (by simp [Date.Valid, h])

/-- The year of a day, and the number of the day in the year, from 0. -/
def yearOf (n : ℤ) : ℤ × ℕ :=
  let r := n % 146097
  let n100 := min (r / 36524) 3
  let r100 := r - 36524 * n100
  let r4 := r100 % 1461
  let n1 := min (r4 / 365) 3
  (400 * (n / 146097) + 100 * n100 + 4 * (r100 / 1461) + n1 + 1, (r4 - 365 * n1).toNat)

/-- The month of a day of the year, and the number of the day in the month, both from 0. -/
def splitMonth : List ℕ → ℕ → ℕ × ℕ
  | [], d => (0, d)
  | len :: rest, d =>
    if d < len then (0, d) else ((splitMonth rest (d - len)).1 + 1, (splitMonth rest (d - len)).2)

/-- The date of a day. -/
def dateOf (n : ℤ) : Date :=
  let y := yearOf n
  let m := splitMonth (monthLengths (isLeap y.1)) y.2
  ⟨y.1, m.1 + 1, m.2 + 1⟩

theorem daysBeforeYear_cycles {a b c d : ℤ} (hb : 0 ≤ b ∧ b ≤ 3) (hc : 0 ≤ c ∧ c ≤ 24)
    (hd : 0 ≤ d ∧ d ≤ 3) :
    daysBeforeYear (400 * a + 100 * b + 4 * c + d + 1) =
      146097 * a + 36524 * b + 1461 * c + 365 * d := by
  unfold daysBeforeYear
  omega

theorem yearLength_pos (y : ℤ) : 365 ≤ yearLength y := by
  unfold yearLength
  split <;> omega

variable (n : ℤ)

theorem yearOf_spec :
    daysBeforeYear (yearOf n).1 + (yearOf n).2 = n ∧ (yearOf n).2 < yearLength (yearOf n).1 := by
  -- the remainders and quotients, with their bounds
  obtain ⟨b, hb⟩ : ∃ b, b = min (n % 146097 / 36524) 3 := ⟨_, rfl⟩
  obtain ⟨r, hr⟩ : ∃ r, r = n % 146097 - 36524 * b := ⟨_, rfl⟩
  obtain ⟨d, hd⟩ : ∃ d, d = min (r % 1461 / 365) 3 := ⟨_, rfl⟩
  have hyear : yearOf n =
      (400 * (n / 146097) + 100 * b + 4 * (r / 1461) + d + 1, (r % 1461 - 365 * d).toNat) := by
    rw [hd, hr, hb]
    rfl
  have hb' : 0 ≤ b ∧ b ≤ 3 := by omega
  have hr' : 0 ≤ r ∧ r ≤ 36524 ∧ (r = 36524 → b = 3) := by omega
  have hn : n = 146097 * (n / 146097) + 36524 * b + r := by omega
  have hc' : 0 ≤ r / 1461 ∧ r / 1461 ≤ 24 := by omega
  have hd' : 0 ≤ d ∧ d ≤ 3 := by omega
  obtain ⟨e, he⟩ : ∃ e, e = r % 1461 - 365 * d := ⟨_, rfl⟩
  have hday : 0 ≤ e ∧ e ≤ 365 ∧ (e = 365 → d = 3 ∧ r % 1461 = 1460) := by omega
  rw [hyear, ← he]
  simp only
  refine ⟨?_, ?_⟩
  · rw [daysBeforeYear_cycles hb' hc' hd', Int.toNat_of_nonneg hday.1]
    omega
  · by_cases hlast : e = 365
    · -- the day 365 is the last one of a cycle of four years
      obtain ⟨rfl, hrem⟩ := hday.2.2 hlast
      have hleap : isLeap (400 * (n / 146097) + 100 * b + 4 * (r / 1461) + 3 + 1) := by
        -- not the end of a century, or that of a cycle of 400 years
        have hcent : r / 1461 = 24 → b = 3 := fun hcent => hr'.2.2 (by omega)
        simp only [isLeap, Bool.and_eq_true, Bool.or_eq_true, decide_eq_true_eq]
        omega
      rw [yearLength, if_pos hleap, hlast]
      decide
    · have hlen := yearLength_pos (400 * (n / 146097) + 100 * b + 4 * (r / 1461) + d + 1)
      have hlt : e.toNat < 365 := by omega
      exact lt_of_lt_of_le hlt hlen

theorem splitMonth_spec {lens : List ℕ} {d : ℕ} (h : d < lens.sum) :
    ∃ len, lens[(splitMonth lens d).1]? = some len ∧ (splitMonth lens d).2 < len ∧
      (lens.take (splitMonth lens d).1).sum + (splitMonth lens d).2 = d := by
  induction lens generalizing d with
  | nil => simp at h
  | cons len rest ih =>
    rw [splitMonth]
    split_ifs with hd
    · exact ⟨len, rfl, hd, by simp⟩
    · rw [List.sum_cons] at h
      obtain ⟨len', hlen, hlt, hsum⟩ := @ih (d - len) (by omega)
      refine ⟨len', hlen, hlt, ?_⟩
      rw [List.take_succ_cons, List.sum_cons]
      omega

theorem sum_monthLengths (y : ℤ) : (monthLengths (isLeap y)).sum = yearLength y := by
  unfold yearLength monthLengths
  cases isLeap y <;> rfl

theorem days_dateOf : (dateOf n).days = n := by
  obtain ⟨hdays, hlt⟩ := yearOf_spec n
  rw [← sum_monthLengths] at hlt
  obtain ⟨len, -, -, hsum⟩ := splitMonth_spec hlt
  unfold dateOf Date.days
  simp only [Nat.add_sub_cancel]
  omega

theorem valid_dateOf : (dateOf n).Valid := by
  obtain ⟨-, hlt⟩ := yearOf_spec n
  rw [← sum_monthLengths] at hlt
  obtain ⟨len, hlen, hday, -⟩ := splitMonth_spec hlt
  exact ⟨Nat.succ_pos _, Nat.succ_pos _, len, hlen, hday⟩

/-! ### RFC 3339 -/

/-- The instant of a local date and time of day, in seconds. -/
def secondsOf (d : Date) (hour minute second : ℕ) : ℤ :=
  d.days * 86400 + (hour * 3600 + minute * 60 + second : ℕ)

/-- The year in four digits, or more where they do not suffice, after a sign if it is negative. -/
def yearChars (y : ℤ) : List Char :=
  if y < 0 then '-' :: (pad 4 (-y).toNat).toList else (pad 4 y.toNat).toList

def two (n : ℕ) : List Char := (pad 2 n).toList

/-- The instant `sec`, in seconds, in UTC. -/
def formatRFC3339 (sec : ℤ) : String :=
  let d := dateOf (sec / 86400)
  let r := (sec % 86400).toNat
  String.ofList (yearChars d.year ++ '-' :: (two d.month ++ '-' :: (two d.day ++ 'T' ::
    (two (r / 3600) ++ ':' :: (two (r % 3600 / 60) ++ ':' :: (two (r % 60) ++ ['Z']))))))

/-- Two digits, or one where the width is not fixed. -/
def getnum (fixed : Bool) : List Char → Option (ℕ × List Char)
  | a :: b :: rest =>
    if !a.isDigit then none
    else if b.isDigit then some (Nat.ofDigitChars 10 [a, b] 0, rest)
    else if fixed then none else some (Nat.ofDigitChars 10 [a] 0, b :: rest)
  | [a] => if a.isDigit && !fixed then some (Nat.ofDigitChars 10 [a] 0, []) else none
  | [] => none

/-- A year of exactly four digits. -/
def getyear (cs : List Char) : Option (ℕ × List Char) :=
  if (cs.take 4).length = 4 ∧ (cs.take 4).all Char.isDigit then
    some (Nat.ofDigitChars 10 (cs.take 4) 0, cs.drop 4)
  else none

def skip (c : Char) : List Char → Option (List Char)
  | a :: rest => if a = c then some rest else none
  | [] => none

/-- A fraction of a second, cut to nanoseconds; without a digit there is none. -/
def getfraction : List Char → ℕ × List Char
  | [] => (0, [])
  | a :: rest =>
    if (a = '.' ∨ a = ',') ∧ rest.takeWhile Char.isDigit ≠ [] then
      (Nat.ofDigitChars 10 ((rest.takeWhile Char.isDigit ++ List.replicate 9 '0').take 9) 0,
        rest.dropWhile Char.isDigit)
    else (0, a :: rest)

/-- The zone, as its offset from UTC in seconds. -/
def getzone : List Char → Option (ℤ × List Char)
  | [] => none
  | a :: rest =>
    if a = 'Z' then some (0, rest)
    else do
      let (hour, rest) ← getnum true rest
      let rest ← skip ':' rest
      let (minute, rest) ← getnum true rest
      if 24 < hour ∨ 60 < minute then none
      else if a = '+' then some (((hour * 60 + minute) * 60 : ℕ), rest)
      else if a = '-' then some (-((hour * 60 + minute) * 60 : ℕ), rest)
      else none

/-- The instant of a time in RFC 3339, in nanoseconds. -/
def parseRFC3339 (s : String) : Option ℤ := do
  let (year, cs) ← getyear s.toList
  let cs ← skip '-' cs
  let (month, cs) ← getnum true cs
  let cs ← skip '-' cs
  let (day, cs) ← getnum true cs
  let cs ← skip 'T' cs
  let (hour, cs) ← getnum false cs
  let cs ← skip ':' cs
  let (minute, cs) ← getnum true cs
  let cs ← skip ':' cs
  let (second, cs) ← getnum true cs
  let (nsec, cs) := getfraction cs
  let (offset, cs) ← getzone cs
  if cs = [] ∧ (Date.mk year month day).Valid ∧ hour < 24 ∧ minute < 60 ∧ second < 60 then
    some ((secondsOf ⟨year, month, day⟩ hour minute second - offset) * 1000000000 + nsec)
  else none

theorem getnum_two {n : ℕ} (hn : n < 100) (fixed : Bool) (rest : List Char) :
    getnum fixed (two n ++ rest) = some (n, rest) := by
  have hlen : (two n).length = 2 := length_pad (by decide) hn
  have hval : Nat.ofDigitChars 10 (two n) 0 = n := ofDigitChars_pad 2 n
  have hdigit : ∀ c ∈ two n, c.isDigit = true := fun c hc => isDigit_of_mem_pad hc
  obtain ⟨a, b, hab⟩ := List.length_eq_two.1 hlen
  rw [hab] at hval hdigit ⊢
  have ha : a.isDigit = true := hdigit a (by simp)
  have hb : b.isDigit = true := hdigit b (by simp)
  simp [getnum, ha, hb, hval]

theorem getyear_yearChars {y : ℤ} (h0 : 0 ≤ y) (h9 : y ≤ 9999) (rest : List Char) :
    getyear (yearChars y ++ rest) = some (y.toNat, rest) := by
  have hlen : (pad 4 y.toNat).toList.length = 4 := length_pad (by decide) (by omega)
  have hdigit : (pad 4 y.toNat).toList.all Char.isDigit = true :=
    List.all_eq_true.2 fun c hc => isDigit_of_mem_pad hc
  have htake : ((pad 4 y.toNat).toList ++ rest).take 4 = (pad 4 y.toNat).toList :=
    List.take_left' hlen
  have hdrop : ((pad 4 y.toNat).toList ++ rest).drop 4 = rest := List.drop_left' hlen
  rw [yearChars, if_neg (by omega), getyear, htake, hdrop, if_pos ⟨hlen, hdigit⟩,
    ofDigitChars_pad]

theorem skip_cons (c : Char) (rest : List Char) : skip c (c :: rest) = some rest := by
  simp [skip]

theorem Date.Valid.lt {d : Date} (h : d.Valid) : d.month < 100 ∧ d.day < 100 := by
  obtain ⟨-, -, len, hlen, hday⟩ := h
  obtain ⟨hmonth, -⟩ := List.getElem?_eq_some_iff.1 hlen
  have hlong : ∀ l ∈ monthLengths (isLeap d.year), l ≤ 31 := by
    cases isLeap d.year <;> decide
  have hmem := hlong len (List.mem_of_getElem? hlen)
  have hcount : (monthLengths (isLeap d.year)).length = 12 := rfl
  omega

theorem parse_format {sec : ℤ} (h0 : 0 ≤ (dateOf (sec / 86400)).year)
    (h9 : (dateOf (sec / 86400)).year ≤ 9999) :
    parseRFC3339 (formatRFC3339 sec) = some (sec * 1000000000) := by
  have hvalid := valid_dateOf (sec / 86400)
  have hdays := days_dateOf (sec / 86400)
  unfold formatRFC3339 parseRFC3339
  generalize dateOf (sec / 86400) = d at *
  obtain ⟨hmonth, hday⟩ := hvalid.lt
  obtain ⟨r, hr⟩ : ∃ r, r = (sec % 86400).toNat := ⟨_, rfl⟩
  have hyear : Date.mk (d.year.toNat : ℤ) d.month d.day = d := by
    rw [Int.toNat_of_nonneg h0]
  have htime : secondsOf d (r / 3600) (r % 3600 / 60) (r % 60) = sec := by
    rw [secondsOf, hdays]
    omega
  have hhour : r / 3600 < 24 := by omega
  have hminute : r % 3600 / 60 < 60 := by omega
  have hsec : r % 60 < 60 := by omega
  have hfrac : getfraction ['Z'] = (0, ['Z']) := rfl
  have hzone : getzone ['Z'] = some (0, []) := rfl
  -- each reader takes what its writer put in front of the rest
  simp only [← hr, String.toList_ofList, getyear_yearChars h0 h9, getnum_two hmonth,
    getnum_two hday, getnum_two (show r / 3600 < 100 by omega),
    getnum_two (show r % 3600 / 60 < 100 by omega), getnum_two (show r % 60 < 100 by omega),
    skip_cons, hfrac, hzone, Option.bind_eq_bind, Option.bind_some, hyear, htime]
  rw [if_pos ⟨trivial, hvalid, hhour, hminute, hsec⟩]
  simp

/-- A year of more than four digits or with a sign is not read as a year with a hyphen after it. -/
theorem getyear_yearChars_long {y : ℤ} (h : ¬ (0 ≤ y ∧ y ≤ 9999)) (rest : List Char) :
    (getyear (yearChars y ++ rest)).bind (fun p => skip '-' p.2) = none := by
  by_cases hneg : y < 0
  · simp [yearChars, if_pos hneg, getyear]
  · have hlong : 4 < (pad 4 y.toNat).toList.length := by
      have hle := (Nat.length_toDigits_le_iff (b := 10) (n := y.toNat) (k := 4) (by omega)
        (by omega)).not.2 (by omega)
      rw [toList_pad, List.length_append]
      omega
    obtain ⟨c, cs, hdrop⟩ := List.exists_cons_of_length_pos (l := (pad 4 y.toNat).toList.drop 4)
      (by rw [List.length_drop]; omega)
    have hdigit : c.isDigit = true :=
      isDigit_of_mem_pad (List.mem_of_mem_drop (hdrop ▸ List.mem_cons_self))
    have hc : c ≠ '-' := by rintro rfl; exact absurd hdigit (by decide)
    rw [yearChars, if_neg hneg, getyear, List.drop_append_of_le_length hlong.le, hdrop]
    split_ifs <;> simp [skip, hc]

theorem parse_format_eq_none {sec : ℤ}
    (h : ¬ (0 ≤ (dateOf (sec / 86400)).year ∧ (dateOf (sec / 86400)).year ≤ 9999)) :
    parseRFC3339 (formatRFC3339 sec) = none := by
  unfold formatRFC3339 parseRFC3339
  rw [String.toList_ofList]
  have hyear := getyear_yearChars_long h
  generalize dateOf (sec / 86400) = d at *
  have hnone (rest : List Char) : ∀ p, getyear (yearChars d.year ++ rest) = some p →
      skip '-' p.2 = none := fun p hp => by simpa [hp] using hyear rest
  cases hread : getyear (yearChars d.year ++ _) with
  | none => rfl
  | some p => simp [hnone _ p hread]

end Calendar
