import Mathlib.Algebra.Ring.Int.Defs
import Mathlib.Algebra.Ring.Nat
import Mathlib.Data.List.TakeWhile
import Mathlib.Tactic.Common
import GameAP.Lib.Base64

/-!
# JSON texts

* `quote`, `writeInt` and `object` write strings, integers and objects as `encoding/json` does:
  without white space, and with `<`, `>` and `&` escaped.
* `skipValue` passes over one value of any kind and says what follows it; `readObject` takes an
  object apart into its keys and the texts of its values, and `readString` and `readInt` read such a
  text.

A text is a `Value` if it is passed over before everything that does not go on as a number.  Strings
and integers are, and so are objects of values (`value_object`), which are read back
(`readObject_object`).
-/

namespace Json

open List

/-! ### Strings -/

/-- A digit of `\u`. -/
def hexDigit (d : ℕ) : Char := if d < 10 then Char.ofNat (48 + d) else Char.ofNat (87 + d)

def hexVal (c : Char) : Option ℕ :=
  if 48 ≤ c.toNat ∧ c.toNat ≤ 57 then some (c.toNat - 48)
  else if 97 ≤ c.toNat ∧ c.toNat ≤ 102 then some (c.toNat - 87)
  else if 65 ≤ c.toNat ∧ c.toNat ≤ 70 then some (c.toNat - 55)
  else none

theorem hexVal_hexDigit {d : ℕ} (hd : d < 16) : hexVal (hexDigit d) = some d := by
  have hall : ∀ d < 16, hexVal (hexDigit d) = some d := by decide
  exact hall d hd

/-- How a character is written between quotation marks. -/
def escape (c : Char) : List Char :=
  if c = '"' then ['\\', '"']
  else if c = '\\' then ['\\', '\\']
  else if c.toNat = 8 then ['\\', 'b']
  else if c.toNat = 9 then ['\\', 't']
  else if c.toNat = 10 then ['\\', 'n']
  else if c.toNat = 12 then ['\\', 'f']
  else if c.toNat = 13 then ['\\', 'r']
  else if c.toNat < 32 ∨ c.toNat ∈ [0x26, 0x3C, 0x3E, 0x2028, 0x2029] then
    ['\\', 'u', hexDigit (c.toNat / 4096), hexDigit (c.toNat / 256 % 16),
      hexDigit (c.toNat / 16 % 16), hexDigit (c.toNat % 16)]
  else [c]

/-- A string with its quotation marks. -/
def quote (s : List Char) : List Char := '"' :: (s.flatMap escape ++ ['"'])

/-- What a backslash and a letter stand for. -/
def short (c : Char) : Option ℕ :=
  if c = '"' ∨ c = '\\' ∨ c = '/' then some c.toNat
  else if c = 'b' then some 8
  else if c = 't' then some 9
  else if c = 'n' then some 10
  else if c = 'f' then some 12
  else if c = 'r' then some 13
  else none

/-- Where the reader of a string is: after a backslash, or after some digits of `\u`. -/
inductive Place
  | plain
  | escaped
  | hex (left acc : ℕ)

/-- One more unit before those that are read from the rest. -/
def emit (u : ℕ) : Option (List ℕ × List Char) → Option (List ℕ × List Char) :=
  Option.map fun r => (u :: r.1, r.2)

/-- The units of a string after its first quotation mark, and what follows the second one. -/
def readUnits : Place → List Char → Option (List ℕ × List Char)
  | _, [] => none
  | .plain, c :: t =>
    if c = '"' then some ([], t)
    else if c = '\\' then readUnits .escaped t
    else if c.toNat < 32 then none
    else emit c.toNat (readUnits .plain t)
  | .escaped, c :: t =>
    if c = 'u' then readUnits (.hex 3 0) t
    else match short c with
      | none => none
      | some u => emit u (readUnits .plain t)
  | .hex left acc, c :: t =>
    match hexVal c with
    | none => none
    | some d =>
      match left with
      | 0 => emit (acc * 16 + d) (readUnits .plain t)
      | left + 1 => readUnits (.hex left (acc * 16 + d)) t

/-- The character of one unit; half of a surrogate pair is none. -/
def character (u : ℕ) : Char := if 0xD800 ≤ u ∧ u < 0xE000 then Char.ofNat 0xFFFD else Char.ofNat u

/-- Two units may be a surrogate pair. -/
def characters : List ℕ → List Char
  | [] => []
  | [u] => [character u]
  | u :: v :: us =>
    if 0xD800 ≤ u ∧ u < 0xDC00 ∧ 0xDC00 ≤ v ∧ v < 0xE000 then
      Char.ofNat (0x10000 + (u - 0xD800) * 0x400 + (v - 0xDC00)) :: characters us
    else character u :: characters (v :: us)

/-- The string after its first quotation mark, and what follows the second one. -/
def readString (t : List Char) : Option (List Char × List Char) :=
  (readUnits .plain t).map fun r => (characters r.1, r.2)

theorem readUnits_escape (c : Char) (t : List Char) :
    readUnits .plain (escape c ++ t) = emit c.toNat (readUnits .plain t) := by
  unfold escape
  split_ifs with h₁ h₂ h₃ h₄ h₅ h₆ h₇ h₈
  · rw [h₁]
    rfl
  · rw [h₂]
    rfl
  · rw [h₃]
    rfl
  · rw [h₄]
    rfl
  · rw [h₅]
    rfl
  · rw [h₆]
    rfl
  · rw [h₇]
    rfl
  · have hlt : c.toNat < 65536 := by
      simp only [mem_cons, not_mem_nil, or_false] at h₈
      omega
    have hsum : (((0 * 16 + c.toNat / 4096) * 16 + c.toNat / 256 % 16) * 16 + c.toNat / 16 % 16) * 16 +
        c.toNat % 16 = c.toNat := by omega
    show readUnits (.hex 3 0) (hexDigit _ :: hexDigit _ :: hexDigit _ :: hexDigit _ :: t) = _
    simp only [readUnits, hexVal_hexDigit (show c.toNat / 4096 < 16 by omega),
      hexVal_hexDigit (Nat.mod_lt _ (show 0 < 16 by decide)), hsum]
  · rw [not_or, Nat.not_lt] at h₈
    simp only [cons_append, nil_append, readUnits, if_neg h₁, if_neg h₂, if_neg (Nat.not_lt.2 h₈.1)]

theorem readUnits_quote (s t : List Char) :
    readUnits .plain (s.flatMap escape ++ '"' :: t) = some (s.map Char.toNat, t) := by
  induction s with
  | nil => rfl
  | cons c s ih =>
    rw [flatMap_cons, append_assoc, readUnits_escape, ih]
    rfl

theorem not_surrogate (c : Char) : ¬ (0xD800 ≤ c.toNat ∧ c.toNat < 0xE000) := by
  have hvalid : c.toNat < 0xD800 ∨ 0xDFFF < c.toNat ∧ c.toNat < 0x110000 := c.valid
  omega

theorem characters_map (s : List Char) : characters (s.map Char.toNat) = s := by
  have hone (c : Char) : character c.toNat = c := by
    unfold character
    rw [if_neg (not_surrogate c), Char.ofNat_toNat]
  induction s with
  | nil => rfl
  | cons c s ih =>
    cases s with
    | nil => exact congrArg (· :: []) (hone c)
    | cons d s =>
      have hpair : ¬ (0xD800 ≤ c.toNat ∧ c.toNat < 0xDC00 ∧ 0xDC00 ≤ d.toNat ∧ d.toNat < 0xE000) := by
        have hnot := not_surrogate c
        omega
      rw [map_cons, map_cons, characters, if_neg hpair, hone, ← map_cons, ih]

/-- **A string is read back.** -/
theorem readString_quote (s t : List Char) :
    readString (s.flatMap escape ++ '"' :: t) = some (s, t) := by
  rw [readString, readUnits_quote, Option.map_some, characters_map]

/-! ### Numbers -/

/-- The characters of numbers. -/
def isNumberChar (c : Char) : Bool := c.isDigit || c ∈ ['-', '+', '.', 'e', 'E']

/-- An exponent, or nothing. -/
def isExponent : List Char → Bool
  | [] => true
  | e :: t =>
    let digits := if t.head? ∈ [some '+', some '-'] then t.tail else t
    (e = 'e' || e = 'E') && !digits.isEmpty && digits.all Char.isDigit

def isFraction : List Char → Bool
  | '.' :: t => !(t.takeWhile Char.isDigit).isEmpty && isExponent (t.dropWhile Char.isDigit)
  | t => isExponent t

/-- A number without its sign. -/
def isUnsigned : List Char → Bool
  | [] => false
  | c :: t => if c = '0' then isFraction t else c.isDigit && isFraction (t.dropWhile Char.isDigit)

/-- The numbers of JSON. -/
def isNumber : List Char → Bool
  | '-' :: t => isUnsigned t
  | t => isUnsigned t

/-- An integer in decimal. -/
def writeInt : ℤ → List Char
  | .ofNat n => Nat.toDigits 10 n
  | .negSucc n => '-' :: Nat.toDigits 10 (n + 1)

/-- The number of a row of digits. -/
def readNat (t : List Char) : Option ℕ :=
  if !t.isEmpty && t.all Char.isDigit then some (Nat.ofDigitChars 10 t 0) else none

/-- An integer; a number with a fraction or an exponent is none. -/
def readInt : List Char → Option ℤ
  | '-' :: t => (readNat t).map fun n => -n
  | t => (readNat t).map Int.ofNat

theorem all_isDigit_toDigits (n : ℕ) : (Nat.toDigits 10 n).all Char.isDigit = true :=
  all_eq_true.2 fun _ hc => Nat.isDigit_of_mem_toDigits (by decide) (by decide) hc

theorem readNat_toDigits (n : ℕ) : readNat (Nat.toDigits 10 n) = some n := by
  have hne : (Nat.toDigits 10 n).isEmpty = false := by
    rw [isEmpty_eq_false_iff]
    exact Nat.toDigits_ne_nil
  rw [readNat, hne, all_isDigit_toDigits, Nat.ofDigitChars_ten_toDigits]
  rfl

/-- A number other than zero does not begin with a zero. -/
theorem head?_toDigits_ne {n : ℕ} (hn : n ≠ 0) : (Nat.toDigits 10 n).head? ≠ some '0' := by
  induction n using Nat.strongRecOn with
  | ind n ih =>
    rw [Nat.toDigits_eq_if (by decide)]
    split_ifs with hlt
    · have hall : ∀ n < 10, n ≠ 0 → [Nat.digitChar n].head? ≠ some '0' := by decide
      exact hall n hlt hn
    · have hhead := ih (n / 10) (by omega) (by omega)
      obtain ⟨c, t, hdigits⟩ := exists_cons_of_ne_nil (@Nat.toDigits_ne_nil (n / 10) 10)
      rw [hdigits] at hhead ⊢
      exact hhead

theorem toDigits_eq_cons (n : ℕ) : ∃ c t, Nat.toDigits 10 n = c :: t ∧ c.isDigit = true ∧
    t.all Char.isDigit = true ∧ (c = '0' → t = []) := by
  have hdigits := all_isDigit_toDigits n
  cases hn : Nat.toDigits 10 n with
  | nil => exact absurd hn Nat.toDigits_ne_nil
  | cons c t =>
    rw [hn, all_cons, Bool.and_eq_true] at hdigits
    refine ⟨c, t, rfl, hdigits.1, hdigits.2, fun hc => ?_⟩
    by_cases hzero : n = 0
    · rw [hzero, Nat.toDigits_zero] at hn
      exact (cons.inj hn).2.symm
    · refine absurd ?_ (head?_toDigits_ne hzero)
      rw [hn, hc]
      rfl

theorem isUnsigned_toDigits (n : ℕ) : isUnsigned (Nat.toDigits 10 n) = true := by
  obtain ⟨c, t, hn, hc, ht, hzero⟩ := toDigits_eq_cons n
  have hdrop : t.dropWhile Char.isDigit = [] := dropWhile_eq_nil_iff.2 (all_eq_true.1 ht)
  rw [hn, isUnsigned]
  split_ifs with h
  · rw [hzero h]
    rfl
  · rw [hc, hdrop]
    rfl

/-! ### Values -/

def isSpace (c : Char) : Bool := c ∈ [' ', '\t', '\r', '\n']

def skipSpace (t : List Char) : List Char := t.dropWhile isSpace

/-- What follows a number or one of the three names. -/
def skipName (t : List Char) : Option (List Char) :=
  if "true".toList <+: t ∨ "null".toList <+: t then some (t.drop 4)
  else if "false".toList <+: t then some (t.drop 5)
  else if isNumber (t.takeWhile isNumberChar) then some (t.dropWhile isNumberChar)
  else none

section

variable {γ : Type*}

/-- At least one item, with commas between the items. -/
def readList (read : List Char → Option (γ × List Char)) (close : Char) :
    ℕ → List Char → Option (List γ × List Char)
  | 0, _ => none
  | n + 1, t =>
    match read t with
    | none => none
    | some (x, t) =>
      match skipSpace t with
      | [] => none
      | c :: t =>
        if c = close then some ([x], t)
        else if c = ',' then (readList read close n t).map fun r => (x :: r.1, r.2)
        else none

/-- The items of an array or object, after its first bracket. -/
def readItems (read : List Char → Option (γ × List Char)) (close : Char) (t : List Char) :
    Option (List γ × List Char) :=
  if (skipSpace t).head? = some close then some ([], (skipSpace t).tail)
  else readList read close t.length t

end

/-- A key and the text of its value. -/
def readMember (skip : List Char → Option (List Char)) (t : List Char) :
    Option ((List Char × List Char) × List Char) :=
  match skipSpace t with
  | '"' :: t =>
    match readString t with
    | none => none
    | some (key, t) =>
      match skipSpace t with
      | ':' :: t =>
        (skip t).map fun rest =>
          ((key, (skipSpace t).take ((skipSpace t).length - rest.length)), rest)
      | _ => none
  | _ => none

/-- What follows a value that is nested no deeper than the first argument allows. -/
def skipValue : ℕ → List Char → Option (List Char)
  | 0, _ => none
  | depth + 1, t =>
    match skipSpace t with
    | [] => none
    | c :: t =>
      if c = '"' then (readString t).map Prod.snd
      else if c = '{' then (readItems (readMember (skipValue depth)) '}' t).map Prod.snd
      else if c = '[' then (readItems (fun t => (skipValue depth t).map ((), ·)) ']' t).map Prod.snd
      else skipName (c :: t)

/-- A text that is nested deeper is refused. -/
abbrev maxNestingDepth : ℕ := 10000

/-- The members of the one object that is the text; `null` has none. -/
def readObject (t : List Char) : Option (List (List Char × List Char)) :=
  match skipSpace t with
  | '{' :: t =>
    match readItems (readMember (skipValue maxNestingDepth)) '}' t with
    | none => none
    | some (members, rest) => if skipSpace rest = [] then some members else none
  | t => if "null".toList <+: t ∧ skipSpace (t.drop 4) = [] then some [] else none

/-! ### Objects that are written -/

/-- The members of an object with its last bracket. -/
def members : List (List Char × List Char) → List Char
  | [] => ['}']
  | [m] => quote m.1 ++ ':' :: (m.2 ++ ['}'])
  | m :: ms => quote m.1 ++ ':' :: (m.2 ++ ',' :: members ms)

/-- An object of the given keys and texts of values. -/
def object (ms : List (List Char × List Char)) : List Char := '{' :: members ms

/-- A number before the text ends with it. -/
def Ends (t : List Char) : Prop := ∀ c ∈ t.head?, isNumberChar c = false

/-- The text is passed over as one value. -/
structure Value (depth : ℕ) (v : List Char) : Prop where
  skipSpace_append : ∀ t, skipSpace (v ++ t) = v ++ t
  skipValue_append : ∀ t, Ends t → skipValue depth (v ++ t) = some t

variable {depth n : ℕ} {t v : List Char} {ms : List (List Char × List Char)}

theorem skipSpace_cons {c : Char} (hc : isSpace c = false) (t : List Char) :
    skipSpace (c :: t) = c :: t := by
  rw [skipSpace, dropWhile_cons, hc]
  rfl

theorem value_quote (s : List Char) : Value (depth + 1) (quote s) where
  skipSpace_append _ := skipSpace_cons (by decide) _
  skipValue_append t _ := by
    have hquote : quote s ++ t = '"' :: (s.flatMap escape ++ '"' :: t) := by simp [quote]
    rw [hquote, skipValue, skipSpace_cons (by decide)]
    simp only [if_true, readString_quote, Option.map_some]

theorem isNumberChar_of_isDigit {c : Char} (hc : c.isDigit = true) : isNumberChar c = true := by
  rw [isNumberChar, hc]
  rfl

theorem ne_of_isDigit {c d : Char} (hc : c.isDigit = true) (hd : d.isDigit = false) : c ≠ d := by
  rintro rfl
  exact Bool.false_ne_true (hd.symm.trans hc)

theorem takeWhile_append_of_ends (hv : ∀ c ∈ v, isNumberChar c = true) (ht : Ends t) :
    (v ++ t).takeWhile isNumberChar = v ∧ (v ++ t).dropWhile isNumberChar = t := by
  have hnil : t.takeWhile isNumberChar = [] ∧ t.dropWhile isNumberChar = t := by
    cases t with
    | nil => exact ⟨rfl, rfl⟩
    | cons c t => simp [ht c rfl]
  rw [takeWhile_append_of_pos hv, dropWhile_append_of_pos hv, hnil.1, hnil.2, append_nil]
  exact ⟨rfl, rfl⟩

/-- A number is passed over. -/
theorem value_number {c : Char} {ds : List Char} (hc : c = '-' ∨ c.isDigit = true)
    (hds : ds.all Char.isDigit = true) (hnumber : isNumber (c :: ds) = true) :
    Value (depth + 1) (c :: ds) := by
  have hne {d : Char} (hd : d.isDigit = false) (hminus : d ≠ '-') : c ≠ d := by
    rcases hc with rfl | hc
    · exact hminus.symm
    · exact ne_of_isDigit hc hd
  have hspace (t : List Char) : skipSpace (c :: ds ++ t) = c :: (ds ++ t) := by
    refine skipSpace_cons ?_ _
    simp [isSpace, hne]
  have hall : ∀ d ∈ c :: ds, isNumberChar d = true := by
    rw [forall_mem_cons]
    refine ⟨?_, fun d hd => isNumberChar_of_isDigit (all_eq_true.1 hds d hd)⟩
    rcases hc with rfl | hc
    · decide
    · exact isNumberChar_of_isDigit hc
  refine ⟨hspace, fun t ht => ?_⟩
  obtain ⟨htake, hdrop⟩ := takeWhile_append_of_ends hall ht
  rw [cons_append] at htake hdrop
  rw [skipValue, hspace]
  simp only [if_neg (@hne '"' (by decide) (by decide)), if_neg (@hne '{' (by decide) (by decide)),
    if_neg (@hne '[' (by decide) (by decide)), skipName, htake, hdrop, hnumber, if_true]
  rw [if_neg, if_neg]
  · exact fun hfalse => @hne 'f' (by decide) (by decide) (cons_prefix_cons.1 hfalse).1.symm
  · rintro (htrue | hnull)
    · exact @hne 't' (by decide) (by decide) (cons_prefix_cons.1 htrue).1.symm
    · exact @hne 'n' (by decide) (by decide) (cons_prefix_cons.1 hnull).1.symm

theorem value_writeInt (i : ℤ) : Value (depth + 1) (writeInt i) := by
  cases i with
  | ofNat n =>
    obtain ⟨c, t, hn, hc, ht, -⟩ := toDigits_eq_cons n
    have hnumber := isUnsigned_toDigits n
    rw [writeInt, hn]
    rw [hn] at hnumber
    refine value_number (.inr hc) ht ?_
    unfold isNumber
    split
    · next h =>
      obtain ⟨rfl, -⟩ := cons.inj h
      cases hc
    · exact hnumber
  | negSucc n => exact value_number (.inl rfl) (all_isDigit_toDigits _) (isUnsigned_toDigits (n + 1))

theorem readInt_writeInt (i : ℤ) : readInt (writeInt i) = some i := by
  cases i with
  | ofNat n =>
    have hread := readNat_toDigits n
    obtain ⟨c, t, hn, hc, -⟩ := toDigits_eq_cons n
    rw [writeInt]
    rw [hn] at hread ⊢
    unfold readInt
    split
    · next h =>
      obtain ⟨rfl, -⟩ := cons.inj h
      cases hc
    · rw [hread]
      rfl
  | negSucc n =>
    rw [writeInt, readInt, readNat_toDigits]
    rfl

theorem readMember_append (hv : Value depth v) (key : List Char) (ht : Ends t) :
    readMember (skipValue depth) (quote key ++ ':' :: (v ++ t)) = some ((key, v), t) := by
  have hquote : quote key ++ ':' :: (v ++ t) =
      '"' :: (key.flatMap escape ++ '"' :: ':' :: (v ++ t)) := by
    simp [quote]
  have htake : (v ++ t).take ((v ++ t).length - t.length) = v := by simp
  rw [hquote, readMember, skipSpace_cons (by decide)]
  simp only [readString_quote, skipSpace_cons (show isSpace ':' = false by decide),
    hv.skipValue_append t ht, hv.skipSpace_append, Option.map_some, htake]

theorem length_le_members (ms : List (List Char × List Char)) : ms.length ≤ (members ms).length := by
  induction ms using members.induct with
  | case1 => simp
  | case2 m =>
    simp only [members, length_append, length_cons, length_nil]
    omega
  | case3 m ms hne ih =>
    rw [members]
    · simp only [length_append, length_cons]
      omega
    · exact hne

theorem readList_members (hms : ∀ m ∈ ms, Value depth m.2) (hne : ms ≠ []) (hn : ms.length ≤ n)
    (t : List Char) :
    readList (readMember (skipValue depth)) '}' n (members ms ++ t) = some (ms, t) := by
  induction ms using members.induct generalizing n with
  | case1 => exact absurd rfl hne
  | case2 m =>
    obtain ⟨n, rfl⟩ := Nat.exists_eq_succ_of_ne_zero (Nat.pos_iff_ne_zero.1 hn)
    have hread := readMember_append (hms m (mem_singleton_self m)) m.1
      (show Ends ('}' :: t) from fun c hc => by cases hc; decide)
    simp only [members, append_assoc, cons_append, nil_append, readList, hread,
      skipSpace_cons (show isSpace '}' = false by decide), if_true]
  | case3 m ms hlast ih =>
    obtain ⟨n, rfl⟩ := Nat.exists_eq_succ_of_ne_zero (Nat.ne_zero_of_lt hn)
    obtain ⟨hm, hms⟩ := forall_mem_cons.1 hms
    have hread := readMember_append hm m.1
      (show Ends (',' :: (members ms ++ t)) from fun c hc => by cases hc; decide)
    rw [members]
    · simp only [append_assoc, cons_append, readList, hread,
        skipSpace_cons (show isSpace ',' = false by decide), if_true,
        if_neg (show ',' ≠ '}' by decide), ih hms hlast (Nat.le_of_succ_le_succ hn), Option.map_some]
    · exact hlast

theorem readItems_members (hms : ∀ m ∈ ms, Value depth m.2) (t : List Char) :
    readItems (readMember (skipValue depth)) '}' (members ms ++ t) = some (ms, t) := by
  cases ms with
  | nil =>
    show readItems _ _ ('}' :: t) = _
    rw [readItems, skipSpace_cons (by decide)]
    rfl
  | cons m ms =>
    have hhead : ∃ rest, members (m :: ms) ++ t = '"' :: rest := by
      cases ms with
      | nil => exact ⟨_, rfl⟩
      | cons m' ms => exact ⟨_, rfl⟩
    have hread : readList (readMember (skipValue depth)) '}' (members (m :: ms) ++ t).length
        (members (m :: ms) ++ t) = some (m :: ms, t) := by
      refine readList_members hms (cons_ne_nil m ms) ?_ t
      have hle := length_le_members (m :: ms)
      rw [length_append]
      omega
    obtain ⟨rest, hrest⟩ := hhead
    rw [hrest] at hread ⊢
    rw [readItems, skipSpace_cons (by decide), hread]
    rfl

/-- **Objects of values are values.** -/
theorem value_object (hms : ∀ m ∈ ms, Value depth m.2) : Value (depth + 1) (object ms) where
  skipSpace_append _ := skipSpace_cons (by decide) _
  skipValue_append t _ := by
    rw [object, cons_append, skipValue, skipSpace_cons (by decide)]
    simp only [if_neg (show '{' ≠ '"' by decide), if_true, readItems_members hms, Option.map_some]

/-- **An object is read back.** -/
theorem readObject_object (hms : ∀ m ∈ ms, Value maxNestingDepth m.2) :
    readObject (object ms) = some ms := by
  have hread := readItems_members hms []
  rw [append_nil] at hread
  rw [object, readObject, skipSpace_cons (by decide)]
  simp only [hread]
  rfl

/-! ### Structs -/

/-- How the values of a type are written and read; `null` may leave a value as it is. -/
structure Scalar (γ : Type) where
  write : γ → List Char
  read : List Char → Option γ
  null : γ → γ
  read_write : ∀ x, read (write x) = some x
  write_ne_null : ∀ x, write x ≠ "null".toList
  value_write : ∀ depth x, Value (depth + 1) (write x)

namespace Scalar

theorem quote_ne_null (s : List Char) : quote s ≠ "null".toList := fun h =>
  absurd (cons.inj h).1 (by decide)

theorem writeInt_ne_null (i : ℤ) : writeInt i ≠ "null".toList := by
  cases i with
  | ofNat n =>
    obtain ⟨c, t, hn, hc, -⟩ := toDigits_eq_cons n
    rw [writeInt, hn]
    exact fun h => ne_of_isDigit hc (by decide) (cons.inj h).1
  | negSucc n => exact fun h => absurd (cons.inj h).1 (by decide)

/-- A string literal. -/
def literal (t : List Char) : Option (List Char) :=
  if t.head? = some '"' then (readString t.tail).map Prod.fst else none

theorem literal_quote (s : List Char) : literal (quote s) = some s := by
  rw [literal, quote, if_pos (head?_cons ..), tail_cons, readString_quote]
  rfl

def string : Scalar (List Char) :=
  ⟨quote, literal, id, literal_quote, quote_ne_null, fun _ => value_quote⟩

/-- A number out of range is an error. -/
def int64 : Scalar Int64 where
  write i := writeInt i.toInt
  read t := (readInt t).bind fun i => if -2 ^ 63 ≤ i ∧ i < 2 ^ 63 then some (.ofInt i) else none
  null := id
  read_write i := by
    rw [readInt_writeInt, Option.bind_some, if_pos ⟨i.le_toInt, i.toInt_lt⟩, Int64.ofInt_toInt]
  write_ne_null _ := writeInt_ne_null _
  value_write _ _ := value_writeInt _

def uint64 : Scalar UInt64 where
  write n := writeInt n.toNat
  read t := (readNat t).bind fun n => if n < 2 ^ 64 then some (.ofNat n) else none
  null := id
  read_write n := by
    rw [show writeInt n.toNat = Nat.toDigits 10 n.toNat from rfl, readNat_toDigits, Option.bind_some,
      if_pos n.toNat_lt, UInt64.ofNat_toNat]
  write_ne_null _ := writeInt_ne_null _
  value_write _ _ := value_writeInt _

/-- The type `[]byte`, in base 64; an array of numbers is not considered. -/
def bytes : Scalar (List UInt8) where
  write b := quote (Base64.encode b)
  read t := (literal t).bind Base64.decode
  null _ := []
  read_write b := by rw [literal_quote, Option.bind_some, Base64.decode_encode]
  write_ne_null _ := quote_ne_null _
  value_write _ _ := value_quote _

end Scalar

/-- A field of a struct: its key, the text that is written for it, if any, and how a text is
read. -/
structure Field (β : Type) where
  name : String
  write : β → Option (List Char)
  read : β → List Char → Option β

namespace Field

variable {β γ : Type} {p q : β} {fld : Field β}

def member (p : β) (fld : Field β) : Option (List Char × List Char) :=
  (fld.write p).map fun t => (fld.name.toList, t)

/-- `q` with this field as it is written for `p`. -/
def copy (p q : β) (fld : Field β) : Option β := (fld.write p).elim (some q) (fld.read q)

/-- What the field writes for `p` is a value. -/
def Writes (p : β) (depth : ℕ) (fld : Field β) : Prop := ∀ t ∈ fld.write p, Value depth t

/-- A field of a scalar type. -/
def of (scalar : Scalar γ) (name : String) (get : β → γ) (set : β → γ → β) : Field β where
  name
  write p := some (scalar.write (get p))
  read q t :=
    if t = "null".toList then some (set q (scalar.null (get q))) else (scalar.read t).map (set q)

/-- A field of type `json.RawMessage`, whose text is kept. -/
def raw (name : String) (get : β → List Char) (set : β → List Char → β) : Field β :=
  ⟨name, fun p => some (get p), fun q t => some (set q t)⟩

/-- The option `omitempty`. -/
def omitEmpty (empty : β → Bool) (fld : Field β) : Field β :=
  { fld with write p := if empty p then none else fld.write p }

@[simp] theorem copy_of (scalar : Scalar γ) (name : String) (get : β → γ) (set : β → γ → β) :
    (of scalar name get set).copy p q = some (set q (get p)) := by
  show (if _ then _ else _) = _
  rw [if_neg (scalar.write_ne_null _), scalar.read_write, Option.map_some]

@[simp] theorem copy_raw (name : String) (get : β → List Char) (set : β → List Char → β) :
    (raw name get set).copy p q = some (set q (get p)) := rfl

@[simp] theorem copy_omitEmpty (empty : β → Bool) :
    (fld.omitEmpty empty).copy p q = if empty p then some q else fld.copy p q := by
  simp only [copy, omitEmpty]
  split_ifs <;> rfl

theorem writes_of {scalar : Scalar γ} {name : String} {get : β → γ} {set : β → γ → β} :
    (of scalar name get set).Writes p (depth + 1) := by
  rintro t ⟨⟩
  exact scalar.value_write _ _

theorem Writes.omitEmpty (h : fld.Writes p depth) {empty : β → Bool} :
    (fld.omitEmpty empty).Writes p depth := by
  intro t ht
  simp only [Field.omitEmpty] at ht
  split_ifs at ht
  · cases ht
  · exact h t ht

end Field

/-- Keys are compared without regard to case; two characters outside ASCII fold to letters. -/
def isKey (name : String) (key : List Char) : Bool :=
  key.map (fun c => if c.toNat = 0x17F then 's' else if c.toNat = 0x212A then 'k' else c.toLower) =
    name.toList

/-- No name is the key of an earlier field. -/
def Keys (names : List String) : Prop :=
  names.Pairwise (fun a b => isKey a b.toList = false) ∧ ∀ a ∈ names, isKey a a.toList = true

instance (names : List String) : Decidable (Keys names) := by
  unfold Keys
  infer_instance

/-- `json.Marshal` and `json.Unmarshal` for a struct: its fields, which give back what they
write. -/
structure Codec (β : Type) where
  zero : β
  fields : List (Field β)
  keys : Keys (fields.map Field.name)
  copy_eq : ∀ p, fields.foldlM (fun q fld => fld.copy p q) zero = some p

namespace Codec

variable {β : Type} (codec : Codec β)

/-- The text of a value. -/
def marshal (p : β) : List Char :=
  object (codec.fields.filterMap fun fld => fld.member p)

/-- A member without a field is passed over. -/
def assign (p : β) (m : List Char × List Char) : Option β :=
  match codec.fields.find? fun fld => isKey fld.name m.1 with
  | none => some p
  | some fld => fld.read p m.2

/-- The value of a text. -/
def unmarshal (t : List Char) : Option β :=
  (readObject t).bind fun ms => ms.foldlM codec.assign codec.zero

/-- The text of every field is a value. -/
def Writes (depth : ℕ) (p : β) : Prop := ∀ fld ∈ codec.fields, fld.Writes p depth

variable {codec} {p : β}

theorem assign_name {fld : Field β} (h : fld ∈ codec.fields) (q : β) (t : List Char) :
    codec.assign q (fld.name.toList, t) = fld.read q t := by
  obtain ⟨hpair, hself⟩ := codec.keys
  obtain ⟨before, after, hsplit⟩ := append_of_mem h
  have hfind : codec.fields.find? (fun f => isKey f.name fld.name.toList) = some fld := by
    rw [hsplit, map_append, map_cons, pairwise_append] at hpair
    rw [hsplit, find?_append, find?_eq_none.2, Option.none_or, find?_cons,
      hself _ (mem_map_of_mem h)]
    intro f hf
    rw [hpair.2.2 _ (mem_map_of_mem hf) _ mem_cons_self]
    decide
  unfold assign
  rw [hfind]

theorem value_member (h : codec.Writes depth p) :
    ∀ m ∈ codec.fields.filterMap fun fld => fld.member p, Value depth m.2 := by
  intro m hm
  obtain ⟨fld, hfld, heq⟩ := mem_filterMap.1 hm
  obtain ⟨t, ht, rfl⟩ := Option.map_eq_some_iff.1 heq
  exact h fld hfld t ht

theorem value_marshal (h : codec.Writes depth p) : Value (depth + 1) (codec.marshal p) :=
  value_object (value_member h)

theorem foldlM_member {fields : List (Field β)} (hmem : ∀ fld ∈ fields, fld ∈ codec.fields) (q : β) :
    (fields.filterMap fun fld => fld.member p).foldlM codec.assign q =
      fields.foldlM (fun q fld => fld.copy p q) q := by
  induction fields generalizing q with
  | nil => rfl
  | cons fld fields ih =>
    obtain ⟨hfld, hmem⟩ := forall_mem_cons.1 hmem
    rw [foldlM_cons, filterMap_cons, Field.member, Field.copy]
    cases fld.write p with
    | none => exact ih hmem q
    | some t =>
      rw [Option.map_some, foldlM_cons, assign_name hfld]
      exact congrArg _ (funext (ih hmem))

/-- **A struct is read back.** -/
theorem unmarshal_marshal (h : codec.Writes maxNestingDepth p) :
    codec.unmarshal (codec.marshal p) = some p := by
  rw [unmarshal, marshal, readObject_object (value_member h), Option.bind_some,
    foldlM_member fun _ => id, codec.copy_eq]

end Codec

end Json
