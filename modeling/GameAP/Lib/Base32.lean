import Mathlib.Data.Nat.Digits.Lemmas

/-!
# Base 32 without padding

Numbers with a fixed number of digits, the most significant one first, and the encoding of bytes by
groups of five bits in the alphabet `abcdefghijklmnopqrstuvwxyz234567`.

The bits of the last group that belong to no byte are zeros.  The decoder skips the ends of lines
and does not look at those bits; a last part of one, three or six characters, which no encoder
writes, is dropped as a whole.
-/

namespace Base32

/-! ### Digits, most significant first -/

/-- The number that the digits spell in base `b`. -/
def value (b : ℕ) (ds : List ℕ) : ℕ := Nat.ofDigits b ds.reverse

/-- The `k` digits of a number below `b ^ k`. -/
def digits (b k n : ℕ) : List ℕ := (Nat.digitsAppend b k n).reverse

variable {b k n : ℕ}

open List Nat

theorem length_digits (hb : 1 < b) (hn : n < b ^ k) : (digits b k n).length = k := by
  rw [digits, length_reverse, length_digitsAppend hb k hn]

variable {d : ℕ}

theorem lt_of_mem_digits (hb : 1 < b) (hd : d ∈ digits b k n) : d < b :=
  lt_of_mem_digitsAppend hb k d (mem_reverse.1 hd)

theorem value_digits (hb : 1 < b) (hn : n < b ^ k) : value b (digits b k n) = n := by
  rw [value, digits, reverse_reverse]
  exact (setInvOn_digitsAppend_ofDigits hb k).2 hn

variable {ds : List ℕ}

theorem digits_value (hb : 1 < b) (hds : ∀ d ∈ ds, d < b) :
    digits b ds.length (value b ds) = ds := by
  have hmem : ds.reverse ∈ {L : List ℕ | L.length = ds.length ∧ ∀ x ∈ L, x < b} :=
    ⟨length_reverse, fun x hx => hds x (mem_reverse.1 hx)⟩
  rw [value, digits, (setInvOn_digitsAppend_ofDigits hb ds.length).1 hmem, reverse_reverse]

theorem value_lt (hb : 1 < b) (hds : ∀ d ∈ ds, d < b) : value b ds < b ^ ds.length := by
  rw [value, ← length_reverse]
  exact ofDigits_lt_base_pow_length hb fun x hx => hds x (mem_reverse.1 hx)

theorem value_cons (b d : ℕ) (ds : List ℕ) : value b (d :: ds) = value b ds + b ^ ds.length * d := by
  rw [value, reverse_cons, ofDigits_append, ofDigits_singleton, length_reverse, value]

/-! ### The alphabet -/

/-- The character of a digit. -/
def char (d : ℕ) : Char := if d < 26 then Char.ofNat (97 + d) else Char.ofNat (24 + d)

/-- The digit of a character. -/
def index (c : Char) : Option ℕ :=
  if 97 ≤ c.toNat ∧ c.toNat ≤ 122 then some (c.toNat - 97)
  else if 50 ≤ c.toNat ∧ c.toNat ≤ 55 then some (c.toNat - 24)
  else none

theorem index_char (hd : d < 32) : index (char d) = some d := by
  have hall : ∀ d < 32, index (char d) = some d := by decide
  exact hall d hd

theorem isDigit_char (hd : d < 32) : (char d).isDigit = decide (26 ≤ d) := by
  have hall : ∀ d < 32, (char d).isDigit = decide (26 ≤ d) := by decide
  exact hall d hd

/-- The end of a line, which the decoder skips. -/
def isNewline (c : Char) : Bool := c = '\r' || c = '\n'

theorem isNewline_char (hd : d < 32) : isNewline (char d) = false := by
  have hall : ∀ d < 32, isNewline (char d) = false := by decide
  exact hall d hd

/-! ### Bytes and groups of five bits -/

/-- The number of characters for `n` bytes. -/
def encodedLen (n : ℕ) : ℕ := (8 * n + 4) / 5

/-- The number of bytes in `k` characters. -/
def decodedLen (k : ℕ) : ℕ :=
  5 * (k / 8) + match k % 8 with
    | 2 => 1
    | 4 => 2
    | 5 => 3
    | 7 => 4
    | _ => 0

/-- The bits of the bytes in groups of five, filled up with zeros. -/
def groups (bs : List ℕ) : List ℕ :=
  let k := encodedLen bs.length
  digits 32 k (value 256 bs * 2 ^ (5 * k - 8 * bs.length))

/-- `EncodeToString`. -/
def encode (bs : List ℕ) : String := String.ofList ((groups bs).map char)

/-- The bytes of groups of five bits. -/
def ofGroups (ds : List ℕ) : List ℕ :=
  let k := if ds.length % 8 ∈ [1, 3, 6] then ds.length / 8 * 8 else ds.length
  let n := decodedLen ds.length
  digits 256 n (value 32 (ds.take k) / 2 ^ (5 * k - 8 * n))

/-- `DecodeString`; `none` when a character is not in the alphabet. -/
def decode (s : String) : Option (List ℕ) :=
  ((s.toList.filter fun c => !isNewline c).mapM index).map ofGroups

theorem encodedLen_mod_div (n : ℕ) :
    encodedLen n / 8 = n / 5 ∧ encodedLen n % 8 = encodedLen (n % 5) := by
  have hr : n % 5 = 0 ∨ n % 5 = 1 ∨ n % 5 = 2 ∨ n % 5 = 3 ∨ n % 5 = 4 := by omega
  unfold encodedLen
  rcases hr with h | h | h | h | h <;> rw [h] <;> omega

theorem decodedLen_encodedLen (n : ℕ) : decodedLen (encodedLen n) = n := by
  obtain ⟨hdiv, hmod⟩ := encodedLen_mod_div n
  have hn : 5 * (n / 5) + n % 5 = n := div_add_mod n 5
  have hr : n % 5 < 5 := mod_lt n (by decide)
  have htail : ∀ r < 5, (match encodedLen r with
      | 2 => 1
      | 4 => 2
      | 5 => 3
      | 7 => 4
      | _ => 0) = r := by decide
  rw [decodedLen, hdiv, hmod, htail _ hr, hn]

theorem encodedLen_mod_notMem (n : ℕ) : encodedLen n % 8 ∉ [1, 3, 6] := by
  have hall : ∀ r < 5, encodedLen r ∉ [1, 3, 6] := by decide
  rw [(encodedLen_mod_div n).2]
  exact hall _ (mod_lt n (by decide))

theorem le_encodedLen (n : ℕ) : 8 * n ≤ 5 * encodedLen n := by
  unfold encodedLen
  omega

variable {bs : List ℕ}

theorem shifted_lt (hbs : ∀ b ∈ bs, b < 256) :
    value 256 bs * 2 ^ (5 * encodedLen bs.length - 8 * bs.length) < 32 ^ encodedLen bs.length := by
  have hlt : value 256 bs < 256 ^ bs.length := value_lt (by decide) hbs
  have hpow : (256 : ℕ) ^ bs.length * 2 ^ (5 * encodedLen bs.length - 8 * bs.length) =
      32 ^ encodedLen bs.length := by
    rw [show (256 : ℕ) = 2 ^ 8 from rfl, show (32 : ℕ) = 2 ^ 5 from rfl, ← pow_mul, ← pow_mul,
      ← pow_add, Nat.add_sub_cancel' (le_encodedLen _)]
  rw [← hpow]
  exact mul_lt_mul_of_pos_right hlt (Nat.two_pow_pos _)

theorem length_groups (hbs : ∀ b ∈ bs, b < 256) : (groups bs).length = encodedLen bs.length :=
  length_digits (by decide) (shifted_lt hbs)

theorem lt_of_mem_groups (hd : d ∈ groups bs) : d < 32 := lt_of_mem_digits (by decide) hd

theorem value_groups (hbs : ∀ b ∈ bs, b < 256) : value 32 (groups bs) =
    value 256 bs * 2 ^ (5 * encodedLen bs.length - 8 * bs.length) :=
  value_digits (by decide) (shifted_lt hbs)

theorem ofGroups_groups (hbs : ∀ b ∈ bs, b < 256) : ofGroups (groups bs) = bs := by
  have hlen := length_groups hbs
  rw [ofGroups, hlen, if_neg (encodedLen_mod_notMem _), decodedLen_encodedLen,
    take_of_length_le (le_of_eq hlen), value_groups hbs,
    Nat.mul_div_cancel _ (Nat.two_pow_pos _)]
  exact digits_value (by decide) hbs

theorem mapM_index_map_char (hds : ∀ d ∈ ds, d < 32) : (ds.map char).mapM index = some ds := by
  induction ds with
  | nil => rfl
  | cons d ds ih =>
    obtain ⟨hd, hds⟩ := forall_mem_cons.1 hds
    rw [map_cons, mapM_cons, index_char hd, ih hds]
    rfl

theorem toList_encode (bs : List ℕ) : (encode bs).toList = (groups bs).map char := String.toList_ofList

/-- **Round trip**. -/
theorem decode_encode (hbs : ∀ b ∈ bs, b < 256) : decode (encode bs) = some bs := by
  have hfilt : ((groups bs).map char).filter (fun c => !isNewline c) = (groups bs).map char := by
    refine filter_eq_self.2 fun c hc => ?_
    obtain ⟨d, hd, rfl⟩ := mem_map.1 hc
    rw [isNewline_char (lt_of_mem_groups hd)]
    rfl
  rw [decode, toList_encode, hfilt, mapM_index_map_char fun d hd => lt_of_mem_groups hd,
    Option.map_some, ofGroups_groups hbs]

-- the byte 215 is two groups that look like a number
example : encode [215] = "24" := by decide

end Base32
