import Mathlib.Data.List.Basic

/-!
# Base 64 with padding

Three bytes are written as four characters of the alphabet of letters, digits, `+` and `/`; a last
part of one or two bytes is filled up with `=`.  The decoder skips the ends of lines and does not
look at the bits that belong to no byte.
-/

namespace Base64

/-- The character of six bits. -/
def char (d : ℕ) : Char :=
  if d < 26 then Char.ofNat (65 + d)
  else if d < 52 then Char.ofNat (71 + d)
  else if d < 62 then Char.ofNat (d - 4)
  else if d = 62 then '+' else '/'

/-- The six bits of a character. -/
def index (c : Char) : Option ℕ :=
  if 65 ≤ c.toNat ∧ c.toNat ≤ 90 then some (c.toNat - 65)
  else if 97 ≤ c.toNat ∧ c.toNat ≤ 122 then some (c.toNat - 71)
  else if 48 ≤ c.toNat ∧ c.toNat ≤ 57 then some (c.toNat + 4)
  else if c = '+' then some 62
  else if c = '/' then some 63
  else none

theorem index_char {d : ℕ} (hd : d < 64) : index (char d) = some d := by
  have hall : ∀ d < 64, index (char d) = some d := by decide
  exact hall d hd

/-- The end of a line, which the decoder skips. -/
def isNewline (c : Char) : Bool := c = '\r' || c = '\n'

theorem isNewline_char (d : ℕ) : isNewline (char d) = false ∧ char d ≠ '=' := by
  have hall : ∀ d < 64, isNewline (char d) = false ∧ char d ≠ '=' := by decide
  by_cases hd : d < 64
  · exact hall d hd
  · have hlast : char d = '/' := by
      unfold char
      rw [if_neg (by omega), if_neg (by omega), if_neg (by omega), if_neg (by omega)]
    rw [hlast]
    decide

/-- `EncodeToString`. -/
def encode : List UInt8 → List Char
  | [] => []
  | [x] => [char (x.toNat / 4), char (x.toNat % 4 * 16), '=', '=']
  | [x, y] => [char (x.toNat / 4), char (x.toNat % 4 * 16 + y.toNat / 16),
      char (y.toNat % 16 * 4), '=']
  | x :: y :: z :: bs =>
    char (x.toNat / 4) :: char (x.toNat % 4 * 16 + y.toNat / 16) ::
      char (y.toNat % 16 * 4 + z.toNat / 64) :: char (z.toNat % 64) :: encode bs

/-- The bytes of groups of four characters. -/
def ofGroups : List Char → Option (List UInt8)
  | [] => some []
  | a :: b :: c :: d :: rest => do
    let x ← index a
    let y ← index b
    let first := UInt8.ofNat (x * 4 + y / 16)
    if c = '=' then if d = '=' ∧ rest = [] then some [first] else none
    else do
      let z ← index c
      let second := UInt8.ofNat (y % 16 * 16 + z / 4)
      if d = '=' then if rest = [] then some [first, second] else none
      else do
        let w ← index d
        (ofGroups rest).map fun bs => first :: second :: UInt8.ofNat (z % 4 * 64 + w) :: bs
  | _ => none

/-- `DecodeString`. -/
def decode (s : List Char) : Option (List UInt8) := ofGroups (s.filter fun c => !isNewline c)

theorem eq_ofNat {n : ℕ} {x : UInt8} (h : n = x.toNat) : UInt8.ofNat n = x := by
  rw [h, UInt8.ofNat_toNat]

theorem ofGroups_encode (bs : List UInt8) : ofGroups (encode bs) = some bs := by
  induction bs using encode.induct with
  | case1 => rfl
  | case2 x =>
    have hx := x.toNat_lt
    rw [encode, ofGroups, index_char (by omega), index_char (by omega)]
    simp only [Option.bind_eq_bind, Option.bind_some, if_true, and_self]
    rw [@eq_ofNat _ x (by omega)]
  | case3 x y =>
    have hx := x.toNat_lt
    have hy := y.toNat_lt
    rw [encode, ofGroups, index_char (by omega), index_char (by omega), index_char (by omega)]
    simp only [Option.bind_eq_bind, Option.bind_some, if_true,
      if_neg (isNewline_char (y.toNat % 16 * 4)).2]
    rw [@eq_ofNat _ x (by omega), @eq_ofNat _ y (by omega)]
  | case4 x y z bs ih =>
    have hx := x.toNat_lt
    have hy := y.toNat_lt
    have hz := z.toNat_lt
    rw [encode, ofGroups, index_char (by omega), index_char (by omega), index_char (by omega),
      index_char (by omega), ih]
    simp only [Option.bind_eq_bind, Option.bind_some, Option.map_some,
      if_neg (isNewline_char (y.toNat % 16 * 4 + z.toNat / 64)).2,
      if_neg (isNewline_char (z.toNat % 64)).2]
    rw [@eq_ofNat _ x (by omega), @eq_ofNat _ y (by omega), @eq_ofNat _ z (by omega)]

theorem isNewline_of_mem_encode (bs : List UInt8) : ∀ c ∈ encode bs, isNewline c = false := by
  have hpad : isNewline '=' = false := by decide
  have hchar := fun d => (isNewline_char d).1
  induction bs using encode.induct with
  | case1 => exact List.forall_mem_nil _
  | case2 x => simp [encode, hchar, hpad]
  | case3 x y => simp [encode, hchar, hpad]
  | case4 x y z bs ih => simpa [encode, hchar] using ih

/-- **Round trip**. -/
theorem decode_encode (bs : List UInt8) : decode (encode bs) = some bs := by
  rw [decode, List.filter_eq_self.2 fun c hc => by rw [isNewline_of_mem_encode bs c hc]; rfl,
    ofGroups_encode]

end Base64
