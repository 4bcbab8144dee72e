import Mathlib.Algebra.Ring.Nat
import Mathlib.Data.Int.Notation

/-!
# Integers with a base prefix

`parseInt` reads an integer of 64 bits as `strconv.ParseInt` with base 0 does: a sign, a prefix that
gives the base, digits of that base, and underscores that may separate digits.
-/

namespace Strconv

/-- The value of a digit or letter. -/
def digitVal (c : Char) : Option ℕ :=
  if c.isDigit then some (c.toNat - '0'.toNat)
  else if c.isAlpha then some (c.toLower.toNat - 'a'.toNat + 10)
  else none

/-- The base that a prefix gives, and what follows the prefix. -/
def splitBase : List Char → ℕ × List Char
  | '0' :: b :: c :: cs =>
    if b.toLower = 'b' then (2, c :: cs)
    else if b.toLower = 'o' then (8, c :: cs)
    else if b.toLower = 'x' then (16, c :: cs)
    else (8, b :: c :: cs)
  | '0' :: cs => (8, cs)
  | cs => (10, cs)

/-- The number that the digits spell; underscores are passed over. -/
def readDigits (base : ℕ) : ℕ → List Char → Option ℕ
  | n, [] => some n
  | n, c :: cs =>
    if c = '_' then readDigits base n cs
    else match digitVal c with
      | some d => if d < base then readDigits base (n * base + d) cs else none
      | none => none

/-- What stands before a character: `^` for the beginning, `0` for a digit, `_`, or `!`. -/
def underscoresFrom (hex : Bool) : Char → List Char → Bool
  | saw, [] => saw ≠ '_'
  | saw, c :: cs =>
    if c.isDigit || hex && 'a' ≤ c.toLower && c.toLower ≤ 'f' then underscoresFrom hex '0' cs
    else if c = '_' then saw = '0' && underscoresFrom hex '_' cs
    else saw ≠ '_' && underscoresFrom hex '!' cs

/-- Every underscore separates digits; a base prefix counts as a digit. -/
def underscoreOK : List Char → Bool
  | '0' :: b :: cs =>
    if b.toLower ∈ ['b', 'o', 'x'] then underscoresFrom (b.toLower = 'x') '0' cs
    else underscoresFrom false '^' ('0' :: b :: cs)
  | cs => underscoresFrom false '^' cs

/-- A number of any size without a sign. -/
def parseUint (cs : List Char) : Option ℕ :=
  if cs = [] ∨ '_' ∈ cs ∧ !underscoreOK cs then none
  else readDigits (splitBase cs).1 0 (splitBase cs).2

/-- A number of 64 bits; a number out of range is an error. -/
def parseInt (s : String) : Option ℤ :=
  match s.toList with
  | '-' :: cs => (parseUint cs).bind fun n => if n ≤ 2 ^ 63 then some (-n) else none
  | '+' :: cs => (parseUint cs).bind fun n => if n < 2 ^ 63 then some n else none
  | cs => (parseUint cs).bind fun n => if n < 2 ^ 63 then some n else none

example : ["7", "-007", "0x1F", "0b1_01", "1__0", "08", "+", "9223372036854775808"].map parseInt =
    [some 7, some (-7), some 31, some 5, none, none, none, none] := by decide

end Strconv
