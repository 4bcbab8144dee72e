import GameAP.Auth.Session
import GameAP.Lib.Decimal

/-!
# Bearer strings

Where the middleware and the logout handler find the token of a request, which kind of token the
middleware takes it for, and how it reads a personal access token, `13|secret`.

* The two look for the token in the same places (`extractBearerToken_eq`), although the one compares
  the scheme in lower case and the other under case folding.
* A personal access token has many strings: leading zeros of its number are read over.
-/

namespace GameAP

/-! ### Where the token is -/

/-- The parts of a request that may hold a token. -/
structure AuthRequest where
  authorization : String := ""
  query : String := ""
  cookie : Option String := none
  deriving DecidableEq

/-- Where a token was found. -/
inductive TokenSource
  | unknown
  | header
  | query
  | cookie
  deriving DecidableEq

/-- Case folding of `strings.EqualFold`, as far as it leads to ASCII: two letters outside ASCII are
folded with `k` and `s`. -/
def foldRune (c : Char) : Char :=
  if c = '\u212A' then 'k' else if c = '\u017F' then 's' else c.toLower

namespace AuthRequest

variable (r : AuthRequest)

/-- The second of two parts of the header, if the first one is the scheme.  An empty header is one
part. -/
def bearer (isBearer : List Char → Bool) : Option String :=
  match r.authorization.toList.splitOn ' ' with
  | [scheme, token] => if isBearer scheme then some (String.ofList token) else none
  | _ => none

/-- The token of the query or of the cookie. -/
def fallback : String × TokenSource :=
  if r.query ≠ "" then (r.query, .query)
  else
    match r.cookie with
    | some value => if value ≠ "" then (value, .cookie) else ("", .unknown)
    | none => ("", .unknown)

/-- `extractToken` of the middleware. -/
def extractToken : String × TokenSource :=
  match r.bearer fun scheme => scheme.map lowerRune = "bearer".toList with
  | some token => (token, .header)
  | none => r.fallback

/-- `extractBearerToken` of the logout handler. -/
def extractBearerToken : String :=
  match r.bearer fun scheme => scheme.map foldRune = "bearer".toList.map foldRune with
  | some token => token
  | none => r.fallback.1

end AuthRequest

/-- The two ways to compare a letter differ on three letters outside ASCII, none of which folds to
a letter of the scheme. -/
theorem lowerRune_eq_iff (c x : Char) (hx : x ∈ "bearer".toList) :
    lowerRune c = x ↔ foldRune c = x := by
  have hcases : x = 'b' ∨ x = 'e' ∨ x = 'a' ∨ x = 'r' := by
    simp at hx
    tauto
  unfold lowerRune foldRune
  by_cases hk : c = '\u212A'
  · simp [hk]
  · by_cases hi : c = '\u0130'
    · subst hi
      rcases hcases with rfl | rfl | rfl | rfl <;> decide
    · by_cases hs : c = '\u017F'
      · subst hs
        rcases hcases with rfl | rfl | rfl | rfl <;> decide
      · simp [hk, hi, hs]

theorem map_eq_iff_map_eq {f g : Char → Char} {xs : List Char}
    (h : ∀ c, ∀ x ∈ xs, f c = x ↔ g c = x) (cs : List Char) : cs.map f = xs ↔ cs.map g = xs := by
  induction cs generalizing xs with
  | nil => rfl
  | cons c cs ih =>
    cases xs with
    | nil => simp
    | cons x xs =>
      rw [List.map_cons, List.map_cons, List.cons_eq_cons, List.cons_eq_cons,
        h c x (List.mem_cons_self ..), ih fun c y hy => h c y (List.mem_cons_of_mem x hy)]

theorem AuthRequest.extractBearerToken_eq (r : AuthRequest) :
    r.extractBearerToken = r.extractToken.1 := by
  have hfold : "bearer".toList.map foldRune = "bearer".toList := by decide
  have hscheme : (fun scheme : List Char => decide (scheme.map lowerRune = "bearer".toList)) =
      fun scheme => decide (scheme.map foldRune = "bearer".toList.map foldRune) := by
    funext scheme
    exact decide_eq_decide.2 (map_eq_iff_map_eq lowerRune_eq_iff scheme)
  unfold extractBearerToken extractToken
  rw [hscheme]
  cases r.bearer fun scheme => decide (scheme.map foldRune = "bearer".toList.map foldRune) <;> rfl

/-! ### What kind of token it is -/

/-- The kinds of tokens. -/
inductive TokenType
  | unknown
  | personalAccess
  | userAuth
  | shortLived
  deriving DecidableEq

def sourceAllowsTokenType (source : TokenSource) (kind : TokenType) : Bool :=
  if kind = .unknown then true
  else
    match source with
    | .header => true
    | .query => kind = .shortLived
    | .cookie => kind = .userAuth || kind = .shortLived
    | .unknown => false

/-- `strings.IsNumeric` of the project. -/
def isNumeric (cs : List Char) : Bool := cs ≠ [] && cs.all Char.isDigit

/-- What stands before the first `|`. -/
def idPart (token : List Char) : List Char := token.takeWhile (· ≠ '|')

/-- What stands after the first `|`. -/
def tokenPart (token : List Char) : List Char := (token.dropWhile (· ≠ '|')).tail

/-- `cache` is whether the middleware has a cache for short-lived tokens. -/
def detectTokenType (cache : Bool) (token : String) : TokenType :=
  if cache && hasPrefix token "glst_" then .shortLived
  else if hasPrefix token "v4.local." || hasPrefix token "v4.public." || hasPrefix token "eyJ" then
    .userAuth
  else if token.toList.any (· = '|') && isNumeric (idPart token.toList) then .personalAccess
  else .unknown

/-! ### Personal access tokens -/

/-- Whether a numeral is negative, and what follows its sign. -/
def splitSign : List Char → Bool × List Char
  | '-' :: ds => (true, ds)
  | '+' :: ds => (false, ds)
  | ds => (false, ds)

/-- `strconv.Atoi` on a machine with 64 bits. -/
def atoi (cs : List Char) : Option ℤ :=
  let digits := (splitSign cs).2
  if !isNumeric digits then none
  else
    let n := Nat.ofDigitChars 10 digits 0
    if (splitSign cs).1 then if n ≤ 2 ^ 63 then some (-n) else none
    else if n < 2 ^ 63 then some n else none

/-- The secret of a personal access token. -/
def secretOf (token : String) : String := String.ofList (tokenPart token.toList)

/-- The identifier and the secret of a token, as `processPersonalAccessToken` reads them. -/
def parsePAT (token : String) : Except AuthError (ℕ × String) :=
  if !token.toList.any (· = '|') then .error .invalidPATFormat
  else
    match atoi (idPart token.toList) with
    | none => .error .invalidPATID
    | some id =>
      if id ≤ 0 then .error .invalidPATID
      else .ok (id.toNat, secretOf token)

-- a leading zero gives another string for the same token
example : parsePAT "1|s" = .ok (1, "s") ∧ parsePAT "01|s" = .ok (1, "s") := ⟨rfl, rfl⟩

end GameAP
