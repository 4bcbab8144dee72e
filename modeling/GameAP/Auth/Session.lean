import GameAP.Domain
import GameAP.Files.InMemory

/-!
# Users, tokens and sessions

The rows and values that the authentication code works on: users with the state of their second
factor, personal access tokens, the sessions that the middleware builds, and its errors.
-/

namespace GameAP

/-- A `time.Time` of any year, in nanoseconds after the zero time. -/
abbrev Instant := ℤ

/-- The seconds of the Unix epoch, `now.Unix()`. -/
def Time.unix (now : Time) : ℤ := (now / 1000000000 : ℕ) - 62135596800

/-- `strings.TrimPrefix`. -/
def trimTokenPrefix (token pre : String) : String :=
  if hasPrefix token pre then String.ofList (token.toList.drop pre.length) else token

/-- One persisted, hashed recovery code. -/
structure RecoveryCode where
  hash : String
  used : Bool := false
  deriving DecidableEq

/-- The column with the recovery codes, decoded; `malformed` is a text that is not their JSON. -/
inductive RecoveryCodes
  | codes (cs : List RecoveryCode)
  | malformed
  deriving DecidableEq

/-- A value of the metadata bag of a user; `other` is any JSON value that is not a string. -/
inductive MetadataValue
  | str (s : String)
  | other
  deriving DecidableEq

/-- `domain.User`, with the columns that the modelled code reads.  The metadata is nil or maps keys
to values. -/
structure User where
  id : ℕ
  login : String := ""
  email : String := ""
  twoFactorEnabled : Bool := false
  twoFactorSecret : Option String := none
  twoFactorRecoveryCodes : Option RecoveryCodes := none
  twoFactorLastUsedStep : Option ℤ := none
  metadata : Option (List (String × MetadataValue)) := none
  deriving DecidableEq

/-- `domain.EntityType` of what a token belongs to, as far as the middleware tells them apart. -/
inductive TokenableType
  | user
  | other
  deriving DecidableEq

/-- `domain.PersonalAccessToken`, with the columns that the modelled code reads. -/
structure PersonalAccessToken where
  id : ℕ
  tokenableType : TokenableType := .other
  tokenableID : ℕ := 0
  token : String := ""
  abilities : Option (List String) := none
  createdAt : Option Instant := none
  deriving DecidableEq

/-- `auth.Session` without its random identifier.  It may be limited to a personal access token or
to the enrollment of a second factor. -/
structure AuthSession where
  user : User
  token : Option PersonalAccessToken := none
  shortLived : Bool := false
  mfaEnrollmentOnly : Bool := false
  deriving DecidableEq

/-- The errors of the authentication middleware; `internal` is an error of a repository. -/
inductive AuthError
  | missingAuthToken
  | invalidPATFormat
  | invalidPATID
  | patNotFound
  | invalidPAT
  | unsupportedPATType
  | userNotFoundForPAT
  | invalidOrExpiredToken
  | invalidShortToken
  | invalidTokenSubject
  | userNotFound
  | tokenRevoked
  | internal (message : String)
  deriving DecidableEq

end GameAP
