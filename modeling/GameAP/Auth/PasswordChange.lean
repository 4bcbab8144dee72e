import GameAP.Auth.Session
import GameAP.Lib.Calendar

/-!
# The cutoff of a password change

The moment of a password change is kept in the metadata of the user as an RFC 3339 text, without a
fraction of a second, and session tokens issued and personal access tokens created before it are
rejected.

* The text of an instant reads back as the instant cut to the second if its year has four digits;
  otherwise it does not read back and there is no cutoff (`passwordChangedAt_setPasswordChangedAt`).
* `password_change_cutoff` is the comparison with the instant that was passed in.  A credential of
  the same second, made before the change, passes (`same_second_passes`).
-/

namespace GameAP

open Calendar

/-- The whole seconds of an instant, `t.Unix()` on another epoch. -/
def Instant.seconds (t : Instant) : ℤ := t / 1000000000

/-- The year of the instant in UTC. -/
def Instant.year (t : Instant) : ℤ := (dateOf (Instant.seconds t / 86400)).year

/-- The year is written with four digits. -/
def Instant.FourDigitYear (t : Instant) : Prop := 0 ≤ Instant.year t ∧ Instant.year t ≤ 9999

instance (t : Instant) : Decidable (Instant.FourDigitYear t) :=
  inferInstanceAs (Decidable (_ ∧ _))

/-! ### The metadata -/

namespace User

def metadataTime (u : User) (key : String) : Option Instant :=
  match u.metadata with
  | none => none
  | some bag =>
    match bag.lookup key with
    | some (.str text) => parseRFC3339 text
    | _ => none

def setMetadataTime (u : User) (key : String) : Option Instant → User
  | none => { u with metadata := u.metadata.map (·.filter (·.1 ≠ key)) }
  | some t => { u with
      metadata := some ((key, .str (formatRFC3339 (Instant.seconds t))) ::
        (u.metadata.getD []).filter (·.1 ≠ key)) }

def passwordChangedAt (u : User) : Option Instant := u.metadataTime "password_changed_at"

def setPasswordChangedAt (u : User) (t : Option Instant) : User :=
  u.setMetadataTime "password_changed_at" t

end User

/-! ### The checks of the middleware -/

/-- `auth.Claims`, as far as the cutoff reads them: what `GetIssuedAt` returns. -/
structure Claims where
  issuedAt : Except String (Option Instant)

def rejectIfIssuedBeforePasswordChange (user : User) (claims : Claims) : Except AuthError Unit :=
  match user.passwordChangedAt with
  | none => .ok ()
  | some cutoff =>
    match claims.issuedAt with
    | .ok (some issuedAt) => if issuedAt < cutoff then .error .invalidOrExpiredToken else .ok ()
    | _ => .ok ()

def rejectPATIfCreatedBeforePasswordChange (user : User) (token : PersonalAccessToken) :
    Except AuthError Unit :=
  match user.passwordChangedAt, token.createdAt with
  | some cutoff, some createdAt => if createdAt < cutoff then .error .invalidPAT else .ok ()
  | _, _ => .ok ()

/-! ### What is read back -/

open Instant

namespace User

theorem passwordChangedAt_setPasswordChangedAt (u : User) (t : Instant) :
    (u.setPasswordChangedAt (some t)).passwordChangedAt =
      if Instant.FourDigitYear t then some (seconds t * 1000000000) else none := by
  simp only [setPasswordChangedAt, passwordChangedAt, setMetadataTime, metadataTime,
    List.lookup_cons, beq_self_eq_true]
  split_ifs with ht
  · exact parse_format ht.1 ht.2
  · exact parse_format_eq_none ht

end User

/-! ### The cutoff -/

/-- What both checks reject after a change at `t`: a credential of an earlier second, if the year of
the change has four digits. -/
def Cut (t s : Instant) : Prop := Instant.FourDigitYear t ∧ Instant.seconds s < Instant.seconds t

instance (t s : Instant) : Decidable (Cut t s) := inferInstanceAs (Decidable (_ ∧ _))

section Cutoff

variable (u : User) {claims : Claims} {token : PersonalAccessToken} {s t : Instant}

theorem lt_cutoff_iff (s t : Instant) : s < seconds t * 1000000000 ↔ seconds s < seconds t :=
  (Int.ediv_lt_iff_lt_mul (by decide)).symm

theorem Instant.seconds_mono (h : s ≤ t) : seconds s ≤ seconds t := Int.ediv_le_ediv (by decide) h

theorem rejectIfIssued_change (hs : claims.issuedAt = .ok (some s)) :
    rejectIfIssuedBeforePasswordChange (u.setPasswordChangedAt (some t)) claims =
      if Cut t s then .error .invalidOrExpiredToken else .ok () := by
  rw [rejectIfIssuedBeforePasswordChange, u.passwordChangedAt_setPasswordChangedAt]
  by_cases ht : Instant.FourDigitYear t
  · simp only [ht, if_true, hs, lt_cutoff_iff, Cut, true_and]
  · simp only [ht, if_false, Cut, false_and]

theorem rejectPAT_change (hs : token.createdAt = some s) :
    rejectPATIfCreatedBeforePasswordChange (u.setPasswordChangedAt (some t)) token =
      if Cut t s then .error .invalidPAT else .ok () := by
  rw [rejectPATIfCreatedBeforePasswordChange, u.passwordChangedAt_setPasswordChangedAt]
  by_cases ht : Instant.FourDigitYear t
  · simp only [ht, if_true, hs, lt_cutoff_iff, Cut, true_and]
  · simp only [ht, if_false, Cut, false_and]

end Cutoff

/-- Both checks tell the credentials before the change from the later ones, except for one of the
same second, or if the year of the change has not four digits.  A later change rejects what an
earlier one rejected. -/
theorem password_change_cutoff (u : User) (t s : Instant) (claims : Claims)
    (token : PersonalAccessToken) (hclaims : claims.issuedAt = .ok (some s))
    (htoken : token.createdAt = some s) :
    ((s < t → rejectIfIssuedBeforePasswordChange (u.setPasswordChangedAt (some t)) claims =
            .error .invalidOrExpiredToken ∧
          rejectPATIfCreatedBeforePasswordChange (u.setPasswordChangedAt (some t)) token =
            .error .invalidPAT) ↔
      (s < t → Instant.seconds s ≠ Instant.seconds t ∧ Instant.FourDigitYear t)) ∧
    (t ≤ s → rejectIfIssuedBeforePasswordChange (u.setPasswordChangedAt (some t)) claims = .ok () ∧
        rejectPATIfCreatedBeforePasswordChange (u.setPasswordChangedAt (some t)) token = .ok ()) ∧
    ∀ (v : User) (t' : Instant), t ≤ t' →
      (((rejectIfIssuedBeforePasswordChange (v.setPasswordChangedAt (some t')) claims = .ok () →
          rejectIfIssuedBeforePasswordChange (u.setPasswordChangedAt (some t)) claims = .ok ()) ∧
        (rejectPATIfCreatedBeforePasswordChange (v.setPasswordChangedAt (some t')) token = .ok () →
          rejectPATIfCreatedBeforePasswordChange (u.setPasswordChangedAt (some t)) token =
            .ok ())) ↔
        (Cut t s → Instant.FourDigitYear t')) := by
  simp only [rejectIfIssued_change _ hclaims, rejectPAT_change _ htoken]
  refine ⟨forall_congr' fun hlt => ?_, fun hle => ?_, fun v t' hle => ?_⟩
  · have hcut : Cut t s ↔ Instant.seconds s ≠ Instant.seconds t ∧ Instant.FourDigitYear t := by
      have hmono := Instant.seconds_mono hlt.le
      rw [Cut, and_comm, lt_iff_le_and_ne, and_iff_right hmono]
    rw [← hcut]
    by_cases h : Cut t s <;> simp [h]
  · have hcut : ¬ Cut t s := fun h => h.2.not_ge (Instant.seconds_mono hle)
    exact ⟨if_neg hcut, if_neg hcut⟩
  · -- what the earlier change rejects lies before the later one too
    have hcut : Cut t s → (Instant.FourDigitYear t' ↔ Cut t' s) := fun h =>
      (and_iff_left (h.2.trans_le (Instant.seconds_mono hle))).symm
    by_cases h : Cut t s
    · rw [forall_prop_of_true h, hcut h]
      by_cases h' : Cut t' s <;> simp [h, h']
    · simp [h]

/-- A token of 7:59:59 and a change at half a second past 8:00:00. -/
theorem password_change_cutoff_half_past : rejectIfIssuedBeforePasswordChange
        (User.setPasswordChangedAt ⟨1, "", "", false, none, none, none, none⟩
          (some 63900000000500000000)) ⟨.ok (some 63899999999000000000)⟩ =
      .error .invalidOrExpiredToken :=
  ((password_change_cutoff _ 63900000000500000000 63899999999000000000 ⟨.ok (some _)⟩
    ⟨1, .user, 1, "", none, some 63899999999000000000⟩ rfl rfl).1.2 (by decide) (by decide)).1

/-- A token of the same second, made 0.4 seconds before the change, passes, and so does every token
after a change in the year 10000, whose text is not read back. -/
theorem same_second_passes : rejectIfIssuedBeforePasswordChange
        (User.setPasswordChangedAt ⟨1, "", "", false, none, none, none, none⟩
          (some 63900000000500000000)) ⟨.ok (some 63900000000100000000)⟩ = .ok () ∧
      rejectPATIfCreatedBeforePasswordChange
        (User.setPasswordChangedAt ⟨1, "", "", false, none, none, none, none⟩
          (some 63900000000500000000)) ⟨1, .user, 1, "", none, some 63900000000100000000⟩ = .ok () ∧
      User.passwordChangedAt (User.setPasswordChangedAt ⟨1, "", "", false, none, none, none, none⟩
        (some (3652059 * 86400 * 1000000000))) = none := by
  refine ⟨?_, ?_, ?_⟩
  · rfl
  · rfl
  · decide

end GameAP
