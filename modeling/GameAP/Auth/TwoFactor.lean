import GameAP.Auth.Session

/-!
# The second factor

`twofactor.Manager`: time-based codes, where a step that was used is not accepted again, and
recovery codes, which are marked as used.  The cipher of the secret, the code of a step and the
comparison with a hash are parameters.

`verifyCode` is the part of `Handler.verifyCode` before the user is saved: which user row to save,
and what it says is spent (`Accepts`).
-/

namespace GameAP

/-- The parts of the manager that the rest is built on. -/
structure TwoFactorManager where
  decrypt : String → Option String
  generateCode : String → ℤ → Option String
  matchesHash : String → String → Bool

/-- What a verification has used up: a time step, or a recovery code by its position. -/
inductive Spent
  | totp (step : ℤ)
  | recovery (index : ℕ)
  deriving DecidableEq

/-- The result of `Handler.verifyCode` before it saves the user.  `failed true` is an error after
the code was found wrong for the secret. -/
inductive Verification
  | accepted (user : User) (spent : Spent)
  | wrong
  | failed (evaluated : Bool) (message : String)
  deriving DecidableEq

/-- The code was found wrong for the secret, and the handler does not count it. -/
def Verification.uncounted : Verification → Bool
  | .failed evaluated _ => evaluated
  | _ => false

def normalizeRecoveryInput (s : String) : String :=
  String.ofList ((s.toList.map lowerRune).filter fun c => ('a' ≤ c && c ≤ 'z') || c.isDigit)

/-- The codes with the one at `i` used. -/
def markUsed (cs : List RecoveryCode) (i : ℕ) : List RecoveryCode :=
  cs.modify i fun c => { c with used := true }

namespace TwoFactorManager

variable (m : TwoFactorManager)

/-- The loop of `ValidateTOTP` over the steps of the window. -/
def scanSteps (secret code : String) (lastStep : Option ℤ) : List ℤ → Except String (Option ℤ)
  | [] => .ok none
  | step :: rest =>
    if step < 0 then scanSteps secret code lastStep rest
    else if lastStep.any fun last => step ≤ last then scanSteps secret code lastStep rest
    else
      match m.generateCode secret step with
      | none => .error "failed to generate expected totp code"
      | some expected =>
        if expected = code then .ok (some step) else scanSteps secret code lastStep rest

/-- The step is there when the code is valid. -/
def validateTOTP (now : Time) (encryptedSecret code : String) (lastStep : Option ℤ) :
    Except String (Option ℤ) :=
  match m.decrypt encryptedSecret with
  | none => .error "failed to decrypt totp secret"
  | some secret =>
    let currentStep := now.unix.tdiv 30
    m.scanSteps secret code lastStep [currentStep - 1, currentStep, currentStep + 1]

/-- A code that is used comes with its position and the updated codes. -/
def consumeRecoveryCode (encoded : RecoveryCodes) (input : String) :
    Except String (Option (ℕ × List RecoveryCode)) :=
  let normalized := normalizeRecoveryInput input
  if normalized = "" then .ok none
  else
    match encoded with
    | .malformed => .error "failed to unmarshal recovery codes"
    | .codes cs =>
      match cs.findIdx? fun c => !c.used && m.matchesHash c.hash normalized with
      | none => .ok none
      | some i => .ok (some (i, markUsed cs i))

/-- `verifyCode` after the secret, or without one. -/
def verifyRecovery (user : User) (code : String) : Verification :=
  match user.twoFactorRecoveryCodes with
  | none => .wrong
  | some encoded =>
    match m.consumeRecoveryCode encoded code with
    | .error message => .failed true message
    | .ok none => .wrong
    | .ok (some (i, updated)) =>
      .accepted { user with twoFactorRecoveryCodes := some (.codes updated) } (.recovery i)

/-- `verifyCode`, up to saving the user. -/
def verifyCode (now : Time) (user : User) (code : String) : Verification :=
  match user.twoFactorSecret with
  | none => m.verifyRecovery user code
  | some secret =>
    match m.validateTOTP now secret code user.twoFactorLastUsedStep with
    | .error message => .failed false message
    | .ok (some step) => .accepted { user with twoFactorLastUsedStep := some step } (.totp step)
    | .ok none => m.verifyRecovery user code

end TwoFactorManager

/-- The row `user'` is the row `user` with something spent that was not spent before. -/
inductive Accepts (user : User) : User → Spent → Prop
  | totp {step : ℤ} (hlast : ∀ last ∈ user.twoFactorLastUsedStep, last < step) :
    Accepts user { user with twoFactorLastUsedStep := some step } (.totp step)
  | recovery {cs : List RecoveryCode} {i : ℕ} {c : RecoveryCode}
    (hcodes : user.twoFactorRecoveryCodes = some (.codes cs)) (hi : cs[i]? = some c)
    (hunused : c.used = false) :
    Accepts user { user with twoFactorRecoveryCodes := some (.codes (markUsed cs i)) } (.recovery i)

namespace TwoFactorManager

variable {m : TwoFactorManager} {code : String}

theorem lt_of_scanSteps {secret : String} {lastStep : Option ℤ} {steps : List ℤ} {step : ℤ}
    (h : m.scanSteps secret code lastStep steps = .ok (some step)) :
    ∀ last ∈ lastStep, last < step := by
  induction steps with
  | nil => simp [scanSteps] at h
  | cons first rest ih =>
    unfold scanSteps at h
    split_ifs at h with hneg hused
    · exact ih h
    · exact ih h
    · split at h
      · cases h
      · split_ifs at h
        · cases h
          rintro last rfl
          simpa using hused
        · exact ih h

theorem unused_of_consumeRecoveryCode {encoded : RecoveryCodes} {input : String} {i : ℕ}
    {updated : List RecoveryCode}
    (h : m.consumeRecoveryCode encoded input = .ok (some (i, updated))) :
    ∃ cs c, encoded = .codes cs ∧ cs[i]? = some c ∧ c.used = false ∧ updated = markUsed cs i := by
  unfold consumeRecoveryCode at h
  by_cases hempty : normalizeRecoveryInput input = ""
  · rw [if_pos hempty] at h
    cases h
  · rw [if_neg hempty] at h
    cases encoded with
    | malformed => cases h
    | codes cs =>
      simp only at h
      split at h
      · cases h
      · next j hj =>
        cases h
        obtain ⟨hlt, hmatch, -⟩ := List.findIdx?_eq_some_iff_getElem.1 hj
        rw [Bool.and_eq_true, Bool.not_eq_true'] at hmatch
        exact ⟨cs, cs[i], rfl, List.getElem?_eq_getElem hlt, hmatch.1, rfl⟩

variable {user user' : User} {spent : Spent}

theorem accepts_verifyRecovery
    (h : m.verifyRecovery user code = .accepted user' spent) : Accepts user user' spent := by
  unfold verifyRecovery at h
  split at h
  · cases h
  · next encoded hcodes =>
    split at h
    · cases h
    · cases h
    · next i updated hused =>
      cases h
      obtain ⟨cs, c, rfl, hi, hnew, rfl⟩ := unused_of_consumeRecoveryCode hused
      exact .recovery hcodes hi hnew

theorem accepts_verifyCode {now : Time}
    (h : m.verifyCode now user code = .accepted user' spent) : Accepts user user' spent := by
  unfold verifyCode at h
  split at h
  · exact accepts_verifyRecovery h
  · next secret _ =>
    split at h
    · cases h
    · next step hstep =>
      cases h
      unfold validateTOTP at hstep
      split at hstep
      · cases hstep
      · exact .totp (lt_of_scanSteps hstep)
    · exact accepts_verifyRecovery h

end TwoFactorManager

theorem Accepts.id_eq (h : Accepts user user' spent) : user'.id = user.id := by
  cases h <;> rfl

end GameAP
