import GameAP.Auth.Verify

/-!
# What a verification spends

A recovery code can be used once, and so can a time step: `verifyCode` marks it in the user row,
which is saved as a whole.  A verification that has read the row before another one saved it takes
the mark away again (`spent_twice`).

`second_factor_once` holds if no verification finds the user while another one is between finding
and saving the same user (`UserApart`).  The invariant is that what was spent is marked (`Marked`).
-/

namespace GameAP

open Runs List

namespace VerifyStore

/-- What was spent for the user, in order. -/
def spentOf (s : VerifyStore) (userID : ℕ) : List Spent :=
  s.log.filterMap fun
    | .spent u x => if u = userID then some x else none
    | _ => none

end VerifyStore

/-- A row in which a time step or a recovery code is marked as used. -/
def User.Marks (user : User) : Spent → Prop
  | .totp step => ∃ last ∈ user.twoFactorLastUsedStep, step ≤ last
  | .recovery i => ∃ cs c, user.twoFactorRecoveryCodes = some (.codes cs) ∧ cs[i]? = some c ∧
      c.used = true

/-- The last used step of `user'` is not before that of `user`. -/
def User.StepLe (user user' : User) : Prop :=
  ∀ last ∈ user.twoFactorLastUsedStep, ∃ last' ∈ user'.twoFactorLastUsedStep, last ≤ last'

namespace Accepts

variable {user user' : User} {spent x : Spent}

section

variable (h : Accepts user user' spent)
include h

theorem not_marks : ¬ user.Marks spent := by
  cases h with
  | totp hlast =>
    rintro ⟨last, hmem, hle⟩
    exact absurd (hlast last hmem) (not_lt.2 hle)
  | recovery hcodes hi hnew =>
    rintro ⟨cs, c, hcs, hc, hused⟩
    rw [hcodes] at hcs
    cases hcs
    rw [hi] at hc
    cases hc
    rw [hnew] at hused
    cases hused

theorem marks_self : user'.Marks spent := by
  cases h with
  | totp hlast => exact ⟨_, rfl, le_refl _⟩
  | @recovery cs i c hcodes hi hnew =>
    refine ⟨_, { c with used := true }, rfl, ?_, rfl⟩
    rw [markUsed, getElem?_modify_eq, hi]
    rfl

theorem marks (hx : user.Marks x) : user'.Marks x := by
  cases h with
  | totp hlast =>
    cases x with
    | totp step =>
      obtain ⟨last, hmem, hle⟩ := hx
      exact ⟨_, rfl, hle.trans (hlast last hmem).le⟩
    | recovery i => exact hx
  | @recovery cs i c hcodes hi hnew =>
    cases x with
    | totp step => exact hx
    | recovery j =>
      obtain ⟨cs', c', hcs, hc, hused⟩ := hx
      rw [hcodes] at hcs
      cases hcs
      refine ⟨_, if i = j then { c' with used := true } else c', rfl, ?_, ?_⟩
      · rw [markUsed, getElem?_modify, hc]
        split_ifs <;> rfl
      · split_ifs
        · rfl
        · exact hused

theorem stepLe : user.StepLe user' := by
  cases h with
  | totp hlast => exact fun last hmem => ⟨_, rfl, (hlast last hmem).le⟩
  | recovery hcodes hi hnew => exact fun last hmem => ⟨last, hmem, le_refl last⟩

end

end Accepts

namespace VerifyCall

/-- The user whose row a verification has read and may save. -/
def owner : VerifyCall → Option ℕ
  | .verify _ _ _ user | .save _ _ user _ => some user.id
  | _ => none

/-- The condition on a step, for the user `userID`: its row is not read between the reading and the
saving of another verification. -/
def UserApart (userID : ℕ) (p : Pool VerifyStore VerifyCall) : VerifyCall → Env → Prop
  | .loadUser _ _ payload, _ => payload.userID = userID → ∀ d ∈ p.calls, owner d ≠ some userID
  | _, _ => True

instance (userID : ℕ) (p : Pool VerifyStore VerifyCall) :
    (c : VerifyCall) → (e : Env) → Decidable (UserApart userID p c e)
  | .loadUser _ _ payload, _ =>
    inferInstanceAs (Decidable (payload.userID = userID → ∀ d ∈ p.calls, owner d ≠ some userID))
  | .loadChallenge _ _, _ | .verify _ _ _ _, _ | .save _ _ _ _, _ | .miss _ _, _
  | .restore _ _ _, _ | .drop _ _, _ | .consume _ _ _, _ | .generateToken _ _ _, _ | .done _, _
  | .cleanup, _ => .isTrue trivial

/-! ### The section of a user -/

variable {m : TwoFactorManager} {sha256 : String → String} {s s' : VerifyStore} {e : Env}
  {c c' : VerifyCall} {userID : ℕ} (p : Pool VerifyStore VerifyCall)

/-- Nothing was spent twice, and what was spent is marked in the row. -/
structure Marked (userID : ℕ) (s : VerifyStore) : Prop where
  once : (s.spentOf userID).Nodup
  marks : ∀ user, s.users.find userID = some user → ∀ x ∈ s.spentOf userID, user.Marks x

/-- What is known where a verification stands: it has the stored row, or a row that follows it. -/
def Reads (userID : ℕ) (s : VerifyStore) : VerifyCall → Prop
  | .verify _ _ _ user => s.users.find userID = some user
  | .save _ _ user' spent => ∃ user, s.users.find userID = some user ∧ Accepts user user' spent
  | _ => True

/-- The row and what was spent for the user are as before. -/
structure SameUser (userID : ℕ) (s s' : VerifyStore) : Prop where
  find : s'.users.find userID = s.users.find userID
  spentOf : s'.spentOf userID = s.spentOf userID

theorem SameUser.refl (userID : ℕ) (s : VerifyStore) : SameUser userID s s := ⟨rfl, rfl⟩

theorem spentOf_record (ev : VerifyEvent) :
    (s.record ev).spentOf userID = s.spentOf userID ++ (match ev with
      | .spent u x => if u = userID then [x] else []
      | _ => []) := by
  unfold VerifyStore.spentOf VerifyStore.record
  rw [filterMap_append]
  cases ev with
  | spent u x => by_cases hu : u = userID <;> simp [hu]
  | _ => rfl

theorem sameUser_record {ev : VerifyEvent} (hev : ∀ u x, ev = .spent u x → u ≠ userID) :
    SameUser userID s (s.record ev) := by
  refine ⟨rfl, ?_⟩
  rw [spentOf_record]
  cases ev with
  | spent u x => simp [hev u x rfl]
  | _ => exact append_nil _

theorem Marked.same (h : SameUser userID s s') (hm : Marked userID s) : Marked userID s' where
  once := h.spentOf ▸ hm.once
  marks user huser x hx := hm.marks user (h.find ▸ huser) x (h.spentOf ▸ hx)

theorem Reads.same (h : SameUser userID s s') (hc : Reads userID s c) : Reads userID s' c := by
  cases c with
  | verify key code payload user => exact h.find.trans hc
  | save key payload user' spent =>
    obtain ⟨user, huser, hacc⟩ := hc
    exact ⟨user, h.find.trans huser, hacc⟩
  | _ => trivial

theorem sameUser_deleteChallenge {key : String} : SameUser userID s (s.deleteChallenge key) := by
  have hrec : SameUser userID { s with cache := s.cache.delete key } (s.deleteChallenge key) :=
    sameUser_record nofun
  exact ⟨hrec.find, hrec.spentOf⟩

theorem sameUser_of_step (hstep : Step m sha256 s e c s' c')
    (hc : ∀ key payload user spent, c = .save key payload user spent → user.id ≠ userID) :
    SameUser userID s s' := by
  cases hstep with
  | @failed _ _ _ _ evaluated =>
    cases evaluated with
    | true => exact sameUser_record nofun
    | false => exact SameUser.refl userID s
  | @saved key payload user spent =>
    have hid := hc key payload user spent rfl
    refine ⟨Tables.Table.get_put_ne _ hid.symm _, ?_⟩
    have hspent : ∀ u x, VerifyEvent.spent user.id spent = .spent u x → u ≠ userID := by
      rintro u x ⟨⟩
      exact hid
    exact (sameUser_record hspent).spentOf
  | restored => split_ifs <;> exact ⟨rfl, rfl⟩
  | dropped =>
    split_ifs
    · exact sameUser_deleteChallenge
    · exact SameUser.refl userID s
  | wrong | login => exact sameUser_record nofun
  | consumed => exact sameUser_deleteChallenge
  | cleanup => exact ⟨rfl, rfl⟩
  | _ => exact SameUser.refl userID s

theorem marked_saveUser {user user' : User} {spent : Spent} (hm : Marked user'.id s)
    (huser : s.users.find user'.id = some user) (hacc : Accepts user user' spent) :
    Marked user'.id (s.saveUser user' spent) := by
  have hspent : (s.saveUser user' spent).spentOf user'.id = s.spentOf user'.id ++ [spent] := by
    rw [VerifyStore.saveUser, spentOf_record]
    simp only [if_true]
    rfl
  have hmarks := hm.marks user huser
  constructor
  · rw [hspent, nodup_append]
    refine ⟨hm.once, pairwise_singleton _ _, fun x hx y hy => ?_⟩
    rw [mem_singleton.1 hy]
    rintro rfl
    exact hacc.not_marks (hmarks x hx)
  · intro u hu x hx
    obtain rfl : user' = u := Option.some.inj ((UserRepository.find_save_self _ _).symm.trans hu)
    rw [hspent, mem_append, mem_singleton] at hx
    rcases hx with hx | rfl
    · exact hacc.marks (hmarks x hx)
    · exact hacc.marks_self

/-- A verification that has read the row keeps what is known there, or leaves it in order. -/
theorem reads_step (hstep : Step m sha256 s e c s' c') (hin : owner c = some userID)
    (hm : Marked userID s) (hc : Reads userID s c) :
    Marked userID s' ∧ (owner c' = some userID → Reads userID s' c') := by
  cases hstep with
  | @accepted key code payload user user' spent hacc =>
    exact ⟨hm, fun _ => ⟨user, hc, hacc⟩⟩
  | wrong => exact ⟨hm.same (sameUser_record nofun), nofun⟩
  | @failed _ _ _ _ evaluated =>
    cases evaluated with
    | true => exact ⟨hm.same (sameUser_record nofun), nofun⟩
    | false => exact ⟨hm, nofun⟩
  | notSaved err => exact ⟨hm, nofun⟩
  | saved =>
    obtain rfl := Option.some.inj hin
    obtain ⟨user, huser, hacc⟩ := hc
    exact ⟨marked_saveUser hm huser hacc, nofun⟩
  | _ => cases hin

theorem find_of_owner (hstep : Step m sha256 s e c s' c') (hc : owner c ≠ some userID)
    (hc' : owner c' = some userID) :
    ∃ key code payload, c = .loadUser key code payload ∧ payload.userID = userID ∧ s' = s ∧
      Reads userID s c' := by
  cases hstep with
  | @found key code payload user huser =>
    obtain rfl := Option.some.inj hc'
    have hid : user.id = payload.userID := s.users.id_eq _ _ huser
    exact ⟨key, code, payload, rfl, hid.symm, rfl, hid ▸ huser⟩
  | @accepted key code payload user user' spent hacc =>
    refine absurd ?_ hc
    rw [← hc']
    exact congrArg some hacc.id_eq.symm
  | _ => cases hc'

/-! ### All interleavings -/

/-- The section of a user: from finding it to saving it. -/
abbrev OneReader (userID : ℕ) : Pool VerifyStore VerifyCall → Prop :=
  SectionInv (fun c => owner c = some userID) (Marked userID) fun s c =>
    Marked userID s ∧ Reads userID s c

theorem oneReader_step : StableUnder (program m sha256).step (Guarded (UserApart userID))
    (OneReader userID) := by
  refine Program.sectionInv_step ?_ ?_ ?_ ?_
  · intro s c hstart hin
    cases c with
    | loadChallenge | cleanup => cases hin
    | _ => cases hstart
  · intro p i e c s' c' hp hG hc hn hout hin
    obtain ⟨key, code, payload, rfl, hid, rfl, hreads⟩ := find_of_owner (step_of_next hn) hout hin
    exact ⟨hG hid, fun hm => ⟨hm, hreads⟩⟩
  · intro p i e c s' c' _ hn hin hheld
    obtain ⟨hm, hreads⟩ := reads_step (step_of_next hn) hin hheld.1 hheld.2
    exact ⟨fun hin' => ⟨hm, hreads hin'⟩, fun _ => hm⟩
  · intro i e s c s' c' hn hout _
    have hsame : SameUser userID s s' := sameUser_of_step (step_of_next hn) fun key payload user
      spent heq hid => hout (by rw [heq]; exact congrArg some hid)
    exact ⟨fun hm => hm.same hsame, fun d hd => ⟨hd.1.same hsame, hd.2.same hsame⟩⟩

/-- The row is still there, and its last used step has not gone back. -/
def Follows (userID : ℕ) (p p' : Pool VerifyStore VerifyCall) : Prop :=
  ∀ user, p.store.users.find userID = some user →
    ∃ user', p'.store.users.find userID = some user' ∧ user.StepLe user'

theorem Follows.refl : Follows userID p p :=
  fun user huser => ⟨user, huser, fun last hmem => ⟨last, hmem, le_refl last⟩⟩

theorem Follows.trans {p q r : Pool VerifyStore VerifyCall} (hpq : Follows userID p q)
    (hqr : Follows userID q r) : Follows userID p r := by
  intro user huser
  obtain ⟨user₁, huser₁, hle₁⟩ := hpq user huser
  obtain ⟨user₂, huser₂, hle₂⟩ := hqr user₁ huser₁
  refine ⟨user₂, huser₂, fun last hmem => ?_⟩
  obtain ⟨last₁, hmem₁, hlast₁⟩ := hle₁ last hmem
  obtain ⟨last₂, hmem₂, hlast₂⟩ := hle₂ last₁ hmem₁
  exact ⟨last₂, hmem₂, hlast₁.trans hlast₂⟩

theorem follows_step (mv : Move VerifyCall Env)
    (p' : Pool VerifyStore VerifyCall) (hp : OneReader userID p)
    (h : (program m sha256).step p mv = some p') : Follows userID p p' := by
  obtain ⟨c, rfl, -, rfl⟩ | ⟨i, e, c, s', c', rfl, hc, hn, rfl⟩ := Program.step_cases h
  · exact Follows.refl p
  by_cases hown : ∃ key payload user spent, c = .save key payload user spent ∧ user.id = userID
  · -- the row that is saved follows the stored one
    obtain ⟨key, payload, user', spent, rfl, rfl⟩ := hown
    obtain ⟨-, user, huser, hacc⟩ := hp.held i _ hc rfl
    intro u hu
    obtain rfl : user = u := Option.some.inj (huser.symm.trans hu)
    have hstep : Step m sha256 p.store e (.save key payload user' spent) s' c' := step_of_next hn
    cases hstep with
    | notSaved err => exact ⟨user, hu, fun last hmem => ⟨last, hmem, le_refl last⟩⟩
    | saved => exact ⟨user', UserRepository.find_save_self _ _, hacc.stepLe⟩
  · have hsame : SameUser userID p.store s' := sameUser_of_step (step_of_next hn) fun key payload
      user spent heq hid => hown ⟨key, payload, user, spent, heq, hid⟩
    intro user huser
    exact ⟨user, hsame.find.trans huser, fun last hmem => ⟨last, hmem, le_refl last⟩⟩

/-- **What a verification spends**: each recovery code and each time step is accepted at most once,
and the last used step never goes back. -/
theorem second_factor_once (m : TwoFactorManager) (sha256 : String → String) (userID : ℕ)
    (s : VerifyStore) (hlog : s.log = []) (before after : List (Move VerifyCall Env))
    (p p' : Pool VerifyStore VerifyCall)
    (hG : Along (program m sha256).step (Guarded (UserApart userID)) (Pool.idle s)
      (before ++ after))
    (hbefore : run (program m sha256).step (Pool.idle s) before = some p)
    (hafter : run (program m sha256).step p after = some p') :
    (∀ i, (p'.store.spentOf userID).count (.recovery i) ≤ 1) ∧
    (∀ step, (p'.store.spentOf userID).count (.totp step) ≤ 1) ∧
    ∀ user, p.store.users.find userID = some user →
      ∃ user', p'.store.users.find userID = some user' ∧
        ∀ last ∈ user.twoFactorLastUsedStep, ∃ last' ∈ user'.twoFactorLastUsedStep,
          last ≤ last' := by
  have hspent : s.spentOf userID = [] := by rw [VerifyStore.spentOf, hlog, List.filterMap_nil]
  have hinit : Marked userID s := by
    refine ⟨hspent ▸ List.nodup_nil, fun user _ x hx => ?_⟩
    rw [hspent] at hx
    cases hx
  obtain ⟨hG₁, hG₂⟩ := (along_append hbefore).1 hG
  have hp : OneReader userID p := run_inv _ oneReader_step (SectionInv.idle hinit) hG₁ hbefore
  have hp' : OneReader userID p' := run_inv _ oneReader_step hp hG₂ hafter
  have hm : Marked userID p'.store := hp'.always id fun _ => And.left
  have hfoll : Follows userID p p' :=
    run_rel (OneReader userID) (Follows userID) Follows.refl (fun _ _ _ => Follows.trans)
      oneReader_step (fun p mv p' hp _ h => follows_step p mv p' hp h) hp hG₂ hafter
  exact ⟨fun i => List.nodup_iff_count_le_one.1 hm.once _,
    fun step => List.nodup_iff_count_le_one.1 hm.once _, hfoll⟩

/-- The same code through two challenges, one verification after the other. -/
def oneThenTheOther : List (Move VerifyCall Env) :=
  [.spawn (.loadChallenge "g2fa_x" "ok"), .spawn (.loadChallenge "g2fa_y" "ok")] ++ steps 0 6 ++
    steps 1 5

theorem second_factor_once_per_step :
    ∃ p', run (program plainCodes id).step (Pool.idle challenged) oneThenTheOther = some p' ∧
      p'.store.spentOf 1 = [.totp 2] ∧ (p'.store.spentOf 1).count (.totp 2) ≤ 1 :=
  have h := second_factor_once plainCodes id 1 challenged rfl [] oneThenTheOther _ _ (by decide)
    rfl rfl
  ⟨_, rfl, rfl, h.2.1 2⟩

/-- Two verifications with one code, which both find the user before one of them saves it. -/
def bothFind (code : String) : List (Move VerifyCall Env) :=
  [.spawn (.loadChallenge "g2fa_x" code), .spawn (.loadChallenge "g2fa_y" code)] ++ steps 0 2 ++
    steps 1 2 ++ steps 0 2 ++ steps 1 2

/-- A recovery code is verified on a row that was read before a time step was used, up to the two
ends of the last saving. -/
def savedOver : List (Move VerifyCall Env) :=
  [.spawn (.loadChallenge "g2fa_x" "r"), .spawn (.loadChallenge "g2fa_y" "ok")] ++ steps 0 3 ++
    steps 1 4

/-- Interleaved verifications accept a time step twice and a recovery code twice, and a later saving
takes the last used step back from 2 to 0. -/
theorem spent_twice :
    (∃ p, run (program plainCodes id).step (Pool.idle challenged) (bothFind "ok") = some p ∧
      p.store.spentOf 1 = [.totp 2, .totp 2]) ∧
    (∃ p, run (program plainCodes id).step (Pool.idle challenged) (bothFind "r") = some p ∧
      p.store.spentOf 1 = [.recovery 0, .recovery 0]) ∧
    ∃ p p', run (program plainCodes id).step (Pool.idle challenged) savedOver = some p ∧
      run (program plainCodes id).step p (steps 0 1) = some p' ∧
      (p.store.users.find 1).bind (·.twoFactorLastUsedStep) = some 2 ∧
      (p'.store.users.find 1).bind (·.twoFactorLastUsedStep) = some 0 :=
  ⟨⟨_, rfl, rfl⟩, ⟨_, rfl, rfl⟩, _, _, rfl, rfl, rfl, rfl⟩

end VerifyCall

end GameAP
