import GameAP.Auth.Verify

/-!
# The budget of a challenge

A challenge allows `maxVerifyAttempts` wrong codes and one login.  The count is in the cached
payload, which a request loads and stores again, so that interleaved requests lose counts, and a
request that stores after a deletion brings the challenge back (`challenge_overrun`).

`challenge_bounds` needs `ChallengeApart`: no request loads the challenge while another one works on
it, a wrong code is counted by an operation that succeeds, and the recovery codes can be read.
Without the last two a wrong code is not counted at all.  `Fits` and `Loaded` are the invariant.
-/

namespace GameAP

open Runs InMemoryCache Option

namespace VerifyStore

variable (s : VerifyStore) (k : String)

/-- The wrong codes that were evaluated for the challenge. -/
def misses : ℕ := s.log.count (.miss k)

/-- The logins from the challenge. -/
def logins : ℕ := s.log.count (.login k)

/-- The entry, if it is there and decodes, has the number of wrong codes. -/
def Fits : Prop :=
  ∀ item payload, s.cache.items.get k = some item → item.value = some payload →
    payload.attempts = s.misses k ∧ payload.attempts < maxVerifyAttempts

/-- What holds of a challenge at any time. -/
structure Within : Prop where
  misses_le : s.misses k ≤ maxVerifyAttempts
  logins_le : s.logins k ≤ 1
  gone : .deleted k ∈ s.log → s.cache.items.get k = none
  deleted_of_login : s.logins k ≠ 0 → .deleted k ∈ s.log

end VerifyStore

namespace VerifyCall

/-- The challenge that a request works on. -/
def challenge : VerifyCall → Option String
  | .loadUser key _ _ | .verify key _ _ _ | .save key _ _ _ | .miss key _ | .restore key _ _
  | .drop key _ | .consume key _ _ | .generateToken key _ _ => some key
  | .loadChallenge _ _ | .done _ | .cleanup => none

/-- The challenge that a request has loaded and will store or delete. -/
def between : VerifyCall → Option String
  | .generateToken _ _ _ => none
  | c => challenge c

/-- The condition on a step, for the challenge `k`. -/
def ChallengeApart (m : TwoFactorManager) (sha256 : String → String) (k : String)
    (p : Pool VerifyStore VerifyCall) : VerifyCall → Env → Prop
  | .loadChallenge token _, _ =>
    challengeCacheKey sha256 token = k → ∀ d ∈ p.calls, between d ≠ some k
  | .restore key _ _, e => key = k → e.ok = true
  | .drop key err, e => key = k → err = .invalidCode → e.ok = true
  | .verify key code _ user, e => key = k → (m.verifyCode e.now user code).uncounted = false
  | _, _ => True

instance (m : TwoFactorManager) (sha256 : String → String) (k : String)
    (p : Pool VerifyStore VerifyCall) :
    (c : VerifyCall) → (e : Env) → Decidable (ChallengeApart m sha256 k p c e)
  | .loadChallenge token _, _ => inferInstanceAs (Decidable
      (challengeCacheKey sha256 token = k → ∀ d ∈ p.calls, between d ≠ some k))
  | .restore key _ _, e => inferInstanceAs (Decidable (key = k → e.ok = true))
  | .drop key err, e =>
    inferInstanceAs (Decidable (key = k → err = .invalidCode → e.ok = true))
  | .verify key code _ user, e =>
    inferInstanceAs (Decidable (key = k → (m.verifyCode e.now user code).uncounted = false))
  | .loadUser _ _ _, _ | .save _ _ _ _, _ | .miss _ _, _ | .consume _ _ _, _
  | .generateToken _ _ _, _ | .done _, _ | .cleanup, _ => .isTrue trivial

end VerifyCall

/-! ### What a step leaves alone -/

namespace VerifyStore

variable {s s' : VerifyStore} {k : String} (ev : VerifyEvent)

theorem misses_record : (s.record ev).misses k = s.misses k + if ev = .miss k then 1 else 0 := by
  simp [misses, record, List.count_append, List.count_singleton]

theorem logins_record : (s.record ev).logins k = s.logins k + if ev = .login k then 1 else 0 := by
  simp [logins, record, List.count_append, List.count_singleton]

theorem deleted_mem_record :
    .deleted k ∈ (s.record ev).log ↔ .deleted k ∈ s.log ∨ ev = .deleted k := by
  simp [record, eq_comm]

/-- Nothing is recorded for the challenge `k`, and its entry is as before or gone. -/
structure Same (k : String) (s s' : VerifyStore) : Prop where
  items : ∀ item, s'.cache.items.get k = some item → s.cache.items.get k = some item
  misses : s'.misses k = s.misses k
  logins : s'.logins k = s.logins k
  deleted : .deleted k ∈ s'.log ↔ .deleted k ∈ s.log

theorem Same.refl (k : String) (s : VerifyStore) : Same k s s := ⟨fun _ h => h, rfl, rfl, Iff.rfl⟩

theorem Same.items_none (h : Same k s s') (hnone : s.cache.items.get k = none) :
    s'.cache.items.get k = none := by
  cases hitem : s'.cache.items.get k with
  | none => rfl
  | some item =>
    rw [h.items item hitem] at hnone
    cases hnone

theorem Same.record {ev : VerifyEvent} (hmiss : ev ≠ .miss k) (hlogin : ev ≠ .login k)
    (hdel : ev ≠ .deleted k) (h : Same k s s') : Same k s (s'.record ev) where
  items := h.items
  misses := by rw [misses_record, if_neg hmiss, Nat.add_zero, h.misses]
  logins := by rw [logins_record, if_neg hlogin, Nat.add_zero, h.logins]
  deleted := by rw [deleted_mem_record, or_iff_left hdel, h.deleted]

theorem same_deleteChallenge {key : String} (hkey : key ≠ k) : Same k s (s.deleteChallenge key) := by
  have hcache : Same k s { s with cache := s.cache.delete key } :=
    ⟨fun item hitem => by rwa [items_delete_ne hkey.symm] at hitem, rfl, rfl, Iff.rfl⟩
  exact hcache.record nofun nofun (by simpa using hkey)

theorem same_saveUser {user : User} {spent : Spent} : Same k s (s.saveUser user spent) :=
  Same.record nofun nofun nofun ⟨fun _ h => h, rfl, rfl, Iff.rfl⟩

theorem Within.same (h : Same k s s') (hw : s.Within k) : s'.Within k where
  misses_le := h.misses ▸ hw.misses_le
  logins_le := h.logins ▸ hw.logins_le
  gone hdel := h.items_none (hw.gone (h.deleted.1 hdel))
  deleted_of_login hlogins := h.deleted.2 (hw.deleted_of_login (h.logins ▸ hlogins))

theorem Fits.same (h : Same k s s') (hf : s.Fits k) : s'.Fits k := by
  intro item payload hitem hvalue
  rw [h.misses]
  exact hf item payload (h.items item hitem) hvalue

theorem Fits.of_none (hnone : s.cache.items.get k = none) : s.Fits k := by
  intro item payload hitem
  rw [hnone] at hitem
  cases hitem

end VerifyStore

namespace VerifyCall

/-! ### The section of a challenge -/

variable {m : TwoFactorManager} {sha256 : String → String} {s s' : VerifyStore} {e : Env}
  {c c' : VerifyCall} {k : String}

/-- A payload that was loaded and not written back yet. -/
structure Loaded (k : String) (s : VerifyStore) (payload : ChallengePayload) : Prop where
  kept : .deleted k ∉ s.log
  fits : s.Fits k
  attempts : payload.attempts = s.misses k
  budget : payload.attempts < maxVerifyAttempts

/-- What is known where a request stands. -/
def Stands (k : String) (s : VerifyStore) : VerifyCall → Prop
  | .loadUser _ _ payload | .verify _ _ payload _ | .save _ payload _ _ | .consume _ payload _ =>
    Loaded k s payload
  | .miss _ payload => .deleted k ∉ s.log ∧ payload.attempts + 1 = s.misses k
  | .restore _ payload _ =>
    .deleted k ∉ s.log ∧ payload.attempts = s.misses k ∧ payload.attempts < maxVerifyAttempts
  | .drop _ err => err ≠ .invalidCode → s.Fits k
  | .generateToken _ _ _ => .deleted k ∈ s.log ∧ s.logins k = 0
  | .loadChallenge _ _ | .done _ | .cleanup => True

variable {payload : ChallengePayload} {ev : VerifyEvent}

theorem Loaded.same (h : s.Same k s') (hl : Loaded k s payload) : Loaded k s' payload :=
  ⟨fun hdel => hl.kept (h.deleted.1 hdel), hl.fits.same h, h.misses ▸ hl.attempts,
    hl.budget⟩

theorem Stands.same (h : s.Same k s') (hc : Stands k s c) : Stands k s' c := by
  cases c with
  | loadChallenge | done | cleanup => trivial
  | loadUser | verify | save | consume => exact Loaded.same h hc
  | miss key payload =>
    exact ⟨fun hdel => hc.1 (h.deleted.1 hdel), h.misses ▸ hc.2⟩
  | restore key payload remaining =>
    exact ⟨fun hdel => hc.1 (h.deleted.1 hdel), h.misses ▸ hc.2.1, hc.2.2⟩
  | drop key err => exact fun herr => (hc herr).same h
  | generateToken key payload user => exact ⟨h.deleted.2 hc.1, h.logins ▸ hc.2⟩

open VerifyStore

theorem same_of_step (hstep : Step m sha256 s e c s' c') (hc : challenge c ≠ some k) :
    s.Same k s' := by
  cases hstep with
  | wrong =>
    have hkey := fun heq => hc (congrArg some heq)
    exact (Same.refl k s).record (fun h => hkey (VerifyEvent.miss.inj h)) nofun nofun
  | @failed key _ _ _ evaluated =>
    have hkey := fun heq => hc (congrArg some heq)
    cases evaluated with
    | true =>
      exact (Same.refl k s).record (fun h => hkey (VerifyEvent.miss.inj h)) nofun nofun
    | false => exact Same.refl k s
  | saved => exact same_saveUser
  | restored =>
    split_ifs
    · refine ⟨fun item hitem => ?_, rfl, rfl, Iff.rfl⟩
      rwa [setChallenge, items_set_ne fun heq => hc (congrArg some heq.symm)] at hitem
    · exact Same.refl k s
  | dropped =>
    split_ifs
    · exact same_deleteChallenge fun heq => hc (congrArg some heq)
    · exact Same.refl k s
  | consumed => exact same_deleteChallenge fun heq => hc (congrArg some heq)
  | login =>
    have hkey := fun heq => hc (congrArg some heq)
    exact (Same.refl k s).record nofun (fun h => hkey (VerifyEvent.login.inj h)) nofun
  | cleanup => exact ⟨fun _ => items_cleanup, rfl, rfl, Iff.rfl⟩
  | _ => exact Same.refl k s

theorem within_deleteChallenge (hw : s.Within k) : (s.deleteChallenge k).Within k where
  misses_le := by
    rw [deleteChallenge, misses_record, if_neg nofun]
    exact hw.misses_le
  logins_le := by
    rw [deleteChallenge, logins_record, if_neg nofun]
    exact hw.logins_le
  gone _ := items_delete_self k
  deleted_of_login _ := (deleted_mem_record _).2 (.inr rfl)

/-- The invariant between two requests, and inside one. -/
abbrev Rest (k : String) (s : VerifyStore) : Prop := s.Within k ∧ s.Fits k

abbrev Held (k : String) (s : VerifyStore) (c : VerifyCall) : Prop := s.Within k ∧ Stands k s c

theorem within_miss (hw : s.Within k) (hl : Loaded k s payload) :
    (s.record (.miss k)).Within k ∧ Stands k (s.record (.miss k)) (.miss k payload) := by
  have hmisses : (s.record (.miss k)).misses k = s.misses k + 1 := by
    rw [misses_record, if_pos rfl]
  have hlogins : (s.record (.miss k)).logins k = s.logins k := by
    rw [logins_record, if_neg nofun, Nat.add_zero]
  have hdel : .deleted k ∈ (s.record (.miss k)).log ↔ .deleted k ∈ s.log := by
    rw [deleted_mem_record, or_iff_left nofun]
  have hatt := hl.attempts
  have hbudget := hl.budget
  refine ⟨⟨?_, ?_, ?_, ?_⟩, ?_, ?_⟩
  · omega
  · rw [hlogins]
    exact hw.logins_le
  · rw [hdel]
    exact hw.gone
  · rw [hlogins, hdel]
    exact hw.deleted_of_login
  · rw [hdel]
    exact hl.kept
  · rw [hmisses]
    omega

theorem rest_setChallenge {now : Time} {remaining : ℤ}
    (hw : s.Within k) (hr : Stands k s (.restore k payload remaining)) :
    Rest k (s.setChallenge now k payload remaining) := by
  obtain ⟨hkept, hatt, hbudget⟩ := hr
  obtain ⟨item, hitem, hvalue⟩ :=
    @items_set_self _ s.cache now k (some payload) (remaining.toNat * 1000000000)
  refine ⟨⟨hw.misses_le, hw.logins_le, fun hdel => absurd hdel hkept,
    hw.deleted_of_login⟩, fun item' payload' hitem' hvalue' => ?_⟩
  obtain rfl : item = item' := some.inj (hitem.symm.trans hitem')
  obtain rfl : payload = payload' := some.inj (hvalue.symm.trans hvalue')
  exact ⟨hatt, hbudget⟩

theorem rest_login (hw : s.Within k) (hdel : .deleted k ∈ s.log) (hlogins : s.logins k = 0) :
    Rest k (s.record (.login k)) := by
  have hnone := hw.gone hdel
  have hcount : (s.record (.login k)).logins k = 1 := by
    rw [logins_record, if_pos rfl, hlogins]
  refine ⟨⟨?_, hcount.le, fun _ => hnone, fun _ => ?_⟩, Fits.of_none hnone⟩
  · rw [misses_record, if_neg nofun]
    exact hw.misses_le
  · exact (deleted_mem_record _).2 (.inl hdel)

/-- A request that works on the challenge keeps what is known there, or leaves it in order. -/
theorem inside_step (hstep : Step m sha256 s e c s' c') {p : Pool VerifyStore VerifyCall}
    (hG : ChallengeApart m sha256 k p c e) (hin : challenge c = some k) (hheld : Held k s c) :
    (challenge c' = some k → Held k s' c') ∧ (challenge c' ≠ some k → Rest k s') := by
  obtain ⟨hw, hc⟩ := hheld
  have stay : ∀ {t : VerifyStore} {d : VerifyCall}, challenge d = some k → Held k t d →
      (challenge d = some k → Held k t d) ∧ (challenge d ≠ some k → Rest k t) :=
    fun hd h => ⟨fun _ => h, fun hne => absurd hd hne⟩
  have leave : ∀ {t : VerifyStore} {r : Except VerifyError (User × Bool)}, Rest k t →
      (challenge (.done r) = some k → Held k t (.done r)) ∧
        (challenge (.done r) ≠ some k → Rest k t) :=
    fun h => ⟨nofun, fun _ => h⟩
  cases hstep with
  | userFailed | notSaved | notConsumed => exact leave ⟨hw, hc.fits⟩
  | ineligible => exact stay hin ⟨hw, fun _ => hc.fits⟩
  | found | accepted => exact stay hin ⟨hw, hc⟩
  | wrong =>
    obtain rfl := some.inj hin
    exact stay rfl (within_miss hw hc)
  | failed hfail =>
    obtain rfl := some.inj hin
    have hunc := hG rfl
    rw [hfail] at hunc
    cases hunc
    exact leave ⟨hw, hc.fits⟩
  | saved => exact stay hin ⟨hw.same same_saveUser, hc.same same_saveUser⟩
  | exhausted => exact stay hin ⟨hw, fun herr => absurd rfl herr⟩
  | counted hbudget => exact stay hin ⟨hw, hc.1, hc.2, hbudget⟩
  | restored =>
    obtain rfl := some.inj hin
    rw [if_pos (hG rfl)]
    exact leave (rest_setChallenge hw hc)
  | @dropped key err =>
    obtain rfl := some.inj hin
    by_cases hok : e.ok = true
    · rw [if_pos hok]
      exact leave ⟨within_deleteChallenge hw,
        Fits.of_none (items_delete_self key)⟩
    · rw [if_neg hok]
      exact leave ⟨hw, hc fun herr => hok (hG rfl herr)⟩
  | @consumed key payload user =>
    obtain rfl := some.inj hin
    -- nobody has logged in, since the challenge had not been deleted
    have hlogins : s.logins key = 0 := by
      by_contra hne
      exact hc.kept (hw.deleted_of_login hne)
    refine stay rfl ⟨within_deleteChallenge hw, (deleted_mem_record _).2 (.inr rfl), ?_⟩
    rw [deleteChallenge, logins_record, if_neg nofun]
    exact hlogins
  | noToken err => exact leave ⟨hw, Fits.of_none (hw.gone hc.1)⟩
  | login =>
    obtain rfl := some.inj hin
    exact leave (rest_login hw hc.1 hc.2)
  | _ => cases hin

theorem enter_step (hstep : Step m sha256 s e c s' c') (hc : challenge c ≠ some k)
    (hc' : challenge c' = some k) :
    ∃ token code item, c = .loadChallenge token code ∧ challengeCacheKey sha256 token = k ∧
      s.cache.items.get k = some item ∧ (Rest k s → Held k s' c') := by
  cases hstep with
  | @corrupt token code item hitem =>
    obtain rfl := some.inj hc'
    exact ⟨token, code, item, rfl, rfl, hitem, fun hrest => ⟨hrest.1, fun _ => hrest.2⟩⟩
  | @load token code payload item hitem hvalue =>
    obtain rfl := some.inj hc'
    refine ⟨token, code, item, rfl, rfl, hitem, fun hrest => ⟨hrest.1, ?_⟩⟩
    obtain ⟨hatt, hbudget⟩ := hrest.2 item payload hitem hvalue
    refine ⟨fun hdel => ?_, hrest.2, hatt, hbudget⟩
    rw [hrest.1.gone hdel] at hitem
    cases hitem
  | ineligible | found | accepted | wrong | saved | exhausted | counted | consumed => exact absurd hc' hc
  | _ => cases hc'

/-! ### All interleavings -/

/-- The section of a challenge: from loading it to the login. -/
abbrev OneWorker (k : String) : Pool VerifyStore VerifyCall → Prop :=
  SectionInv (fun c => challenge c = some k) (Rest k) (Held k)

theorem oneWorker_step : StableUnder (program m sha256).step (Guarded (ChallengeApart m sha256 k))
    (OneWorker k) := by
  refine Program.sectionInv_step ?_ ?_ ?_ ?_
  · intro s c hstart hin
    cases c with
    | loadChallenge | cleanup => cases hin
    | _ => cases hstart
  · intro p i e c s' c' hp hG hc hn hout hin
    obtain ⟨token, code, item, rfl, hkey, hitem, hheld⟩ := enter_step (step_of_next hn) hout hin
    refine ⟨fun d hd hdin => ?_, hheld⟩
    -- the other request has not written back, against the condition, or the entry is deleted
    have hbetw := hG hkey d hd
    obtain ⟨j, hj⟩ := List.mem_iff_getElem?.1 hd
    cases d with
    | generateToken key payload user =>
      obtain ⟨hw, hdel, -⟩ := hp.held j _ hj hdin
      rw [hw.gone hdel] at hitem
      cases hitem
    | _ => exact hbetw hdin
  · intro p i e c s' c' hG hn hin hheld
    exact inside_step (step_of_next hn) hG hin hheld
  · intro i e s c s' c' hn hout _
    have hsame := same_of_step (step_of_next hn) hout
    exact ⟨fun hrest => ⟨hrest.1.same hsame, hrest.2.same hsame⟩,
      fun d hd => ⟨hd.1.same hsame, hd.2.same hsame⟩⟩

theorem mem_log_of_step (hstep : Step m sha256 s e c s' c') (hev : ev ∈ s.log) : ev ∈ s'.log := by
  cases hstep with
  | @failed _ _ _ _ evaluated =>
    cases evaluated with
    | true => exact List.mem_append_left _ hev
    | false => exact hev
  | restored => split_ifs <;> exact hev
  | dropped =>
    split_ifs
    · exact List.mem_append_left _ hev
    · exact hev
  | wrong | saved | consumed | login => exact List.mem_append_left _ hev
  | _ => exact hev

theorem mem_log_of_run {p p' : Pool VerifyStore VerifyCall} {moves : List (Move VerifyCall Env)}
    (hrun : run (program m sha256).step p moves = some p')
    (hev : ev ∈ p.store.log) : ev ∈ p'.store.log := by
  refine run_inv_all (fun p => ev ∈ p.store.log) (fun p mv p' hp h => ?_) hev hrun
  obtain ⟨c, rfl, -, rfl⟩ | ⟨i, e, c, s', c', rfl, -, hn, rfl⟩ := Program.step_cases h
  · exact hp
  · exact mem_log_of_step (step_of_next hn) hp

/-- **The budget of a challenge**: at most `maxVerifyAttempts` wrong codes are evaluated, at most
one login is made, and a deleted challenge does not come back. -/
theorem challenge_bounds (m : TwoFactorManager) (sha256 : String → String) (k : String)
    (s : VerifyStore) (hlog : s.log = [])
    (hfresh : ∀ item payload, s.cache.items.get k = some item → item.value = some payload →
      payload.attempts = 0)
    (before after : List (Move VerifyCall Env)) (p p' : Pool VerifyStore VerifyCall)
    (hG : Along (program m sha256).step (Guarded (ChallengeApart m sha256 k)) (Pool.idle s)
      (before ++ after))
    (hbefore : run (program m sha256).step (Pool.idle s) before = some p)
    (hafter : run (program m sha256).step p after = some p') :
    p'.store.misses k ≤ maxVerifyAttempts ∧ p'.store.logins k ≤ 1 ∧
      (.deleted k ∈ p.store.log → p'.store.cache.items.get k = none) := by
  have hmisses : s.misses k = 0 := by rw [misses, hlog, List.count_nil]
  have hlogins : s.logins k = 0 := by rw [logins, hlog, List.count_nil]
  have hwithin : s.Within k := by
    refine ⟨?_, ?_, ?_, ?_⟩
    · rw [hmisses]
      decide
    · omega
    · simp [hlog]
    · simp [hlogins]
  have hfits : s.Fits k := by
    intro item payload hitem hvalue
    rw [hfresh item payload hitem hvalue, hmisses]
    decide
  obtain ⟨hG₁, hG₂⟩ := (along_append hbefore).1 hG
  have hinv : OneWorker k p' :=
    run_inv _ oneWorker_step (run_inv _ oneWorker_step (SectionInv.idle ⟨hwithin, hfits⟩) hG₁ hbefore)
      hG₂ hafter
  have hw : p'.store.Within k := hinv.always (J := fun s => s.Within k) And.left fun _ => And.left
  exact ⟨hw.misses_le, hw.logins_le, fun hdel => hw.gone (mem_log_of_run hafter hdel)⟩

def missThenLogin : List (Move VerifyCall Env) :=
  [.spawn (.loadChallenge "g2fa_x" "no"), .spawn (.loadChallenge "g2fa_x" "ok")] ++ steps 0 5 ++
    steps 1 6

theorem challenge_bounds_miss_then_login :
    ∃ p', run (program plainCodes id).step (Pool.idle challenged) missThenLogin = some p' ∧
      p'.store.log = [.miss "auth:2fa-challenge:x", .spent 1 (.totp 2),
        .deleted "auth:2fa-challenge:x", .login "auth:2fa-challenge:x"] ∧
      p'.store.misses "auth:2fa-challenge:x" ≤ maxVerifyAttempts ∧
      p'.store.logins "auth:2fa-challenge:x" ≤ 1 :=
  have h := challenge_bounds plainCodes id "auth:2fa-challenge:x" challenged rfl
    (fun item payload hitem hvalue => by cases hitem; cases hvalue; rfl) [] missThenLogin _ _
    (by decide) rfl rfl
  ⟨_, rfl, rfl, h.1, h.2.1⟩

/-- Six requests load the challenge before any of them counts its wrong code. -/
def sixAtOnce : List (Move VerifyCall Env) :=
  List.replicate 6 (.spawn (.loadChallenge "g2fa_x" "no")) ++ (List.range 6).flatMap (steps · 3)

def bothKinds : List (Move VerifyCall Env) :=
  [.spawn (.loadChallenge "g2fa_x" "ok"), .spawn (.loadChallenge "g2fa_x" "r")] ++ steps 0 1 ++
    steps 1 1 ++ steps 0 5 ++ steps 1 5

/-- A request with a wrong code loads the challenge before another one uses it up. -/
def restoredAfterLogin : List (Move VerifyCall Env) :=
  [.spawn (.loadChallenge "g2fa_x" "no"), .spawn (.loadChallenge "g2fa_x" "ok")] ++ steps 0 1 ++
    steps 1 6 ++ steps 0 4

/-- Interleaved requests evaluate six wrong codes, log in twice, and bring a challenge back that was
deleted. -/
theorem challenge_overrun :
    (∃ p, run (program plainCodes id).step (Pool.idle challenged) sixAtOnce = some p ∧
      p.store.misses "auth:2fa-challenge:x" = 6) ∧
    (∃ p, run (program plainCodes id).step (Pool.idle challenged) bothKinds = some p ∧
      p.store.logins "auth:2fa-challenge:x" = 2) ∧
    ∃ p item, run (program plainCodes id).step (Pool.idle challenged) restoredAfterLogin = some p ∧
      .deleted "auth:2fa-challenge:x" ∈ p.store.log ∧
      p.store.cache.items.get "auth:2fa-challenge:x" = some item :=
  ⟨⟨_, rfl, by decide⟩, ⟨_, rfl, by decide⟩, _, _, rfl, by decide, rfl⟩

end VerifyCall

end GameAP
