import GameAP.Domain
import GameAP.Files.InMemory
import GameAP.Lib.Decimal
import GameAP.Lib.Runs

/-!
# A download through shared storage

The daemon's upload and the reader of a remote download run on different instances and share only
the storage.  The uploader (`receiveAndStore`, `writeSentinel`) stores the parts of the file in
order and then a sentinel that says whether it succeeded.  The reader (`downloadStreamRemote` with
`waitForPartS3`) polls for the next part and, when it is not there, for the sentinel; a part that it
has delivered is deleted.

The two tests of a poll are not atomic.  When the last parts and the sentinel are stored between
them, the reader reports a clean end of a truncated stream (`reader_ends_early`).  `Apart` excludes
that, and then a reader that finishes without an error has delivered all parts
(`reader_delivers_all`).
-/

namespace GameAP

open Runs List

structure DoneInfo where
  success : Bool
  checksum : String
  totalParts : ℕ
  error : String
  deriving DecidableEq

/-- What the storage holds for a transfer: the bytes of a part or a marshalled sentinel. -/
inductive TransferFile
  | part (data : Bytes)
  | done (info : DoneInfo)
  deriving DecidableEq

section

variable (transferID : String)

/-- The path of a part. -/
def transferPartPath (partNum : ℕ) : String :=
  "transfers/" ++ transferID ++ "/parts/" ++ Decimal.pad 6 partNum

/-- The path of the sentinel. -/
def transferDonePath : String := "transfers/" ++ transferID ++ "/done"

theorem transferPartPath_injective : Function.Injective (transferPartPath transferID) := by
  intro a b h
  have hlist := congrArg String.toList h
  simp only [transferPartPath, String.toList_append, append_assoc] at hlist
  refine Decimal.pad_injective 6 (String.toList_inj.1 ?_)
  exact append_cancel_left (append_cancel_left (append_cancel_left hlist))

theorem transferPartPath_ne_done (partNum : ℕ) :
    transferPartPath transferID partNum ≠ transferDonePath transferID := by
  intro h
  have hlist := congrArg String.toList h
  simp only [transferPartPath, transferDonePath, String.toList_append, append_assoc] at hlist
  have htail := append_cancel_left (append_cancel_left hlist)
  simp at htail

end

/-- Where the uploader stands: it stores parts, it is about to write the sentinel, it is done. -/
inductive Uploader
  | storing
  | finishing (info : DoneInfo)
  | stopped
  deriving DecidableEq

/-- Where the reader stands.  `first` marks the wait for part 0 before the stream is handed out. -/
inductive TransferReader
  | testPart (first : Bool) (partNum : ℕ)
  | testDone (first : Bool) (partNum : ℕ)
  | readDone (first : Bool) (partNum : ℕ)
  | read (partNum : ℕ)
  | delete (partNum : ℕ)
  | finished
  | failed
  deriving DecidableEq

/-- The storage and the two parties; `partNum` is the number of parts the uploader has stored, and
`output` is what the reader has delivered. -/
structure Transfer where
  storage : InMemoryFileManager TransferFile
  uploader : Uploader := .storing
  partNum : ℕ := 0
  reader : TransferReader := .testPart true 0
  output : Bytes := []

/-- The steps of the two parties.  `ok` is `false` when the operation fails, or, for the reader,
when an error of the dispatched task or the end of its context reaches it. -/
inductive TransferStep
  | store
  | eof
  | abort (checksum : String) (errMsg : String)
  | sentinel (ok : Bool)
  | reader (ok : Bool)
  deriving DecidableEq

namespace Transfer

/-- The sentinel of `writeSentinel`. -/
def sentinelInfo (totalParts : ℕ) (checksum errMsg : String) : DoneInfo :=
  ⟨errMsg = "", checksum, totalParts, errMsg⟩

section

variable (transferID : String) (s : Transfer)

def readerStep (ok : Bool) : Option Transfer :=
  match s.reader with
  | .testPart first k =>
    if !ok then some { s with reader := .failed }
    else if s.storage.fileExists (transferPartPath transferID k) then
      some { s with reader := if first then .testPart false 0 else .read k }
    else some { s with reader := .testDone first k }
  | .testDone first k =>
    if !ok then some { s with reader := .failed }
    else if s.storage.fileExists (transferDonePath transferID) then
      some { s with reader := .readDone first k }
    else some { s with reader := .testPart first k }
  | .readDone _ _ =>
    match ok, s.storage.read (transferDonePath transferID) with
    | true, some (.done info) =>
      some { s with reader := if info.success then .finished else .failed }
    | _, _ => some { s with reader := .failed }
  | .read k =>
    match ok, s.storage.read (transferPartPath transferID k) with
    | true, some (.part data) => some { s with reader := .delete k, output := s.output ++ data }
    | _, _ => some { s with reader := .failed }
  | .delete k =>
    -- a part that cannot be deleted is only logged
    some { s with
      storage := if ok then s.storage.delete (transferPartPath transferID k) else s.storage
      reader := .testPart false (k + 1) }
  | .finished => none
  | .failed => none

variable (parts : List Bytes) (digest : Bytes → String)

/-- One step of the system: the upload of `parts` under `transferID`. -/
def step : TransferStep → Option Transfer
  | .store =>
    match s.uploader, parts[s.partNum]? with
    | .storing, some data => some { s with
        storage := s.storage.write (transferPartPath transferID s.partNum) (.part data)
        partNum := s.partNum + 1 }
    | _, _ => none
  | .eof =>
    if s.uploader = .storing ∧ s.partNum = parts.length then
      some { s with uploader := .finishing (sentinelInfo s.partNum (digest parts.flatten) "") }
    else none
  | .abort checksum errMsg =>
    if s.uploader = .storing ∧ errMsg ≠ "" then
      some { s with uploader := .finishing (sentinelInfo s.partNum checksum errMsg) }
    else none
  | .sentinel ok =>
    match s.uploader with
    | .finishing info => some { s with
        storage := if ok then s.storage.write (transferDonePath transferID) (.done info) else s.storage
        uploader := .stopped }
    | _ => none
  | .reader ok => s.readerStep transferID ok

end

end Transfer

/-- The sentinel that the uploader is about to write. -/
def Uploader.pending : Uploader → Option DoneInfo
  | .finishing info => some info
  | _ => none

/-- The part that the reader has just missed, before it tests for the sentinel. -/
def TransferReader.betweenTests : TransferReader → Option ℕ
  | .testDone _ k => some k
  | _ => none

namespace Transfer

/-- The condition on a step: a sentinel of success is not written between the two tests of a poll
for a part that exists. -/
def Apart (parts : List Bytes) (s : Transfer) : TransferStep → Prop
  | .sentinel true => ∀ info ∈ s.uploader.pending, ∀ k ∈ s.reader.betweenTests,
      info.success = true → parts.length ≤ k
  | _ => True

instance (parts : List Bytes) (s : Transfer) : (a : TransferStep) → Decidable (Apart parts s a)
  | .sentinel true => inferInstanceAs (Decidable (∀ _ ∈ _, ∀ _ ∈ _, _ → _))
  | .sentinel false | .store | .eof | .abort _ _ | .reader _ => .isTrue trivial

end Transfer

/-- The next part that the reader has not delivered yet. -/
def TransferReader.pos : TransferReader → Option ℕ
  | .testPart _ k => some k
  | .testDone _ k => some k
  | .readDone _ k => some k
  | .read k => some k
  | .delete k => some (k + 1)
  | .finished => none
  | .failed => none

/-- The reader has tested for part `k`, has not found it, and now looks at the sentinel. -/
def TransferReader.AtSentinel (k : ℕ) : TransferReader → Prop
  | .testDone _ k' => k' = k
  | .readDone _ k' => k' = k
  | _ => False

/-- The reader still waits before the stream is handed out. -/
def TransferReader.isFirst : TransferReader → Bool
  | .testPart first _ => first
  | .testDone first _ => first
  | .readDone first _ => first
  | _ => false

namespace Transfer

/-- The invariant of a run. -/
structure Inv (transferID : String) (parts : List Bytes) (s : Transfer) : Prop where
  le : s.partNum ≤ parts.length
  /-- From the reader's position on, the stored parts are those the uploader has written. -/
  stored : ∀ k₀ ∈ s.reader.pos, ∀ k, k₀ ≤ k →
    s.storage.read (transferPartPath transferID k) = (parts.take s.partNum)[k]?.map .part
  delivered : ∀ k₀ ∈ s.reader.pos, k₀ ≤ s.partNum ∧ s.output = (parts.take k₀).flatten
  reading : ∀ k, s.reader = .read k → k < s.partNum
  first : s.reader.isFirst = true → s.reader.pos = some 0
  seen : ∀ first k, s.reader = .readDone first k → s.storage.read (transferDonePath transferID) ≠ none
  uploading : s.uploader = .storing → s.storage.read (transferDonePath transferID) = none
  finishing : ∀ info, s.uploader = .finishing info →
    s.storage.read (transferDonePath transferID) = none ∧
      (info.success = true → s.partNum = parts.length)
  sentinel : ∀ file, s.storage.read (transferDonePath transferID) = some file →
    ∃ info, file = .done info ∧ (info.success = true → s.partNum = parts.length)
  /-- A sentinel of success behind the back of the reader means that there is no further part. -/
  between : ∀ k, s.reader.AtSentinel k → ∀ info,
    s.storage.read (transferDonePath transferID) = some (.done info) → info.success = true →
    k = parts.length
  finished : s.reader = .finished → s.output = parts.flatten

variable {transferID : String} {parts : List Bytes} {s s' : Transfer} {data : Bytes}

theorem inv_init {storage : InMemoryFileManager TransferFile}
    (hparts : ∀ k, storage.read (transferPartPath transferID k) = none)
    (hdone : storage.read (transferDonePath transferID) = none) :
    Inv transferID parts { storage := storage } where
  le := Nat.zero_le _
  stored := by
    intro k₀ _ k _
    rw [hparts k, take_zero]
    rfl
  delivered := by
    rintro k₀ ⟨⟩
    exact ⟨le_refl 0, rfl⟩
  reading := by simp
  first := fun _ => rfl
  seen := by simp
  uploading := fun _ => hdone
  finishing := by simp
  sentinel := by simp [hdone]
  between := fun k hk => hk.elim
  finished := by simp

section

variable (hs : Inv transferID parts s)

include hs

theorem Inv.store (hup : s.uploader = .storing) (hdata : parts[s.partNum]? = some data) :
    Inv transferID parts { s with
      storage := s.storage.write (transferPartPath transferID s.partNum) (.part data)
      partNum := s.partNum + 1 } := by
  have hlt : s.partNum < parts.length := (List.getElem?_eq_some_iff.1 hdata).1
  have hdone : (s.storage.write (transferPartPath transferID s.partNum) (.part data)).read
      (transferDonePath transferID) = s.storage.read (transferDonePath transferID) :=
    s.storage.read_write_ne (transferPartPath_ne_done transferID s.partNum).symm _
  have hnone := hs.uploading hup
  refine ⟨hlt, fun k₀ hk₀ k hk => ?_, fun k₀ hk₀ => ?_, fun k hk => ?_, hs.first, fun f k hr => ?_,
    fun _ => ?_, fun info hinfo => ?_, fun file hfile => ?_, fun k hk info hinfo => ?_, hs.finished⟩
  · show (s.storage.write _ _).read _ = _
    rw [s.storage.read_write]
    split_ifs with hpath
    · have hkn := transferPartPath_injective transferID hpath
      subst hkn
      rw [getElem?_take_of_lt (Nat.lt_succ_self _), hdata]
      rfl
    · have hne : k ≠ s.partNum := fun h => hpath (congrArg _ h)
      rw [hs.stored k₀ hk₀ k hk, getElem?_take, getElem?_take]
      have hiff : k < s.partNum ↔ k < s.partNum + 1 := by omega
      simp only [hiff]
  · exact (hs.delivered k₀ hk₀).imp_left Nat.le_succ_of_le
  · exact Nat.lt_succ_of_lt (hs.reading k hk)
  · exact absurd hnone (hs.seen f k hr)
  · exact hdone.trans hnone
  · rw [hup] at hinfo; cases hinfo
  · rw [hdone, hnone] at hfile; cases hfile
  · rw [hdone, hnone] at hinfo; cases hinfo

variable {info : DoneInfo}

theorem Inv.decide (hup : s.uploader = .storing)
    (hinfo : info.success = true → s.partNum = parts.length) :
    Inv transferID parts { s with uploader := .finishing info } := by
  refine { hs with uploading := nofun, finishing := ?_ }
  rintro info' ⟨⟩
  exact ⟨hs.uploading hup, hinfo⟩

theorem Inv.writeSentinel (hup : s.uploader = .finishing info)
    (hapart : ∀ first k, s.reader = .testDone first k → info.success = true → parts.length ≤ k) :
    Inv transferID parts { s with
      storage := s.storage.write (transferDonePath transferID) (.done info)
      uploader := .stopped } := by
  obtain ⟨hnone, hn⟩ := hs.finishing info hup
  have hpart : ∀ k, (s.storage.write (transferDonePath transferID) (.done info)).read
      (transferPartPath transferID k) = s.storage.read (transferPartPath transferID k) := fun k =>
    s.storage.read_write_ne (transferPartPath_ne_done transferID k) _
  refine ⟨hs.le, fun k₀ hk₀ k hk => ?_, hs.delivered, hs.reading, hs.first, fun f k hr => ?_, nofun,
    nofun, fun file hfile => ?_, fun k hk info' hinfo' hsucc => ?_, hs.finished⟩
  · exact (hpart k).trans (hs.stored k₀ hk₀ k hk)
  · exact absurd hnone (hs.seen f k hr)
  · simp only [InMemoryFileManager.read_write_self, Option.some.injEq] at hfile
    exact ⟨info, hfile.symm, hn⟩
  · simp only [InMemoryFileManager.read_write_self, Option.some.injEq, TransferFile.done.injEq]
      at hinfo'
    subst hinfo'
    -- the reader stands between its two tests: it tests for a part that does not exist
    have hpos : s.reader.pos = some k := by
      revert hk
      cases s.reader <;> simp [TransferReader.AtSentinel, TransferReader.pos]
    have hle := (hs.delivered k hpos).1
    have hge : parts.length ≤ k := by
      cases hr : s.reader with
      | testDone first k' =>
        rw [hr] at hk
        exact hk ▸ hapart first k' hr hsucc
      | readDone first k' => exact absurd hnone (hs.seen first k' hr)
      | _ => rw [hr] at hk; exact hk.elim
    have := hs.le
    omega

theorem Inv.look {r : TransferReader} (hpos : ∀ k ∈ r.pos, s.reader.pos = some k)
    (hread : ∀ k, r = .read k → k < s.partNum)
    (hfirst : r.isFirst = true → r.pos = some 0)
    (hseen : ∀ first k, r = .readDone first k → s.storage.read (transferDonePath transferID) ≠ none)
    (hbetw : ∀ k, r.AtSentinel k → ∀ info,
      s.storage.read (transferDonePath transferID) = some (.done info) → info.success = true →
      k = parts.length)
    (hfin : r = .finished → s.output = parts.flatten) :
    Inv transferID parts { s with reader := r } :=
  ⟨hs.le, fun k₀ hk₀ => hs.stored k₀ (hpos k₀ hk₀), fun k₀ hk₀ => hs.delivered k₀ (hpos k₀ hk₀),
    hread, hfirst, hseen, hs.uploading, hs.finishing, hs.sentinel, hbetw, hfin⟩

theorem Inv.fail : Inv transferID parts { s with reader := .failed } :=
  hs.look nofun nofun nofun nofun (fun _ hk => hk.elim) nofun

variable {k : ℕ}

theorem Inv.part_iff (hk : s.reader.pos = some k) :
    s.storage.fileExists (transferPartPath transferID k) = true ↔ k < s.partNum := by
  have hle := hs.le
  rw [InMemoryFileManager.fileExists, ← InMemoryFileManager.read, hs.stored k hk k (le_refl k),
    Option.isSome_map, getElem?_take]
  split_ifs with hlt
  · have hk' : k < parts.length := by omega
    simp [hlt, hk']
  · simp [hlt]

variable {first : Bool}

theorem Inv.testPart (hr : s.reader = .testPart first k) :
    (s.storage.fileExists (transferPartPath transferID k) = true →
      Inv transferID parts { s with reader := if first then .testPart false 0 else .read k }) ∧
    (s.storage.fileExists (transferPartPath transferID k) = false →
      Inv transferID parts { s with reader := .testDone first k }) := by
  have hpos : s.reader.pos = some k := by rw [hr]; rfl
  have hfirst := hs.first
  rw [hr] at hfirst
  have hiff := hs.part_iff hpos
  refine ⟨fun hex => ?_, fun hex => ?_⟩
  · cases first with
    | true =>
      -- the loop starts again with part 0, which is the part just seen
      have hk : k = 0 := Option.some.inj (hfirst rfl)
      subst hk
      exact hs.look (fun k' hk' => hpos.trans hk') nofun nofun nofun (fun _ hk => hk.elim) nofun
    | false =>
      refine hs.look (fun k' hk' => hpos.trans hk') ?_ nofun nofun (fun _ hk => hk.elim) nofun
      rintro k' ⟨⟩
      exact hiff.1 hex
  · refine hs.look (fun k' hk' => hpos.trans hk') nofun hfirst nofun ?_ nofun
    rintro k' rfl info hinfo hsucc
    obtain ⟨info', heq, hn⟩ := hs.sentinel _ hinfo
    cases heq
    have hall := hn hsucc
    have hle := (hs.delivered k hpos).1
    have hnot : ¬ k < s.partNum := fun h => by rw [hiff.2 h] at hex; cases hex
    omega

theorem Inv.testDone (hr : s.reader = .testDone first k) :
    (s.storage.fileExists (transferDonePath transferID) = true →
      Inv transferID parts { s with reader := .readDone first k }) ∧
    Inv transferID parts { s with reader := .testPart first k } := by
  have hpos : s.reader.pos = some k := by rw [hr]; rfl
  have hfirst := hs.first
  have hbetw := hs.between k
  rw [hr] at hfirst hbetw
  refine ⟨fun hex => ?_, ?_⟩
  · refine hs.look (fun k' hk' => hpos.trans hk') nofun hfirst ?_ ?_ nofun
    · intro _ _ _
      rw [← Option.isSome_iff_ne_none]
      exact hex
    · rintro k' rfl
      exact hbetw rfl
  · exact hs.look (fun k' hk' => hpos.trans hk') nofun hfirst nofun (fun _ hk => hk.elim) nofun

theorem Inv.read (hr : s.reader = .read k)
    (hdata : s.storage.read (transferPartPath transferID k) = some (.part data)) :
    Inv transferID parts { s with reader := .delete k, output := s.output ++ data } := by
  have hpos : s.reader.pos = some k := by rw [hr]; rfl
  have hlt := hs.reading k hr
  obtain ⟨-, hout⟩ := hs.delivered k hpos
  have hk : parts[k]? = some data := by
    rw [hs.stored k hpos k (le_refl k), getElem?_take_of_lt hlt] at hdata
    obtain ⟨data', hd, heq⟩ := Option.map_eq_some_iff.1 hdata
    cases heq
    exact hd
  refine ⟨hs.le, ?_, ?_, nofun, nofun, nofun, hs.uploading, hs.finishing, hs.sentinel,
    fun _ hk => hk.elim, nofun⟩
  · rintro k₀ ⟨⟩ k' hk'
    exact hs.stored k hpos k' (by omega)
  · rintro k₀ ⟨⟩
    refine ⟨hlt, ?_⟩
    rw [take_add_one, flatten_append, hk, hout]
    simp

theorem Inv.delete (hr : s.reader = .delete k) (ok : Bool) : Inv transferID parts { s with
      storage := if ok then s.storage.delete (transferPartPath transferID k) else s.storage
      reader := .testPart false (k + 1) } := by
  have hpos : s.reader.pos = some (k + 1) := by rw [hr]; rfl
  have hdone : (if ok then s.storage.delete (transferPartPath transferID k) else s.storage).read
      (transferDonePath transferID) = s.storage.read (transferDonePath transferID) := by
    cases ok
    · rfl
    · exact s.storage.read_delete_ne (transferPartPath_ne_done transferID k).symm
  refine ⟨hs.le, ?_, ?_, nofun, nofun, nofun, fun h => ?_, fun info h => ?_, fun file hfile => ?_,
    fun _ hk => hk.elim, nofun⟩
  · rintro k₀ ⟨⟩ k' hk'
    have hne : k' ≠ k := by omega
    rw [← hs.stored (k + 1) hpos k' hk']
    cases ok
    · rfl
    · exact s.storage.read_delete_ne fun h => hne (transferPartPath_injective transferID h)
  · rintro k₀ ⟨⟩
    exact hs.delivered (k + 1) hpos
  · exact hdone.trans (hs.uploading h)
  · obtain ⟨hnone, hn⟩ := hs.finishing info h
    exact ⟨hdone.trans hnone, hn⟩
  · exact hs.sentinel file (hdone.symm.trans hfile)

theorem Inv.finish (hr : s.reader = .readDone first k)
    (hinfo : s.storage.read (transferDonePath transferID) = some (.done info)) :
    Inv transferID parts { s with reader := if info.success then .finished else .failed } := by
  split_ifs with hsucc
  · refine hs.look nofun nofun nofun nofun (fun _ hk => hk.elim) fun _ => ?_
    have hpos : s.reader.pos = some k := by rw [hr]; rfl
    have hk : k = parts.length := hs.between k (by rw [hr]; rfl) info hinfo hsucc
    rw [(hs.delivered k hpos).2, hk, take_length]
  · exact hs.fail

theorem inv_readerStep {ok : Bool}
    (hstep : s.readerStep transferID ok = some s') : Inv transferID parts s' := by
  unfold readerStep at hstep
  split at hstep
  · rename_i first k hr
    split_ifs at hstep with hok hex hfirst <;> cases hstep
    · exact hs.fail
    · simpa only [if_pos hfirst] using (hs.testPart hr).1 hex
    · simpa only [if_neg hfirst] using (hs.testPart hr).1 hex
    · exact (hs.testPart hr).2 (Bool.not_eq_true _ ▸ hex)
  · rename_i first k hr
    split_ifs at hstep with hok hex <;> cases hstep
    · exact hs.fail
    · exact (hs.testDone hr).1 hex
    · exact (hs.testDone hr).2
  · rename_i hr
    split at hstep <;> cases hstep
    · rename_i hinfo
      exact hs.finish hr hinfo
    · exact hs.fail
  · rename_i hr
    split at hstep <;> cases hstep
    · rename_i hdata
      exact hs.read hr hdata
    · exact hs.fail
  · rename_i hr
    cases hstep
    exact hs.delete hr ok
  · cases hstep
  · cases hstep

end

theorem inv_step {digest : Bytes → String} {a : TransferStep} (hs : Inv transferID parts s)
    (hG : Apart parts s a) (hstep : s.step transferID parts digest a = some s') :
    Inv transferID parts s' := by
  cases a with
  | store =>
    simp only [step] at hstep
    split at hstep <;> cases hstep
    rename_i hup hdata
    exact hs.store hup hdata
  | eof =>
    simp only [step] at hstep
    split_ifs at hstep with h
    cases hstep
    exact hs.decide h.1 fun _ => h.2
  | abort checksum errMsg =>
    simp only [step] at hstep
    split_ifs at hstep with h
    cases hstep
    refine hs.decide h.1 fun hsucc => ?_
    -- the message of an error is not empty
    exact absurd (of_decide_eq_true hsucc) h.2
  | sentinel ok =>
    simp only [step] at hstep
    split at hstep <;> cases hstep
    rename_i info hup
    cases ok with
    | false =>
      exact { hs with uploading := nofun, finishing := nofun }
    | true =>
      refine hs.writeSentinel hup fun first k hr hsucc => ?_
      exact hG info (by rw [hup]; rfl) k (by rw [hr]; rfl) hsucc
  | reader ok => exact inv_readerStep hs hstep

/-- Two parts; the sentinel is written while the reader sleeps between two polls. -/
def polledApart : List TransferStep :=
  [.reader true, .reader true, .store, .reader true, .reader true, .reader true, .reader true,
    .store, .eof, .sentinel true, .reader true, .reader true, .reader true, .reader true,
    .reader true, .reader true]

/-- The second part and the sentinel are stored after the reader has missed the part and before it
tests for the sentinel. -/
def storedBetweenTests : List TransferStep :=
  [.store, .reader true, .reader true, .reader true, .reader true, .reader true,
    .store, .eof, .sentinel true, .reader true, .reader true]

end Transfer

end GameAP
