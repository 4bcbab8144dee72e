import GameAP.Lib.Channels
import GameAP.Transfers.Remote

/-!
# A download through the registry of this instance

When the daemon's session is on this instance, the upload and the reader of `downloadStreamLocal`
meet in a `State` of the transfer registry: the uploader stores a part and then counts it with
`AddPart`, the end of the task is told by `Complete` or `SetError`, and the reader waits in
`WaitForPart`.

A notifier changes the counters and replaces the channel of the state under the lock, and closes the
old channel after it has released the lock.  `WaitForPart` tests the counters and picks the channel
up under the lock, and blocks on it outside.  All of these are steps of their own.

* `Data` relates the counters, the storage and what the reader has delivered;
* `Wakes`: a reader that is blocked although it could go on waits on a channel that is closed or
  whose close is still to come;
* `local_transfer_safe` assembles both over all interleavings.

The reader's consumer reads the stream to its end.
-/

namespace GameAP

open Runs Channels List

/-- `transfers.State`; the channel is an address. -/
structure TransferState where
  parts : ℕ := 0
  complete : Bool := false
  err : Option String := none
  ch : ℕ := 0

/-- What `WaitForPart` finds under the lock. -/
inductive WaitResult
  | available
  | err (err : String)
  | complete
  | wait (ch : ℕ)
  deriving DecidableEq

/-- The locked section of `WaitForPart`. -/
def TransferState.waitForPart (st : TransferState) (partNum : ℕ) : WaitResult :=
  if partNum < st.parts then .available
  else
    match st.err with
    | some err => .err err
    | none => if st.complete then .complete else .wait st.ch

/-- Where the uploader stands in `flushPart`; `.close ch` is the end of `AddPart`. -/
inductive LocalUploader
  | store
  | addPart
  | close (ch : ℕ)
  | stopped
  deriving DecidableEq

/-- The channel that the uploader is about to close. -/
def LocalUploader.pending : LocalUploader → List ℕ
  | .close ch => [ch]
  | _ => []

/-- Where the reader stands.  `first` marks the wait for part 0 before the stream is handed out;
`blocked` is the `select` of `WaitForPart`. -/
inductive LocalReader
  | check (first : Bool) (partNum : ℕ)
  | blocked (first : Bool) (partNum : ℕ) (ch : ℕ)
  | read (partNum : ℕ)
  | delete (partNum : ℕ)
  | finished
  | failed
  deriving DecidableEq

/-- The number of parts that the reader has delivered, while it runs. -/
def LocalReader.pos : LocalReader → Option ℕ
  | .check _ k | .blocked _ k _ | .read k => some k
  | .delete k => some (k + 1)
  | .finished | .failed => none

/-- The part that the wait before the stream is handed out is for. -/
def LocalReader.opening : LocalReader → Option ℕ
  | .check true k | .blocked true k _ => some k
  | _ => none

def LocalReader.waiting : LocalReader → Option (Bool × ℕ)
  | .check first k | .blocked first k _ => some (first, k)
  | _ => none

/-- How an operation of the reader goes: it succeeds, it fails (for a wait: its context ends), or a
copy fails after some bytes. -/
inductive ReadOutcome
  | ok
  | fail
  | cut (written : ℕ)
  deriving DecidableEq

/-- The storage, the state in the registry and the parties.  `partNum` is the uploader's count of
parts, `closing` the channels that calls of `Complete` and `SetError` are about to close, `output`
what the reader has delivered. -/
structure LocalTransfer where
  storage : InMemoryFileManager Bytes
  st : TransferState := {}
  heap : Heap Unit := ({} : Heap Unit).make 0
  uploader : LocalUploader := .store
  partNum : ℕ := 0
  closing : List ℕ := []
  reader : LocalReader := .check true 0
  output : Bytes := []
  panicked : Bool := false

/-- The steps of the parties. -/
inductive LocalStep
  | uploader (ok : Bool)
  | complete
  | setError (err : String)
  | close (ch : ℕ)
  | reader (outcome : ReadOutcome)
  deriving DecidableEq

namespace LocalTransfer

section

variable (transferID : String) (parts : List Bytes) (s : LocalTransfer)

/-- All channels that are about to be closed. -/
def pending : List ℕ := s.closing ++ s.uploader.pending

/-- The state gets a new channel; the old one is left to be closed. -/
def renew (st : TransferState) : LocalTransfer :=
  { s with st := { st with ch := s.heap.next }, heap := s.heap.make 0 }

/-- `close(ch)`, which panics on a closed channel. -/
def closeChannel (ch : ℕ) : LocalTransfer :=
  match (s.heap.chan ch).close with
  | some c => { s with heap := s.heap.set ch c }
  | none => { s with panicked := true }

def uploaderStep (ok : Bool) : Option LocalTransfer :=
  match s.uploader with
  | .store =>
    match parts[s.partNum]? with
    | some data =>
      if ok then some { s with
        storage := s.storage.write (transferPartPath transferID s.partNum) data
        uploader := .addPart }
      else some { s with uploader := .stopped }
    | none => none
  | .addPart =>
    some { s.renew { s.st with parts := s.st.parts + 1 } with uploader := .close s.st.ch }
  | .close ch => some { s.closeChannel ch with uploader := .store, partNum := s.partNum + 1 }
  | .stopped => none

def readerStep (outcome : ReadOutcome) : Option LocalTransfer :=
  match s.reader with
  | .check first k =>
    match s.st.waitForPart k with
    | .available => some { s with reader := if first then .check false 0 else .read k }
    | .err _ => some { s with reader := .failed }
    | .complete => some { s with reader := .finished }
    | .wait ch => some { s with reader := .blocked first k ch }
  | .blocked first k ch =>
    match outcome with
    | .ok =>
      match (s.heap.chan ch).recv with
      | some (_, c) => some { s with heap := s.heap.set ch c, reader := .check first k }
      | none => none
    | _ => some { s with reader := .failed }
  | .read k =>
    match outcome, s.storage.read (transferPartPath transferID k) with
    | .ok, some data => some { s with reader := .delete k, output := s.output ++ data }
    | .cut n, some data => some { s with reader := .failed, output := s.output ++ data.take n }
    | _, _ => some { s with reader := .failed }
  | .delete k =>
    -- a part that cannot be deleted is only logged
    some { s with
      storage := if outcome = .ok then s.storage.delete (transferPartPath transferID k)
        else s.storage
      reader := .check false (k + 1) }
  | .finished => none
  | .failed => none

/-- One step of the system: the download of `parts` under `transferID`.  `Complete` is called when
the last part has been counted. -/
def step (a : LocalStep) : Option LocalTransfer :=
  if s.panicked then none
  else
    match a with
    | .uploader ok => s.uploaderStep transferID parts ok
    | .complete =>
      if s.st.parts ≠ parts.length then none
      else if s.st.complete then some s
      else some { s.renew { s.st with complete := true } with closing := s.st.ch :: s.closing }
    | .setError err =>
      some { s.renew { s.st with err := s.st.err.or (some err) } with
        closing := s.st.ch :: s.closing }
    | .close ch =>
      if ch ∈ s.closing then some { s.closeChannel ch with closing := s.closing.erase ch } else none
    | .reader outcome => s.readerStep transferID outcome

end

/-! ### Waking the reader -/

section

variable {transferID : String} {parts : List Bytes} {s s' : LocalTransfer}

/-- No close panics, and a blocked reader has nothing to do yet or is woken. -/
structure Wakes (s : LocalTransfer) : Prop where
  gens : Generations s.heap s.st.ch s.pending
  calm : s.panicked = false
  blocked : ∀ first k ch, s.reader = .blocked first k ch → ch < s.heap.next ∧
    (s.st.waitForPart k = .wait ch ∨ Signalled s.heap s.pending ch)

variable {st : TransferState} {k ch : ℕ} {reader : LocalReader} {heap : Heap Unit} {output : Bytes}
  {first : Bool}

theorem waitForPart_spec (st : TransferState) (k : ℕ) : match st.waitForPart k with
    | .available => k < st.parts
    | .complete => st.parts ≤ k ∧ st.complete = true
    | .wait ch => st.ch = ch
    | .err _ => True := by
  unfold TransferState.waitForPart
  by_cases hpart : k < st.parts
  · simp [hpart]
  · cases herr : st.err with
    | some err => simp [hpart]
    | none => cases hcomp : st.complete <;> simp [hpart, Nat.not_lt.1 hpart]

theorem ch_of_wait (h : st.waitForPart k = .wait ch) : st.ch = ch := by
  have hspec := waitForPart_spec st k
  rwa [h] at hspec

theorem Wakes.renew (h : Wakes s) (hheap : s'.heap = s.heap.make 0)
    (hch : s'.st.ch = s.heap.next) (hpend : (s.st.ch :: s.pending).Perm s'.pending)
    (hread : s'.reader = s.reader) (hcalm : s'.panicked = s.panicked) : Wakes s' where
  gens := by
    rw [hheap, hch]
    exact (h.gens.renew 0).perm hpend
  calm := hcalm.trans h.calm
  blocked first k ch hbloc := by
    obtain ⟨hlt, hwait⟩ := h.blocked first k ch (hread ▸ hbloc)
    rw [hheap]
    refine ⟨Nat.lt_succ_of_lt hlt, .inr ?_⟩
    rcases hwait with hwait | hsign
    · have hold : ch ∈ s.st.ch :: s.pending := mem_cons.2 (.inl (ch_of_wait hwait).symm)
      exact .inr (hpend.mem_iff.1 hold)
    · exact (hsign.renew hlt 0).perm hpend

theorem Wakes.close (h : Wakes s)
    (hheap : s'.heap = s.heap.set ch { s.heap.chan ch with closed := true }) (hst : s'.st = s.st)
    (hpend : s.pending.Perm (ch :: s'.pending)) (hread : s'.reader = s.reader)
    (hcalm : s'.panicked = s.panicked) : Wakes s' := by
  have hch : ch ∈ s.pending := hpend.mem_iff.2 mem_cons_self
  have herase : (s.pending.erase ch).Perm s'.pending := by
    simpa using hpend.erase ch
  refine ⟨?_, hcalm.trans h.calm, fun first k i hbloc => ?_⟩
  · rw [hheap, hst]
    exact (h.gens.close hch).perm herase
  · obtain ⟨hlt, hwait⟩ := h.blocked first k i (hread ▸ hbloc)
    rw [hheap, hst]
    exact ⟨hlt, hwait.imp_right fun hsign => hsign.close.perm herase⟩

theorem Wakes.read (h : Wakes s) {storage : InMemoryFileManager Bytes}
    (hnext : heap.next = s.heap.next) (hcl : ∀ i, (heap.chan i).closed = (s.heap.chan i).closed)
    (hbloc : ∀ first k ch, reader = .blocked first k ch → s.st.waitForPart k = .wait ch) :
    Wakes { s with storage, heap, reader, output } where
  gens := ⟨fun i hi => hnext ▸ h.gens.lt i hi, fun i hi => (hcl i).trans (h.gens.isOpen i hi),
    h.gens.nodup⟩
  calm := h.calm
  blocked first k ch hread := by
    have hwait := hbloc first k ch hread
    have hlt := h.gens.lt s.st.ch mem_cons_self
    rw [hnext, ← ch_of_wait hwait]
    exact ⟨hlt, .inl (ch_of_wait hwait ▸ hwait)⟩

theorem closeChannel_eq (h : Wakes s) (hch : ch ∈ s.pending) : s.closeChannel ch =
      { s with heap := s.heap.set ch { s.heap.chan ch with closed := true } } := by
  rw [closeChannel, Channel.close_open (h.gens.isOpen ch (mem_cons_of_mem _ hch))]

theorem pending_of_idle (h : s.uploader.pending = []) : s.pending = s.closing := by
  rw [pending, h, append_nil]

theorem Wakes.upload (h : Wakes s) (hheap : s'.heap = s.heap) (hst : s'.st = s.st)
    (hpend : s'.pending = s.pending) (hread : s'.reader = s.reader)
    (hcalm : s'.panicked = s.panicked) : Wakes s' := by
  obtain ⟨hgens, hquiet, hbloc⟩ := h
  rw [← hheap, ← hst, ← hpend] at hgens
  rw [← hheap, ← hst, ← hpend, ← hread] at hbloc
  exact ⟨hgens, hcalm.trans hquiet, hbloc⟩

/-! ### What is stored and delivered -/

/-- The number of parts in the storage or delivered. -/
def storedParts (s : LocalTransfer) : ℕ := s.st.parts + if s.uploader = .addPart then 1 else 0

/-- The counters, the storage and the output. -/
structure Data (transferID : String) (parts : List Bytes) (s : LocalTransfer) : Prop where
  counted : s.partNum + s.uploader.pending.length = s.st.parts
  bound : s.storedParts ≤ parts.length
  stored : ∀ p ∈ s.reader.pos, ∀ k, p ≤ k → k < s.storedParts →
    s.storage.read (transferPartPath transferID k) = parts[k]?
  opening : ∀ k ∈ s.reader.opening, k = 0
  reached : ∀ p ∈ s.reader.pos, p ≤ s.st.parts
  reading : ∀ k, s.reader = .read k → k < s.st.parts
  delivered : ∀ p ∈ s.reader.pos, s.output = (parts.take p).flatten
  ended : s.reader = .finished → s.output = parts.flatten
  ordered : s.output <+: parts.flatten
  completed : s.st.complete = true → s.st.parts = parts.length

theorem flatten_take_isPrefix (parts : List Bytes) (p : ℕ) :
    (parts.take p).flatten <+: parts.flatten := by
  refine ⟨(parts.drop p).flatten, ?_⟩
  rw [← flatten_append, take_append_drop]

theorem flatten_take_succ {data : Bytes} (h : parts[k]? = some data) :
    (parts.take (k + 1)).flatten = (parts.take k).flatten ++ data := by
  rw [take_add_one, h, flatten_append]
  simp

theorem inv_uploaderStep (hw : Wakes s) (h : Data transferID parts s) {ok : Bool}
    (hstep : s.uploaderStep transferID parts ok = some s') :
    Wakes s' ∧ Data transferID parts s' := by
  unfold uploaderStep at hstep
  have hcoun := h.counted
  have hst := h.stored
  have hbound := h.bound
  unfold storedParts at hst hbound
  cases hup : s.uploader with
  | store =>
    have hpend : s.pending = s.closing := pending_of_idle (by rw [hup]; rfl)
    simp only [hup, LocalUploader.pending, length_nil, Nat.add_zero, reduceCtorEq, if_false]
      at hcoun hst hbound
    simp only [hup] at hstep
    split at hstep
    · next data hdata =>
      have hlt : s.st.parts < parts.length := hcoun ▸ (List.getElem?_eq_some_iff.1 hdata).1
      split_ifs at hstep <;> cases hstep <;>
        refine ⟨hw.upload rfl rfl ((pending_of_idle rfl).trans hpend.symm) rfl rfl, ?_⟩
      · refine { h with counted := hcoun, bound := hlt, stored := fun p hp k hpk hk => ?_ }
        have hk : k < s.st.parts + 1 := hk
        rcases Nat.lt_succ_iff_lt_or_eq.1 hk with hk | rfl
        · have hne : transferPartPath transferID k ≠ transferPartPath transferID s.partNum :=
            fun heq => by have := transferPartPath_injective transferID heq; omega
          rw [InMemoryFileManager.read_write_ne _ hne]
          exact hst p hp k hpk hk
        · rw [← hcoun, InMemoryFileManager.read_write_self, hdata]
      · exact { h with counted := hcoun, bound := hbound, stored := hst }
    · cases hstep
  | addPart =>
    have hpend : s.pending = s.closing := pending_of_idle (by rw [hup]; rfl)
    simp only [hup, LocalUploader.pending, length_nil, Nat.add_zero, if_true]
      at hcoun hst hbound
    simp only [hup] at hstep
    cases hstep
    refine ⟨hw.renew rfl rfl ?_ rfl rfl, { h with
      counted := congrArg (· + 1) hcoun
      bound := hbound
      stored := hst
      reached := fun p hp => Nat.le_succ_of_le (h.reached p hp)
      reading := fun k hk => Nat.lt_succ_of_lt (h.reading k hk)
      completed := fun hcomp => absurd (h.completed hcomp) (by omega) }⟩
    rw [hpend]
    exact (perm_append_singleton _ _).symm
  | close ch =>
    have hpend : s.pending = s.closing ++ [ch] := by rw [pending, hup]; rfl
    have hmem : ch ∈ s.pending := by simp [hpend]
    simp only [hup, LocalUploader.pending, length_singleton, Nat.add_zero, reduceCtorEq, if_false]
      at hcoun hst hbound
    simp only [hup, closeChannel_eq hw hmem] at hstep
    cases hstep
    refine ⟨hw.close rfl rfl ?_ rfl rfl,
      { h with counted := hcoun, bound := hbound, stored := hst }⟩
    rw [hpend, pending_of_idle rfl]
    exact perm_append_singleton _ _
  | stopped => simp [hup] at hstep

theorem Data.fail (h : Data transferID parts s) (hord : output <+: parts.flatten) :
    Data transferID parts { s with reader := .failed, output := output } :=
  { h with
    stored := nofun
    opening := nofun
    reached := nofun
    reading := nofun
    delivered := nofun
    ended := nofun
    ordered := hord }

theorem Data.stay (h : Data transferID parts s)
    (hpos : reader.pos = s.reader.pos) (hopen : ∀ k ∈ reader.opening, k = 0)
    (hread : ∀ k, reader = .read k → k < s.st.parts) (hended : reader ≠ .finished) :
    Data transferID parts { s with heap, reader } :=
  { h with
    stored := fun p hp => h.stored p (hpos ▸ hp)
    opening := hopen
    reached := fun p hp => h.reached p (hpos ▸ hp)
    reading := hread
    delivered := fun p hp => h.delivered p (hpos ▸ hp)
    ended := fun hfin => absurd hfin hended }

theorem inv_readerStep (hw : Wakes s) (h : Data transferID parts s) {outcome : ReadOutcome}
    (hstep : s.readerStep transferID outcome = some s') :
    Wakes s' ∧ Data transferID parts s' := by
  have ⟨hcoun, hbound, hst, hopen, hreac, hreadi, hdel, _, hord,
    hcomp⟩ := h
  unfold readerStep at hstep
  cases hreader : s.reader with
  | check first k =>
    simp only [hreader] at hstep
    have hspec := waitForPart_spec s.st k
    cases hwait : s.st.waitForPart k with
    | available =>
      have hpart : k < s.st.parts := by rwa [hwait] at hspec
      simp only [hwait] at hstep
      cases hstep
      cases first with
      | true =>
        obtain rfl : k = 0 := hopen k (by rw [hreader]; rfl)
        exact ⟨hw.read rfl (fun _ => rfl) nofun, h.stay (by rw [hreader]; rfl) nofun nofun nofun⟩
      | false =>
        refine ⟨hw.read rfl (fun _ => rfl) nofun,
          h.stay (by rw [hreader]; rfl) nofun (fun _ heq => ?_) nofun⟩
        cases heq
        exact hpart
    | err err =>
      simp only [hwait] at hstep
      cases hstep
      exact ⟨hw.read rfl (fun _ => rfl) nofun, h.fail hord⟩
    | complete =>
      -- all parts have been counted, and the reader has delivered as many
      rw [hwait] at hspec
      obtain ⟨hle, hcompl⟩ := hspec
      have hpos : k ∈ s.reader.pos := by rw [hreader]; rfl
      have hall : k = parts.length := by
        have hk := hreac k hpos
        have := hcomp hcompl
        omega
      simp only [hwait] at hstep
      cases hstep
      refine ⟨hw.read rfl (fun _ => rfl) nofun, hcoun, hbound, nofun, nofun, nofun, nofun, nofun,
        fun _ => ?_, hord, hcomp⟩
      rw [hdel k hpos, hall, take_length]
    | wait ch =>
      simp only [hwait] at hstep
      cases hstep
      refine ⟨hw.read rfl (fun _ => rfl) fun _ _ _ hbloc => ?_,
        h.stay (by rw [hreader]; rfl) (fun k' hk' => hopen k' ?_) nofun nofun⟩
      · cases hbloc
        exact hwait
      · rw [hreader]
        cases first <;> exact hk'
  | blocked first k ch =>
    simp only [hreader] at hstep
    split at hstep
    · split at hstep
      · next hrecv =>
        cases hstep
        refine ⟨hw.read rfl (s.heap.set_closed (Channel.recv_frame hrecv).2.1) nofun,
          h.stay (by rw [hreader]; rfl) (fun k' hk' => hopen k' ?_) nofun nofun⟩
        rw [hreader]
        cases first <;> exact hk'
      · cases hstep
    · cases hstep
      exact ⟨hw.read rfl (fun _ => rfl) nofun, h.fail hord⟩
  | read k =>
    have hpart := hreadi k hreader
    rw [hreader] at hst hreac hdel
    have houtput := hdel k rfl
    have hread : s.storage.read (transferPartPath transferID k) = parts[k]? :=
      hst k rfl k (Nat.le_refl k) (Nat.lt_of_lt_of_le hpart (Nat.le_add_right _ _))
    simp only [hreader] at hstep
    split at hstep <;> cases hstep <;> refine ⟨hw.read rfl (fun _ => rfl) nofun, ?_⟩
    · next data hdata =>
      have hnext : s.output ++ data = (parts.take (k + 1)).flatten := by
        rw [houtput, flatten_take_succ (hread ▸ hdata)]
      refine ⟨hcoun, hbound, fun p hp i hpi => ?_, nofun, fun p hp => ?_, nofun, fun p hp => ?_,
        nofun, ?_, hcomp⟩
      · cases hp
        exact hst k rfl i (Nat.le_of_succ_le hpi)
      · cases hp
        exact hpart
      · cases hp
        exact hnext
      · rw [hnext]
        exact flatten_take_isPrefix parts (k + 1)
    · next n data hdata =>
      refine h.fail (List.IsPrefix.trans ?_ (flatten_take_isPrefix parts (k + 1)))
      rw [houtput, flatten_take_succ (hread ▸ hdata)]
      exact (prefix_append_right_inj _).2 (List.take_prefix n data)
    · exact h.fail hord
  | delete k =>
    rw [hreader] at hst hreac hdel
    simp only [hreader] at hstep
    cases hstep
    refine ⟨hw.read rfl (fun _ => rfl) nofun, hcoun, hbound, fun p hp i hpi hi => ?_, nofun,
      hreac, nofun, hdel, nofun, hord, hcomp⟩
    cases hp
    have hne : transferPartPath transferID i ≠ transferPartPath transferID k :=
      fun heq => by have := transferPartPath_injective transferID heq; omega
    have hkept := hst (k + 1) rfl i hpi hi
    split_ifs
    · rw [InMemoryFileManager.read_delete_ne _ hne, hkept]
    · exact hkept
  | finished | failed => simp [hreader] at hstep

theorem inv_step {a : LocalStep} (h : Wakes s ∧ Data transferID parts s)
    (hstep : s.step transferID parts a = some s') : Wakes s' ∧ Data transferID parts s' := by
  obtain ⟨hw, h⟩ := h
  unfold step at hstep
  rw [hw.calm, if_neg Bool.false_ne_true] at hstep
  cases a with
  | uploader ok => exact inv_uploaderStep hw h hstep
  | reader outcome => exact inv_readerStep hw h hstep
  | complete =>
    split_ifs at hstep with hparts <;> cases hstep
    · exact ⟨hw, h⟩
    · exact ⟨hw.renew rfl rfl (List.Perm.refl _) rfl rfl,
        { h with completed := fun _ => not_not.1 hparts }⟩
  | setError err =>
    cases hstep
    exact ⟨hw.renew rfl rfl (List.Perm.refl _) rfl rfl, { h with }⟩
  | close ch =>
    simp only at hstep
    split_ifs at hstep with hmem
    rw [closeChannel_eq hw (mem_append_left _ hmem)] at hstep
    cases hstep
    exact ⟨hw.close rfl rfl ((perm_cons_erase hmem).append_right _) rfl rfl, { h with }⟩

/-! ### All interleavings -/

theorem data_init (storage : InMemoryFileManager Bytes) : Data transferID parts { storage } where
  counted := rfl
  bound := Nat.zero_le _
  stored _ _ _ _ hk := absurd hk (Nat.not_lt_zero _)
  opening k hk := by
    cases hk
    rfl
  reached p hp := by
    cases hp
    exact Nat.le_refl 0
  reading := nofun
  delivered p hp := by
    cases hp
    rfl
  ended := nofun
  ordered := List.nil_prefix
  completed := nofun

/-- `Complete` or `SetError` has been called. -/
def Decided (s : LocalTransfer) : Prop := s.st.complete = true ∨ s.st.err.isSome = true

theorem closeChannel_st (s : LocalTransfer) (ch : ℕ) : (s.closeChannel ch).st = s.st := by
  unfold closeChannel
  split <;> rfl

theorem decided_congr (hst : s'.st = s.st) (h : s.Decided) : s'.Decided := by
  rwa [Decided, hst]

theorem decided_step : Stable (step transferID parts) Decided := by
  intro s a s' h hstep
  unfold step at hstep
  split at hstep
  · cases hstep
  cases a with
  | uploader ok =>
    unfold uploaderStep at hstep
    dsimp only at hstep
    split at hstep
    · split at hstep
      · split_ifs at hstep <;> cases hstep <;> exact h
      · cases hstep
    · cases hstep
      exact h
    · cases hstep
      exact decided_congr (closeChannel_st s _) h
    · cases hstep
  | complete =>
    dsimp only at hstep
    split_ifs at hstep <;> cases hstep
    · exact h
    · exact .inl rfl
  | setError err =>
    cases hstep
    exact h.imp id fun _ => by simp [renew]
  | close ch =>
    dsimp only at hstep
    split_ifs at hstep
    cases hstep
    exact decided_congr (closeChannel_st s ch) h
  | reader outcome =>
    dsimp only [readerStep] at hstep
    repeat' split at hstep
    all_goals cases hstep <;> exact h

/-- Both calls leave their mark in the state. -/
theorem decided_of_end {a : LocalStep} (ha : a = .complete ∨ ∃ err, a = .setError err)
    (hstep : s.step transferID parts a = some s') : s'.Decided := by
  unfold step at hstep
  split at hstep
  · cases hstep
  rcases ha with rfl | ⟨err, rfl⟩
  · dsimp only at hstep
    split_ifs at hstep with hparts hcomp <;> cases hstep
    · exact .inl hcomp
    · exact .inl rfl
  · cases hstep
    exact .inr (by cases s.st.err <;> simp [renew])

theorem waitForPart_ne_wait (h : st.complete = true ∨ st.err.isSome)
    (k ch : ℕ) : st.waitForPart k ≠ .wait ch := by
  unfold TransferState.waitForPart
  by_cases hpart : k < st.parts
  · simp [hpart]
  · cases herr : st.err with
    | some err => simp [hpart]
    | none =>
      have hcomp : st.complete = true := h.resolve_right (by simp [herr])
      simp [hpart, hcomp]

theorem step_uploader_close (hw : Wakes s) (hup : s.uploader = .close ch) (ok : Bool) :
    s.step transferID parts (.uploader ok) = some { s with
      heap := s.heap.set ch { s.heap.chan ch with closed := true }
      uploader := .store
      partNum := s.partNum + 1 } := by
  have hmem : ch ∈ s.pending := by simp [pending, hup, LocalUploader.pending]
  simp only [step, hw.calm, Bool.false_eq_true, if_false, uploaderStep, hup,
    closeChannel_eq hw hmem]

theorem exists_close (hw : Wakes s) (hch : ch ∈ s.pending) :
    ∃ a ∈ [LocalStep.close ch, .uploader true], ∃ s', s.step transferID parts a = some s' ∧
      s'.reader = s.reader ∧ (s'.heap.chan ch).closed = true := by
  have hset : ((s.heap.set ch { s.heap.chan ch with closed := true }).chan ch).closed = true := by
    rw [Heap.set_chan_self]
  rcases mem_append.1 hch with hmem | hmem
  · have hstep : s.step transferID parts (.close ch) = some { s with
        heap := s.heap.set ch { s.heap.chan ch with closed := true }
        closing := s.closing.erase ch } := by
      simp only [step, hw.calm, Bool.false_eq_true, if_false, if_pos hmem,
        closeChannel_eq hw (mem_append_left _ hmem)]
    exact ⟨_, by simp, _, hstep, rfl, hset⟩
  · have hup : s.uploader = .close ch := by
      cases hup : s.uploader <;> simp_all [LocalUploader.pending]
    exact ⟨_, by simp, _, step_uploader_close hw hup true, rfl, hset⟩

theorem exists_wake (hw : Wakes s)
    (hread : s.reader = .blocked first k ch) (hcl : (s.heap.chan ch).closed = true) :
    ∃ s', s.step transferID parts (.reader .ok) = some s' ∧ s'.reader = .check first k := by
  obtain ⟨⟨v, c⟩, hrecv⟩ := Channel.recv_of_closed hcl
  have hstep : s.step transferID parts (.reader .ok) =
      some { s with heap := s.heap.set ch c, reader := .check first k } := by
    simp only [step, hw.calm, Bool.false_eq_true, if_false, readerStep, hread, hrecv]
  exact ⟨_, hstep, rfl⟩

theorem exists_leave (hw : Wakes s) (hread : s.reader = .check first k)
    (hdec : s.st.complete = true ∨ s.st.err.isSome) :
    ∃ s', s.step transferID parts (.reader .ok) = some s' ∧
      s'.reader.waiting ≠ some (first, k) := by
  have hstep : s.step transferID parts (.reader .ok) = s.readerStep transferID .ok := by
    rw [step, hw.calm, if_neg Bool.false_ne_true]
  simp only [hstep, readerStep, hread]
  cases hwait : s.st.waitForPart k with
  | available =>
    refine ⟨_, rfl, ?_⟩
    cases first <;> simp [LocalReader.waiting]
  | err | complete => exact ⟨_, rfl, nofun⟩
  | wait ch => exact absurd hwait (waitForPart_ne_wait hdec k ch)

/-- **A local download**: a part that is read has been stored and counted, what is delivered is a
beginning of the file, and all of it when the stream ends cleanly, no close panics, and after
`Complete` or `SetError` a reader that waits can leave. -/
theorem local_transfer_safe (transferID : String) (parts : List Bytes)
    (storage : InMemoryFileManager Bytes) (steps : List LocalStep) (s : LocalTransfer)
    (hrun : run (step transferID parts) { storage } steps = some s) :
    (∀ k, s.reader = .read k → k < s.st.parts ∧ ∃ data, parts[k]? = some data ∧
      s.storage.read (transferPartPath transferID k) = some data) ∧
    (s.output <+: parts.flatten ∧ ∀ p ∈ s.reader.pos, s.output = (parts.take p).flatten) ∧
    (s.reader = .finished → s.output = parts.flatten) ∧
    s.panicked = false ∧
    (.complete ∈ steps ∨ (∃ err, .setError err ∈ steps) → (∀ first k, s.reader = .check first k →
        ∃ s', s.step transferID parts (.reader .ok) = some s' ∧
          s'.reader.waiting ≠ some (first, k)) ∧
      ∀ first k ch, s.reader = .blocked first k ch →
        (∃ s', s.step transferID parts (.reader .ok) = some s' ∧ s'.reader = .check first k) ∨
        ch ∈ s.pending ∧ ∃ a ∈ [LocalStep.close ch, .uploader true], ∃ s' s'',
          s.step transferID parts a = some s' ∧
          s'.step transferID parts (.reader .ok) = some s'' ∧ s''.reader = .check first k) := by
  obtain ⟨hw, hd⟩ : Wakes s ∧ Data transferID parts s :=
    run_inv_all (fun s => Wakes s ∧ Data transferID parts s) (fun _ _ _ => inv_step)
      ⟨⟨generations_first 0, rfl, fun _ _ _ h => by cases h⟩, data_init storage⟩ hrun
  have hdecided (hend : .complete ∈ steps ∨ ∃ err, .setError err ∈ steps) : s.Decided :=
    run_since Decided decided_step (fun _ _ _ => decided_of_end)
      (hend.elim (fun h => ⟨_, h, .inl rfl⟩) fun ⟨err, h⟩ => ⟨_, h, .inr ⟨err, rfl⟩⟩) hrun
  refine ⟨fun k hread => ?_, ⟨hd.ordered, hd.delivered⟩, hd.ended, hw.calm, fun hend =>
    ⟨fun first k hreader => exists_leave hw hreader (hdecided hend), fun first k ch hreader => ?_⟩⟩
  · have hk := hd.reading k hread
    have hst : k < s.storedParts := Nat.lt_of_lt_of_le hk (Nat.le_add_right _ _)
    have hlt := Nat.lt_of_lt_of_le hst hd.bound
    have hpos : k ∈ s.reader.pos := by rw [hread]; rfl
    refine ⟨hk, parts[k], List.getElem?_eq_getElem hlt, ?_⟩
    rw [hd.stored k hpos k (Nat.le_refl k) hst, List.getElem?_eq_getElem hlt]
  · obtain ⟨-, hwait | hcl | hpend⟩ := hw.blocked first k ch hreader
    · exact absurd hwait (waitForPart_ne_wait (hdecided hend) k ch)
    · exact .inl (exists_wake hw hreader hcl)
    · obtain ⟨a, ha, s', hstep, hsame, hcl⟩ := exists_close hw hpend
      have hw' := (inv_step ⟨hw, hd⟩ hstep).1
      obtain ⟨s'', hwake, hcheck⟩ := exists_wake hw' (hsame.trans hreader) hcl
      exact .inr ⟨hpend, a, ha, s', s'', hstep, hwake, hcheck⟩

/-- Two parts.  The reader blocks before each of them and before the end, and each time it is woken
by the close that follows. -/
def blockedBeforeEach : List LocalStep :=
  [.reader .ok, .uploader true, .uploader true, .uploader true, .reader .ok, .reader .ok,
    .reader .ok, .reader .ok, .reader .ok, .reader .ok, .uploader true, .uploader true,
    .uploader true, .reader .ok, .reader .ok, .reader .ok, .reader .ok, .reader .ok, .complete,
    .close 2, .reader .ok, .reader .ok]

theorem local_transfer_two_parts :
    ∃ s, run (step "t" [[1], [2]]) { storage := .new } blockedBeforeEach = some s ∧
      s.reader = .finished ∧ s.output = [[1], [2]].flatten :=
  ⟨_, rfl, rfl, (local_transfer_safe "t" [[1], [2]] .new blockedBeforeEach _ rfl).2.2.1 rfl⟩

end

end LocalTransfer

end GameAP
