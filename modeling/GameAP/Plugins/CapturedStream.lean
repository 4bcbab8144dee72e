import GameAP.Domain
import Mathlib.Data.List.Basic
import Mathlib.Tactic.Tauto

/-!
# The captured output of a remote command

`capturedStream` keeps the head of a stream up to a capacity, counts the bytes and calls back when
more than a limit has come; the limit is set when the stream has begun.  Meanwhile the head is
polled with `slice`.
-/

namespace GameAP

open List

/-- `capturedStream`, with the callbacks that were called: values of `α`. -/
structure CapturedStream (α : Type) where
  buf : Bytes := []
  capacity : ℤ
  total : UInt64 := 0
  truncated : Bool := false
  transferLimit : UInt64 := 0
  onOverflow : Option α := none
  overflowFired : Bool := false
  called : List α := []

inductive StreamCall (α : Type)
  | write (p : Bytes)
  | armTransferLimit (limit : UInt64) (onOverflow : Option α)

variable {α : Type}

namespace CapturedStream

variable (s : CapturedStream α)

def takeOverflowLocked : CapturedStream α × Option α :=
  if s.transferLimit = 0 ∨ s.onOverflow.isNone ∨ s.overflowFired ∨ s.total ≤ s.transferLimit then
    (s, none)
  else ({ s with overflowFired := true }, s.onOverflow)

/-- The lock is released, and the callback called. -/
def finish : CapturedStream α :=
  let r := s.takeOverflowLocked
  { r.1 with called := r.1.called ++ r.2.toList }

/-- What `Write` leaves in `buf` and `truncated`. -/
def store (p : Bytes) : Bytes × Bool :=
  let free := s.capacity - s.buf.length
  if free ≤ 0 then (s.buf, s.truncated || 0 < p.length)
  else if free < p.length then (s.buf ++ p.take free.toNat, true)
  else (s.buf ++ p, s.truncated)

def write (p : Bytes) : CapturedStream α × ℕ :=
  let r := s.store p
  (finish { s with total := s.total + UInt64.ofNat p.length, buf := r.1, truncated := r.2 },
    p.length)

def armTransferLimit (limit : UInt64) (onOverflow : Option α) : CapturedStream α :=
  finish { s with transferLimit := limit, onOverflow }

/-- The piece and the next offset, with `truncated` and `total`. -/
def slice (offset : UInt64) : Bytes × UInt64 × Bool × UInt64 :=
  let captured := UInt64.ofNat s.buf.length
  let offset := if captured < offset then captured else offset
  (s.buf.drop offset.toNat, captured, s.truncated, s.total)

def step : StreamCall α → CapturedStream α
  | .write p => (s.write p).1
  | .armTransferLimit limit onOverflow => s.armTransferLimit limit onOverflow

def run (calls : List (StreamCall α)) : CapturedStream α := calls.foldl step s

/-- A `slice` after each part of the calls, with the offset that the one before has returned. -/
def poll (s : CapturedStream α) (offset : UInt64) : List (List (StreamCall α)) → List Bytes
  | [] => []
  | part :: parts =>
    let r := (s.run part).slice offset
    r.1 :: (s.run part).poll r.2.1 parts

/-- The limit is set and exceeded. -/
abbrev Over : Prop :=
  ¬ (s.transferLimit = 0 ∨ s.onOverflow.isNone ∨ s.total ≤ s.transferLimit)

end CapturedStream

def newCapturedStream (capacity : ℤ) : CapturedStream α := { capacity }

namespace CapturedStream

def written (calls : List (StreamCall α)) : Bytes :=
  calls.flatMap fun | .write p => p | _ => []

/-- The limits that were set. -/
def arms (calls : List (StreamCall α)) : List (UInt64 × Option α) :=
  calls.filterMap fun | .armTransferLimit limit onOverflow => some (limit, onOverflow) | _ => none

/-- The stream has got the bytes `w`. -/
structure Captured (capacity : ℤ) (w : Bytes) (as : List (UInt64 × Option α))
    (s : CapturedStream α) : Prop where
  cap : s.capacity = capacity
  buf : s.buf = w.take capacity.toNat
  truncated : s.truncated = decide (capacity.toNat < w.length)
  total : s.total.toNat = w.length
  armed : (s.transferLimit, s.onOverflow) = as.head?.getD (0, none)
  called : s.called = if s.overflowFired then s.onOverflow.toList else []

structure Inv (capacity : ℤ) (w : Bytes) (as : List (UInt64 × Option α)) (s : CapturedStream α) :
    Prop extends Captured capacity w as s where
  fired : s.overflowFired = decide s.Over

variable {s : CapturedStream α} {capacity : ℤ} {w p : Bytes} {as : List (UInt64 × Option α)}

theorem Captured.finish (h : Captured capacity w as s) (hover : s.overflowFired = true → s.Over) :
    Inv capacity w as s.finish := by
  unfold CapturedStream.finish takeOverflowLocked
  split_ifs with hnot
  · refine { h with called := (append_nil _).trans h.called, fired := ?_ }
    rw [Bool.eq_iff_iff, decide_eq_true_iff]
    exact ⟨hover, fun hover => by tauto⟩
  · have hfired : ¬ s.overflowFired = true := by tauto
    refine { h with called := ?_, fired := (decide_eq_true (by tauto)).symm }
    rw [h.called, if_neg hfired]
    rfl

theorem store_eq (hbuf : s.buf = w.take s.capacity.toNat)
    (htrunc : s.truncated = decide (s.capacity.toNat < w.length)) (p : Bytes) :
    s.store p = ((w ++ p).take s.capacity.toNat, decide (s.capacity.toNat < (w ++ p).length)) := by
  have hlen : s.buf.length = min s.capacity.toNat w.length := by rw [hbuf, length_take]
  have hfree : (s.capacity - s.buf.length).toNat = s.capacity.toNat - w.length := by omega
  rw [take_append, ← hbuf, length_append, ← hfree]
  unfold store
  simp only
  split_ifs with hfull hlong <;> refine Prod.ext ?_ ?_
  · simp [Int.toNat_of_nonpos hfull]
  · simp only [htrunc, ← Bool.decide_or, decide_eq_decide]
    omega
  · rfl
  · exact (decide_eq_true (by omega)).symm
  · simp only [take_of_length_le (show p.length ≤ (s.capacity - s.buf.length).toNat by omega)]
  · simp only [htrunc, decide_eq_decide]
    omega

theorem Inv.write (h : Inv capacity w as s) (hsize : (w ++ p).length < 2 ^ 64) :
    Inv capacity (w ++ p) as (s.write p).1 := by
  obtain rfl := h.cap
  have hstore := store_eq h.buf h.truncated p
  have htotal : (s.total + UInt64.ofNat p.length).toNat = (w ++ p).length := by
    rw [length_append] at hsize ⊢
    rw [UInt64.toNat_add, UInt64.toNat_ofNat', h.total]
    omega
  refine Captured.finish ⟨rfl, congrArg Prod.fst hstore, congrArg Prod.snd hstore, htotal,
    h.armed, h.called⟩ fun hfired => ?_
  -- the total has grown
  refine mt (Or.imp_right (Or.imp_right fun hle => ?_))
    (of_decide_eq_true (h.fired.symm.trans hfired))
  rw [UInt64.le_iff_toNat_le] at hle ⊢
  rw [htotal, length_append, ← h.total] at hle
  exact Nat.le_trans (Nat.le_add_right ..) hle

theorem Inv.arm (h : Inv capacity w [] s) (limit : UInt64) (onOverflow : Option α) :
    Inv capacity w [(limit, onOverflow)] (s.armTransferLimit limit onOverflow) := by
  have hnot : s.overflowFired = false :=
    h.fired.trans (decide_eq_false fun hover => hover (.inl (congrArg Prod.fst h.armed)))
  have hcalled : s.called = [] := by rw [h.called, hnot]; rfl
  refine Captured.finish { h with armed := rfl, called := ?_ } fun hfired => ?_
  · simp [hnot, hcalled]
  · cases hnot.symm.trans hfired

theorem Inv.run (h : Inv capacity w as s) (calls : List (StreamCall α))
    (hone : (as ++ arms calls).length ≤ 1) (hsize : (w ++ written calls).length < 2 ^ 64) :
    Inv capacity (w ++ written calls) (as ++ arms calls) (s.run calls) := by
  induction calls generalizing s w as with
  | nil => simpa [written, arms, CapturedStream.run] using h
  | cons call calls ih =>
    cases call with
    | write p =>
      have hcons : w ++ written (.write p :: calls) = w ++ p ++ written calls :=
        (append_assoc ..).symm
      rw [hcons] at hsize ⊢
      refine ih (h.write ?_) hone hsize
      rw [length_append] at hsize
      omega
    | armTransferLimit limit onOverflow =>
      obtain rfl : as = [] := by
        rw [← length_eq_zero_iff]
        simp only [arms, filterMap_cons, length_append, length_cons] at hone
        omega
      exact ih (h.arm limit onOverflow) hone hsize

theorem Inv.called_eq (h : Inv capacity w as s) (hone : as.length ≤ 1) (hpos : ∀ a ∈ as, 0 < a.1) :
    s.called = (as.filter (·.1.toNat < w.length)).filterMap (·.2) := by
  rw [h.called, h.fired, ← h.total]
  obtain _ | ⟨⟨limit, onOverflow⟩, _ | _⟩ := as
  · simp [(Prod.mk.inj h.armed).1]
  · obtain ⟨hlimit, hon⟩ := Prod.mk.inj h.armed
    have hne : limit ≠ 0 := UInt64.pos_iff_ne_zero.1 (hpos _ mem_cons_self)
    by_cases hlt : limit.toNat < s.total.toNat <;> cases onOverflow <;>
      simp [hlimit, hon, hne, UInt64.lt_iff_toNat_lt, hlt]
  · simp at hone

/-! ### Polls -/

theorem slice_eq (hsize : s.buf.length < 2 ^ 64) (offset : UInt64) :
    (s.slice offset).1 = s.buf.drop offset.toNat ∧ (s.slice offset).2.1.toNat = s.buf.length := by
  have hcap : (UInt64.ofNat s.buf.length).toNat = s.buf.length := by
    rw [UInt64.toNat_ofNat', Nat.mod_eq_of_lt hsize]
  refine ⟨?_, hcap⟩
  unfold slice
  simp only
  split_ifs with hlt
  · rw [UInt64.lt_iff_toNat_lt, hcap] at hlt
    rw [hcap, drop_length, drop_of_length_le (Nat.le_of_lt hlt)]
  · rfl

theorem buf_finish (s : CapturedStream α) : s.finish.buf = s.buf := by
  unfold finish takeOverflowLocked
  split_ifs <;> rfl

theorem buf_run (s : CapturedStream α) (calls : List (StreamCall α)) :
    s.buf <+: (s.run calls).buf := by
  induction calls generalizing s with
  | nil => exact prefix_rfl
  | cons call calls ih =>
    refine IsPrefix.trans ?_ (ih _)
    cases call with
    | write p =>
      simp only [step, CapturedStream.write, buf_finish, store]
      split_ifs
      · exact prefix_rfl
      all_goals exact prefix_append ..
    | armTransferLimit => exact (buf_finish _).symm ▸ prefix_rfl

theorem append_poll {parts : List (List (StreamCall α))} {offset : UInt64}
    (hoffset : offset.toNat = s.buf.length) (hsize : (s.run parts.flatten).buf.length < 2 ^ 64) :
    s.buf ++ (s.poll offset parts).flatten = (s.run parts.flatten).buf := by
  induction parts generalizing s offset with
  | nil => exact append_nil _
  | cons part parts ih =>
    have hrun : s.run (part :: parts).flatten = (s.run part).run parts.flatten := foldl_append
    rw [hrun] at hsize ⊢
    have hlen := (buf_run (s.run part) parts.flatten).length_le
    obtain ⟨hpiece, hnext⟩ := slice_eq (s := s.run part) (by omega) offset
    rw [← ih hnext hsize, poll, flatten_cons, hpiece, hoffset, ← append_assoc,
      prefix_iff_eq_append.1 (buf_run s part)]

/-- **What is captured** is the head of what was written.  The callback is called at most once, and
the slices that follow one another give the buffer piece by piece. -/
theorem stream_captured (capacity : ℤ) (calls : List (StreamCall α))
    (hone : (arms calls).length ≤ 1) (hpos : ∀ a ∈ arms calls, 0 < a.1)
    (hsize : (written calls).length < 2 ^ 64) :
    let run := (newCapturedStream capacity).run
    (run calls).buf = (written calls).take capacity.toNat ∧
    ((run calls).truncated = true ↔ capacity.toNat < (written calls).length) ∧
    (run calls).called =
      ((arms calls).filter (·.1.toNat < (written calls).length)).filterMap (·.2) ∧
    ∀ before parts offset, calls = before ++ parts.flatten →
      ((run before).slice offset).1 = (run before).buf.drop offset.toNat ∧
      (run before).buf ++ ((run before).poll ((run before).slice offset).2.1 parts).flatten =
        (run calls).buf := by
  have hnew : Inv capacity [] [] (newCapturedStream (α := α) capacity) :=
    ⟨⟨rfl, take_nil.symm, rfl, rfl, rfl, rfl⟩, rfl⟩
  have h := hnew.run calls hone hsize
  rw [nil_append, nil_append] at h
  have hbuf : ((newCapturedStream capacity).run calls).buf.length < 2 ^ 64 := by
    rw [h.buf, length_take]
    omega
  dsimp only
  refine ⟨h.buf, ?_, h.called_eq hone hpos, ?_⟩
  · rw [h.truncated, decide_eq_true_iff]
  · rintro before parts offset rfl
    have hrun : (newCapturedStream capacity).run (before ++ parts.flatten) =
        ((newCapturedStream (α := α) capacity).run before).run parts.flatten := foldl_append
    have hle := (buf_run ((newCapturedStream capacity).run before) parts.flatten).length_le
    rw [hrun] at hbuf ⊢
    obtain ⟨hpiece, hnext⟩ := slice_eq (Nat.lt_of_le_of_lt hle hbuf) offset
    exact ⟨hpiece, append_poll hnext hbuf⟩

/-- The limit is set when half of the bytes have come. -/
theorem stream_captured_late :
    let s := (newCapturedStream 4).run
      [.write [1, 2, 3], .armTransferLimit 5 (some ()), .write [4, 5, 6]]
    s.buf = [1, 2, 3, 4] ∧ s.called = [()] :=
  have h := stream_captured 4 [.write [1, 2, 3], .armTransferLimit 5 (some ()), .write [4, 5, 6]]
    (by decide) (by simp [arms]) (by decide)
  ⟨h.1, h.2.2.1⟩

end CapturedStream

end GameAP
