import GameAP.Domain
import Mathlib.Data.List.Nodup
import Mathlib.Data.List.Perm.Basic
import Mathlib.Data.List.Perm.Subperm
import Mathlib.Data.Nat.Bitwise

/-!
# Split replies of the A2S query

`reassembleA2SSplitPacket` has read the first fragment of a reply and reads the others from the
connection: a list of datagrams, each as `Read` leaves it in the buffer, and then an error.
-/

namespace GameAP.A2S

open List

def a2sMinPacketSize : ℕ := 5
def a2sSplitHeaderSize : ℕ := 12
def a2sSplitPacketHeader : ℕ := 0xFFFFFFFE
def a2sSplitCompressedBit : ℕ := 0x80000000

/-- The errors of a query. -/
inductive A2SError
  | read
  | responseTooShort
  | fragmentTooShort
  | invalidHeader
  | compressed
  | noFragments
  | outOfRange (number total : ℕ)
  | duplicate (number : ℕ)
  | foreign

/-- One piece of a reply. -/
structure A2SSplitFragment where
  id : ℕ
  total : ℕ
  number : ℕ
  payload : Bytes

def uint32 (b : Bytes) : ℕ := (b.take 4).foldr (fun x n => x.toNat + 256 * n) 0

/-- The piece in a datagram. -/
def parseA2SSplitFragment (datagram : Bytes) : Except A2SError A2SSplitFragment :=
  if datagram.length < a2sSplitHeaderSize then .error .fragmentTooShort
  else if uint32 datagram ≠ a2sSplitPacketHeader then .error .invalidHeader
  else .ok
    { id := uint32 (datagram.drop 4)
      total := (datagram.getD 8 0).toNat
      number := (datagram.getD 9 0).toNat
      payload := datagram.drop a2sSplitHeaderSize }

/-- What the loop does with a further datagram. -/
def further (id total : ℕ) (datagram : Bytes) : Except A2SError A2SSplitFragment :=
  if datagram.length < a2sMinPacketSize then .error .responseTooShort
  else match parseA2SSplitFragment datagram with
    | .error e => .error e
    | .ok f => if f.id ≠ id ∨ f.total ≠ total then .error .foreign else .ok f

/-- The pieces in a row. -/
def join (fragments : List (Option Bytes)) : Bytes := (fragments.map (·.getD [])).flatten

/-- The loop of `reassembleA2SSplitPacket`.  A slot with an empty payload is not `nil`. -/
def collect (id total : ℕ) (fragments : List (Option Bytes)) (received : ℕ)
    (f : A2SSplitFragment) (conn : List Bytes) : Except A2SError (Bytes × List Bytes) :=
  if total ≤ f.number then .error (.outOfRange f.number total)
  else if (fragments.getD f.number none).isSome then .error (.duplicate f.number)
  else if received + 1 = total then .ok (join (fragments.set f.number (some f.payload)), conn)
  else match conn with
    | [] => .error .read
    | datagram :: conn => match further id total datagram with
      | .error e => .error e
      | .ok f' => collect id total (fragments.set f.number (some f.payload)) (received + 1) f' conn

/-- The reply, and the datagrams that are not read. -/
def reassembleA2SSplitPacket (first : Bytes) (conn : List Bytes) :
    Except A2SError (Bytes × List Bytes) :=
  match parseA2SSplitFragment first with
  | .error e => .error e
  | .ok f =>
    if f.id &&& a2sSplitCompressedBit ≠ 0 then .error .compressed
    else if f.total = 0 then .error .noFragments
    else collect f.id f.total (List.replicate f.total none) 0 f conn

/-! ### Fragments byte for byte -/

/-- The four bytes of the id of a reply, the lowest one first. -/
structure ReplyID where
  b₀ : UInt8
  b₁ : UInt8
  b₂ : UInt8
  b₃ : UInt8

/-- The id as a number. -/
def ReplyID.value (id : ReplyID) : ℕ :=
  id.b₀.toNat + 256 * (id.b₁.toNat + 256 * (id.b₂.toNat + 256 * id.b₃.toNat))

/-- A piece of a reply with its number; the field with its size is not looked at. -/
structure Part where
  number : UInt8
  size : UInt8 × UInt8 := (0, 0)
  payload : Bytes

/-- The datagram of a piece: the header `-2`, the id, the number of pieces, the number of this one,
the size and the payload. -/
def Part.datagram (id : ReplyID) (total : UInt8) (p : Part) : Bytes :=
  [0xFE, 0xFF, 0xFF, 0xFF, id.b₀, id.b₁, id.b₂, id.b₃, total, p.number, p.size.1, p.size.2] ++
    p.payload

/-- The fragment that is read from the datagram of a piece. -/
def Part.fragment (id : ReplyID) (total : UInt8) (p : Part) : A2SSplitFragment :=
  ⟨id.value, total.toNat, p.number.toNat, p.payload⟩

variable {id : ReplyID} {total : UInt8} {received : ℕ} {p : Part} {ps qs : List Part}
  {f : A2SSplitFragment} {reply datagram : Bytes} {conn rest : List Bytes}
  {fragments : List (Option Bytes)}

theorem ReplyID.value_inj {id id' : ReplyID} (h : id.value = id'.value) : id = id' := by
  obtain ⟨a₀, a₁, a₂, a₃⟩ := id
  obtain ⟨b₀, b₁, b₂, b₃⟩ := id'
  simp only [value] at h
  have ha₀ := a₀.toNat_lt
  have ha₁ := a₁.toNat_lt
  have ha₂ := a₂.toNat_lt
  have hb₀ := b₀.toNat_lt
  have hb₁ := b₁.toNat_lt
  have hb₂ := b₂.toNat_lt
  simp only [ReplyID.mk.injEq, ← UInt8.toNat_inj]
  omega

theorem value_and_compressedBit (id : ReplyID) :
    id.value &&& a2sSplitCompressedBit = 0 ↔ id.b₃ < 128 := by
  have h₀ := id.b₀.toNat_lt
  have h₁ := id.b₁.toNat_lt
  have h₂ := id.b₂.toNat_lt
  have h₃ := id.b₃.toNat_lt
  have hbit : id.value.testBit 31 = decide (128 ≤ id.b₃.toNat) := by
    rw [Nat.testBit_eq_decide_div_mod_eq, decide_eq_decide, ReplyID.value]
    omega
  rw [show a2sSplitCompressedBit = 2 ^ 31 from rfl, Nat.and_two_pow, hbit, UInt8.lt_iff_toNat_lt]
  simp

@[simp] theorem uint32_cons (a b c d : UInt8) (l : Bytes) :
    uint32 (a :: b :: c :: d :: l) = ReplyID.value ⟨a, b, c, d⟩ := rfl

theorem parse_datagram (id : ReplyID) (total : UInt8) (p : Part) :
    parseA2SSplitFragment (p.datagram id total) = .ok (p.fragment id total) := by
  have hheader : uint32 (p.datagram id total) = a2sSplitPacketHeader := by
    rw [Part.datagram, cons_append, cons_append, cons_append, cons_append, uint32_cons]
    decide
  have hlen : ¬ (p.datagram id total).length < a2sSplitHeaderSize := by
    simp [Part.datagram, a2sSplitHeaderSize]
  rw [parseA2SSplitFragment, if_neg hlen, if_neg (not_not.2 hheader)]
  rfl

theorem exists_header (h : a2sSplitHeaderSize ≤ datagram.length) :
    ∃ x₀ x₁ x₂ x₃ i₀ i₁ i₂ i₃ t n s₁ s₂ payload, datagram =
      [x₀, x₁, x₂, x₃, i₀, i₁, i₂, i₃, t, n, s₁, s₂] ++ payload := by
  have htake : datagram.take a2sSplitHeaderSize =
      (List.range a2sSplitHeaderSize).map (datagram.getD · 0) := by
    refine ext_getElem (by simp [h]) fun n hn _ => ?_
    simp [List.getElem_take, (Nat.lt_min.1 (length_take ▸ hn)).2]
  exact ⟨_, _, _, _, _, _, _, _, _, _, _, _, datagram.drop a2sSplitHeaderSize,
    (take_append_drop _ _).symm.trans (congrArg (· ++ _) htake)⟩

theorem datagram_inj {p q : Part} (h : p.datagram id total = q.datagram id total) : p = q := by
  obtain ⟨number, ⟨s₁, s₂⟩, payload⟩ := p
  simp only [Part.datagram, cons_append, nil_append, cons.injEq, true_and] at h
  obtain ⟨rfl, rfl, rfl, rfl⟩ := h
  rfl

theorem parse_eq_ok_iff : parseA2SSplitFragment datagram = .ok f ↔
    ∃ id total p, datagram = Part.datagram id total p ∧ f = p.fragment id total := by
  refine ⟨fun h => ?_, ?_⟩
  · unfold parseA2SSplitFragment at h
    split_ifs at h with hlen hheader
    obtain ⟨x₀, x₁, x₂, x₃, i₀, i₁, i₂, i₃, t, n, s₁, s₂, payload, rfl⟩ :=
      exists_header (Nat.le_of_not_lt hlen)
    have hbytes : ReplyID.mk x₀ x₁ x₂ x₃ = ⟨0xFE, 0xFF, 0xFF, 0xFF⟩ :=
      ReplyID.value_inj ((not_not.1 hheader).trans (by decide))
    cases hbytes
    cases h
    exact ⟨⟨i₀, i₁, i₂, i₃⟩, t, ⟨n, (s₁, s₂), payload⟩, rfl, rfl⟩
  · rintro ⟨id, total, p, rfl, rfl⟩
    exact parse_datagram id total p

/-- What follows the first fragment is accepted if it is the datagram of a piece of the same
reply. -/
theorem further_eq_ok_iff : further id.value total.toNat datagram = .ok f ↔
    ∃ p : Part, datagram = p.datagram id total ∧ f = p.fragment id total := by
  unfold further
  constructor
  · intro h
    split_ifs at h
    cases hparse : parseA2SSplitFragment datagram with
    | error e => simp [hparse] at h
    | ok g =>
      obtain ⟨id', total', p, rfl, rfl⟩ := parse_eq_ok_iff.1 hparse
      simp only [hparse, Part.fragment] at h
      split_ifs at h with hfor
      cases h
      obtain ⟨hid, htotal⟩ := not_or.1 hfor
      obtain rfl := ReplyID.value_inj (not_not.1 hid)
      obtain rfl := UInt8.toNat_inj.1 (not_not.1 htotal)
      exact ⟨p, rfl, rfl⟩
  · rintro ⟨p, rfl, rfl⟩
    -- a fragment is longer than the least packet
    have hlong : ¬ (p.datagram id total).length < a2sMinPacketSize := by
      simp [Part.datagram, a2sMinPacketSize]
    simp [hlong, parse_datagram, Part.fragment]

/-! ### The loop -/

/-- The numbers are those of a complete reply. -/
def Complete (total : ℕ) (ps : List Part) : Prop :=
  (ps.map (·.number.toNat)).Perm (List.range total)

/-- The slots when some pieces have been placed. -/
def slots (total : ℕ) (ps : List Part) : List (Option Bytes) :=
  (List.range total).map fun n => (ps.find? (·.number.toNat = n)).map (·.payload)

/-- The state of the loop when it has placed some pieces. -/
structure Placed (total : ℕ) (ps : List Part) (fragments : List (Option Bytes))
    (received : ℕ) : Prop where
  slots : fragments = slots total ps
  received : received = ps.length
  nodup : (ps.map (·.number.toNat)).Nodup
  lt : ∀ n ∈ ps.map (·.number.toNat), n < total

theorem placed_nil (total : ℕ) : Placed total [] (List.replicate total none) 0 :=
  ⟨by simp [A2S.slots], rfl, nodup_nil, nofun⟩

section

variable {total : ℕ}

theorem Placed.isSome_iff (h : Placed total ps fragments received) {n : ℕ} (hn : ¬total ≤ n) :
    (fragments.getD n none).isSome = true ↔ n ∈ ps.map (·.number.toNat) := by
  simp [h.slots, A2S.slots, Nat.not_le.1 hn]

theorem Placed.place (h : Placed total ps fragments received) (hout : ¬total ≤ p.number.toNat)
    (hdup : ¬(fragments.getD p.number.toNat none).isSome = true) :
    Placed total (ps ++ [p]) (fragments.set p.number.toNat (some p.payload)) (received + 1) := by
  rw [h.isSome_iff hout] at hdup
  refine ⟨?_, by simp [h.received], ?_, ?_⟩
  · rw [h.slots]
    refine ext_getElem (by simp [A2S.slots]) fun n hn _ => ?_
    simp only [A2S.slots, getElem_set, getElem_map, getElem_range, find?_append]
    by_cases heq : p.number.toNat = n
    · subst heq
      have hnone : ps.find? (·.number.toNat = p.number.toNat) = none := by simpa using hdup
      simp [hnone]
    · simp [heq]
  · rw [map_append, nodup_append']
    exact ⟨h.nodup, nodup_singleton _, by simpa using hdup⟩
  · rw [map_append, forall_mem_append]
    exact ⟨h.lt, by simpa using hout⟩

theorem Placed.complete (h : Placed total ps fragments total) : Complete total ps := by
  refine (subperm_of_subset h.nodup fun n hn => ?_).perm_of_length_le ?_
  · exact mem_range.2 (h.lt n hn)
  · rw [length_range, length_map, ← h.received]

theorem Complete.facts (h : Complete total (ps ++ p :: qs)) : p.number.toNat < total ∧
    p.number.toNat ∉ ps.map (·.number.toNat) ∧ ps.length + 1 + qs.length = total := by
  refine ⟨mem_range.1 (h.mem_iff.1 (by simp)), ?_, ?_⟩
  · have hnodup := h.nodup_iff.2 nodup_range
    rw [map_append, nodup_append'] at hnodup
    exact fun hmem => hnodup.2.2 hmem (by simp)
  · have hlen := h.length_eq
    simp only [length_map, length_append, length_cons, length_range] at hlen
    omega

end

/-- The loop succeeds with the pieces that complete those it has placed, and reads no more. -/
theorem collect_eq_ok_iff (h : Placed total.toNat ps fragments received) :
    collect id.value total.toNat fragments received (p.fragment id total) conn =
        .ok (reply, rest) ↔
      ∃ qs : List Part, conn = qs.map (Part.datagram id total) ++ rest ∧
        Complete total.toNat (ps ++ p :: qs) ∧
        reply = join (slots total.toNat (ps ++ p :: qs)) := by
  generalize hf : p.fragment id total = f
  fun_induction collect id.value total.toNat fragments received f conn generalizing ps p with
  | case1 fragments received f conn hout =>
    subst hf
    simp only [reduceCtorEq, false_iff]
    rintro ⟨qs, -, hall, -⟩
    exact hout.not_gt hall.facts.1
  | case2 fragments received f conn hout hdup =>
    subst hf
    simp only [reduceCtorEq, false_iff]
    rintro ⟨qs, -, hall, -⟩
    exact hall.facts.2.1 ((h.isSome_iff hout).1 hdup)
  | case3 fragments received f conn hout hdup hlast =>
    subst hf
    have hpl := h.place hout hdup
    dsimp only [Part.fragment]
    rw [hpl.slots]
    constructor
    · intro h
      cases h
      exact ⟨[], rfl, (hlast ▸ hpl).complete, rfl⟩
    · rintro ⟨qs, rfl, hall, rfl⟩
      have hlen := hall.facts.2.2
      rw [← h.received, hlast] at hlen
      obtain rfl : qs = [] := length_eq_zero_iff.1 (by omega)
      rfl
  | case4 fragments received f hout hdup hmore =>
    subst hf
    simp only [reduceCtorEq, false_iff]
    rintro ⟨qs, hconn, hall, -⟩
    obtain ⟨hqs, -⟩ := append_eq_nil_iff.1 hconn.symm
    rw [map_eq_nil_iff.1 hqs] at hall
    exact hmore (h.received ▸ hall.facts.2.2)
  | case5 fragments received f hout hdup hmore datagram conn e herror =>
    subst hf
    simp only [reduceCtorEq, false_iff]
    rintro ⟨qs, hconn, hall, -⟩
    cases qs with
    | nil => exact hmore (h.received ▸ hall.facts.2.2)
    | cons q qs =>
      cases hconn
      cases herror.symm.trans (further_eq_ok_iff.2 ⟨q, rfl, rfl⟩)
  | case6 fragments received f hout hdup hmore datagram conn f' hfurt ih =>
    subst hf
    obtain ⟨q, rfl, rfl⟩ := further_eq_ok_iff.1 hfurt
    rw [ih (h.place hout hdup) rfl]
    constructor
    · rintro ⟨qs, rfl, hall, rfl⟩
      exact ⟨q :: qs, rfl, by simpa using hall, by simp⟩
    · rintro ⟨qs, hconn, hall, rfl⟩
      cases qs with
      | nil => exact absurd (h.received ▸ hall.facts.2.2) hmore
      | cons q' qs =>
        obtain ⟨hq, rfl⟩ := cons_eq_cons.1 hconn
        obtain rfl := datagram_inj hq
        exact ⟨_, rfl, by simpa using hall, by simp⟩

/-! ### The reply -/

/-- The pieces are numbered in their order, and come to `total`. -/
def Numbered (total : UInt8) (qs : List Part) : Prop :=
  qs.map (·.number.toNat) = List.range total.toNat

theorem exists_numbered (h : Complete total.toNat ps) : ∃ qs, qs.Perm ps ∧ Numbered total qs := by
  have hps : Forall₂ (fun n (p : Part) => p.number.toNat = n) (ps.map (·.number.toNat)) ps :=
    forall₂_map_left_iff.2 (forall₂_same.2 fun _ _ => rfl)
  obtain ⟨qs, hqs, hperm⟩ := perm_comp_forall₂ h.symm hps
  have hmap : Forall₂ Eq (List.range total.toNat) (qs.map (·.number.toNat)) :=
    forall₂_map_right_iff.2 (hqs.imp fun _ _ h => h.symm)
  exact ⟨qs, hperm, (forall₂_eq_eq_eq ▸ hmap : _ = _).symm⟩

theorem slots_of_numbered (hperm : qs.Perm ps) (h : Numbered total qs) :
    slots total.toNat ps = qs.map fun q => some q.payload := by
  have hnodup : (ps.map (·.number.toNat)).Nodup := by
    rw [← (hperm.map _).nodup_iff, h]
    exact nodup_range
  rw [slots, ← h, map_map]
  refine map_congr_left fun q hq => ?_
  have hmem := hperm.mem_iff.1 hq
  obtain ⟨r, hr⟩ : ∃ r, ps.find? (·.number.toNat = q.number.toNat) = some r :=
    Option.isSome_iff_exists.1 (find?_isSome.2 ⟨q, hmem, by simp⟩)
  -- the numbers are distinct, so what is found is the piece itself
  obtain rfl := inj_on_of_nodup_map hnodup (mem_of_find?_eq_some hr) hmem
    (by simpa using find?_some hr)
  simp [hr]

/-- **A split reply is reassembled** exactly if the first datagrams are the pieces of one reply, in
any order, which is not compressed.  The datagrams after these are not read. -/
theorem reassembleA2SSplitPacket_eq_ok_iff (first : Bytes) (conn : List Bytes) (reply : Bytes)
    (rest : List Bytes) :
    reassembleA2SSplitPacket first conn = .ok (reply, rest) ↔
    ∃ (id : ReplyID) (total : UInt8) (ps qs : List Part), id.b₃ < 128 ∧ 0 < total ∧
      Numbered total qs ∧ qs.Perm ps ∧ first :: conn = ps.map (Part.datagram id total) ++ rest ∧
      reply = (qs.map (·.payload)).flatten := by
  have hjoin {total : UInt8} {ps qs : List Part} (hperm : qs.Perm ps) (h : Numbered total qs) :
      join (slots total.toNat ps) = (qs.map (·.payload)).flatten := by
    simp [slots_of_numbered hperm h, join, Function.comp_def]
  unfold reassembleA2SSplitPacket
  constructor
  · intro h
    cases hfirst : parseA2SSplitFragment first with
    | error e => simp [hfirst] at h
    | ok f =>
      obtain ⟨id, total, p, rfl, rfl⟩ := parse_eq_ok_iff.1 hfirst
      simp only [hfirst] at h
      split_ifs at h with hcomp hnone
      obtain ⟨ps, rfl, hall, rfl⟩ := (collect_eq_ok_iff (placed_nil total.toNat)).1 h
      obtain ⟨qs, hperm, hnum⟩ := exists_numbered hall
      refine ⟨id, total, p :: ps, qs, (value_and_compressedBit id).1 (not_not.1 hcomp), ?_, hnum,
        hperm, rfl, hjoin hperm hnum⟩
      exact UInt8.pos_iff_ne_zero.2 fun hzero => hnone (by simp [Part.fragment, hzero])
  · rintro ⟨id, total, ps, qs, hplain, hpos, hnum, hperm, hconn, rfl⟩
    have htotal : total.toNat ≠ 0 := (UInt8.lt_iff_toNat_lt.1 hpos).ne'
    have hall : Complete total.toNat ps := (hperm.symm.map _).trans (.of_eq hnum)
    cases ps with
    | nil =>
      have hlen := hall.length_eq
      simp only [map_nil, length_nil, length_range] at hlen
      exact absurd hlen.symm htotal
    | cons p ps =>
      obtain ⟨rfl, rfl⟩ := cons_eq_cons.1 hconn
      simp only [parse_datagram, Part.fragment, (value_and_compressedBit id).2 hplain, htotal, ne_eq,
        not_true_eq_false, if_false]
      exact (collect_eq_ok_iff (placed_nil total.toNat)).2
        ⟨ps, rfl, hall, (hjoin hperm hnum).symm⟩

/-- The two pieces of a reply that arrive in the other order, before a datagram of another one. -/
theorem reassembleA2SSplitPacket_swapped : reassembleA2SSplitPacket
      [0xFE, 0xFF, 0xFF, 0xFF, 7, 0, 0, 0, 2, 1, 0, 0, 30, 40]
      [[0xFE, 0xFF, 0xFF, 0xFF, 7, 0, 0, 0, 2, 0, 0, 0, 10, 20], [1]] =
    .ok ([10, 20, 30, 40], [[1]]) :=
  (reassembleA2SSplitPacket_eq_ok_iff _ _ _ _).2 ⟨⟨7, 0, 0, 0⟩, 2,
    [{ number := 1, payload := [30, 40] }, { number := 0, payload := [10, 20] }],
    [{ number := 0, payload := [10, 20] }, { number := 1, payload := [30, 40] }],
    by decide, by decide, rfl, .swap _ _ _, rfl, rfl⟩

end GameAP.A2S
