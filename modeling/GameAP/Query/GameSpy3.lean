import GameAP.Domain
import Mathlib.Data.List.Sort
import Mathlib.Order.Bounds.Basic

/-!
# Split replies of the GameSpy3 query

`cleanGameSpy3Packets` puts the packets of a reply in order and cuts off what a packet repeats of
the one before.  How much this is it does not know: `findOverlap` takes the longest end of the
result that the packet begins with.
-/

namespace GameAP.GameSpy3

open List

structure GameSpy3Packet where
  packetID : ℕ
  data : Bytes

/-- The loop of `findOverlap`, from `i` bytes down. -/
def overlapFrom (ending beginning : Bytes) : ℕ → ℕ
  | 0 => 0
  | i + 1 =>
    if ending.drop (ending.length - (i + 1)) = beginning.take (i + 1) then i + 1
    else overlapFrom ending beginning i

/-- The longest overlap. -/
def findOverlap (ending beginning : Bytes) : ℕ :=
  overlapFrom ending beginning (min ending.length beginning.length)

/-- The last 50 bytes of the result. -/
def prevEnding (result : Bytes) : Bytes := result.drop (result.length - 50)

/-- The body of the loop; without an ending, or without data, the overlap is 0. -/
def appendPacket (result : Bytes) (packet : GameSpy3Packet) : Bytes :=
  result ++ packet.data.drop (findOverlap (prevEnding result) packet.data)

/-- Puts the packets together. -/
def cleanGameSpy3Packets : List GameSpy3Packet → Bytes
  | [] => []
  | [packet] => packet.data
  | packets => (packets.insertionSort fun p q => p.packetID ≤ q.packetID).foldl appendPacket []

/-- The packets, each with the number of bytes by which it goes back, send the rest of the payload
when its first `sent` bytes have been sent. -/
def Sends (payload : Bytes) (sent : ℕ) : List (ℕ × Bytes) → Prop
  | [] => sent = payload.length
  | (m, data) :: rest => m ≤ 50 ∧ m ≤ sent ∧ data <+: payload.drop (sent - m) ∧
    Sends payload (max sent (sent - m + data.length)) rest

/-- The number of bytes that have been sent after some packets. -/
def sentAfter : ℕ → List (ℕ × Bytes) → ℕ
  | sent, [] => sent
  | sent, (m, data) :: rest => sentAfter (max sent (sent - m + data.length)) rest

/-- The packet begins with the last `j` bytes of what has been sent, at most 50. -/
def Overlaps (sent data : Bytes) (j : ℕ) : Prop :=
  j ≤ 50 ∧ j ≤ data.length ∧ data.take j <:+ sent

/-- No packet overlaps what has been sent by more bytes than it repeats; one that only repeats is an
end of what has been sent. -/
def Unambiguous (payload : Bytes) (sent : ℕ) : List (ℕ × Bytes) → Prop
  | [] => True
  | (m, data) :: rest =>
    IsGreatest ({j | Overlaps (payload.take sent) data j}) (min m data.length) ∧
      Unambiguous payload (max sent (sent - m + data.length)) rest

/-- The packets with their numbers from `k` on. -/
def numbered (k : ℕ) (packets : List (ℕ × Bytes)) : List GameSpy3Packet :=
  (packets.zipIdx k).map fun p => ⟨p.2, p.1.2⟩

variable {payload data : Bytes} {sent m k : ℕ} {packets : List (ℕ × Bytes)}

/-- The loop finds the longest match. -/
theorem overlapFrom_isGreatest (ending beginning : Bytes) (i : ℕ) :
    IsGreatest {j | j ≤ i ∧ ending.drop (ending.length - j) = beginning.take j}
      (overlapFrom ending beginning i) := by
  induction i with
  | zero => exact ⟨⟨le_rfl, drop_length⟩, fun j hj => hj.1⟩
  | succ i ih =>
    rw [overlapFrom]
    split_ifs with hmatch
    · exact ⟨⟨le_rfl, hmatch⟩, fun j hj => hj.1⟩
    · refine ⟨⟨Nat.le_succ_of_le ih.1.1, ih.1.2⟩, fun j hj => ih.2 ⟨?_, hj.2⟩⟩
      exact Nat.le_of_lt_succ (lt_of_le_of_ne hj.1 (by rintro rfl; exact hmatch hj.2))

theorem drop_prevEnding {sent : Bytes} {j : ℕ} (h50 : j ≤ 50) (hj : j ≤ sent.length) :
    (prevEnding sent).drop ((prevEnding sent).length - j) = sent.drop (sent.length - j) := by
  rw [prevEnding, drop_drop, length_drop]
  congr 1
  omega

theorem overlaps_iff {sent : Bytes} {j : ℕ} : Overlaps sent data j ↔
    j ≤ min (prevEnding sent).length data.length ∧
      (prevEnding sent).drop ((prevEnding sent).length - j) = data.take j := by
  have hlen : (prevEnding sent).length = min 50 sent.length := by
    rw [prevEnding, length_drop]
    omega
  constructor
  · rintro ⟨h50, hdata, hsuffix⟩
    have hj : j ≤ sent.length := by simpa [Nat.min_eq_left hdata] using hsuffix.length_le
    rw [suffix_iff_eq_drop, length_take, Nat.min_eq_left hdata] at hsuffix
    exact ⟨by omega, (drop_prevEnding h50 hj).trans hsuffix.symm⟩
  · rintro ⟨hj, hmatch⟩
    rw [drop_prevEnding (by omega) (by omega)] at hmatch
    exact ⟨by omega, by omega, hmatch ▸ drop_suffix ..⟩

theorem findOverlap_isGreatest (sent data : Bytes) :
    IsGreatest ({j | Overlaps sent data j}) (findOverlap (prevEnding sent) data) := by
  have hset : {j | Overlaps sent data j} =
      {j | j ≤ min (prevEnding sent).length data.length ∧
        (prevEnding sent).drop ((prevEnding sent).length - j) = data.take j} :=
    Set.ext fun j => overlaps_iff
  rw [hset]
  exact overlapFrom_isGreatest ..

/-- A packet extends what has been sent as it should exactly if the overlap is found. -/
theorem appendPacket_eq_iff (hsent : sent ≤ payload.length) (hm : m ≤ sent)
    (hdata : data <+: payload.drop (sent - m)) :
    appendPacket (payload.take sent) ⟨k, data⟩ =
        payload.take (max sent (sent - m + data.length)) ↔
      IsGreatest ({j | Overlaps (payload.take sent) data j}) (min m data.length) := by
  have hfound := findOverlap_isGreatest (payload.take sent) data
  have hle := hfound.1.2.1
  have hend : sent - m + data.length ≤ payload.length := by
    have := hdata.length_le
    rw [length_drop] at this
    omega
  rw [appendPacket]
  generalize findOverlap (prevEnding (payload.take sent)) data = g at hfound hle ⊢
  constructor
  · intro h
    have hlen := congrArg length h
    simp only [length_append, length_take, length_drop, Nat.min_eq_left hsent] at hlen
    rwa [show min m data.length = g by omega]
  · intro h
    obtain rfl := hfound.unique h
    have hdrop : data.drop (min m data.length) = (payload.drop sent).take (data.length - m) := by
      rcases le_total m data.length with hml | hml
      · conv_lhs => rw [Nat.min_eq_left hml, prefix_iff_eq_take.1 hdata]
        rw [drop_take, drop_drop, Nat.sub_add_cancel hm]
      · rw [Nat.min_eq_right hml, drop_length, Nat.sub_eq_zero_of_le hml, take_zero]
    rw [hdrop, ← take_add]
    congr 1
    omega

theorem foldl_appendPacket_iff (hsent : sent ≤ payload.length) (h : Sends payload sent packets) :
    (∀ n, (numbered k (packets.take n)).foldl appendPacket (payload.take sent) =
        payload.take (sentAfter sent (packets.take n))) ↔
      Unambiguous payload sent packets := by
  induction packets generalizing sent k with
  | nil => simp [Unambiguous, numbered, sentAfter]
  | cons p packets ih =>
    obtain ⟨-, hm, hdata, hrest⟩ := h
    have hend : sent - p.1 + p.2.length ≤ payload.length := by
      have hle := hdata.length_le
      rw [length_drop] at hle
      omega
    have hfold (n : ℕ) : (numbered k ((p :: packets).take (n + 1))).foldl appendPacket
          (payload.take sent) = (numbered (k + 1) (packets.take n)).foldl appendPacket
            (appendPacket (payload.take sent) ⟨k, p.2⟩) := rfl
    have hstep := appendPacket_eq_iff (k := k) hsent hm hdata
    rw [Unambiguous, ← ih (k := k + 1) (max_le hsent hend) hrest, ← hstep]
    constructor
    · -- the first packet alone gives its own condition
      intro hall
      have hhead := (hfold 0).symm.trans (hall 1)
      refine ⟨hhead, fun n => ?_⟩
      rw [← hstep.2 (hstep.1 hhead), ← hfold]
      exact hall (n + 1)
    · rintro ⟨hhead, hall⟩ n
      cases n with
      | zero => rfl
      | succ n =>
        rw [hfold, hhead]
        exact hall n

theorem cleanGameSpy3Packets_eq (packets : List GameSpy3Packet) : cleanGameSpy3Packets packets =
    (packets.insertionSort fun p q => p.packetID ≤ q.packetID).foldl appendPacket [] := by
  match packets with
  | [] => rfl
  | [packet] => simp [cleanGameSpy3Packets, appendPacket, prevEnding, findOverlap, overlapFrom]
  | _ :: _ :: _ => rfl

theorem insertionSort_eq {arrived : List GameSpy3Packet} (h : arrived.Perm (numbered k packets)) :
    arrived.insertionSort (fun p q => p.packetID ≤ q.packetID) = numbered k packets := by
  have hperm := (perm_insertionSort (fun p q => p.packetID ≤ q.packetID) arrived).trans h
  refine hperm.eq_of_pairwise (fun p q hp hq hpq hqp => ?_) (pairwise_insertionSort ..) ?_
  · obtain ⟨⟨x, i⟩, hx, rfl⟩ := mem_map.1 (hperm.mem_iff.1 hp)
    obtain ⟨⟨y, j⟩, hy, rfl⟩ := mem_map.1 hq
    obtain rfl : i = j := Nat.le_antisymm hpq hqp
    rw [mk_mem_zipIdx_iff_le_and_getElem?_sub] at hx hy
    rw [Option.some.inj (hx.2.symm.trans hy.2)]
  · have hnumbers : ((packets.zipIdx k).map Prod.snd).Pairwise (· ≤ ·) := by
      rw [zipIdx_map_snd]
      exact pairwise_le_range'
    exact pairwise_map.2 (pairwise_map.1 hnumbers)

theorem sentAfter_of_sends (h : Sends payload sent packets) :
    sentAfter sent packets = payload.length := by
  induction packets generalizing sent with
  | nil => exact h
  | cons p packets ih => exact ih h.2.2.2

/-- **The packets give the payload**, in whatever order they arrive, if no packet overlaps what was
sent before by more than it repeats.  If one does, it and those before it do not give what they
send. -/
theorem cleanGameSpy3Packets_payload (payload : Bytes) (packets : List (ℕ × Bytes))
    (h : Sends payload 0 packets) :
    (Unambiguous payload 0 packets ↔ ∀ n, ∀ arrived : List GameSpy3Packet,
      arrived.Perm (numbered 0 (packets.take n)) →
        cleanGameSpy3Packets arrived = payload.take (sentAfter 0 (packets.take n))) ∧
    (Unambiguous payload 0 packets → ∀ arrived : List GameSpy3Packet,
      arrived.Perm (numbered 0 packets) → cleanGameSpy3Packets arrived = payload) := by
  have hiff : Unambiguous payload 0 packets ↔ ∀ n, ∀ arrived : List GameSpy3Packet,
      arrived.Perm (numbered 0 (packets.take n)) →
        cleanGameSpy3Packets arrived = payload.take (sentAfter 0 (packets.take n)) := by
    rw [← foldl_appendPacket_iff (k := 0) (Nat.zero_le _) h]
    refine forall_congr' fun n => ⟨fun heq arrived harrived => ?_, fun hall => ?_⟩
    · rw [cleanGameSpy3Packets_eq, insertionSort_eq harrived]
      exact heq
    · have hself := hall _ (.refl _)
      rwa [cleanGameSpy3Packets_eq, insertionSort_eq (.refl _)] at hself
  refine ⟨hiff, fun hun arrived harrived => ?_⟩
  have hall := hiff.1 hun packets.length arrived (by rwa [take_length])
  rwa [take_length, sentAfter_of_sends h, take_length] at hall

/-- `"abc"` as `"ab"` and `"bc"`, the second packet first. -/
theorem cleanGameSpy3Packets_payload_swapped :
    cleanGameSpy3Packets [⟨1, [98, 99]⟩, ⟨0, [97, 98]⟩] = [97, 98, 99] :=
  (cleanGameSpy3Packets_payload [97, 98, 99] [(0, [97, 98]), (1, [98, 99])]
    ⟨by decide, by decide, by decide, by decide, by decide, by decide, rfl⟩).2
    ⟨findOverlap_isGreatest [] [97, 98], findOverlap_isGreatest [97, 98] [98, 99], trivial⟩ _
    (.swap ..)

/-- `"aa"` as `"a"` and `"a"` without an overlap. -/
theorem cleanGameSpy3Packets_repeated :
    Sends [97, 97] 0 [(0, [97]), (0, [97])] ∧
      cleanGameSpy3Packets (numbered 0 [(0, [97]), (0, [97])]) = [97] :=
  ⟨⟨by decide, by decide, by decide, by decide, by decide, by decide, rfl⟩, by decide⟩

end GameAP.GameSpy3
