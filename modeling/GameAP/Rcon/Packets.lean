import GameAP.Domain
import GameAP.Lib.Readers

/-!
# Packets on a Source RCON connection

`buildPacket` writes the size of what follows, the id, the type, the body and two zero bytes;
`readPacket` takes one packet off the connection.
-/

namespace GameAP.Rcon

open Readers List

def minPacketSize : ℤ := 10
def maxPacketSize : ℤ := 4096

/-- A packet without its size. -/
structure Packet where
  id : BitVec 32
  packetType : BitVec 32
  body : Bytes

/-- What the size field says. -/
def Packet.size (p : Packet) : ℕ := 4 + 4 + p.body.length + 2

/-- `binary.Write` with `binary.LittleEndian`. -/
def putInt32 (v : BitVec 32) : Bytes := (range 4).map fun i => .ofNat (v.toNat / 256 ^ i)

/-- A little-endian `int32`. -/
def getInt32 (b : Bytes) : BitVec 32 := .ofNat 32 (b.foldr (fun x n => x.toNat + 256 * n) 0)

/-- What the size counts. -/
def Packet.payload (p : Packet) : Bytes :=
  putInt32 p.id ++ (putInt32 p.packetType ++ (p.body ++ [0, 0]))

/-- The bytes of a packet. -/
def buildPacket (p : Packet) : Bytes := putInt32 (.ofNat 32 p.size) ++ p.payload

/-- `io.ReadFull` with the message for its error. -/
def read (msg : String) (n : ℕ) (r : List Bytes) : Except String (Bytes × List Bytes) :=
  (readFull n r).mapError fun e => msg ++ ": " ++ e

/-- The packet and the rest of the connection. -/
def readPacket (conn : List Bytes) : Except String (Packet × List Bytes) := do
  let (b, conn) ← read "unable to read packet size" 4 conn
  let size := (getInt32 b).toInt
  if size < minPacketSize ∨ maxPacketSize < size then throw "invalid packet"
  let (data, conn) ← read "unable to read packet data" size.toNat conn
  let (id, buf) ← read "unable to read packet ID" 4 [data]
  let (packetType, buf) ← read "unable to read packet type" 4 buf
  let (body, _) ← read "unable to read packet body" (size - 4 - 4 - 2).toNat buf
  return (⟨getInt32 id, getInt32 packetType, body⟩, conn)

def readPackets : ℕ → List Bytes → Except String (List Packet × List Bytes)
  | 0, conn => .ok ([], conn)
  | n + 1, conn => do
    let (p, conn) ← readPacket conn
    let (ps, conn) ← readPackets n conn
    return (p :: ps, conn)

theorem getInt32_putInt32 (v : BitVec 32) : getInt32 (putInt32 v) = v := by
  have hlt := v.isLt
  apply BitVec.eq_of_toNat_eq
  simp [getInt32, putInt32, range_succ]
  omega

theorem read_append {n : ℕ} {r : List Bytes} {t u : Bytes} (hn : t.length = n)
    (h : r.flatten = t ++ u) : ∃ r', (∀ msg, read msg n r = .ok (t, r')) ∧ r'.flatten = u := by
  obtain ⟨r', hread, hr'⟩ := readFull_append h
  rw [hn] at hread
  exact ⟨r', fun msg => by rw [read, hread]; rfl, hr'⟩

theorem readPacket_buildPacket {p : Packet} {conn : List Bytes} {rest : Bytes}
    (hsize : p.size ≤ maxPacketSize) (h : conn.flatten = buildPacket p ++ rest) :
    ∃ conn', readPacket conn = .ok (p, conn') ∧ conn'.flatten = rest := by
  unfold maxPacketSize at hsize
  have hint : (BitVec.ofNat 32 p.size).toInt = p.size := by
    rw [BitVec.toInt_eq_toNat_of_lt] <;> rw [BitVec.toNat_ofNat] <;> omega
  have hok : ¬ ((p.size : ℤ) < minPacketSize ∨ maxPacketSize < p.size) := by
    unfold minPacketSize maxPacketSize Packet.size at *
    omega
  have hbody : p.body.length = ((p.size : ℤ) - 4 - 4 - 2).toNat := by
    unfold Packet.size
    omega
  have hdata : p.payload.length = (p.size : ℤ).toNat := by
    simp [Packet.payload, Packet.size, putInt32]
    omega
  rw [buildPacket, append_assoc] at h
  obtain ⟨conn₁, h₁, hconn₁⟩ := read_append (n := 4) rfl h
  obtain ⟨conn₂, h₂, hconn₂⟩ := read_append hdata hconn₁
  obtain ⟨b₁, h₃, hb₁⟩ := read_append (n := 4) rfl (flatten_singleton (l := p.payload))
  obtain ⟨b₂, h₄, hb₂⟩ := read_append (n := 4) rfl hb₁
  obtain ⟨b₃, h₅, -⟩ := read_append hbody hb₂
  refine ⟨conn₂, ?_, hconn₂⟩
  simp only [readPacket, h₁, bind, Except.bind, getInt32_putInt32, hint, if_neg hok, h₂, h₃, h₄, h₅]
  rfl

/-- **Packets are read back.**  However the bytes of some packets are cut into reads, `readPacket`
returns the packets in their order and leaves what comes after them. -/
theorem packets_read_back (ps : List Packet) (conn : List Bytes) (rest : Bytes)
    (hsize : ∀ p ∈ ps, p.size ≤ maxPacketSize) (h : conn.flatten = ps.flatMap buildPacket ++ rest) :
    ∃ conn', readPackets ps.length conn = .ok (ps, conn') ∧ conn'.flatten = rest := by
  induction ps generalizing conn with
  | nil => exact ⟨conn, rfl, h⟩
  | cons p ps ih =>
    obtain ⟨hp, hps⟩ := forall_mem_cons.1 hsize
    rw [flatMap_cons, append_assoc] at h
    obtain ⟨conn₁, hread, hconn₁⟩ := readPacket_buildPacket hp h
    obtain ⟨conn₂, hreads, hrest⟩ := ih conn₁ hps hconn₁
    refine ⟨conn₂, ?_, hrest⟩
    simp only [length_cons, readPackets, hread, bind, Except.bind, hreads]
    rfl

/-- Two packets in three reads. -/
theorem packets_read_back_split : ∃ conn', readPackets 2 [[11, 0],
      [0, 0, 7, 0, 0, 0, 2, 0, 0, 0, 97, 0, 0, 10], [0, 0, 0, 8, 0, 0, 0, 0, 0, 0, 0, 0, 0]] =
    .ok ([⟨7, 2, [97]⟩, ⟨8, 0, []⟩], conn') ∧ conn'.flatten = [] :=
  packets_read_back [⟨7, 2, [97]⟩, ⟨8, 0, []⟩] _ [] (by decide) (by decide)

theorem putInt32_getInt32 {b : Bytes} (h : b.length = 4) : putInt32 (getInt32 b) = b := by
  obtain ⟨w, x, y, z, rfl⟩ := length_eq_four.1 h
  have hw := w.toNat_lt
  have hx := x.toNat_lt
  have hy := y.toNat_lt
  have hz := z.toNat_lt
  simp [getInt32, putInt32, range_succ, ← UInt8.toNat_inj]
  omega

theorem read_sound {msg : String} {n : ℕ} {r r' : List Bytes} {t : Bytes}
    (h : read msg n r = .ok (t, r')) : t.length = n ∧ r.flatten = t ++ r'.flatten := by
  refine readFull_sound ?_
  unfold read at h
  cases hread : readFull n r with
  | error e => rw [hread] at h; cases h
  | ok x => rw [hread] at h; cases h; rfl

/-- An accepted packet has a size in the limits, and what was taken off the connection is what
`buildPacket` writes, up to the last two bytes. -/
theorem accepted_packet (conn conn' : List Bytes) (p : Packet)
    (h : readPacket conn = .ok (p, conn')) :
    minPacketSize ≤ p.size ∧ p.size ≤ maxPacketSize ∧ ∃ tail : Bytes, tail.length = 2 ∧
      conn.flatten = putInt32 (.ofNat 32 p.size) ++ (putInt32 p.id ++ (putInt32 p.packetType ++
        (p.body ++ tail))) ++ conn'.flatten := by
  -- one split for each read that may fail
  simp only [readPacket, bind, Except.bind, pure, Except.pure] at h
  split at h
  · cases h
  next x hsize =>
  obtain ⟨b, conn₁⟩ := x
  dsimp only at h
  split_ifs at h with hok
  split at h
  · cases h
  next x hdata =>
  split at h
  · cases h
  next y hid =>
  split at h
  · cases h
  next z htype =>
  split at h
  · cases h
  next w hbody =>
  cases h
  obtain ⟨hb, hconn⟩ := read_sound hsize
  obtain ⟨hlen, hconn₁⟩ := read_sound hdata
  obtain ⟨hidlen, hbuf⟩ := read_sound hid
  obtain ⟨htypelen, hbuf₁⟩ := read_sound htype
  obtain ⟨hbodylen, hbuf₂⟩ := read_sound hbody
  rw [flatten_singleton, hbuf₁, hbuf₂] at hbuf
  unfold minPacketSize maxPacketSize at *
  -- the size field is not negative, so its word is that of the size of the packet
  have heq : ((4 + 4 + w.1.length + 2 : ℕ) : ℤ) = (getInt32 b).toInt := by omega
  have hnat : BitVec.ofNat 32 (4 + 4 + w.1.length + 2) = getInt32 b := by
    rw [← BitVec.ofInt_natCast, heq, BitVec.ofInt_toInt]
  refine ⟨by simp only [Packet.size]; omega, by simp only [Packet.size]; omega, w.2.flatten, ?_, ?_⟩
  · rw [hbuf] at hlen
    simp only [length_append] at hlen
    omega
  · simp only [Packet.size, hnat, putInt32_getInt32, hb, hidlen, htypelen, ← hbuf]
    rw [hconn, hconn₁, append_assoc]

theorem accepted_packet_reply : ∃ tail : Bytes, tail.length = 2 ∧
    [10, 0, 0, 0, 7, 0, 0, 0, 2, 0, 0, 0, 5, 6] = putInt32 (.ofNat 32 (Packet.size ⟨7, 2, []⟩)) ++
      (putInt32 7 ++ (putInt32 2 ++ ([] ++ tail))) ++ [] :=
  (accepted_packet [[10, 0, 0, 0, 7, 0, 0, 0, 2, 0, 0, 0, 5, 6]] [[]] ⟨7, 2, []⟩ rfl).2.2

end GameAP.Rcon
