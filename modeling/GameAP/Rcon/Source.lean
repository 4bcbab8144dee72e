import Mathlib.Data.Int.Notation
import Mathlib.Data.List.Basic

/-!
# Commands on one Source RCON connection

`rcon.Source.Execute` sends a command under the request id of the connection, reads one packet and
returns its body if the packet bears that id.  The id is counted up after a success only.  So an
answer of two packets leaves one behind, the next call fails on it and leaves its own answer
unread, and the call after that sends its command under the same id.
-/

namespace GameAP.Rcon

def serverDataResponseValue : ℤ := 0

/-- A packet of the server, with the number of the command that it answers. -/
structure SourcePacket where
  id : BitVec 32
  type : ℤ
  body : String
  command : ℕ
  deriving DecidableEq

/-- The errors of a command. -/
inductive SourceError
  | deadline
  | send
  | read
  | idMismatch
  | unexpectedType (type : ℤ)
  deriving DecidableEq

/-- A call of `Execute`, with the bodies of the packets that answer it: those that come before the
deadline of the call, and the others. -/
structure SourceCall where
  setDeadline : Bool := true
  write : Bool := true
  arrived : List String
  late : List String := []

/-- `rcon.Source` after `Open`, with the packets that are not read yet and the number of commands
that the server has got. -/
structure Source where
  requestID : BitVec 32
  unread : List SourcePacket := []
  commands : ℕ := 0

namespace Source

variable (s : Source)

/-- The server answers a command under its request id. -/
def answer (bodies : List String) : List SourcePacket :=
  bodies.map fun body => ⟨s.requestID, serverDataResponseValue, body, s.commands⟩

/-- The end of `Execute`: one packet is read and checked. -/
def receive : Source × Except SourceError SourcePacket :=
  match s.unread with
  | [] => (s, .error .read)
  | p :: ps =>
    if p.id ≠ s.requestID then ({ s with unread := ps }, .error .idMismatch)
    else if p.type ≠ serverDataResponseValue then
      ({ s with unread := ps }, .error (.unexpectedType p.type))
    else ({ s with unread := ps, requestID := s.requestID + 1 }, .ok p)

/-- The result is the packet whose body is returned. -/
def execute (c : SourceCall) : Source × Except SourceError SourcePacket :=
  if c.setDeadline = false then (s, .error .deadline)
  else if c.write = false then (s, .error .send)
  else
    let r := { s with commands := s.commands + 1, unread := s.unread ++ s.answer c.arrived }.receive
    ({ r.1 with unread := r.1.unread ++ s.answer c.late }, r.2)

/-- The connection after some calls. -/
def after (calls : List SourceCall) : Source := calls.foldl (fun s c => (s.execute c).1) s

/-- A call that returns a body returns it from the answer to its own command. -/
def Own (c : SourceCall) : Prop := ∀ p, (s.execute c).2 = .ok p → p.command = s.commands

/-- The packets left on the connection answer earlier commands. -/
def Inv : Prop := ∀ p ∈ s.unread, p.command < s.commands ∧ p.type = serverDataResponseValue

variable {s} {c : SourceCall} {p : SourcePacket}

theorem receive_ok : s.receive.2 = .ok p ↔
    s.unread.head? = some p ∧ p.id = s.requestID ∧ p.type = serverDataResponseValue := by
  unfold receive
  cases s.unread with
  | nil => simp
  | cons q ps =>
    simp only [List.head?_cons, Option.some.injEq]
    constructor
    · intro h
      split_ifs at h with h1 h2
      cases h
      exact ⟨rfl, not_not.1 h1, not_not.1 h2⟩
    · rintro ⟨rfl, h1, h2⟩
      simp [h1, h2]

theorem receive_fst : s.receive.1.commands = s.commands ∧ s.receive.1.unread = s.unread.tail := by
  unfold receive
  cases h : s.unread with
  | nil => exact ⟨rfl, h⟩
  | cons q ps => dsimp only; split_ifs <;> exact ⟨rfl, rfl⟩

theorem mem_answer {bodies : List String} (hp : p ∈ s.answer bodies) :
    p.command = s.commands ∧ p.type = serverDataResponseValue := by
  obtain ⟨_, _, rfl⟩ := List.mem_map.1 hp
  exact ⟨rfl, rfl⟩

theorem Inv.execute (h : s.Inv) (c : SourceCall) : (s.execute c).1.Inv := by
  unfold Source.execute
  split_ifs
  · exact h
  · exact h
  · obtain ⟨hcomm, hunread⟩ := receive_fst
      (s := { s with commands := s.commands + 1, unread := s.unread ++ s.answer c.arrived })
    have hans : ∀ bodies, ∀ p ∈ s.answer bodies,
        p.command < s.commands + 1 ∧ p.type = serverDataResponseValue := by
      intro bodies p hp
      obtain ⟨hcomma, htype⟩ := mem_answer hp
      exact ⟨by omega, htype⟩
    intro p hp
    simp only [hcomm, hunread, List.mem_append] at hp ⊢
    rcases hp with hp | hp
    · rcases List.mem_append.1 (List.mem_of_mem_tail hp) with hp | hp
      · exact (h p hp).imp_left Nat.lt_succ_of_lt
      · exact hans _ p hp
    · exact hans _ p hp

theorem Inv.after (h : s.Inv) (calls : List SourceCall) : (s.after calls).Inv := by
  induction calls generalizing s with
  | nil => exact h
  | cons c cs ih => exact ih (h.execute c)

theorem execute_ok : (s.execute c).2 = .ok p ↔ c.setDeadline = true ∧ c.write = true ∧
    (s.unread ++ s.answer c.arrived).head? = some p ∧
      p.id = s.requestID ∧ p.type = serverDataResponseValue := by
  unfold execute
  cases hd : c.setDeadline with
  | false => simp
  | true =>
    cases hw : c.write with
    | false => simp
    | true => simp [receive_ok]

/-- **Whose answer a command gets**: its own, or an error, exactly if it fails before it reads a
packet or the first packet that earlier answers have left does not bear the request id. -/
theorem execute_own_iff (id : BitVec 32) (calls : List SourceCall) (c : SourceCall) :
    ((⟨id, [], 0⟩ : Source).after calls).Own c ↔ (c.setDeadline = true → c.write = true →
      ∀ p ∈ ((⟨id, [], 0⟩ : Source).after calls).unread.head?,
        p.id ≠ ((⟨id, [], 0⟩ : Source).after calls).requestID) := by
  have hinv : ((⟨id, [], 0⟩ : Source).after calls).Inv := Inv.after (by intro p hp; cases hp) calls
  generalize (⟨id, [], 0⟩ : Source).after calls = s at hinv ⊢
  constructor
  · intro hown hd hw p hp hid
    obtain ⟨hlt, htype⟩ := hinv p (List.mem_of_mem_head? hp)
    have hhead : (s.unread ++ s.answer c.arrived).head? = some p := by
      rw [List.head?_append, hp, Option.some_or]
    have heq := hown p (execute_ok.2 ⟨hd, hw, hhead, hid, htype⟩)
    omega
  · intro hcond p hok
    obtain ⟨hd, hw, hhead, hid, -⟩ := execute_ok.1 hok
    rw [List.head?_append, Option.or_eq_some_iff] at hhead
    rcases hhead with hp | ⟨-, hp⟩
    · exact absurd hid (hcond hd hw p hp)
    · exact (mem_answer (List.mem_of_mem_head? hp)).1

/-- The answer to the first command has two packets.  The third call returns the answer to the
second command. -/
theorem stale_answer :
    let s := (⟨1, [], 0⟩ : Source).after [{ arrived := ["a", "b"] }, { arrived := ["c"] }]
    (s.execute { arrived := ["d"] }).2 = .ok ⟨2, 0, "c", 1⟩ ∧ ¬ s.Own { arrived := ["d"] } := by
  refine ⟨rfl, fun h => ?_⟩
  have hcomm := h ⟨2, 0, "c", 1⟩ rfl
  cases hcomm

end Source

end GameAP.Rcon
