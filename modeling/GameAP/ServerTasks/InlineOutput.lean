import GameAP.Lib.Synchronized
import GameAP.ServerTasks.Executions

/-!
# The inline output of an execution

`HandleExecutionLog` appends every chunk to the inline output and keeps its end.  The in-memory
repository keeps the last bytes, wherever the cut falls, and the SQL repositories keep as many
characters as the limit counts bytes.  So the output of the first is a text only if the cut falls
between two characters, and that of the others stays within the limit only if the last characters
do.  `truncateTail`, for the output that comes with the end of an execution, does better than both.
-/

namespace GameAP

open Synchronized List ServerTaskExecutionRepository

/-! ### UTF-8 -/

theorem runeStart_iff (b : UInt8) : runeStart b = true ↔ b.toNat < 128 ∨ 192 ≤ b.toNat := by
  have hall : ∀ n < 256, (runeStart (UInt8.ofNat n) = true ↔ n < 128 ∨ 192 ≤ n) := by
    decide +kernel
  simpa using hall b.toNat b.toNat_lt

theorem runeStart_ofNat {n : ℕ} (h : n < 128 ∨ 192 ≤ n) (hn : n < 256) :
    runeStart (UInt8.ofNat n) = true := by
  rw [runeStart_iff, UInt8.toNat_ofNat_of_lt' hn]
  exact h

theorem runeStart_continuation (n : ℕ) : runeStart (UInt8.ofNat (n % 64) + 128) = false := by
  have hnat : (UInt8.ofNat (n % 64) + 128).toNat = n % 64 + 128 := by
    simp [UInt8.toNat_add]
    omega
  rw [Bool.eq_false_iff, Ne, runeStart_iff, hnat]
  omega

/-- UTF-8: a character takes up to four bytes. -/
def utf8Code : Code Char UInt8 where
  encode := String.utf8EncodeChar
  starts := runeStart
  further := 3
  encode_eq c := by
    simp only [String.utf8EncodeChar]
    split_ifs with h₁ h₂ h₃
    · exact ⟨_, [], rfl, runeStart_ofNat (by omega) (by omega), by simp, by simp⟩
    all_goals exact ⟨_, _, rfl, runeStart_ofNat (by omega) (by omega),
      by simp [runeStart_continuation], by simp⟩

/-! ### Chunks and the output -/

section

variable [XIDReader]

/-- The chunks of the messages for the execution. -/
def chunksOf (id : XID) (logs : List (Env × ExecutionLog)) : List Bytes :=
  (logs.filter fun m => xidFromString m.2.executionID = some id).map fun m => m.2.chunk

/-- `AppendOutputInline` of the SQL repositories, on the column of the row.  `RIGHT` of Postgres and
MySQL and `substr` of SQLite count characters. -/
def appendColumn (maxBytes : ℕ) (column : Option (List Char)) (chunk : List Char) :
    Option (List Char) :=
  if chunk = [] then column else some ((column.getD [] ++ chunk).rtake maxBytes)

def columnAfter (texts : List (List Char)) : List Char :=
  (texts.foldl (appendColumn outputInlineMaxBytes) none).getD []

namespace ExecutionWorld

def handleLogs (w : ExecutionWorld) (logs : List (Env × ExecutionLog)) : ExecutionWorld :=
  logs.foldl (fun w m => (w.handleExecutionLog m.1 m.2).1) w

/-- The stored output. -/
def outputInline (w : ExecutionWorld) (id : XID) : Bytes :=
  ((w.row id).bind ServerTaskExecution.outputInline).getD []

end ExecutionWorld

/-- The stored output of the chunks `all`: UTF-8, the end of what was delivered, within the limit,
and up to three bytes at the cut what `truncateTail` keeps. -/
structure RollingTail (all stored : Bytes) : Prop where
  valid : utf8Code.Valid stored
  suffix : stored <:+ all
  length_le : stored.length ≤ outputInlineMaxBytes
  truncateTail : ∃ cut, stored = cut ++ truncateTail all outputInlineMaxBytes ∧ cut.length ≤ 3

/-! ### The in-memory repository -/

section InMemory

variable {w : ExecutionWorld} {id : XID} {all : Bytes} {maxBytes : ℕ}

/-- The row with a chunk at the end of its output. -/
def ServerTaskExecution.withChunk (now : Time) (chunk : Bytes) (maxBytes : ℕ)
    (exec : ServerTaskExecution) : ServerTaskExecution :=
  { exec with
    outputInline := some ((exec.outputInline.getD [] ++ chunk).rtake maxBytes)
    updatedAt := now }

omit [XIDReader] in
theorem row_appendOutputInline (r : ServerTaskExecutionRepository) (now : Time) (id k : XID)
    {chunk : Bytes} (hchunk : chunk ≠ []) (hmax : 0 < maxBytes) :
    (r.appendOutputInline now k chunk maxBytes).row id =
      if id = k then (r.row id).map (·.withChunk now chunk maxBytes) else r.row id := by
  have hkept : ∀ combined : Bytes, (if 0 < maxBytes ∧ maxBytes < combined.length then
      combined.drop (combined.length - maxBytes) else combined) = combined.rtake maxBytes := by
    intro combined
    split_ifs with h
    · rfl
    · rw [not_and, not_lt] at h
      exact (rtake_of_length_le (h hmax)).symm
  simp only [row, appendOutputInline,
    if_neg hchunk, hkept]
  cases hget : r.execs.get k with
  | none =>
    split_ifs with hid
    · rw [hid, hget]
      rfl
    · rfl
  | some exec =>
    rw [Tables.Table.get_put]
    split_ifs with hid
    · rw [hid, hget]
      rfl
    · rfl

theorem row_handleExecutionLog {e : Env} (hok : e.ok = true) (evt : ExecutionLog) :
    (w.handleExecutionLog e evt).1.row id =
      if xidFromString evt.executionID = some id ∧ evt.chunk ≠ [] then
        (w.row id).map (·.withChunk e.now evt.chunk outputInlineMaxBytes)
      else w.row id := by
  unfold ExecutionWorld.handleExecutionLog
  by_cases hchunk : evt.chunk = []
  · have hnone : ¬ (xidFromString evt.executionID = some id ∧ evt.chunk ≠ []) := fun h => h.2 hchunk
    rw [if_neg hnone]
    cases xidFromString evt.executionID with
    | none => split_ifs <;> rfl
    | some k => split_ifs <;> simp [appendOutputInline, hchunk]
  · have hnotEmpty : ¬ (evt.chunk = [] ∧ evt.isFinal = false) := fun h => hchunk h.1
    rw [if_neg hnotEmpty]
    cases xidFromString evt.executionID with
    | none => simp
    | some k =>
      have hmax : 0 < outputInlineMaxBytes := by decide
      have happ := row_appendOutputInline w.execs e.now id k hchunk hmax
      simpa [hok, hchunk, ExecutionWorld.row, eq_comm] using happ

omit [XIDReader] in
/-- The output stays the end of everything that was delivered. -/
theorem outputInline_withChunk {row : Option ServerTaskExecution} (hrow : row.isSome = true)
    (hall : (row.bind ServerTaskExecution.outputInline).getD [] = all.rtake maxBytes) (now : Time)
    (chunk : Bytes) :
    ((row.map (·.withChunk now chunk maxBytes)).bind ServerTaskExecution.outputInline).getD [] =
      (all ++ chunk).rtake maxBytes := by
  obtain ⟨exec, rfl⟩ := Option.isSome_iff_exists.1 hrow
  rw [← rtake_append, ← hall]
  rfl

theorem outputInline_handleExecutionLog (hrow : (w.row id).isSome = true)
    (hall : w.outputInline id = all.rtake outputInlineMaxBytes) (m : Env × ExecutionLog)
    (hok : m.1.ok = true) :
    ((w.handleExecutionLog m.1 m.2).1.row id).isSome = true ∧
      (w.handleExecutionLog m.1 m.2).1.outputInline id =
        (all ++ (chunksOf id [m]).flatten).rtake outputInlineMaxBytes := by
  unfold ExecutionWorld.outputInline at hall ⊢
  rw [row_handleExecutionLog hok]
  by_cases hid : xidFromString m.2.executionID = some id
  · have hchunks : (chunksOf id [m]).flatten = m.2.chunk := by simp [chunksOf, hid]
    rw [hchunks]
    by_cases hchunk : m.2.chunk = []
    · rw [if_neg fun h => h.2 hchunk, hchunk, append_nil]
      exact ⟨hrow, hall⟩
    · rw [if_pos ⟨hid, hchunk⟩]
      exact ⟨by simpa using hrow, outputInline_withChunk hrow hall m.1.now m.2.chunk⟩
  · have hchunks : (chunksOf id [m]).flatten = [] := by simp [chunksOf, hid]
    rw [if_neg fun h => hid h.1, hchunks, append_nil]
    exact ⟨hrow, hall⟩

theorem chunksOf_cons (m : Env × ExecutionLog) (logs : List (Env × ExecutionLog)) :
    chunksOf id (m :: logs) = chunksOf id [m] ++ chunksOf id logs := by
  unfold chunksOf
  rw [← map_append, ← filter_append, singleton_append]

theorem outputInline_handleLogs {logs : List (Env × ExecutionLog)}
    (hok : ∀ m ∈ logs, m.1.ok = true) (hrow : (w.row id).isSome = true)
    (hall : w.outputInline id = all.rtake outputInlineMaxBytes) :
    (w.handleLogs logs).outputInline id =
      (all ++ (chunksOf id logs).flatten).rtake outputInlineMaxBytes := by
  induction logs generalizing w all with
  | nil => simpa [ExecutionWorld.handleLogs, chunksOf] using hall
  | cons m logs ih =>
    obtain ⟨hrow', hall'⟩ := outputInline_handleExecutionLog hrow hall m (hok m mem_cons_self)
    have hlogs := ih (fun n hn => hok n (mem_cons_of_mem m hn)) hrow' hall'
    rw [chunksOf_cons, flatten_append, ← append_assoc]
    exact hlogs

end InMemory

end

/-! ### The SQL repositories -/

theorem columnAfter_eq (texts : List (List Char)) :
    columnAfter texts = texts.flatten.rtake outputInlineMaxBytes := by
  -- the chunks before are in the column, cut
  have hfold : ∀ (texts : List (List Char)) (column : Option (List Char)) (before : List Char),
      column.getD [] = before.rtake outputInlineMaxBytes →
      (texts.foldl (appendColumn outputInlineMaxBytes) column).getD [] =
        (before ++ texts.flatten).rtake outputInlineMaxBytes := by
    intro texts
    induction texts with
    | nil =>
      intro column before h
      simpa using h
    | cons text texts ih =>
      intro column before h
      rw [foldl_cons, flatten_cons, ← append_assoc]
      apply ih
      unfold appendColumn
      split_ifs with htext
      · simpa [htext] using h
      · rw [Option.getD_some, h, rtake_append]
  simpa [columnAfter] using hfold texts none [] rfl

/-! ### The property -/

section Property

variable (text : List Char) {all : Bytes}

theorem truncateTail_of_lt (h : outputInlineMaxBytes < all.length) :
    truncateTail all outputInlineMaxBytes = utf8Code.realign (all.rtake outputInlineMaxBytes) := by
  have hpos : outputInlineMaxBytes ≠ 0 := by decide
  unfold truncateTail
  rw [if_neg (by omega)]
  rfl

theorem truncateTail_of_le (h : all.length ≤ outputInlineMaxBytes) :
    truncateTail all outputInlineMaxBytes = all := if_pos (.inr h)

/-- The last bytes: only a cut inside a character is in the way. -/
theorem rollingTail_bytes_iff :
    RollingTail (utf8Code.text text) ((utf8Code.text text).rtake outputInlineMaxBytes) ↔
      utf8Code.Aligned ((utf8Code.text text).rtake outputInlineMaxBytes) := by
  have hvalid := utf8Code.valid_drop_iff text ((utf8Code.text text).length - outputInlineMaxBytes)
  refine ⟨fun h => hvalid.1 h.valid, fun h => ⟨hvalid.2 h, drop_suffix .., ?_, ?_⟩⟩
  · simp [List.rtake]
    omega
  · rcases le_or_gt (utf8Code.text text).length outputInlineMaxBytes with hle | hlt
    · refine ⟨[], ?_, by simp⟩
      rw [truncateTail_of_le hle, rtake_of_length_le hle, nil_append]
    · rw [truncateTail_of_lt hlt]
      exact utf8Code.realign_drop text _

theorem rollingTail_chars_iff :
    RollingTail (utf8Code.text text) (utf8Code.text (text.rtake outputInlineMaxBytes)) ↔
      (utf8Code.text (text.rtake outputInlineMaxBytes)).length ≤ outputInlineMaxBytes := by
  have happ : utf8Code.text text = utf8Code.text (text.take (text.length - outputInlineMaxBytes)) ++
      utf8Code.text (text.rtake outputInlineMaxBytes) := by
    rw [← utf8Code.text_append, List.rtake, take_append_drop]
  refine ⟨fun h => h.length_le, fun h => ⟨⟨_, rfl⟩, ⟨_, happ.symm⟩, h, [], ?_, by simp⟩⟩
  rw [nil_append]
  rcases le_or_gt text.length outputInlineMaxBytes with hle | hlt
  · rw [rtake_of_length_le hle] at h ⊢
    exact (truncateTail_of_le h).symm
  · -- the characters that are kept take one byte each
    have hchars := utf8Code.length_le_length_text (text.rtake outputInlineMaxBytes)
    have hlen : (text.rtake outputInlineMaxBytes).length = outputInlineMaxBytes := by
      simp [List.rtake]
      omega
    have hbytes := utf8Code.length_le_length_text text
    have hlast : (utf8Code.text text).rtake outputInlineMaxBytes =
        utf8Code.text (text.rtake outputInlineMaxBytes) := by
      have hcount := congrArg List.length happ
      conv_lhs => rw [List.rtake, happ]
      exact drop_left' (by rw [length_append]; omega)
    rw [truncateTail_of_lt (by omega), hlast, utf8Code.realign_of_aligned (utf8Code.aligned_text _)]

end Property

/-- In memory the stored output is as it should be exactly if the last bytes of the delivered text
begin with a character, and in the SQL databases exactly if its last characters are within the
limit. -/
theorem inlineOutput_iff [XIDReader] (w : ExecutionWorld) (id : XID) (exec : ServerTaskExecution)
    (hrow : w.row id = some exec) (hnone : exec.outputInline = none)
    (logs : List (Env × ExecutionLog)) (hok : ∀ m ∈ logs, m.1.ok = true)
    (texts : List (List Char)) (hutf8 : chunksOf id logs = texts.map utf8Code.text) :
    (RollingTail (chunksOf id logs).flatten ((w.handleLogs logs).outputInline id) ↔
      utf8Code.Aligned ((chunksOf id logs).flatten.rtake outputInlineMaxBytes)) ∧
    (RollingTail (chunksOf id logs).flatten (utf8Code.text (columnAfter texts)) ↔
      (utf8Code.text (texts.flatten.rtake outputInlineMaxBytes)).length ≤ outputInlineMaxBytes) := by
  have hempty : w.outputInline id = ([] : Bytes).rtake outputInlineMaxBytes := by
    simp [ExecutionWorld.outputInline, hrow, hnone]
  have hst := outputInline_handleLogs hok (by simp [hrow]) hempty
  rw [hst, columnAfter_eq, hutf8, utf8Code.flatten_map_text]
  exact ⟨rollingTail_bytes_iff _, rollingTail_chars_iff _⟩

def startedExecutionRow : ServerTaskExecution where
  executionID := 0
  serverTaskID := 1
  serverID := 1
  nodeID := 1
  command := .start
  taskVersion := 1
  status := .running
  startedAt := 1

def startedWorld : ExecutionWorld :=
  { execs := { execs := (∅ : Tables.Table XID ServerTaskExecution).put 0 startedExecutionRow
               nextID := 1 } }

def logOf (text : List Char) : Env × ExecutionLog :=
  (⟨2, true⟩, { executionID := "00000000000000000000", chunk := utf8Code.text text })

theorem chunksOf_logOf (text : List Char) : chunksOf 0 [logOf text] = [utf8Code.text text] := by
  have hid : xidFromString "00000000000000000000" = some 0 := by decide
  simp [chunksOf, logOf, hid]

theorem inlineOutput_iff_accent :
    RollingTail [0x68, 0xC3, 0xA9] ((startedWorld.handleLogs [logOf ['h', 'é']]).outputInline 0) ∧
      RollingTail [0x68, 0xC3, 0xA9] (utf8Code.text (columnAfter [['h', 'é']])) := by
  have hboth := inlineOutput_iff startedWorld 0 startedExecutionRow rfl rfl [logOf ['h', 'é']]
    (forall_mem_singleton.2 rfl) [['h', 'é']] (chunksOf_logOf _)
  have hflat : (chunksOf 0 [logOf ['h', 'é']]).flatten = [0x68, 0xC3, 0xA9] := by
    decide
  rw [hflat] at hboth
  refine ⟨hboth.1.2 ?_, hboth.2.2 ?_⟩
  · rw [rtake_of_length_le (by decide)]
    rintro b ⟨⟩
    decide
  · rw [rtake_of_length_le (by decide)]
    decide

/-- One character too many, of two bytes: the output in memory begins with the second of them, and
the output in a database takes twice the limit. -/
theorem output_begins_inside_character : ¬ utf8Code.Valid
        ((startedWorld.handleLogs [logOf ('é' :: List.replicate 65535 'a')]).outputInline 0) ∧
      (utf8Code.text (columnAfter [List.replicate 65536 'é'])).length = 2 * outputInlineMaxBytes := by
  have hlen : ∀ n c, (utf8Code.text (List.replicate n c)).length =
      n * (String.utf8EncodeChar c).length := by
    intro n c
    simp [Code.text, utf8Code, length_flatMap]
  constructor
  · have hempty : startedWorld.outputInline 0 = ([] : Bytes).rtake outputInlineMaxBytes := rfl
    rw [outputInline_handleLogs (forall_mem_singleton.2 rfl) rfl hempty, chunksOf_logOf,
      nil_append, flatten_singleton]
    have htext : utf8Code.text ('é' :: List.replicate 65535 'a') =
        0xC3 :: 0xA9 :: utf8Code.text (List.replicate 65535 'a') := rfl
    have hcount :
        (utf8Code.text ('é' :: List.replicate 65535 'a')).length - outputInlineMaxBytes = 1 := by
      rw [htext, length_cons, length_cons, hlen]
      decide
    rw [List.rtake, utf8Code.valid_drop_iff, hcount, htext]
    intro halig
    exact absurd (halig 0xA9 rfl) (by decide)
  · have hchars : (List.replicate 65536 'é').length ≤ outputInlineMaxBytes := by
      rw [length_replicate]
      decide
    rw [columnAfter_eq, flatten_singleton, rtake_of_length_le hchars, hlen]
    decide

end GameAP
