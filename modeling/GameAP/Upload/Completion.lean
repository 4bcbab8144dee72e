import GameAP.Lib.Runs
import GameAP.Upload.Service

/-!
# Concurrent calls on one upload

`WriteChunk`, `Complete` and `Abort` of one upload, cut at their accesses to the storage and at the
hand-over to the daemon.  No lock keeps them apart.

A stream is opened, filled and closed in separate steps.  `LocalFileManager` writes it in place,
into the file that was opened and at the offset that the stream has reached; the other storages
store what they have read at the end.  A `Disk` is a storage of either kind.

After it has opened its data file a `Complete` does not look at the file again, and an `Abort` or
another `Complete` may delete or empty it (`dispatch_without_data`).  `Undisturbed` excludes these
steps, and then the daemon is always handed a file with the announced checksum (`dispatch_exact`).
-/

namespace GameAP.Upload

open Runs InMemoryFileManager

/-! ### Streams -/

/-- A storage and the streams that are open on it. -/
structure Disk where
  fm : Storage
  /-- Streams are written in place. -/
  inPlace : Bool
  /-- Which call has which of the stored files open. -/
  opened : List (ℕ × String)

/-- A write at an offset of a file; a gap in front of it reads as zeros. -/
def writeAt (file : Bytes) (offset : ℕ) (data : Bytes) : Bytes :=
  file.take offset ++ List.replicate (offset - file.length) 0 ++ data ++
    file.drop (offset + data.length)

theorem writeAt_length (file data : Bytes) : writeAt file file.length data = file ++ data := by
  simp [writeAt]

namespace Disk

variable (d : Disk) (i : ℕ) (path : String)

/-- The file is truncated and open. -/
def openStream : Disk :=
  if d.inPlace then { d with fm := d.fm.write path (.raw []), opened := (i, path) :: d.opened } else d

/-- A writer whose file was deleted writes where no one reads. -/
def fill (offset : ℕ) (data : Bytes) : Disk :=
  if (i, path) ∈ d.opened then
    { d with
      fm := d.fm.write path
        (.raw (writeAt (((d.fm.read path).bind UploadFile.bytes).getD []) offset data)) }
  else d

/-- The end of a stream from which `data` was read. -/
def closeStream (data : Bytes) : Disk :=
  if d.inPlace then { d with opened := d.opened.erase (i, path) }
  else { d with fm := d.fm.write path (.raw data) }

def delete : Disk :=
  { d with fm := d.fm.delete path, opened := d.opened.filter (·.2 ≠ path) }

def deleteByPrefix (pre : String) : Disk :=
  { d with
    fm := d.fm.deleteByPrefix pre
    opened := d.opened.filter fun o => hasPrefix o.2 pre = false }

end Disk

/-! ### The calls -/

/-- The places between the steps of the three operations. -/
inductive UploadCall
  | chunkLoad (userID index : ℕ) (body : Body)
  | chunkTestDone (sess : Session) (index : ℕ) (body : Body)
  | chunkOpen (sess : Session) (index : ℕ) (body : Body)
  | chunkFill (sess : Session) (index : ℕ) (body : Body)
  | chunkDelete (index : ℕ)
  | completeLoad (userID : ℕ) (node : Option ℕ)
  | completeTestDone (sess : Session)
  | completeList (sess : Session)
  | completeOpen (sess : Session)
  /-- The chunks still to be read and what was read so far. -/
  | completeCopy (sess : Session) (rest : List ℕ) (data : Bytes)
  /-- In front of `UploadStreamPrepared`. -/
  | completeDispatch (sess : Session) (checksum : String)
  | completeDiscard
  | completeWriteDone (checksum : String)
  | cleanupChunks
  | cleanupData
  | abortLoad (userID : ℕ)
  | abortDelete
  | returned
  deriving DecidableEq

namespace Service

variable (svc : Service) (uploadID : String) (i : ℕ) (d : Disk)

/-- A step of call `i`.  The errors of the deletions are ignored by the code. -/
def next : UploadCall → Env → Option (Disk × UploadCall)
  -- `WriteChunk`
  | .chunkLoad userID index body, e =>
    match access d.fm e.now uploadID userID with
    | .ok sess => some (d, .chunkTestDone sess index body)
    | .error _ => some (d, .returned)
  | .chunkTestDone sess index body, _ =>
    if d.fm.fileExists (donePath uploadID) ∨ sess.totalChunks ≤ index then some (d, .returned)
    else some (d, .chunkOpen sess index body)
  | .chunkOpen sess index body, e =>
    if e.ok then some (d.openStream i (chunkPath uploadID index), .chunkFill sess index body)
    else some (d, .chunkDelete index)
  | .chunkFill sess index body, e =>
    let limited := body.limit (safeChunkLimit (sess.chunkSizeFor index))
    let d' := d.fill i (chunkPath uploadID index) 0 limited.bytes
    if e.ok = false ∨ limited.fails then some (d', .chunkDelete index)
    else some (d'.closeStream i (chunkPath uploadID index) limited.bytes,
      if limited.bytes.length ≠ sess.chunkSizeFor index then .chunkDelete index else .returned)
  | .chunkDelete index, e =>
    some (if e.ok then d.delete (chunkPath uploadID index) else d, .returned)
  -- `Complete`
  | .completeLoad userID node, e =>
    match access d.fm e.now uploadID userID with
    | .ok sess => some (d, if node ≠ some sess.nodeID then .returned else .completeTestDone sess)
    | .error _ => some (d, .returned)
  | .completeTestDone sess, _ =>
    some (d, if d.fm.fileExists (donePath uploadID) then .returned else .completeList sess)
  | .completeList sess, e =>
    match receivedChunks d.fm uploadID e.ok with
    | .ok received => some (d, if isComplete sess received then .completeOpen sess else .returned)
    | .error _ => some (d, .returned)
  | .completeOpen sess, e =>
    if e.ok then
      some (d.openStream i (dataPath uploadID), .completeCopy sess (List.range sess.totalChunks) [])
    else some (d, .completeDiscard)
  | .completeCopy sess (j :: rest) data, e =>
    match (d.fm.read (chunkPath uploadID j)).bind UploadFile.bytes with
    | some chunk =>
      if e.ok then
        some (d.fill i (dataPath uploadID) data.length chunk, .completeCopy sess rest (data ++ chunk))
      else some (d, .completeDiscard)
    | none => some (d, .completeDiscard)
  | .completeCopy sess [] data, e =>
    if e.ok then
      some (d.closeStream i (dataPath uploadID) data,
        if svc.digest data = sess.expectedChecksum then .completeDispatch sess (svc.digest data)
        else .completeDiscard)
    else some (d, .completeDiscard)
  | .completeDispatch _ checksum, e =>
    some (d, if e.ok then .completeWriteDone checksum else .completeDiscard)
  | .completeDiscard, e => some (if e.ok then d.delete (dataPath uploadID) else d, .returned)
  | .completeWriteDone checksum, e =>
    some (if e.ok then { d with fm := d.fm.write (donePath uploadID) (.done ⟨true, checksum⟩) }
      else d, .cleanupChunks)
  | .cleanupChunks, e =>
    some (if e.ok then d.deleteByPrefix (chunksPrefix uploadID) else d, .cleanupData)
  | .cleanupData, e => some (if e.ok then d.delete (dataPath uploadID) else d, .returned)
  -- `Abort`
  | .abortLoad userID, e =>
    match access d.fm e.now uploadID userID with
    | .ok _ => some (d, .abortDelete)
    | .error _ => some (d, .returned)
  | .abortDelete, e =>
    some (if e.ok then d.deleteByPrefix (transferRoot uploadID) else d, .returned)
  | .returned, _ => none

/-- Calls begin with reading the session. -/
def start (_ : Disk) : UploadCall → Bool
  | .chunkLoad .. | .completeLoad .. | .abortLoad _ => true
  | _ => false

def program : Program Disk UploadCall Env := ⟨start, svc.next uploadID⟩

end Service

/-- The session that a `Complete` has read. -/
def UploadCall.session : UploadCall → Option Session
  | .completeTestDone sess => some sess
  | .completeList sess => some sess
  | .completeOpen sess => some sess
  | .completeCopy sess _ _ => some sess
  | .completeDispatch sess _ => some sess
  | _ => none

/-- The call has opened the data file and not yet handed it over. -/
def UploadCall.relies : UploadCall → Bool
  | .completeCopy .. | .completeDispatch .. => true
  | _ => false

/-- The step opens, writes or deletes the data file. -/
def UploadCall.touches : UploadCall → Bool
  | .completeOpen _ | .completeCopy .. | .completeDiscard | .cleanupData | .abortDelete => true
  | _ => false

/-- No step touches the data file while another `Complete` relies on it. -/
def Undisturbed (p : Pool Disk UploadCall) (i : ℕ) (c : UploadCall) (_ : Env) : Prop :=
  c.touches = true → ∀ d ∈ p.calls.eraseIdx i, d.relies = false

instance (p : Pool Disk UploadCall) (i : ℕ) (c : UploadCall) (e : Env) :
    Decidable (Undisturbed p i c e) :=
  inferInstanceAs (Decidable (_ → ∀ _ ∈ _, _))

/-! ### What one step does -/

/-- A step that leaves a file alone, and the writers that have it open. -/
structure Disk.Spares (path : String) (d d' : Disk) : Prop where
  inPlace : d'.inPlace = d.inPlace
  read : d'.fm.read path = d.fm.read path
  opened : ∀ j, (j, path) ∈ d.opened → (j, path) ∈ d'.opened

/-- A step that stores no session. -/
def Disk.NoSession (d d' : Disk) : Prop :=
  ∀ path sess, d'.fm.read path = some (.session sess) → d.fm.read path = some (.session sess)

namespace Disk

variable {d : Disk} {i : ℕ} {path p : String}

theorem Spares.refl (p : String) (d : Disk) : Spares p d d := ⟨rfl, rfl, fun _ => id⟩

theorem Spares.trans {d' d'' : Disk} (h : Spares p d d') (h' : Spares p d' d'') : Spares p d d'' :=
  ⟨h'.inPlace.trans h.inPlace, h'.read.trans h.read, fun j hj => h'.opened j (h.opened j hj)⟩

theorem spares_openStream (hp : p ≠ path) : Spares p d (d.openStream i path) := by
  unfold openStream
  split_ifs
  · exact ⟨rfl, read_write_ne _ hp _, fun _ => List.mem_cons_of_mem _⟩
  · exact Spares.refl p d

theorem spares_fill (hp : p ≠ path) (offset : ℕ) (data : Bytes) :
    Spares p d (d.fill i path offset data) := by
  unfold fill
  split_ifs
  · exact ⟨rfl, read_write_ne _ hp _, fun _ => id⟩
  · exact Spares.refl p d

theorem spares_closeStream (hp : p ≠ path) (data : Bytes) :
    Spares p d (d.closeStream i path data) := by
  unfold closeStream
  split_ifs
  · refine ⟨rfl, rfl, fun j hj => ?_⟩
    exact (List.mem_erase_of_ne fun h => hp (congrArg Prod.snd h)).2 hj
  · exact ⟨rfl, read_write_ne _ hp _, fun _ => id⟩

theorem spares_delete (hp : p ≠ path) : Spares p d (d.delete path) :=
  ⟨rfl, read_delete_ne _ hp, fun _ hj => List.mem_filter.2 ⟨hj, decide_eq_true hp⟩⟩

theorem spares_deleteByPrefix {pre : String} (hp : hasPrefix p pre = false) :
    Spares p d (d.deleteByPrefix pre) := by
  refine ⟨rfl, ?_, fun _ hj => List.mem_filter.2 ⟨hj, decide_eq_true hp⟩⟩
  rw [deleteByPrefix, read_deleteByPrefix, hp, if_neg Bool.false_ne_true]

theorem noSession_openStream : NoSession d (d.openStream i path) := by
  intro p sess h
  unfold openStream at h
  split_ifs at h
  · exact session_of_write (raw_ne_session _) h
  · exact h

theorem noSession_fill (offset : ℕ) (data : Bytes) : NoSession d (d.fill i path offset data) := by
  intro p sess h
  unfold fill at h
  split_ifs at h
  · exact session_of_write (raw_ne_session _) h
  · exact h

theorem noSession_closeStream (data : Bytes) : NoSession d (d.closeStream i path data) := by
  intro p sess h
  unfold closeStream at h
  split_ifs at h
  · exact h
  · exact session_of_write (raw_ne_session _) h

theorem noSession_of_sub {d' : Disk} (h : Sub d'.fm d.fm) : NoSession d d' := fun p _ => h p _

theorem fill_spec {data : Bytes} (hopen : (i, path) ∈ d.opened)
    (hread : d.fm.read path = some (.raw data)) (chunk : Bytes) :
    (i, path) ∈ (d.fill i path data.length chunk).opened ∧
      (d.fill i path data.length chunk).fm.read path = some (.raw (data ++ chunk)) := by
  rw [fill, if_pos hopen]
  refine ⟨hopen, ?_⟩
  simp only [read_write_self, hread, Option.bind_some, UploadFile.bytes, Option.getD_some,
    writeAt_length]

theorem inPlace_fill (offset : ℕ) (data : Bytes) :
    (d.fill i path offset data).inPlace = d.inPlace := by
  unfold fill
  split_ifs <;> rfl

theorem closeStream_spec {data : Bytes}
    (hread : d.inPlace = true → d.fm.read path = some (.raw data)) :
    (d.closeStream i path data).fm.read path = some (.raw data) := by
  unfold closeStream
  split_ifs with h
  · exact hread h
  · exact read_write_self _ _ _

end Disk

namespace Service

open Disk

variable {svc : Service} {u : String} {i : ℕ} {d d' : Disk} {c c' : UploadCall} {e : Env}

/-- What a `Complete` does to get in front of its hand-over: it opens the data file, copies the
chunks one by one, and closes it if they have the expected checksum. -/
inductive Assembles (svc : Service) (u : String) (i : ℕ) (d : Disk) :
    UploadCall → Disk → UploadCall → Prop
  | opens (sess : Session) : Assembles svc u i d (.completeOpen sess)
      (d.openStream i (dataPath u)) (.completeCopy sess (List.range sess.totalChunks) [])
  | copies (sess : Session) (j : ℕ) (rest : List ℕ) (data chunk : Bytes) :
    Assembles svc u i d (.completeCopy sess (j :: rest) data)
      (d.fill i (dataPath u) data.length chunk) (.completeCopy sess rest (data ++ chunk))
  | closes (sess : Session) (data : Bytes) (hsum : svc.digest data = sess.expectedChecksum) :
    Assembles svc u i d (.completeCopy sess [] data) (d.closeStream i (dataPath u) data)
      (.completeDispatch sess (svc.digest data))

/-- **One step** stores no session, spares the data file or touches it, and a call that relies on
the data file afterwards has just made its own next step of the assembly. -/
structure Steps (svc : Service) (u : String) (i : ℕ) (d : Disk) (c : UploadCall) (d' : Disk)
    (c' : UploadCall) : Prop where
  noSession : NoSession d d'
  spares : c.touches = true ∨ Spares (dataPath u) d d'
  session : ∀ sess, c'.session = some sess →
    c.session = some sess ∨ d.fm.read (metadataPath u) = some (.session sess)
  relies : c'.relies = true → Assembles svc u i d c d' c'

/-- A step that leaves the storage as it is and does not rely on the data file. -/
theorem Steps.keeps (hsess : ∀ sess, c'.session = some sess →
      c.session = some sess ∨ d.fm.read (metadataPath u) = some (.session sess))
    (hrel : c'.relies = false) : Steps svc u i d c d c' := by
  refine ⟨fun _ _ => id, .inr (Spares.refl _ d), hsess, fun h => ?_⟩
  rw [hrel] at h
  cases h

/-- A step after which the call is not, or no longer, a `Complete`. -/
theorem Steps.leaves (hno : NoSession d d') (hspares : c.touches = true ∨ Spares (dataPath u) d d')
    (hsess : c'.session = none) (hrel : c'.relies = false) : Steps svc u i d c d' c' := by
  refine ⟨hno, hspares, fun sess h => ?_, fun h => ?_⟩
  · rw [hsess] at h
    cases h
  · rw [hrel] at h
    cases h

/-- A deletion whose error is ignored. -/
theorem Steps.deletes {ok : Bool} (hsub : Sub d'.fm d.fm)
    (hspares : c.touches = true ∨ Spares (dataPath u) d d') (hsess : c'.session = none)
    (hrel : c'.relies = false) : Steps svc u i d c (if ok then d' else d) c' := by
  cases ok with
  | true => exact .leaves (noSession_of_sub hsub) hspares hsess hrel
  | false => exact .leaves (fun _ _ => id) (.inr (Spares.refl _ d)) hsess hrel

theorem next_steps (hnext : svc.next u i d c e = some (d', c')) : Steps svc u i d c d' c' := by
  have hchunk (index : ℕ) : dataPath u ≠ chunkPath u index := (chunkPath_ne_dataPath u index).symm
  cases c with
  | chunkLoad userID index body =>
    simp only [next] at hnext
    split at hnext <;> cases hnext <;> exact .keeps nofun rfl
  | completeLoad userID node =>
    simp only [next] at hnext
    split at hnext <;> cases hnext
    · rename_i sess hacc
      split_ifs
      · exact .keeps nofun rfl
      · refine .keeps (fun _ h => .inr ?_) rfl
        cases h
        exact read_of_access hacc
    · exact .keeps nofun rfl
  | abortLoad userID =>
    simp only [next] at hnext
    split at hnext <;> cases hnext <;> exact .keeps nofun rfl
  | chunkTestDone =>
    simp only [next] at hnext
    split_ifs at hnext <;> cases hnext <;> exact .keeps nofun rfl
  | chunkOpen sess index body =>
    simp only [next] at hnext
    split_ifs at hnext <;> cases hnext
    · exact .leaves noSession_openStream (.inr (spares_openStream (hchunk index))) rfl rfl
    · exact .keeps nofun rfl
  | chunkFill sess index body =>
    simp only [next] at hnext
    have hfill := spares_fill (d := d) (i := i) (hchunk index) 0
      (body.limit (safeChunkLimit (sess.chunkSizeFor index))).bytes
    split_ifs at hnext <;> cases hnext
    · exact .leaves (noSession_fill _ _) (.inr hfill) rfl rfl
    all_goals
      exact .leaves (fun p s h => noSession_fill _ _ p s (noSession_closeStream _ p s h))
        (.inr (hfill.trans (spares_closeStream (hchunk index) _))) rfl rfl
  | chunkDelete index =>
    cases hnext
    exact .deletes (Sub.delete _) (.inr (spares_delete (hchunk index))) rfl rfl
  | completeTestDone sess =>
    simp only [next] at hnext
    split_ifs at hnext <;> cases hnext
    · exact .keeps nofun rfl
    · exact .keeps (fun _ => .inl) rfl
  | completeList sess =>
    simp only [next] at hnext
    split at hnext <;> cases hnext
    · split_ifs
      · exact .keeps (fun _ => .inl) rfl
      · exact .keeps nofun rfl
    · exact .keeps nofun rfl
  | completeOpen sess =>
    simp only [next] at hnext
    split_ifs at hnext <;> cases hnext
    · exact ⟨noSession_openStream, .inl rfl, fun _ => .inl, fun _ => .opens sess⟩
    · exact .keeps nofun rfl
  | completeCopy sess rest data =>
    cases rest with
    | cons j rest =>
      simp only [next] at hnext
      split at hnext
      · split_ifs at hnext <;> cases hnext
        · exact ⟨noSession_fill _ _, .inl rfl, fun _ => .inl, fun _ => .copies sess j rest data _⟩
        · exact .keeps nofun rfl
      · cases hnext
        exact .keeps nofun rfl
    | nil =>
      simp only [next] at hnext
      split_ifs at hnext with hok hsum <;> cases hnext
      · exact ⟨noSession_closeStream _, .inl rfl, fun _ => .inl, fun _ => .closes sess data hsum⟩
      · exact .leaves (noSession_closeStream _) (.inl rfl) rfl rfl
      · exact .keeps nofun rfl
  | completeDispatch sess checksum =>
    simp only [next] at hnext
    split_ifs at hnext <;> cases hnext <;> exact .keeps nofun rfl
  | completeWriteDone checksum =>
    obtain ⟨now, ok⟩ := e
    cases ok <;> cases hnext
    · exact .keeps nofun rfl
    · have hdone (sess : Session) : UploadFile.done ⟨true, checksum⟩ ≠ .session sess := nofun
      refine .leaves (fun _ _ => session_of_write hdone) (.inr ⟨rfl, ?_, fun _ => id⟩) rfl rfl
      exact read_write_ne _ (donePath_ne_dataPath u).symm _
  | cleanupChunks =>
    cases hnext
    exact .deletes (Sub.deleteByPrefix _) (.inr (spares_deleteByPrefix (hasPrefix_dataPath u))) rfl rfl
  | completeDiscard | cleanupData =>
    cases hnext
    exact .deletes (Sub.delete _) (.inl rfl) rfl rfl
  | abortDelete =>
    cases hnext
    exact .deletes (Sub.deleteByPrefix _) (.inl rfl) rfl rfl
  | returned => cases hnext

/-! ### The invariant of all interleavings -/

/-- The only session that may be stored for the upload. -/
def OnlySession (u : String) (sess : Session) (d : Disk) : Prop :=
  ∀ sess', d.fm.read (metadataPath u) = some (.session sess') → sess' = sess

/-- What a call relies on: it has read the session, its copy stands in the data file if streams are
written in place, and in front of the hand-over the file has the announced checksum. -/
structure Announced (svc : Service) (u : String) (sess : Session) (i : ℕ) (d : Disk)
    (c : UploadCall) : Prop where
  session : ∀ sess', c.session = some sess' → sess' = sess
  copied : ∀ sess' rest data, c = .completeCopy sess' rest data → d.inPlace = true →
    (i, dataPath u) ∈ d.opened ∧ d.fm.read (dataPath u) = some (.raw data)
  data : ∀ sess' checksum, c = .completeDispatch sess' checksum →
    checksum = sess.expectedChecksum ∧
      ∃ data, d.fm.read (dataPath u) = some (.raw data) ∧ svc.digest data = checksum

variable {sess : Session}

/-- A call that does not rely on the data file has only its session to keep. -/
theorem Announced.of_not_relies (hsess : ∀ sess', c.session = some sess' → sess' = sess)
    (hrel : c.relies = false) : Announced svc u sess i d c := by
  refine ⟨hsess, ?_, ?_⟩
  · rintro sess' rest data rfl
    cases hrel
  · rintro sess' checksum rfl
    cases hrel

theorem announced_start (hstart : start d c = true) : Announced svc u sess i d c := by
  cases c with
  | chunkLoad _ _ _ | completeLoad _ _ | abortLoad _ => exact .of_not_relies nofun rfl
  | _ => cases hstart

theorem announced_self (hd : OnlySession u sess d) (hc : Announced svc u sess i d c)
    (hstep : Steps svc u i d c d' c') : Announced svc u sess i d' c' := by
  have hsess : ∀ sess', c'.session = some sess' → sess' = sess := by
    intro sess' h
    rcases hstep.session sess' h with h | h
    · exact hc.session sess' h
    · exact hd sess' h
  cases hrel : c'.relies with
  | false => exact .of_not_relies hsess hrel
  | true =>
    cases hstep.relies hrel with
    | opens sess' =>
      refine ⟨hsess, ?_, nofun⟩
      rintro _ _ _ ⟨⟩ hplace
      unfold openStream at hplace ⊢
      split_ifs at hplace ⊢ with h
      · exact ⟨List.mem_cons_self, read_write_self _ _ _⟩
      · exact absurd hplace h
    | copies sess' j rest data chunk =>
      refine ⟨hsess, ?_, nofun⟩
      rintro _ _ _ ⟨⟩ hplace
      rw [inPlace_fill] at hplace
      obtain ⟨hopen, hread⟩ := hc.copied sess' (j :: rest) data rfl hplace
      exact fill_spec hopen hread chunk
    | closes sess' data hsum =>
      refine ⟨hsess, nofun, ?_⟩
      rintro _ _ ⟨⟩
      obtain rfl := hc.session sess' rfl
      exact ⟨hsum, data, closeStream_spec fun h => (hc.copied sess' [] data rfl h).2, rfl⟩

theorem announced_other {j : ℕ} {b : UploadCall} (hb : Announced svc u sess j d b)
    (hstep : Steps svc u i d c d' c') (htouch : c.touches = true → b.relies = false) :
    Announced svc u sess j d' b := by
  rcases hstep.spares with h | h
  · exact .of_not_relies hb.session (htouch h)
  · refine ⟨hb.session, fun sess' rest data hcall hplace => ?_, fun sess' checksum hcall => ?_⟩
    · rw [h.inPlace] at hplace
      obtain ⟨hopen, hread⟩ := hb.copied sess' rest data hcall hplace
      exact ⟨h.opened j hopen, h.read.trans hread⟩
    · rw [h.read]
      exact hb.data sess' checksum hcall

def UploadInv (svc : Service) (u : String) (sess : Session) : Pool Disk UploadCall → Prop :=
  SlotsInv (OnlySession u sess) fun d j call => ∀ c ∈ call, Announced svc u sess j d c

theorem announced_step :
    StableUnder (svc.program u).step (GuardedAt Undisturbed) (UploadInv svc u sess) := by
  refine Program.slotsInv_step ?_ ?_
  · rintro d j c _ hstart _ _ ⟨⟩
    exact announced_start hstart
  · intro p j e c d' c' hd hc hund hnext
    have hstep := next_steps hnext
    refine ⟨fun sess' h => hd sess' (hstep.noSession _ _ h), ?_, fun k hk hcall b hb => ?_⟩
    · rintro _ ⟨⟩
      exact announced_self hd (hc c rfl) hstep
    · exact announced_other (hcall b hb) hstep fun htouch =>
        hund htouch b (List.mem_eraseIdx_iff_getElem?.2 ⟨k, hk, hb⟩)

/-- **What the daemon is handed**: if no step touches the data file while another `Complete` relies
on it, a `Complete` in front of its hand-over announces the expected checksum, and the data file has
it. -/
theorem dispatch_exact (svc : Service) (u : String) (sess : Session) (fm : Storage) (inPlace : Bool)
    (hsess : fm.read (metadataPath u) = some (.session sess))
    (ms : List (Move UploadCall Env)) (p : Pool Disk UploadCall)
    (hms : Along (svc.program u).step (GuardedAt Undisturbed) (.idle ⟨fm, inPlace, []⟩) ms)
    (hrun : run (svc.program u).step (.idle ⟨fm, inPlace, []⟩) ms = some p)
    (i : ℕ) (sess' : Session) (checksum : String)
    (hcall : p.calls[i]? = some (.completeDispatch sess' checksum)) :
    checksum = sess.expectedChecksum ∧
      ∃ data, p.store.fm.read (dataPath u) = some (.raw data) ∧ svc.digest data = checksum := by
  have hfm : OnlySession u sess ⟨fm, inPlace, []⟩ := by
    intro sess'' h
    rw [hsess] at h
    cases h
    rfl
  have hinv : UploadInv svc u sess p :=
    run_inv _ announced_step ⟨hfm, fun _ _ h => by simp [Pool.idle] at h⟩ hms hrun
  exact (hinv.slot i _ hcall).data sess' checksum rfl

def textService : Service :=
  ⟨.bytewise, fun data => String.ofList (data.map Char.ofUInt8)⟩

theorem textService_digest_injective : Function.Injective textService.digest := by
  intro a b h
  have hlist := congrArg String.toList h
  simp only [textService, String.toList_ofList] at hlist
  refine List.map_injective_iff.2 (fun x y hxy => ?_) hlist
  exact UInt8.toUInt32_inj.1 (congrArg Char.val hxy)

def byteSession : Session :=
  ⟨"9f", 1, 1, 7, "mod.zip", "", 1, 1, 1, "A", 0, 10, Config.bytewise.chunkSize_lt, Nat.one_pos,
    by decide⟩

def byteStorage : Storage :=
  (InMemoryFileManager.new.write (metadataPath "9f") (.session byteSession)).write
    (chunkPath "9f" 0) (.raw [65])

/-- `Complete` opens its data file and copies the chunk, which is uploaded once more in between. -/
def completeDuringUpload : List (Move UploadCall Env) :=
  [.spawn (.completeLoad 7 (some 1)), .spawn (.chunkLoad 7 0 ⟨[65], false⟩),
    .advance 0 ⟨1, true⟩, .advance 1 ⟨1, true⟩, .advance 0 ⟨1, true⟩, .advance 1 ⟨1, true⟩,
    .advance 0 ⟨1, true⟩, .advance 1 ⟨1, true⟩, .advance 0 ⟨1, true⟩, .advance 1 ⟨1, true⟩,
    .advance 0 ⟨1, true⟩, .advance 0 ⟨1, true⟩]

theorem dispatch_exact_during_upload :
    ∃ p, run (textService.program "9f").step (.idle ⟨byteStorage, true, []⟩)
        completeDuringUpload = some p ∧
      ∃ data, p.store.fm.read (dataPath "9f") = some (.raw data) ∧ textService.digest data = "A" :=
  ⟨_, rfl, (dispatch_exact textService "9f" byteSession byteStorage true (by decide)
    completeDuringUpload _ (by decide) rfl 0 byteSession "A" rfl).2⟩

/-- A `Complete` of the upload, up to its hand-over, and what the call after it does next. -/
def completeThen (c : UploadCall) (steps : ℕ) : List (Move UploadCall Env) :=
  [.spawn (.completeLoad 7 (some 1)), .spawn c] ++ List.replicate 6 (.advance 0 ⟨1, true⟩) ++
    List.replicate steps (.advance 1 ⟨1, true⟩)

/-- A `Complete` is about to announce a file that is gone after an `Abort`, or, where streams are
written in place, one that a second `Complete` has emptied. -/
theorem dispatch_without_data : Function.Injective textService.digest ∧
    (∃ p, run (textService.program "9f").step (.idle ⟨byteStorage, false, []⟩)
        (completeThen (.abortLoad 7) 2) = some p ∧
      p.calls[0]? = some (.completeDispatch byteSession "A") ∧
      p.store.fm.read (dataPath "9f") = none) ∧
    ∃ p, run (textService.program "9f").step (.idle ⟨byteStorage, true, []⟩)
        (completeThen (.completeLoad 7 (some 1)) 4) = some p ∧
      p.calls[0]? = some (.completeDispatch byteSession "A") ∧
      p.store.fm.read (dataPath "9f") = some (.raw []) :=
  ⟨textService_digest_injective, ⟨_, rfl, rfl, by decide⟩, _, rfl, rfl, by decide⟩

end Service

end GameAP.Upload
