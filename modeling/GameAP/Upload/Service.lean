import GameAP.Upload.Session
import Mathlib.Data.Finset.Card

/-!
# The upload service

`upload.Service` and `upload.Janitor`, one call at a time.  A call gets the storage and returns the
storage it leaves with its result; what the environment decides (the clock, a new id, the request
body, whether a write, a listing or the dispatch to the daemon succeeds) is an argument.  A stream
that fails may leave anything at its path.

`UploadOp` collects the calls, and `Service.step` is one of them.
-/

namespace GameAP.Upload

/-- The limits of uploads. -/
structure Config where
  chunkSize : ℕ
  sessionTTL : ℕ
  /-- `0` for no limit. -/
  maxChunks : ℕ
  chunkSize_lt : chunkSize < 2 ^ 64

def Config.bytewise : Config := ⟨1, 10, 0, by decide⟩

structure CreateParams where
  serverID : ℕ
  nodeID : ℕ
  userID : ℕ
  fullPath : String
  suUser : String
  totalSize : ℕ
  expectedChecksum : String
  totalSize_lt : totalSize < 2 ^ 64

/-- The errors of the service; the last six wrap an error of the storage, of the daemon or of the
configuration. -/
inductive UploadError
  | sessionNotFound
  | sessionForbidden
  | sessionExpired
  | invalidIndex
  | chunkSizeMismatch (index received expected : ℕ)
  | incompleteUpload
  | checksumMismatch
  | invalidChecksum
  | invalidTotalSize
  | tooManyChunks
  | sessionAlreadyDone
  | nodeMismatch
  | chunkSizeNotConfigured
  | unmarshalSession
  | writeMetadata
  | writeChunk
  | listChunks
  | assemble
  | dispatch
  deriving DecidableEq

/-- A reader: what it yields, and whether it ends with an error. -/
structure Body where
  bytes : Bytes
  fails : Bool := false
  deriving DecidableEq

/-- `io.LimitReader`: after `n` bytes the reader ends, whatever the inner one would do next. -/
def Body.limit (b : Body) (n : ℕ) : Body :=
  if n ≤ b.bytes.length then ⟨b.bytes.take n, false⟩ else b

/-- What the storage makes of a stream: whether it accepts it, and what it leaves when it fails. -/
structure StreamOutcome where
  ok : Bool := true
  left : Option Bytes := none
  deriving DecidableEq

/-- `Storage.WriteStream`, with whether it succeeded. -/
def writeStream (fm : Storage) (path : String) (body : Body) (o : StreamOutcome) : Storage × Bool :=
  if o.ok ∧ body.fails = false then (fm.write path (.raw body.bytes), true)
  else (o.left.elim fm fun data => fm.write path (.raw data), false)

/-- 64 hexadecimal digits. -/
def isHexSHA256 (s : String) : Bool :=
  s.toList.length = 64 &&
    s.toList.all fun c => '0' ≤ c ∧ c ≤ '9' ∨ 'a' ≤ c ∧ c ≤ 'f' ∨ 'A' ≤ c ∧ c ≤ 'F'

/-- The number of chunks; the sum is a `uint64`. -/
def countChunks (totalSize chunkSize : ℕ) : ℕ :=
  let n := (totalSize + chunkSize - 1) % 2 ^ 64 / chunkSize
  if n = 0 then 1 else n

theorem countChunks_pos (totalSize chunkSize : ℕ) : 0 < countChunks totalSize chunkSize := by
  simp only [countChunks]
  split_ifs with hn
  · exact Nat.one_pos
  · exact Nat.pos_of_ne_zero hn

theorem mul_countChunks_le {totalSize chunkSize : ℕ} (ht : totalSize < 2 ^ 64)
    (hc : chunkSize < 2 ^ 64) : chunkSize * (countChunks totalSize chunkSize - 1) ≤ totalSize := by
  simp only [countChunks]
  split_ifs with hn
  · simp
  · have hlt : totalSize + chunkSize - 1 < 2 ^ 64 := by
      by_contra hge
      apply hn
      rw [Nat.div_eq_zero_iff]
      omega
    rw [Nat.mod_eq_of_lt hlt] at hn ⊢
    have hmul := Nat.mul_div_le (totalSize + chunkSize - 1) chunkSize
    rw [Nat.mul_sub]
    omega

/-- `strings.ToLower` on a checksum. -/
def toLower (s : String) : String := String.ofList (s.toList.map Char.toLower)

/-- The session that `Create` makes. -/
def newSession (cfg : Config) (now : Time) (uploadID : String) (p : CreateParams) : Session where
  uploadID := uploadID
  serverID := p.serverID
  nodeID := p.nodeID
  userID := p.userID
  fullPath := p.fullPath
  suUser := p.suUser
  totalSize := p.totalSize
  chunkSize := cfg.chunkSize
  totalChunks := countChunks p.totalSize cfg.chunkSize
  expectedChecksum := toLower p.expectedChecksum
  createdAt := now
  expiresAt := now + cfg.sessionTTL
  totalSize_lt := p.totalSize_lt
  totalChunks_pos := countChunks_pos _ _
  chunks_fit := mul_countChunks_le p.totalSize_lt cfg.chunkSize_lt

def safeChunkLimit (expectedSize : ℕ) : ℕ :=
  if 2 ^ 63 - 1 ≤ expectedSize then 2 ^ 63 - 1 else expectedSize + 1

/-- The stored session. -/
def load (fm : Storage) (uploadID : String) : Except UploadError Session :=
  match fm.read (metadataPath uploadID) with
  | none => .error .sessionNotFound
  | some (.session sess) => .ok sess
  | some _ => .error .unmarshalSession

def verifyAccess (sess : Session) (userID : ℕ) (now : Time) : Except UploadError Unit :=
  if sess.userID ≠ userID then .error .sessionForbidden
  else if sess.expiresAt ≠ 0 ∧ sess.expiresAt < now then .error .sessionExpired
  else .ok ()

/-- `load` followed by `verifyAccess`, as every operation on a session begins. -/
def access (fm : Storage) (now : Time) (uploadID : String) (userID : ℕ) :
    Except UploadError Session :=
  match load fm uploadID with
  | .error err => .error err
  | .ok sess =>
    match verifyAccess sess userID now with
    | .error err => .error err
    | .ok () => .ok sess

theorem read_of_access {fm : Storage} {now : Time} {u : String} {userID : ℕ} {sess : Session}
    (h : access fm now u userID = .ok sess) : fm.read (metadataPath u) = some (.session sess) := by
  unfold access load at h
  split at h
  · cases h
  · rename_i sess' hload
    split at hload <;> try cases hload
    rename_i hread
    split at h <;> cases h
    exact hread

theorem access_eq_ok {fm : Storage} {u : String} {sess : Session}
    (hu : fm.read (metadataPath u) = some (.session sess)) {now : Time}
    (hnow : sess.expiresAt = 0 ∨ now ≤ sess.expiresAt) :
    access fm now u sess.userID = .ok sess := by
  have hverify : verifyAccess sess sess.userID now = .ok () := by
    rw [verifyAccess, if_neg (not_not.2 rfl), if_neg]
    rintro ⟨hzero, hlt⟩
    rcases hnow with h0 | hle
    · exact hzero h0
    · exact absurd hlt (not_lt.2 hle)
  simp only [access, load, hu, hverify]

/-- The indices that the paths below the chunk directory have. -/
def chunkIndices (fm : Storage) (uploadID : String) : Finset ℕ :=
  ((fm.list (chunksPrefix uploadID)).filterMap (indexFromChunkPath uploadID)).toFinset

/-- `listed` is whether the storage can list the chunk directory; `LocalFileManager` cannot before
the first chunk has made it. -/
def receivedChunks (fm : Storage) (uploadID : String) (listed : Bool) :
    Except UploadError (Finset ℕ) :=
  if listed then .ok (chunkIndices fm uploadID) else .error .listChunks

/-- `io.MultiReader` over the `lazyChunkReader` of each index. -/
def chunkReader (fm : Storage) (uploadID : String) : List ℕ → Body
  | [] => ⟨[], false⟩
  | i :: is =>
    match (fm.read (chunkPath uploadID i)).bind UploadFile.bytes with
    | none => ⟨[], true⟩
    | some data => ⟨data ++ (chunkReader fm uploadID is).bytes, (chunkReader fm uploadID is).fails⟩

/-- The answer of `Status`. -/
structure SessionStatus where
  session : Session
  receivedChunks : List ℕ
  missingChunks : List ℕ
  uploadedBytes : ℕ
  completed : Bool

/-- What the environment decides in a `Complete`. -/
structure CompleteEnv where
  now : Time
  listed : Bool := true
  assembly : StreamOutcome := {}
  dispatched : Bool := true
  doneWritten : Bool := true

/-- `upload.Service`, with the digest that it computes over the assembled data. -/
structure Service where
  cfg : Config
  digest : Bytes → String

namespace Service

variable (svc : Service) (fm : Storage)

/-- `ok` is whether the metadata can be written. -/
def create (now : Time) (uploadID : String) (p : CreateParams) (ok : Bool) :
    Storage × Except UploadError Session :=
  if p.totalSize = 0 then (fm, .error .invalidTotalSize)
  else if isHexSHA256 p.expectedChecksum = false then (fm, .error .invalidChecksum)
  else if svc.cfg.chunkSize = 0 then (fm, .error .chunkSizeNotConfigured)
  else if 0 < svc.cfg.maxChunks ∧
      svc.cfg.maxChunks < (newSession svc.cfg now uploadID p).totalChunks then
    (fm, .error .tooManyChunks)
  else if ok then
    (fm.write (metadataPath uploadID) (.session (newSession svc.cfg now uploadID p)),
      .ok (newSession svc.cfg now uploadID p))
  else (fm, .error .writeMetadata)

/-- `WriteChunk` after its checks: write, compare the sizes, delete what is not a whole chunk. -/
def storeChunk (sess : Session) (uploadID : String) (index : ℕ) (body : Body)
    (o : StreamOutcome) : Storage × Except UploadError Unit :=
  let expectedSize := sess.chunkSizeFor index
  let limited := body.limit (safeChunkLimit expectedSize)
  let cp := chunkPath uploadID index
  match writeStream fm cp limited o with
  | (fm', false) => (fm'.delete cp, .error .writeChunk)
  | (fm', true) =>
    if limited.bytes.length ≠ expectedSize then
      (fm'.delete cp, .error (.chunkSizeMismatch index limited.bytes.length expectedSize))
    else (fm', .ok ())

def writeChunk (now : Time) (uploadID : String) (userID index : ℕ) (body : Body)
    (o : StreamOutcome) : Storage × Except UploadError Unit :=
  match access fm now uploadID userID with
  | .error err => (fm, .error err)
  | .ok sess =>
    if fm.fileExists (donePath uploadID) then (fm, .error .sessionAlreadyDone)
    else if sess.totalChunks ≤ index then (fm, .error .invalidIndex)
    else storeChunk fm sess uploadID index body o

/-- The answer of `Status` about the chunks that were received. -/
def statusOf (sess : Session) (uploadID : String) (received : Finset ℕ) : SessionStatus :=
  let indices := List.range sess.totalChunks
  { session := sess
    receivedChunks := indices.filter (· ∈ received)
    missingChunks := indices.filter (· ∉ received)
    uploadedBytes := ((indices.filter (· ∈ received)).map sess.chunkSizeFor).sum % 2 ^ 64
    completed := fm.fileExists (donePath uploadID) }

/-- `listed` is whether the chunk directory can be listed. -/
def status (now : Time) (uploadID : String) (userID : ℕ) (listed : Bool) :
    Except UploadError SessionStatus :=
  match access fm now uploadID userID with
  | .error err => .error err
  | .ok sess => (Upload.receivedChunks fm sess.uploadID listed).map (statusOf fm sess uploadID)

/-- The received chunks are all there: the two tests of `Complete`. -/
def isComplete (sess : Session) (received : Finset ℕ) : Bool :=
  received.card = sess.totalChunks ∧ ∀ i < sess.totalChunks, i ∈ received

/-- `Complete` after its checks: assemble, compare the checksums, hand over, write the sentinel. -/
def assembleAndDispatch (sess : Session) (uploadID : String) (e : CompleteEnv) :
    Storage × Except UploadError Unit :=
  let body := chunkReader fm uploadID (List.range sess.totalChunks)
  let dp := dataPath uploadID
  match writeStream fm dp body e.assembly with
  | (fm', false) => (fm'.delete dp, .error .assemble)
  | (fm', true) =>
    if svc.digest body.bytes ≠ sess.expectedChecksum then
      (fm'.delete dp, .error .checksumMismatch)
    else if e.dispatched = false then (fm'.delete dp, .error .dispatch)
    else if e.doneWritten then
      (fm'.write (donePath uploadID) (.done ⟨true, svc.digest body.bytes⟩), .ok ())
    else (fm', .ok ())

/-- `Complete` up to the cleanup, which runs detached. -/
def complete (uploadID : String) (userID : ℕ) (node : Option ℕ) (e : CompleteEnv) :
    Storage × Except UploadError Unit :=
  match access fm e.now uploadID userID with
  | .error err => (fm, .error err)
  | .ok sess =>
    if node ≠ some sess.nodeID then (fm, .error .nodeMismatch)
    else if fm.fileExists (donePath uploadID) then (fm, .ok ())
    else match Upload.receivedChunks fm uploadID e.listed with
      | .error err => (fm, .error err)
      | .ok received =>
        if isComplete sess received = false then (fm, .error .incompleteUpload)
        else svc.assembleAndDispatch fm sess uploadID e

def cleanupAfterComplete (uploadID : String) : Storage :=
  (fm.deleteByPrefix (chunksPrefix uploadID)).delete (dataPath uploadID)

def abort (now : Time) (uploadID : String) (userID : ℕ) : Storage × Except UploadError Unit :=
  match access fm now uploadID userID with
  | .error .sessionNotFound => (fm, .ok ())
  | .error err => (fm, .error err)
  | .ok _ => (fm.deleteByPrefix (transferRoot uploadID), .ok ())

end Service

/-! ### The janitor -/

/-- The upload of a path. -/
def uploadIDFromPath (path : String) : Option String :=
  if hasPrefix path transferPrefix then
    let rest := path.toList.drop transferPrefix.toList.length
    let id := rest.takeWhile (· ≠ '/')
    if id = [] ∨ id = rest then none else some (String.ofList id)
  else
    let rest := trimSlash path
    if rest = "" ∨ '/' ∈ rest.toList then none else some rest

def maybeRemove (now : Time) (fm : Storage) (uploadID : String) : Storage :=
  match fm.read (metadataPath uploadID) with
  | some (.session sess) =>
    if sess.expiresAt = 0 ∨ now < sess.expiresAt then fm
    else fm.deleteByPrefix (transferRoot uploadID)
  | _ => fm

/-- `listed` is whether the storage can list the transfers. -/
def sweep (fm : Storage) (now : Time) (listed : Bool) : Storage :=
  if listed then ((fm.list transferPrefix).filterMap uploadIDFromPath).dedup.foldl (maybeRemove now) fm
  else fm

/-! ### Sequences of calls -/

/-- A call with what the environment decides; the detached cleanup of a `Complete` may run any time
after it. -/
inductive UploadOp
  | create (now : Time) (uploadID : String) (p : CreateParams) (ok : Bool)
  | writeChunk (now : Time) (uploadID : String) (userID index : ℕ) (body : Body)
      (o : StreamOutcome)
  | complete (uploadID : String) (userID : ℕ) (node : Option ℕ) (e : CompleteEnv)
  | cleanup (uploadID : String)
  | abort (now : Time) (uploadID : String) (userID : ℕ)
  | sweep (now : Time) (listed : Bool)

namespace Service

variable (svc : Service) (fm : Storage)

/-- A call on the storage. -/
def apply : UploadOp → Storage
  | .create now uploadID p ok => (svc.create fm now uploadID p ok).1
  | .writeChunk now uploadID userID index body o =>
    (writeChunk fm now uploadID userID index body o).1
  | .complete uploadID userID node e => (svc.complete fm uploadID userID node e).1
  | .cleanup uploadID => cleanupAfterComplete fm uploadID
  | .abort now uploadID userID => (abort fm now uploadID userID).1
  | .sweep now listed => Upload.sweep fm now listed

def step (op : UploadOp) : Option Storage := some (svc.apply fm op)

end Service

end GameAP.Upload
