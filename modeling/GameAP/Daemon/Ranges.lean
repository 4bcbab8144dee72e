import GameAP.Daemon.Paths
import GameAP.Domain
import GameAP.Files.InMemory

/-!
# Reading a part of a file on a node

`FileService.DownloadRange` reads a window of a file in one request, `DownloadStreamRange` in
requests of 4 MiB, both through the gateway of this instance when it holds the session of the
daemon, and otherwise through the message bus.

On the second route an empty content comes back as nil, which means that the content was left in the
storage, so that an answer without bytes ends in an error (`empty_file_dispatched`).
`ranges_agree`: both routes and both functions give the window when this does not happen
(`NoEmptyAnswer`).

An offset or a length is an `int64` that is not negative.  The contexts of the requests are not
cancelled, except where `ctx` says so; the reader of a stream reads it to its end.
-/

namespace GameAP

/-! ### Errors -/

/-- The kinds of `fileStatusError`. -/
inductive FileStatusError
  | fileNotFound
  | permissionDenied
  | isDirectory
  | notDirectory
  | fileExists
  | directoryNotEmpty
  | fileBusy
  | fileTooLarge
  | noSpaceLeft
  | invalidPath
  deriving DecidableEq

def FileStatusError.message : FileStatusError → String
  | .fileNotFound => "file not found"
  | .permissionDenied => "permission denied"
  | .isDirectory => "path is a directory"
  | .notDirectory => "path is not a directory"
  | .fileExists => "file already exists"
  | .directoryNotEmpty => "directory is not empty"
  | .fileBusy => "file is busy"
  | .fileTooLarge => "file too large"
  | .noSpaceLeft => "no space left on device"
  | .invalidPath => "invalid path"

/-- The errors of the file service: `ErrDaemonNotConnected`, a `*FileError`, a plain error, and
`errors.WithMessage`. -/
inductive FileServiceError
  | notConnected
  | file (op : String) (err : FileStatusError) (detail : String)
  | plain (message : String)
  | withMessage (message : String) (err : FileServiceError)
  deriving DecidableEq

/-- `Error`. -/
def FileServiceError.text : FileServiceError → String
  | .notConnected => "daemon not connected"
  | .file _ err _ => err.message
  | .plain message => message
  | .withMessage message err => message ++ ": " ++ err.text

def fileErrorPatterns : List (String × FileStatusError) :=
  [("path is outside work directory", .invalidPath),
    ("path escapes from parent", .invalidPath),
    ("file name too long", .invalidPath),
    ("not a directory", .notDirectory),
    ("is a directory", .isDirectory),
    ("no such file or directory", .fileNotFound),
    ("file does not exist", .fileNotFound),
    ("cannot find the file specified", .fileNotFound),
    ("cannot find the path specified", .fileNotFound),
    ("permission denied", .permissionDenied),
    ("operation not permitted", .permissionDenied),
    ("access is denied", .permissionDenied),
    ("file exists", .fileExists),
    ("already exists", .fileExists),
    ("directory not empty", .directoryNotEmpty),
    ("directory is not empty", .directoryNotEmpty),
    ("text file busy", .fileBusy),
    ("being used by another process", .fileBusy),
    ("file too large", .fileTooLarge),
    ("no space left on device", .noSpaceLeft),
    ("not enough space on the disk", .noSpaceLeft),
    ("disk quota exceeded", .noSpaceLeft)]

def daemonFileError (op msg : String) : Option FileServiceError :=
  let lower := msg.toList.map lowerRune
  if containsStr "work directory unavailable".toList lower then none
  else (fileErrorPatterns.find? fun p => containsStr p.1.toList lower).map fun p =>
    .file op p.2 msg

/-- A response without success, as `daemonFileError` knows it or with the given text before it. -/
def failedRead (text error : String) : FileServiceError :=
  (daemonFileError "file read" error).getD (.plain (text ++ ": " ++ error))

/-! ### Messages -/

/-- The value of a field on the wire. -/
inductive WireValue
  | varint (n : ℕ)
  | text (s : String)
  | bytes (b : Bytes)
  deriving DecidableEq

/-- The wire type of a value. -/
def WireValue.wireType : WireValue → ℕ
  | .varint _ => 0
  | .text _ | .bytes _ => 2

def wrongWireType (v : WireValue) (field : String) : String :=
  "proto: wrong wireType = " ++ toString v.wireType ++ " for field " ++ field

/-- A marshalled message: the numbers and values of its fields. -/
abbrev Wire := List (ℕ × WireValue)

/-- A field that has its default value is not written. -/
def textField (num : ℕ) (s : String) : Wire := if s = "" then [] else [(num, .text s)]

def varintField (num n : ℕ) : Wire := if n = 0 then [] else [(num, .varint n)]

def bytesField (num : ℕ) (b : Bytes) : Wire := if b = [] then [] else [(num, .bytes b)]

open List

section Fields

variable {α : Type} (set : α → ℕ × WireValue → Except String α) {m m' : α} {num : ℕ}

theorem foldlM_textField {s : String} (hdef : s = "" → m = m')
    (hset : set m (num, .text s) = .ok m') : (textField num s).foldlM set m = .ok m' := by
  unfold textField
  split
  · exact congrArg Except.ok (hdef ‹_›)
  · rw [foldlM_cons, hset]
    rfl

theorem foldlM_varintField {n : ℕ} (hdef : n = 0 → m = m')
    (hset : set m (num, .varint n) = .ok m') : (varintField num n).foldlM set m = .ok m' := by
  unfold varintField
  split
  · exact congrArg Except.ok (hdef ‹_›)
  · rw [foldlM_cons, hset]
    rfl

theorem foldlM_bytesField {b : Bytes} (hdef : b = [] → m = m')
    (hset : b ≠ [] → set m (num, .bytes b) = .ok m') :
    (bytesField num b).foldlM set m = .ok m' := by
  unfold bytesField
  split
  · exact congrArg Except.ok (hdef ‹_›)
  · rw [foldlM_cons, hset ‹_›]
    rfl

end Fields

/-- The request of a read. -/
structure FileReadRequest where
  path : String := ""
  maxSize : ℕ := 0
  offset : ℕ := 0
  length : ℕ := 0
  deriving DecidableEq

namespace FileReadRequest

def marshalVT (m : FileReadRequest) : Wire :=
  textField 1 m.path ++ varintField 2 m.maxSize ++ varintField 3 m.offset ++ varintField 4 m.length

/-- One field of a request. -/
def setField (m : FileReadRequest) : ℕ × WireValue → Except String FileReadRequest
  | (1, .text s) => .ok { m with path := s }
  | (2, .varint n) => .ok { m with maxSize := n }
  | (3, .varint n) => .ok { m with offset := n }
  | (4, .varint n) => .ok { m with length := n }
  | (1, v) => .error (wrongWireType v "Path")
  | (2, v) => .error (wrongWireType v "MaxSize")
  | (3, v) => .error (wrongWireType v "Offset")
  | (4, v) => .error (wrongWireType v "Length")
  | _ => .ok m

def unmarshalVT (data : Wire) : Except String FileReadRequest := data.foldlM setField {}

theorem unmarshalVT_marshalVT (m : FileReadRequest) : unmarshalVT m.marshalVT = .ok m := by
  obtain ⟨path, maxSize, offset, length⟩ := m
  have hpath : (textField 1 path).foldlM setField {} = .ok { path } :=
    foldlM_textField _ (by rintro rfl; rfl) rfl
  have hsize : (varintField 2 maxSize).foldlM setField { path } = .ok { path, maxSize } :=
    foldlM_varintField _ (by rintro rfl; rfl) rfl
  have hoffset : (varintField 3 offset).foldlM setField { path, maxSize } =
      .ok { path, maxSize, offset } :=
    foldlM_varintField _ (by rintro rfl; rfl) rfl
  have hlen : (varintField 4 length).foldlM setField { path, maxSize, offset } =
      .ok { path, maxSize, offset, length } :=
    foldlM_varintField _ (by rintro rfl; rfl) rfl
  simp only [unmarshalVT, marshalVT, foldlM_append, hpath, hsize, hoffset, hlen, bind,
    Except.bind]

end FileReadRequest

/-- `proto.FileReadResponse` with a content that may be nil. -/
structure FileReadReply where
  requestID : String := ""
  success : Bool := false
  content : Option Bytes := none
  transferID : String := ""
  error : String := ""
  deriving DecidableEq

namespace FileReadReply

def marshalVT (m : FileReadReply) : Wire :=
  textField 1 m.requestID ++ varintField 2 m.success.toNat ++ bytesField 3 (m.content.getD []) ++
    textField 4 m.transferID ++ textField 5 m.error

/-- One field of a reply. -/
def setField (m : FileReadReply) : ℕ × WireValue → Except String FileReadReply
  | (1, .text s) => .ok { m with requestID := s }
  | (2, .varint n) => .ok { m with success := n ≠ 0 }
  | (3, .bytes b) => .ok { m with content := some b }
  | (4, .text s) => .ok { m with transferID := s }
  | (5, .text s) => .ok { m with error := s }
  | (1, v) => .error (wrongWireType v "RequestId")
  | (2, v) => .error (wrongWireType v "Success")
  | (3, v) => .error (wrongWireType v "Content")
  | (4, v) => .error (wrongWireType v "TransferId")
  | (5, v) => .error (wrongWireType v "Error")
  | _ => .ok m

def unmarshalVT (data : Wire) : Except String FileReadReply := data.foldlM setField {}

/-- An empty content comes back as nil. -/
theorem unmarshalVT_marshalVT (m : FileReadReply) : unmarshalVT m.marshalVT = .ok { m with
      content := if m.content.getD [] = [] then none else some (m.content.getD []) } := by
  obtain ⟨requestID, success, content, transferID, error⟩ := m
  generalize hbytes : content.getD [] = bytes
  generalize hdec : (if bytes = [] then none else some bytes) = decoded
  have hid : (textField 1 requestID).foldlM setField {} = .ok { requestID } :=
    foldlM_textField _ (by rintro rfl; rfl) rfl
  have hsucc : (varintField 2 success.toNat).foldlM setField { requestID } =
      .ok { requestID, success } := by
    cases success <;> rfl
  have hcont : (bytesField 3 bytes).foldlM setField { requestID, success } =
      .ok { requestID, success, content := decoded } := by
    subst hdec
    refine foldlM_bytesField _ (fun hempty => ?_) (fun hne => ?_)
    · rw [if_pos hempty]
    · rw [if_neg hne]
      rfl
  have htran : (textField 4 transferID).foldlM setField
      { requestID, success, content := decoded } =
      .ok { requestID, success, content := decoded, transferID } :=
    foldlM_textField _ (by rintro rfl; rfl) rfl
  have herror : (textField 5 error).foldlM setField
      { requestID, success, content := decoded, transferID } =
      .ok { requestID, success, content := decoded, transferID, error } :=
    foldlM_textField _ (by rintro rfl; rfl) rfl
  simp only [unmarshalVT, marshalVT, hbytes, foldlM_append, hid, hsucc, hcont, htran,
    herror, bind, Except.bind]

end FileReadReply

/-! ### The service -/

/-- `messages.DaemonFileResponsePayload`, without the identifier the dispatcher matches it by. -/
structure DaemonFileResponsePayload where
  error : String := ""
  data : Wire := []
  storagePath : String := ""

structure FileReadResult where
  content : Option Bytes := none
  storagePath : String := ""

/-- What `FileService` sees of one node: where its session is, how the gateway answers a read, why
the bus brings no answer if it does not, and the storage. -/
structure FileService where
  isConnected : Bool
  isConnectedAnywhere : Bool
  requestFileRead : String → ℕ → ℕ → Except FileServiceError FileReadReply
  busErr : Option String := none
  storage : InMemoryFileManager Bytes := .new

def maxInt64 : ℕ := 9223372036854775807

def rangeChunkSize : ℕ := 4194304

/-- The end of a pipe: the bytes that come out of it, and the error it was closed with. -/
structure ByteStream where
  bytes : Bytes
  err : Option FileServiceError := none
  deriving DecidableEq

/-- The path a request names. -/
def relPath (workPath filePath : String) : String :=
  String.ofList (stripWorkPath workPath.toList filePath.toList)

namespace FileService

variable (s : FileService)

def resolveRoute : Except FileServiceError Bool :=
  if s.isConnected then .ok true
  else if !s.isConnectedAnywhere then .error .notConnected
  else .ok false

/-- `execFileRead`, on the instance that holds the session. -/
def execFileRead (data : Wire) : DaemonFileResponsePayload :=
  match FileReadRequest.unmarshalVT data with
  | .error err => { error := err }
  | .ok req =>
    match s.requestFileRead req.path req.offset req.length with
    | .error err => { error := err.text }
    | .ok resp => { data := resp.marshalVT }

/-- A request over the bus. -/
def dispatchAndWait (data : Wire) : Except FileServiceError DaemonFileResponsePayload :=
  match s.busErr with
  | some err => .error (.plain err)
  | none =>
    let resp := s.execFileRead data
    if resp.error ≠ "" then .error (.plain resp.error) else .ok resp

/-- A read over the bus. -/
def dispatchFileRead (path : String) (offset length : ℕ) :
    Except FileServiceError FileReadResult := do
  let resp ← s.dispatchAndWait { path, offset, length : FileReadRequest }.marshalVT
  if resp.storagePath ≠ "" then .ok { storagePath := resp.storagePath }
  else
    match FileReadReply.unmarshalVT resp.data with
    | .error err => .error (.withMessage "unmarshal file read response" (.plain err))
    | .ok readResp =>
      if !readResp.success then .error (failedRead "file read failed" readResp.error)
      else .ok { content := readResp.content }

/-- The four texts by which the errors of `DownloadRange` and of `readChunk` differ. -/
structure ReadTexts where
  request : String
  failed : String
  dispatched : String
  storage : String

/-- The read that `DownloadRange` and `readChunk` share.  A content that is nil on the second route
is looked for in the storage. -/
def readWindow (texts : ReadTexts) (path : String) (offset length : ℕ) (isLocal : Bool) :
    FileService × Except FileServiceError (Option Bytes) :=
  if isLocal then
    match s.requestFileRead path offset length with
    | .error err => (s, .error (.withMessage texts.request err))
    | .ok resp =>
      if !resp.success then (s, .error (failedRead texts.failed resp.error))
      else (s, .ok resp.content)
  else
    match s.dispatchFileRead path offset length with
    | .error err => (s, .error (.withMessage texts.dispatched err))
    | .ok result =>
      match result.content with
      | some content => (s, .ok (some content))
      | none =>
        match s.storage.read result.storagePath with
        | none => (s, .error (.withMessage texts.storage
            (.plain ("file not found: " ++ result.storagePath))))
        | some data => ({ s with storage := s.storage.delete result.storagePath }, .ok (some data))

def downloadRange (workPath filePath : String) (offset limit : ℕ) :
    FileService × Except FileServiceError (Option Bytes) :=
  let relPath := relPath workPath filePath
  let length := min limit maxInt64
  let start := min offset maxInt64
  match s.resolveRoute with
  | .error err => (s, .error err)
  | .ok isLocal =>
    s.readWindow ⟨"file read request", "file read failed", "dispatched file read",
      "reading transferred file from storage"⟩ relPath start length isLocal

/-- One chunk of a stream. -/
def readChunk (path : String) (offset length : ℕ) (isLocal : Bool) :
    FileService × Except FileServiceError (Option Bytes) :=
  s.readWindow ⟨"gateway ranged read", "gateway ranged read", "dispatched ranged read",
    "reading transferred range from storage"⟩ path offset length isLocal

/-- The loop of `chunkedRange`; `ctx` says for each turn whether the context is done, and with what
error. -/
def chunkedRange (ctx : ℕ → Option String) (path : String) (unbounded isLocal : Bool) :
    ℕ → ℕ → FileService → ℕ → ℕ → Option (FileService × ByteStream)
  | 0, _, _, _, _ => none
  | fuel + 1, turn, s, offset, remaining =>
    if unbounded || decide (0 < remaining) then
      match ctx turn with
      | some err => some (s, ⟨[], some (.plain err)⟩)
      | none =>
        let want := if !unbounded && decide (remaining < rangeChunkSize) then remaining
          else rangeChunkSize
        match s.readChunk path offset want isLocal with
        | (s, .error err) => some (s, ⟨[], some err⟩)
        | (s, .ok content) =>
          let content := content.getD []
          if content.length = 0 then some (s, ⟨[], none⟩)
          else if content.length < want then some (s, ⟨content, none⟩)
          else
            (chunkedRange ctx path unbounded isLocal fuel (turn + 1) s (offset + content.length)
              (if unbounded then remaining else remaining - content.length)).map fun r =>
                (r.1, ⟨content ++ r.2.bytes, r.2.err⟩)
    else some (s, ⟨[], none⟩)

/-- `DownloadStreamRange`, and what its reader then reads in at most `fuel` turns. -/
def downloadStreamRange (fuel : ℕ) (ctx : ℕ → Option String) (workPath filePath : String)
    (offset length : ℕ) : Except FileServiceError (Option (FileService × ByteStream)) :=
  let relPath := relPath workPath filePath
  match s.resolveRoute with
  | .error err => .error err
  | .ok isLocal =>
    let start := min offset maxInt64
    let remaining := min length maxInt64
    .ok (chunkedRange ctx relPath (decide (remaining = 0)) isLocal fuel 0 s start remaining)

end FileService

/-! ### Windows of a file -/

/-- A file on a node; its size is an `int64`. -/
structure NodeFile where
  content : Bytes
  size_le : content.length ≤ maxInt64

namespace NodeFile

variable (file : NodeFile)

/-- The length of the file. -/
def size : ℕ := file.content.length

/-- The bytes of the file from `offset` on, at most `length` of them, or all for the length 0. -/
def window (offset length : ℕ) : Bytes :=
  if length = 0 then file.content.drop offset else (file.content.drop offset).take length

variable {file} {offset length : ℕ}

theorem window_zero : file.window offset 0 = file.content.drop offset := if_pos rfl

theorem window_pos (hpos : 0 < length) :
    file.window offset length = (file.content.drop offset).take length := if_neg hpos.ne'

theorem length_window_pos (hpos : 0 < length) :
    (file.window offset length).length = min length (file.size - offset) := by
  rw [window_pos hpos, length_take, length_drop, size]

theorem window_eq_nil (hoff : file.size ≤ offset) : file.window offset length = [] := by
  have hdrop : file.content.drop offset = [] := drop_eq_nil_of_le hoff
  unfold window
  split <;> simp [hdrop]

theorem window_ne_nil (hoff : offset < file.size) : file.window offset length ≠ [] := by
  intro hnil
  rcases Nat.eq_zero_or_pos length with rfl | hpos
  · rw [window_zero, drop_eq_nil_iff] at hnil
    exact absurd hoff (Nat.not_lt.mpr hnil)
  · have hlen := @length_window_pos file offset length hpos
    rw [hnil, length_nil] at hlen
    omega

theorem window_of_short (hshort : file.size - offset ≤ length) :
    file.window offset length = file.content.drop offset := by
  rcases Nat.eq_zero_or_pos length with rfl | hpos
  · exact window_zero
  · rw [window_pos hpos]
    refine take_of_length_le ?_
    rw [length_drop]
    exact hshort

theorem window_append {want : ℕ} (hwant : 0 < want) (hlt : length = 0 ∨ want < length) :
    file.window offset want ++ file.window (offset + want) (length - want) =
      file.window offset length := by
  rw [window_pos hwant]
  rcases hlt with rfl | hlt
  · rw [Nat.zero_sub, window_zero, window_zero, ← drop_drop, take_append_drop]
  · rw [window_pos (by omega), window_pos (by omega), ← drop_drop, ← take_add,
      Nat.add_sub_cancel' hlt.le]

theorem window_clamp :
    file.window (min offset maxInt64) (min length maxInt64) = file.window offset length := by
  have hsize : file.size ≤ maxInt64 := file.size_le
  rcases le_or_gt offset maxInt64 with hoff | hoff
  · rw [min_eq_left hoff]
    rcases le_or_gt length maxInt64 with hlen | hlen
    · rw [min_eq_left hlen]
    · rw [min_eq_right hlen.le, window_of_short (by omega), window_of_short (by omega)]
  · rw [window_eq_nil (by omega), window_eq_nil (by omega)]

end NodeFile

/-! ### What the routes give -/

namespace FileService

variable {s : FileService} {path workPath filePath : String} {file : NodeFile} {isLocal : Bool}

/-- The daemon answers each read of `path` with the bytes of the window that exist; an empty content
may be nil. -/
def Serves (s : FileService) (path : String) (file : NodeFile) : Prop :=
  ∀ offset length, offset ≤ maxInt64 → length ≤ maxInt64 →
    ∃ resp, s.requestFileRead path offset length = .ok resp ∧ resp.success = true ∧
      resp.content.getD [] = file.window offset length

/-- A service whose daemon has `file` under every path. -/
def serving (file : NodeFile) (isLocal : Bool) : FileService where
  isConnected := isLocal
  isConnectedAnywhere := true
  requestFileRead _ offset length :=
    .ok { success := true, content := some (file.window offset length) }

theorem serves_serving (file : NodeFile) (isLocal : Bool) (path : String) :
    (serving file isLocal).Serves path file :=
  fun _ _ _ _ => ⟨_, rfl, rfl, rfl⟩

/-- The route `isLocal` can be taken. -/
structure Reaches (s : FileService) (isLocal : Bool) : Prop where
  route : s.resolveRoute = .ok isLocal
  bus : isLocal = false → s.busErr = none

theorem reaches_serving (file : NodeFile) (isLocal : Bool) :
    (serving file isLocal).Reaches isLocal where
  route := by cases isLocal <;> rfl
  bus _ := rfl

variable {offset length : ℕ} (texts : ReadTexts)

theorem dispatchFileRead_eq (hserves : s.Serves path file) (hbus : s.busErr = none)
    (hoff : offset ≤ maxInt64) (hlen : length ≤ maxInt64) :
    s.dispatchFileRead path offset length = .ok
      { content := if file.window offset length = [] then none
          else some (file.window offset length) } := by
  obtain ⟨resp, hread, hsucc, hcont⟩ := hserves offset length hoff hlen
  have hexec : s.execFileRead { path, offset, length : FileReadRequest }.marshalVT =
      { data := resp.marshalVT } := by
    simp only [execFileRead, FileReadRequest.unmarshalVT_marshalVT, hread]
  have hwait : s.dispatchAndWait { path, offset, length : FileReadRequest }.marshalVT =
      .ok { data := resp.marshalVT } := by
    simp [dispatchAndWait, hbus, hexec]
  simp [dispatchFileRead, hwait, bind, Except.bind, FileReadReply.unmarshalVT_marshalVT, hsucc,
    hcont]

/-- A read gives the window, except where an empty window comes over the bus. -/
theorem readWindow_eq (hserves : s.Serves path file)
    (hreaches : s.Reaches isLocal) (hoff : offset ≤ maxInt64)
    (hlen : length ≤ maxInt64) (hne : isLocal = false → file.window offset length ≠ []) :
    ∃ content, s.readWindow texts path offset length isLocal = (s, .ok content) ∧
      content.getD [] = file.window offset length := by
  cases isLocal with
  | true =>
    obtain ⟨resp, hread, hsucc, hcont⟩ := hserves offset length hoff hlen
    exact ⟨resp.content, by simp [readWindow, hread, hsucc], hcont⟩
  | false =>
    refine ⟨some (file.window offset length), ?_, rfl⟩
    simp [readWindow, dispatchFileRead_eq hserves (hreaches.bus rfl) hoff hlen, hne rfl]

/-- An empty window that comes over the bus is looked for in the storage, under the empty path. -/
theorem readWindow_empty (hserves : s.Serves path file)
    (hbus : s.busErr = none) (hstorage : s.storage.read "" = none)
    (hoff : offset ≤ maxInt64) (hlen : length ≤ maxInt64)
    (hempty : file.window offset length = []) :
    s.readWindow texts path offset length false =
      (s, .error (.withMessage texts.storage (.plain "file not found: "))) := by
  simp [readWindow, dispatchFileRead_eq hserves hbus hoff hlen, hempty, hstorage]

/-- No read of the window has an empty answer: the window does not reach past the end of the file,
or it begins before the end and the chunks do not end there. -/
def NoEmptyAnswer (file : NodeFile) (offset length : ℕ) : Prop :=
  length = 0 ∨ file.size - offset < length →
    offset < file.size ∧ ¬ rangeChunkSize ∣ file.size - offset

section

variable (remaining : ℕ)

/-- What a turn of the loop asks for. -/
def wanted : ℕ :=
  if remaining = 0 then rangeChunkSize else min remaining rangeChunkSize

theorem wanted_pos : 0 < wanted remaining := by
  have hchunk : 0 < rangeChunkSize := by decide
  unfold wanted
  split
  · exact hchunk
  · omega

theorem wanted_le_chunk : wanted remaining ≤ rangeChunkSize := by
  unfold wanted
  split <;> omega

theorem wanted_le : remaining = 0 ∨ wanted remaining ≤ remaining := by
  unfold wanted
  split <;> omega

end

theorem NoEmptyAnswer.offset_lt (h : NoEmptyAnswer file offset length) : offset < file.size := by
  by_cases hend : length = 0 ∨ file.size - offset < length
  · exact (h hend).1
  · omega

variable {remaining : ℕ}

theorem noEmptyAnswer_next (hfull : wanted remaining ≤ file.size - offset)
    (hne : wanted remaining ≠ remaining) :
    NoEmptyAnswer file (offset + wanted remaining) (remaining - wanted remaining) ↔
      NoEmptyAnswer file offset remaining := by
  obtain ⟨hwant, hrem⟩ :
      wanted remaining = rangeChunkSize ∧ (remaining = 0 ∨ rangeChunkSize < remaining) := by
    unfold wanted at hne ⊢
    split_ifs at hne ⊢ <;> omega
  rw [hwant] at hfull ⊢
  have hend : remaining - rangeChunkSize = 0 ∨
      file.size - (offset + rangeChunkSize) < remaining - rangeChunkSize ↔
        remaining = 0 ∨ file.size - offset < remaining := by omega
  unfold NoEmptyAnswer
  rw [hend, Nat.sub_add_eq, Nat.dvd_sub_self_right]
  refine imp_congr_right fun _ => ⟨?_, ?_⟩
  · rintro ⟨hlt, hdvd⟩
    exact ⟨by omega, fun h => hdvd (.inl h)⟩
  · rintro ⟨hlt, hdvd⟩
    have hmore : file.size - offset ≠ rangeChunkSize := fun heq => hdvd (heq ▸ Nat.dvd_refl _)
    exact ⟨by omega, not_or.2 ⟨hdvd, by omega⟩⟩

/-! ### The loop -/

section

variable (unbounded : Bool) (hrem : unbounded = true ↔ remaining = 0) (fuel turn : ℕ)
include hrem

theorem chunkedRange_succ :
    chunkedRange (fun _ => none) path unbounded isLocal (fuel + 1) turn s offset remaining =
      match s.readChunk path offset (wanted remaining) isLocal with
      | (s, .error err) => some (s, ⟨[], some err⟩)
      | (s, .ok content) =>
        if (content.getD []).length = 0 then some (s, ⟨[], none⟩)
        else if (content.getD []).length < wanted remaining then some (s, ⟨content.getD [], none⟩)
        else
          (chunkedRange (fun _ => none) path unbounded isLocal fuel (turn + 1) s
            (offset + (content.getD []).length) (remaining - (content.getD []).length)).map fun r =>
              (r.1, ⟨content.getD [] ++ r.2.bytes, r.2.err⟩) := by
  cases unbounded with
  | true =>
    obtain rfl : remaining = 0 := hrem.mp rfl
    simp [chunkedRange, wanted]
  | false =>
    have hpos : remaining ≠ 0 := fun hzero => Bool.noConfusion (hrem.mpr hzero)
    have hwant : (if remaining < rangeChunkSize then remaining else rangeChunkSize) =
        wanted remaining := by
      unfold wanted
      split <;> omega
    simp [chunkedRange, Nat.pos_of_ne_zero hpos, hwant]

end

variable {fuel : ℕ}

open NodeFile

/-- The loop gives the window, in at most one turn more than there are bytes.  Over the bus it ends
with an error when an answer is empty. -/
theorem chunkedRange_eq (hserves : s.Serves path file) (hreaches : s.Reaches isLocal)
    (unbounded : Bool) {turn : ℕ} (hrem : unbounded = true ↔ remaining = 0)
    (hoff : offset ≤ maxInt64) (hfuel : file.size - offset < fuel) {err : Option FileServiceError}
    (herr : err = none ∧ (isLocal = false → NoEmptyAnswer file offset remaining) ∨
      err = some (.withMessage "reading transferred range from storage" (.plain "file not found: ")) ∧
        isLocal = false ∧ s.storage.read "" = none ∧ ¬ NoEmptyAnswer file offset remaining) :
    chunkedRange (fun _ => none) path unbounded isLocal fuel turn s offset remaining =
      some (s, ⟨file.window offset remaining, err⟩) := by
  induction fuel generalizing turn offset remaining with
  | zero => exact absurd hfuel (Nat.not_lt_zero _)
  | succ fuel ih =>
    have hwant := wanted_pos remaining
    have hmax : wanted remaining ≤ maxInt64 := (wanted_le_chunk remaining).trans (by decide)
    have hsize : file.size ≤ maxInt64 := file.size_le
    by_cases hpast : isLocal = false ∧ file.size ≤ offset
    · obtain ⟨rfl, hpast⟩ := hpast
      obtain ⟨-, hans⟩ | ⟨rfl, -, hstorage, -⟩ := herr
      · exact absurd (hans rfl).offset_lt hpast.not_gt
      · rw [chunkedRange_succ unbounded hrem]
        unfold readChunk
        rw [readWindow_empty _ hserves (hreaches.bus rfl) hstorage hoff hmax
          (window_eq_nil hpast), window_eq_nil hpast]
    have hlt (hremote : isLocal = false) : offset < file.size :=
      lt_of_not_ge fun hle => hpast ⟨hremote, hle⟩
    have hnone (h : isLocal = false → NoEmptyAnswer file offset remaining) : err = none :=
      herr.elim And.left fun hbad => absurd (h hbad.2.1) hbad.2.2.2
    obtain ⟨content, hread, hcont⟩ := readWindow_eq _ hserves hreaches hoff hmax fun hremote =>
      window_ne_nil (hlt hremote)
    have hlen : (content.getD []).length = min (wanted remaining) (file.size - offset) := by
      rw [hcont, length_window_pos hwant]
    rcases lt_or_ge (file.size - offset) (wanted remaining) with hshort | hfull
    · -- a short answer is the last one, and it holds all that is left of the window
      have hall : file.window offset (wanted remaining) = file.window offset remaining := by
        rw [window_of_short hshort.le]
        rcases wanted_le remaining with rfl | hle
        · exact window_zero.symm
        · exact (window_of_short (by omega)).symm
      have hchunk := hshort.trans_le (wanted_le_chunk remaining)
      rw [chunkedRange_succ unbounded hrem, hnone fun hremote _ => ⟨hlt hremote, fun hdvd =>
        (Nat.le_of_dvd (Nat.sub_pos_of_lt (hlt hremote)) hdvd).not_gt hchunk⟩]
      unfold readChunk
      rw [hread]
      rw [hall] at hcont
      simp only [hcont]
      rw [hcont] at hlen
      rcases Nat.eq_zero_or_pos (file.window offset remaining).length with hzero | hpos
      · rw [if_pos hzero, length_eq_zero_iff.mp hzero]
      · rw [if_neg hpos.ne', if_pos (by omega)]
    · have hwhole : (content.getD []).length = wanted remaining := by omega
      rw [chunkedRange_succ unbounded hrem, readChunk, hread]
      simp only [hwhole, lt_irrefl, if_false, hwant.ne']
      rw [hcont]
      by_cases hlast : wanted remaining = remaining
      · -- the window ends with this chunk
        have hboun : unbounded = false := by
          rw [← Bool.not_eq_true, hrem]
          omega
        subst hboun
        obtain ⟨fuel, rfl⟩ : ∃ n, fuel = n + 1 := ⟨fuel - 1, by omega⟩
        rw [hlast, Nat.sub_self, hnone fun _ => by intro h; omega]
        simp [chunkedRange]
      · have hle := wanted_le remaining
        have hrem' : unbounded = true ↔ remaining - wanted remaining = 0 := by
          rw [hrem]
          omega
        rw [ih hrem' (by omega) (by omega) (by rwa [noEmptyAnswer_next hfull hlast])]
        have happ := @window_append file offset remaining _ hwant (by omega)
        simp only [Option.map_some, happ]

/-! ### The two functions -/

/-- On the route over this instance, and on the one over the bus when no answer is empty, both
functions give the bytes of the window and no error. -/
theorem ranges_agree (s : FileService) (workPath filePath : String) (file : NodeFile)
    (isLocal : Bool) (hserves : s.Serves (relPath workPath filePath) file)
    (hreaches : s.Reaches isLocal) (offset length fuel : ℕ) (hfuel : file.size < fuel)
    (hanswer : isLocal = false → NoEmptyAnswer file offset length) :
    (∃ content, s.downloadRange workPath filePath offset length = (s, .ok content) ∧
      content.getD [] = file.window offset length) ∧
    s.downloadStreamRange fuel (fun _ => none) workPath filePath offset length =
      .ok (some (s, ⟨file.window offset length, none⟩)) := by
  have hoff : min offset maxInt64 ≤ maxInt64 := min_le_right _ _
  have hlen : min length maxInt64 ≤ maxInt64 := min_le_right _ _
  have hclamp : isLocal = false →
      NoEmptyAnswer file (min offset maxInt64) (min length maxInt64) := by
    intro hremote
    have hlt := (hanswer hremote).offset_lt
    have hsize : file.size ≤ maxInt64 := file.size_le
    rw [min_eq_left (by omega)]
    exact fun hend => hanswer hremote (by omega)
  constructor
  · simp only [downloadRange, hreaches.route]
    rw [← window_clamp]
    exact readWindow_eq _ hserves hreaches hoff hlen fun hremote =>
      window_ne_nil (hclamp hremote).offset_lt
  · simp only [downloadStreamRange, hreaches.route]
    rw [chunkedRange_eq hserves hreaches _ decide_eq_true_iff hoff (by omega) (.inl ⟨rfl, hclamp⟩),
      window_clamp]

/-- The last two of three bytes, over the bus. -/
theorem ranges_agree_three_bytes :
    (∃ content, (serving ⟨[1, 2, 3], by decide⟩ false).downloadRange "/srv" "/srv/a" 1 0 =
        (serving ⟨[1, 2, 3], by decide⟩ false, .ok content) ∧ content.getD [] = [2, 3]) ∧
    (serving ⟨[1, 2, 3], by decide⟩ false).downloadStreamRange 4 (fun _ => none) "/srv" "/srv/a" 1 0 =
      .ok (some (serving ⟨[1, 2, 3], by decide⟩ false, ⟨[2, 3], none⟩)) :=
  ranges_agree _ "/srv" "/srv/a" ⟨[1, 2, 3], by decide⟩ false (serves_serving _ _ _)
    (reaches_serving _ _) 1 0 4 (by decide) (fun _ _ => ⟨by decide, by decide⟩)

section

variable (hserves : s.Serves (relPath workPath filePath) file) (hreaches : s.Reaches false)
  (hstorage : s.storage.read "" = none)
include hserves hreaches hstorage

theorem dispatched_range_fails (hpast : file.size ≤ offset) :
    s.downloadRange workPath filePath offset length =
      (s, .error (.withMessage "reading transferred file from storage"
        (.plain "file not found: "))) := by
  have hempty : file.window (min offset maxInt64) (min length maxInt64) = [] := by
    rw [window_clamp, window_eq_nil hpast]
  simp only [downloadRange, hreaches.route]
  exact readWindow_empty _ hserves (hreaches.bus rfl) hstorage (min_le_right _ _)
    (min_le_right _ _) hempty

/-- The condition of the route over the bus is exact: with an empty answer the stream ends with an
error, after all bytes of the window. -/
theorem dispatched_stream_fails
    (hfuel : file.size < fuel) (hoff : offset ≤ maxInt64) (hlen : length ≤ maxInt64)
    (hempty : ¬ NoEmptyAnswer file offset length) :
    s.downloadStreamRange fuel (fun _ => none) workPath filePath offset length =
      .ok (some (s, ⟨file.window offset length,
        some (.withMessage "reading transferred range from storage"
          (.plain "file not found: "))⟩)) := by
  simp only [downloadStreamRange, hreaches.route, min_eq_left hoff, min_eq_left hlen]
  rw [chunkedRange_eq hserves hreaches _ decide_eq_true_iff hoff (by omega)
    (.inr ⟨rfl, rfl, hstorage, hempty⟩)]

end

/-- An empty file: the route over this instance gives no bytes and no error, the one over the bus an
error from both functions. -/
theorem empty_file_dispatched :
    (serving ⟨[], by decide⟩ true).Serves (relPath "/srv" "/srv/a") ⟨[], by decide⟩ ∧
    ((serving ⟨[], by decide⟩ true).downloadRange "/srv" "/srv/a" 0 0).2 = .ok (some []) ∧
    (serving ⟨[], by decide⟩ false).Serves (relPath "/srv" "/srv/a") ⟨[], by decide⟩ ∧
    (serving ⟨[], by decide⟩ false).Reaches false ∧
    ((serving ⟨[], by decide⟩ false).downloadRange "/srv" "/srv/a" 0 0).2 =
      .error (.withMessage "reading transferred file from storage" (.plain "file not found: ")) ∧
    (serving ⟨[], by decide⟩ false).downloadStreamRange 1 (fun _ => none) "/srv" "/srv/a" 0 0 =
      .ok (some (serving ⟨[], by decide⟩ false, ⟨[],
        some (.withMessage "reading transferred range from storage"
          (.plain "file not found: "))⟩)) := by
  have hserves := serves_serving ⟨[], by decide⟩ false (relPath "/srv" "/srv/a")
  have hreaches := reaches_serving ⟨[], by decide⟩ false
  refine ⟨serves_serving _ _ _, rfl, hserves, hreaches, ?_, ?_⟩
  · rw [dispatched_range_fails hserves hreaches rfl (Nat.le_refl 0)]
  · exact dispatched_stream_fails hserves hreaches rfl Nat.zero_lt_one (Nat.zero_le _)
      (Nat.zero_le _) fun h => absurd (h (.inl rfl)).1 (Nat.lt_irrefl 0)

end FileService

end GameAP
