import GameAP.Domain
import GameAP.Files.InMemory
import GameAP.Lib.Decimal
import GameAP.Lib.Filepath

/-!
# Upload sessions and their files

A chunked upload lives in the shared storage under `transfers/<id>/`: the marshalled session, one
file for each received chunk, the assembled data and a sentinel that marks the end.

* `Session` carries the arithmetic that `Create` establishes, so that the size of the last chunk is
  an exact subtraction and the chunks add up to the file (`sum_chunkSizeFor`);
* `hasPrefix_transferRoot` takes paths of uploads apart: ids have no slash, so one upload's
  directory is not a prefix of another one's;
* `indexFromChunkPath_chunkPath`: the index of a stored chunk is read back from its path as long as
  it has at most six digits.
-/

namespace GameAP.Upload

structure Session where
  uploadID : String
  serverID : ℕ
  nodeID : ℕ
  userID : ℕ
  fullPath : String
  suUser : String
  totalSize : ℕ
  chunkSize : ℕ
  totalChunks : ℕ
  expectedChecksum : String
  createdAt : Time
  expiresAt : Time
  totalSize_lt : totalSize < 2 ^ 64
  totalChunks_pos : 0 < totalChunks
  chunks_fit : chunkSize * (totalChunks - 1) ≤ totalSize
  deriving DecidableEq

def Session.chunkSizeFor (s : Session) (index : ℕ) : ℕ :=
  if index + 1 = s.totalChunks then s.totalSize - s.chunkSize * (s.totalChunks - 1)
  else s.chunkSize

structure DoneInfo where
  success : Bool
  checksum : String
  deriving DecidableEq

/-- What is stored for an upload: the marshalled session or sentinel, or the bytes of a chunk or of
the assembled data. -/
inductive UploadFile
  | session (s : Session)
  | done (info : DoneInfo)
  | raw (data : Bytes)
  deriving DecidableEq

/-- The bytes of a file that was streamed into the storage. -/
def UploadFile.bytes : UploadFile → Option Bytes
  | .raw data => some data
  | _ => none

/-- The shared storage. -/
abbrev Storage := InMemoryFileManager UploadFile

/-! ### Paths -/

def transferPrefix : String := "transfers/"

section

variable (uploadID : String)

def transferRoot : String := transferPrefix ++ uploadID ++ "/"

def metadataPath : String := transferRoot uploadID ++ "upload.json"

def dataPath : String := transferRoot uploadID ++ "data"

def donePath : String := transferRoot uploadID ++ "done"

def chunksPrefix : String := transferRoot uploadID ++ "chunks/"

def chunkPath (index : ℕ) : String :=
  chunksPrefix uploadID ++ Decimal.pad 6 index

end

def trimPrefix (s pre : String) : String :=
  if hasPrefix s pre then String.ofList (s.toList.drop pre.toList.length) else s

/-- `strings.TrimSuffix` with a slash. -/
def trimSlash (s : String) : String :=
  if s.toList.getLast? = some '/' then String.ofList s.toList.dropLast else s

def indexFromChunkPath (uploadID path : String) : Option ℕ :=
  let tail := trimSlash (trimPrefix path (chunksPrefix uploadID))
  if tail = "" ∨ '/' ∈ tail.toList then none else Decimal.scan 6 tail

/-- An id as `idgen.New` makes it, one component of a path. -/
def IsID (uploadID : String) : Prop := '/' ∉ uploadID.toList

instance (uploadID : String) : Decidable (IsID uploadID) :=
  inferInstanceAs (Decidable ('/' ∉ uploadID.toList))

/-! ### Sizes -/

theorem Session.chunkSizeFor_of_lt {s : Session} {i : ℕ} (h : i + 1 < s.totalChunks) :
    s.chunkSizeFor i = s.chunkSize :=
  if_neg (Nat.ne_of_lt h)

open List String Decimal

/-- **The chunks add up to the file.** -/
theorem Session.sum_chunkSizeFor (s : Session) :
    ((range s.totalChunks).map s.chunkSizeFor).sum = s.totalSize := by
  obtain ⟨n, hn⟩ := Nat.exists_eq_add_one.2 s.totalChunks_pos
  have hfull : (range n).map s.chunkSizeFor = replicate n s.chunkSize := by
    rw [eq_replicate_iff]
    refine ⟨by simp, fun b hb => ?_⟩
    obtain ⟨i, hi, rfl⟩ := mem_map.1 hb
    exact chunkSizeFor_of_lt (by rw [mem_range] at hi; omega)
  have hlast : s.chunkSizeFor n = s.totalSize - s.chunkSize * n := by
    rw [chunkSizeFor, if_pos hn.symm, hn, Nat.add_sub_cancel]
  have hfit := s.chunks_fit
  rw [hn, Nat.add_sub_cancel] at hfit
  rw [hn, range_succ, map_append, sum_append, hfull, sum_replicate_nat,
    map_singleton, sum_singleton, hlast, Nat.mul_comm n]
  omega

/-! ### Paths of different uploads -/

theorem toList_transferRoot (uploadID t : String) : (transferRoot uploadID ++ t).toList =
      transferPrefix.toList ++ (uploadID.toList ++ '/' :: t.toList) := by
  simp [transferRoot, toList_append]

theorem hasPrefix_transferRoot {u v : String} (hu : IsID u) (hv : IsID v) (s t : String) :
    hasPrefix (transferRoot u ++ s) (transferRoot v ++ t) = true ↔ v = u ∧ hasPrefix s t = true := by
  rw [hasPrefix_iff, toList_transferRoot, toList_transferRoot, prefix_append_right_inj,
    Filepath.append_slash_prefix_iff hv hu, toList_inj, hasPrefix_iff]

theorem metadataPath_injective : Function.Injective metadataPath := by
  intro u v h
  have hlist := congrArg toList h
  rw [metadataPath, metadataPath, toList_transferRoot, toList_transferRoot] at hlist
  exact toList_inj.1 (append_cancel_right (append_cancel_left hlist))

section

variable (uploadID : String) (index : ℕ)

theorem chunkPath_injective : Function.Injective (chunkPath uploadID) := by
  intro a b h
  have hlist := congrArg toList h
  rw [chunkPath, chunkPath, toList_append, toList_append] at hlist
  exact pad_injective 6 (toList_inj.1 (append_cancel_left hlist))

theorem hasPrefix_chunkPath : hasPrefix (chunkPath uploadID index) (chunksPrefix uploadID) = true :=
  hasPrefix_append _ _

/-! ### Paths of one upload -/

theorem hasPrefix_dataPath : hasPrefix (dataPath uploadID) (chunksPrefix uploadID) = false := by
  rw [dataPath, chunksPrefix, hasPrefix_append_append]
  decide

theorem chunkPath_ne_dataPath : chunkPath uploadID index ≠ dataPath uploadID := by
  intro h
  have hpre := hasPrefix_chunkPath uploadID index
  rw [h, hasPrefix_dataPath] at hpre
  exact Bool.false_ne_true hpre

theorem donePath_ne_dataPath : donePath uploadID ≠ dataPath uploadID := by
  intro h
  have hpre := hasPrefix_append_append (transferRoot uploadID) "done" "data"
  rw [show transferRoot uploadID ++ "done" = transferRoot uploadID ++ "data" from h,
    hasPrefix_append_append] at hpre
  exact absurd hpre (by decide)

end

theorem raw_ne_session (data : Bytes) (sess : Session) : UploadFile.raw data ≠ .session sess := nofun

theorem session_of_write {fm : Storage} {path path' : String} {file : UploadFile}
    (hfile : ∀ sess, file ≠ .session sess) {sess : Session}
    (h : (fm.write path' file).read path = some (.session sess)) :
    fm.read path = some (.session sess) := by
  rw [InMemoryFileManager.read_write] at h
  split_ifs at h
  · exact absurd (Option.some.inj h) (hfile sess)
  · exact h

/-! ### Reading an index back -/

theorem trimPrefix_append (pre s : String) : trimPrefix (pre ++ s) pre = s := by
  rw [trimPrefix, if_pos (hasPrefix_append pre s), toList_append, drop_left,
    ofList_toList]

theorem slash_notMem_pad (w n : ℕ) : '/' ∉ (pad w n).toList := fun h =>
  absurd (isDigit_of_mem_pad h) (by decide)

theorem trimSlash_eq_self {s : String} (h : '/' ∉ s.toList) : trimSlash s = s := by
  rw [trimSlash, if_neg]
  intro hlast
  exact h (mem_of_getLast? hlast)

/-- **Round trip** for the indices of at most six digits. -/
theorem indexFromChunkPath_chunkPath (uploadID : String) {index : ℕ} (h : index < 10 ^ 6) :
    indexFromChunkPath uploadID (chunkPath uploadID index) = some index := by
  have htail : trimSlash (trimPrefix (chunkPath uploadID index) (chunksPrefix uploadID)) =
      pad 6 index := by
    rw [chunkPath, trimPrefix_append, trimSlash_eq_self (slash_notMem_pad 6 index)]
  have hne : ¬(pad 6 index = "" ∨ '/' ∈ (pad 6 index).toList) := by
    rintro (hnil | hslash)
    · exact pad_ne_nil 6 index (by rw [hnil]; rfl)
    · exact slash_notMem_pad 6 index hslash
  simp only [indexFromChunkPath, htail, if_neg hne]
  exact scan_pad (by omega) h

end GameAP.Upload
