import Mathlib.Data.List.Basic
import GameAP.Domain

/-!
# The file transfer service

`DownloadFile` of `filetransfer.Service` sends a file to a daemon in the pieces in which the storage
reads it, and the last chunk has the digest of the whole file.
-/

namespace GameAP

/-! ### Downloads -/

/-- A piece of the file. -/
structure DownloadChunk where
  data : Bytes
  offset : ℤ
  isFinal : Bool
  checksum : String
  deriving DecidableEq

/-- How a read ends. -/
inductive ReadError
  | none
  | eof
  | failed
  deriving DecidableEq

/-- A turn of the loop: what `Read` returns, and whether the chunk can be sent. -/
structure FileRead where
  data : Bytes
  error : ReadError := .none
  sends : Bool := true

/-- The errors of a download. -/
inductive DownloadError
  | notFound
  | offsetExceedsFileSize
  | canceled
  | send
  | read
  deriving DecidableEq

variable (digest : Bytes → String)

/-- The loop of `DownloadFile`; `hashed` is what the hasher has got.  It is cancelled at the end of
the list. -/
def sendChunks : Bytes → ℤ → List FileRead → List DownloadChunk × Except DownloadError Unit
  | _, _, [] => ([], .error .canceled)
  | hashed, offset, r :: rs =>
    if r.sends = false then ([], .error .send)
    else
      let final := digest (hashed ++ r.data)
      let sent : List DownloadChunk := if r.data = [] then [] else
        [⟨r.data, offset, r.error = .eof, if r.error = .eof then final else ""⟩]
      match r.error with
      | .eof => (if r.data = [] then [⟨[], offset, true, final⟩] else sent, .ok ())
      | .failed => (sent, .error .read)
      | .none =>
        let rest := sendChunks (hashed ++ r.data) (offset + r.data.length) rs
        (sent ++ rest.1, rest.2)

/-- What the reader has: `ReadStreamAt` for a positive offset, `ReadStream` otherwise. -/
def readerContent (file : Bytes) (offset : ℤ) : Bytes :=
  if 0 < offset then file.drop offset.toNat else file

/-- `DownloadFile` with `newDownloadHasher`. -/
def downloadFile (file : Option Bytes) (offset : ℤ) (reads : List FileRead) :
    List DownloadChunk × Except DownloadError Unit :=
  match file with
  | none => ([], .error .notFound)
  | some file =>
    if offset ≤ 0 then sendChunks digest [] offset reads
    else if (file.length : ℤ) < offset then ([], .error .offsetExceedsFileSize)
    else sendChunks digest (file.take offset.toNat) offset reads

/-- The reads split what the reader has, in any way; `io.EOF` comes with or after the last bytes. -/
def Splits : Bytes → List FileRead → Prop
  | _, [] => True
  | content, r :: rs => r.data <+: content ∧ (r.error = .eof → r.data = content) ∧
      (r.error = .none → Splits (content.drop r.data.length) rs)

/-- The chunks are at consecutive positions of the file. -/
def Positioned : ℤ → List DownloadChunk → Prop
  | _, [] => True
  | offset, c :: cs => c.offset = offset ∧ Positioned (offset + c.data.length) cs

/-- The chunks are the content, and exactly the last one is final and has the checksum. -/
structure Delivers (content : Bytes) (checksum : String) (cs : List DownloadChunk) : Prop where
  data : cs.flatMap DownloadChunk.data = content
  final : ∃ init last, cs = init ++ [last] ∧ (∀ c ∈ init, c.isFinal = false) ∧
    last.isFinal = true ∧ last.checksum = checksum

variable {digest}

theorem sendChunks_ok {content hashed : Bytes} {offset : ℤ} {rs : List FileRead}
    (hrs : Splits content rs) (hok : (sendChunks digest hashed offset rs).2 = .ok ()) :
    Delivers content (digest (hashed ++ content)) (sendChunks digest hashed offset rs).1 ∧
      Positioned offset (sendChunks digest hashed offset rs).1 := by
  induction rs generalizing content hashed offset with
  | nil => cases hok
  | cons r rs ih =>
    obtain ⟨⟨rest, rfl⟩, heof, hnone⟩ := hrs
    rw [List.drop_left] at hnone
    cases hsends : r.sends with
    | false => simp [sendChunks, hsends] at hok
    | true =>
      cases herror : r.error with
      | failed => simp [sendChunks, hsends, herror] at hok
      | eof =>
        have hrest : rest = [] := by simpa using heof herror
        subst hrest
        -- the bytes may come with the end or before it
        by_cases hdata : r.data = []
        · simp only [sendChunks, hsends, herror, hdata]
          exact ⟨⟨rfl, [], _, rfl, by simp, rfl, by simp⟩, rfl, trivial⟩
        · simp only [sendChunks, hsends, herror, hdata]
          exact ⟨⟨by simp, [], _, rfl, by simp, rfl, by simp⟩, rfl, trivial⟩
      | none =>
        simp only [sendChunks, hsends, herror] at hok ⊢
        obtain ⟨⟨hdel, init, last, heq, hinit, hlast⟩, hpos⟩ := ih (hnone herror) hok
        by_cases hdata : r.data = []
        · simp only [hdata, List.nil_append, List.append_nil] at hdel heq hpos hlast ⊢
          exact ⟨⟨hdel, init, last, heq, hinit, hlast⟩, by simpa using hpos⟩
        · simp only [hdata, List.append_assoc] at hlast ⊢
          refine ⟨⟨by simp [hdel], ⟨r.data, offset, false, ""⟩ :: init, last, ?_, ?_, hlast⟩,
            rfl, hpos⟩
          · simp [heq]
          · simpa using hinit

theorem Positioned.unique {a b : ℤ} {cs : List DownloadChunk} (h : Positioned a cs)
    (h' : Positioned b cs) (hne : cs ≠ []) : a = b := by
  cases cs with
  | nil => exact absurd rfl hne
  | cons c cs => exact h.1.symm.trans h'.1

/-- **A download delivers the file from the offset on.**  The last chunk and no other is final and
has the digest of the whole file, and the offsets are positions in the file exactly if the offset
asked for is not negative.  A call with an offset beyond the file sends nothing. -/
theorem downloadFile_delivers_iff (digest : Bytes → String) (file : Bytes) (offset : ℤ)
    (reads : List FileRead) (hreads : Splits (readerContent file offset) reads) :
    ((downloadFile digest (some file) offset reads).2 = .ok () →
      Delivers (file.drop (max 0 offset).toNat) (digest file)
          (downloadFile digest (some file) offset reads).1 ∧
        (Positioned (max 0 offset) (downloadFile digest (some file) offset reads).1 ↔ 0 ≤ offset)) ∧
    ((file.length : ℤ) < offset →
      downloadFile digest (some file) offset reads = ([], .error .offsetExceedsFileSize)) := by
  unfold downloadFile
  by_cases hpos : 0 < offset
  · have hmax : max 0 offset = offset := by omega
    have hnot : ¬ offset ≤ 0 := by omega
    rw [readerContent, if_pos hpos] at hreads
    simp only [hnot, hmax, if_false]
    refine ⟨fun hok => ?_, fun hlt => if_pos hlt⟩
    split_ifs at hok ⊢
    obtain ⟨hdel, hposed⟩ := sendChunks_ok hreads hok
    rw [List.take_append_drop] at hdel
    exact ⟨hdel, iff_of_true hposed (by omega)⟩
  · have hmax : max 0 offset = 0 := by omega
    have hle : offset ≤ 0 := by omega
    rw [readerContent, if_neg hpos] at hreads
    simp only [hle, hmax, if_true]
    refine ⟨fun hok => ?_, fun hlt => by omega⟩
    obtain ⟨hdel, hposed⟩ := sendChunks_ok hreads hok
    refine ⟨hdel, fun h => ?_, fun h => ?_⟩
    · obtain ⟨-, init, last, heq, -⟩ := hdel
      have hzero := h.unique hposed (by simp [heq])
      omega
    · have hzero : offset = 0 := by omega
      rwa [hzero] at hposed ⊢

/-- The second half of a file of two bytes, with the end in a read of its own. -/
theorem downloadFile_delivers_half : Delivers [2] "" (downloadFile (fun _ => "") (some [1, 2]) 1
      [{ data := [2] }, { data := [], error := .eof }]).1 :=
  ((downloadFile_delivers_iff (fun _ => "") [1, 2] 1 [{ data := [2] }, { data := [], error := .eof }]
    (by simp [Splits, readerContent])).1 rfl).1

/-- The first byte of the file is announced at the position -1. -/
theorem negative_position :
    downloadFile (fun _ => "") (some [7]) (-1) [{ data := [7], error := .eof }] =
      ([⟨[7], -1, true, ""⟩], .ok ()) := by
  decide

end GameAP
