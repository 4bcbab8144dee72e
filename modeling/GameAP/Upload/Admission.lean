import GameAP.Upload.Service

/-!
# What `Create` admits

`Create` divides a file into chunks with arithmetic on `uint64`, and the chunks are stored under
names of at least six digits.

* `create_sizes_iff`: the chunks of a session that `Create` has made are as they should be precisely
  if the sum that rounds the division up does not overflow, or the file fits into one chunk.
* `indexFromChunkPath_exact_iff`: an entry of the chunk directory is read exactly, precisely if its
  name is a numeral of six digits or does not begin with a number.
-/

namespace GameAP.Upload

open Decimal

/-! ### Sizes -/

/-- The chunks of a session are what a configuration asks for and a file of `totalSize` bytes
gives. -/
structure Session.WellSized (cfg : Config) (totalSize : ℕ) (sess : Session) : Prop where
  pos : 1 ≤ sess.totalChunks
  bounded : 0 < cfg.maxChunks → sess.totalChunks ≤ cfg.maxChunks
  size : ∀ i < sess.totalChunks, 1 ≤ sess.chunkSizeFor i ∧ sess.chunkSizeFor i ≤ cfg.chunkSize
  full : ∀ i, i + 1 < sess.totalChunks → sess.chunkSizeFor i = cfg.chunkSize
  sum : ((List.range sess.totalChunks).map sess.chunkSizeFor).sum = totalSize

variable {totalSize chunkSize : ℕ}

theorem countChunks_bounds (ht : 0 < totalSize) (hc : 0 < chunkSize)
    (hlt : totalSize + chunkSize - 1 < 2 ^ 64) :
    chunkSize * (countChunks totalSize chunkSize - 1) < totalSize ∧
      totalSize ≤ chunkSize * countChunks totalSize chunkSize := by
  have hdiv := Nat.div_add_mod (totalSize + chunkSize - 1) chunkSize
  have hmod := Nat.mod_lt (totalSize + chunkSize - 1) hc
  have hpos : 0 < (totalSize + chunkSize - 1) / chunkSize := Nat.div_pos (by omega) hc
  rw [countChunks, Nat.mod_eq_of_lt hlt]
  rw [if_neg hpos.ne', Nat.mul_sub]
  omega

theorem countChunks_of_overflow (ht : totalSize < 2 ^ 64)
    (hc : chunkSize < 2 ^ 64) (hge : 2 ^ 64 ≤ totalSize + chunkSize - 1) :
    countChunks totalSize chunkSize = 1 := by
  have hzero : (totalSize + chunkSize - 1) % 2 ^ 64 / chunkSize = 0 := by
    rw [Nat.div_eq_zero_iff]
    omega
  rw [countChunks, hzero]
  rfl

theorem countChunks_of_le (ht : 0 < totalSize) (hlt : totalSize < 2 ^ 64)
    (hc : chunkSize < 2 ^ 64) (hle : totalSize ≤ chunkSize) : countChunks totalSize chunkSize = 1 := by
  by_cases hsum : totalSize + chunkSize - 1 < 2 ^ 64
  · obtain ⟨hlow, -⟩ := countChunks_bounds ht (by omega) hsum
    have hpos := countChunks_pos totalSize chunkSize
    by_contra hne
    have htwo : 1 ≤ countChunks totalSize chunkSize - 1 := by omega
    have hmul := Nat.mul_le_mul_left chunkSize htwo
    omega
  · exact countChunks_of_overflow hlt hc (by omega)

variable {uploadID : String} {sess : Session}

theorem Session.wellSized_of_bounds {cfg : Config} (hchunk : sess.chunkSize = cfg.chunkSize)
    (hmax : 0 < cfg.maxChunks → sess.totalChunks ≤ cfg.maxChunks) (hpos : 0 < cfg.chunkSize)
    (hlow : sess.chunkSize * (sess.totalChunks - 1) < sess.totalSize)
    (hhigh : sess.totalSize ≤ sess.chunkSize * (sess.totalChunks - 1) + sess.chunkSize) :
    sess.WellSized cfg sess.totalSize := by
  refine ⟨sess.totalChunks_pos, hmax, fun i hi => ?_, fun i hi => ?_, sess.sum_chunkSizeFor⟩
  · unfold chunkSizeFor
    split_ifs <;> omega
  · rw [chunkSizeFor_of_lt hi, hchunk]

/-- **The chunks of a new session**: every one has between one byte and a whole chunk, only the last
one may be shorter, and they add up to the file, precisely if `TotalSize + ChunkSize - 1` fits into
64 bits or the file is not longer than one chunk. -/
theorem create_sizes_iff {svc : Service} {fm : Storage} {now : Time} {uploadID : String}
    {p : CreateParams} {ok : Bool} {sess : Session}
    (h : (svc.create fm now uploadID p ok).2 = .ok sess) :
    sess.WellSized svc.cfg p.totalSize ↔
      p.totalSize + svc.cfg.chunkSize - 1 < 2 ^ 64 ∨ p.totalSize ≤ svc.cfg.chunkSize := by
  unfold Service.create at h
  split_ifs at h with htotal _ hchunk hmax _
  cases h
  have htotal : 0 < p.totalSize := by omega
  have hchunk : 0 < svc.cfg.chunkSize := by omega
  constructor
  · intro hsized
    by_contra hnot
    have hone : countChunks p.totalSize svc.cfg.chunkSize = 1 :=
      countChunks_of_overflow p.totalSize_lt svc.cfg.chunkSize_lt (by omega)
    -- the only chunk is the whole file
    have hlast : (newSession svc.cfg now uploadID p).chunkSizeFor 0 = p.totalSize := by
      simp [Session.chunkSizeFor, newSession, hone]
    have hle := (hsized.size 0 hsized.pos).2
    omega
  · intro hcond
    refine Session.wellSized_of_bounds rfl (fun hpos => not_lt.1 fun hlt => hmax ⟨hpos, hlt⟩)
      hchunk ?_ ?_
    · rcases hcond with hlt | hle
      · exact (countChunks_bounds htotal hchunk hlt).1
      · simp [newSession, countChunks_of_le htotal p.totalSize_lt svc.cfg.chunkSize_lt hle, htotal]
    · rcases hcond with hlt | hle
      · have hhigh := (countChunks_bounds htotal hchunk hlt).2
        have hpos := countChunks_pos p.totalSize svc.cfg.chunkSize
        have hsplit : svc.cfg.chunkSize * countChunks p.totalSize svc.cfg.chunkSize =
            svc.cfg.chunkSize * (countChunks p.totalSize svc.cfg.chunkSize - 1) + svc.cfg.chunkSize := by
          rw [← Nat.mul_succ, Nat.succ_eq_add_one, Nat.sub_add_cancel hpos]
        rwa [hsplit] at hhigh
      · simp [newSession, countChunks_of_le htotal p.totalSize_lt svc.cfg.chunkSize_lt hle, hle]

/-- Chunks of five mebibytes, at most a hundred thousand of them. -/
def defaultConfig : Config := ⟨5242880, 86400, 100000, by decide⟩

/-- A file of `totalSize` bytes with some checksum. -/
def plainParams (totalSize : ℕ) (h : totalSize < 2 ^ 64) : CreateParams :=
  ⟨1, 1, 1, "/srv/file", "", totalSize, String.ofList (List.replicate 64 'a'), h⟩

theorem create_sizes_iff_three_chunks :
    (newSession defaultConfig 0 "u" (plainParams 12582912 (by decide))).WellSized defaultConfig
      12582912 := by
  have h : (Service.create ⟨defaultConfig, fun _ => ""⟩ .new 0 "u" (plainParams 12582912 (by decide))
      true).2 = .ok (newSession defaultConfig 0 "u" (plainParams 12582912 (by decide))) := by
    decide +kernel
  exact (create_sizes_iff h).2 (.inl (by decide))

/-- A request of `2 ^ 64 - 1` bytes passes the limit of a hundred thousand chunks: it gets one
chunk, of `2 ^ 64 - 1` bytes. -/
theorem one_huge_chunk : ∃ sess, (Service.create ⟨defaultConfig, fun _ => ""⟩ .new 0 "u"
        (plainParams (2 ^ 64 - 1) (by decide)) true).2 = .ok sess ∧
      sess.totalChunks = 1 ∧ sess.chunkSizeFor 0 = 2 ^ 64 - 1 ∧
      ¬ sess.WellSized defaultConfig (2 ^ 64 - 1) := by
  refine ⟨newSession defaultConfig 0 "u" (plainParams (2 ^ 64 - 1) (by decide)), by decide +kernel,
    by decide +kernel, by decide +kernel, fun hsized => ?_⟩
  exact absurd (hsized.size 0 hsized.pos).2 (by decide +kernel)

/-! ### Names of chunks -/

/-- What is left of an entry of the chunk directory when the directory and a trailing slash are
off. -/
def chunkName (uploadID path : String) : String := trimSlash (trimPrefix path (chunksPrefix uploadID))

/-- The name is one that can be read without a mistake. -/
def plainName (name : String) : Bool :=
  name.toList.contains '/' || isNumeral 6 name || !leadsWithDigit name

theorem chunkName_chunkPath (uploadID : String) (index : ℕ) :
    chunkName uploadID (chunkPath uploadID index) = pad 6 index := by
  rw [chunkName, chunkPath, trimPrefix_append, trimSlash_eq_self (slash_notMem_pad 6 index)]

theorem append_eq_chunkPath_iff {name : String} {index : ℕ} :
    chunksPrefix uploadID ++ name = chunkPath uploadID index ↔ name = pad 6 index := by
  rw [chunkPath]
  constructor
  · intro h
    have hlist := congrArg String.toList h
    rw [String.toList_append, String.toList_append] at hlist
    exact String.toList_inj.1 (List.append_cancel_left hlist)
  · rintro rfl
    rfl

theorem indexFromChunkPath_eq_scan {path : String} (h : '/' ∉ (chunkName uploadID path).toList) :
    indexFromChunkPath uploadID path = scan 6 (chunkName uploadID path) := by
  change (if chunkName uploadID path = "" ∨ '/' ∈ (chunkName uploadID path).toList then none
    else scan 6 (chunkName uploadID path)) = _
  split_ifs with hcond
  · rcases hcond with hempty | hslash
    · rw [hempty]
      rfl
    · exact absurd hslash h
  · rfl

/-- **Which entries are read exactly**: those whose name has a slash, is a numeral of six digits or
does not begin with a number; and the name of the index `i` gives `i` back precisely if it has at
most six digits. -/
theorem indexFromChunkPath_exact_iff (uploadID path : String) :
    ((∀ i, indexFromChunkPath uploadID path = some i ↔
        chunksPrefix uploadID ++ chunkName uploadID path = chunkPath uploadID i) ↔
      plainName (chunkName uploadID path) = true) ∧
    ∀ i, indexFromChunkPath uploadID (chunkPath uploadID i) = some i ↔ i < 10 ^ 6 := by
  constructor
  · simp only [append_eq_chunkPath_iff, plainName, Bool.or_eq_true, Bool.not_eq_true',
      List.contains_iff_mem]
    by_cases hslash : '/' ∈ (chunkName uploadID path).toList
    · have hnone : indexFromChunkPath uploadID path = none := if_pos (.inr hslash)
      refine iff_of_true (fun i => ?_) (.inl (.inl hslash))
      rw [hnone]
      refine ⟨fun h => absurd h (Option.some_ne_none i).symm, fun h => ?_⟩
      rw [h] at hslash
      exact absurd hslash (slash_notMem_pad 6 i)
    · rw [indexFromChunkPath_eq_scan hslash, scan_exact_iff (by decide)]
      simp [hslash]
  · intro i
    constructor
    · intro h
      have hslash : '/' ∉ (chunkName uploadID (chunkPath uploadID i)).toList := by
        rw [chunkName_chunkPath]
        exact slash_notMem_pad 6 i
      rw [indexFromChunkPath_eq_scan hslash, chunkName_chunkPath] at h
      obtain ⟨n, hlt, hscan⟩ : ∃ n < 10 ^ 6, scan 6 (pad 6 i) = some n :=
        scan_eq_some (by decide) (leadsWithDigit_pad 6 i)
      rw [h, Option.some_inj] at hscan
      rwa [hscan]
    · exact indexFromChunkPath_chunkPath uploadID

/-- `Create` admits the index 1000000 of a file of 1000001 chunks, and its name is read as the index
100000; a stray file `1` of the directory is read as the index 1. -/
theorem index_misread : (∃ sess, (Service.create ⟨.bytewise, fun _ => ""⟩ .new 0 "u"
        (plainParams 1000001 (by decide)) true).2 = .ok sess ∧ 1000000 < sess.totalChunks) ∧
      indexFromChunkPath "u" (chunkPath "u" 1000000) = some 100000 ∧
      indexFromChunkPath "u" "1" = some 1 ∧
      ∀ i, chunksPrefix "u" ++ chunkName "u" "1" ≠ chunkPath "u" i := by
  refine ⟨⟨newSession .bytewise 0 "u" (plainParams 1000001 (by decide)), by decide +kernel,
    by decide +kernel⟩, by decide +kernel, by decide +kernel, fun i h => ?_⟩
  have hname : pad 6 i = "1" := (append_eq_chunkPath_iff.1 h).symm
  have hlen : 6 ≤ (pad 6 i).toList.length := by
    rw [toList_pad, List.length_append, List.length_replicate]
    omega
  rw [hname] at hlen
  exact absurd hlen (by decide)

end GameAP.Upload
