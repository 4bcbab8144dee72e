import GameAP.Lib.Runs
import GameAP.Upload.Service

/-!
# The stored chunks of a session

Calls of the service and sweeps of the janitor, one after the other, over a storage whose streams
may fail and leave anything behind.  In every state they reach, the files below the chunk directory
of a session are whole chunks of it (`Inv`).

`Status` counts a chunk by the index that `indexFromChunkPath` reads from its path, and that reads
six digits only.  A session with more than a million chunks loses count (`status_misses_chunk`), and
the number of uploaded bytes is right as long as no chunk with a seventh digit is written
(`chunks_exact`).
-/

namespace GameAP.Upload

open Runs InMemoryFileManager List Service Sub

/-- Every session stands under its own id, and below its chunk directory there are whole chunks. -/
structure Inv (fm : Storage) : Prop where
  ids : ∀ u sess, fm.read (metadataPath u) = some (.session sess) → IsID u ∧ sess.uploadID = u
  chunks : ∀ u sess, fm.read (metadataPath u) = some (.session sess) →
    ∀ path file, hasPrefix path (chunksPrefix u) = true → fm.read path = some file →
      ∃ i < sess.totalChunks, i < 10 ^ 6 ∧ path = chunkPath u i ∧
        ∃ data, file = .raw data ∧ data.length = sess.chunkSizeFor i

/-! ### Writes that keep the invariant -/

theorem Inv.sub {fm fm' : Storage} (h : Inv fm) (hsub : Sub fm' fm) : Inv fm' where
  ids u sess hu := h.ids u sess (hsub _ _ hu)
  chunks u sess hu path file hpath hfile :=
    h.chunks u sess (hsub _ _ hu) path file hpath (hsub _ _ hfile)

theorem Inv.write_other {fm : Storage} (h : Inv fm) {u t : String} (hu : IsID u)
    (ht : hasPrefix t "chunks/" = false) {file : UploadFile} (hfile : ∀ sess, file ≠ .session sess) :
    Inv (fm.write (transferRoot u ++ t) file) := by
  refine ⟨fun v sess hv => h.ids v sess (session_of_write hfile hv), ?_⟩
  intro v sess hv path f hpath hf
  replace hv := session_of_write hfile hv
  rw [read_write] at hf
  split_ifs at hf with heq
  · subst heq
    have hpre := (hasPrefix_transferRoot hu (h.ids v sess hv).1 _ _).1 hpath
    rw [ht] at hpre
    exact absurd hpre.2 Bool.false_ne_true
  · exact h.chunks v sess hv path f hpath hf

theorem Inv.write_chunk {fm : Storage} (h : Inv fm) {u : String} {sess : Session}
    (hu : fm.read (metadataPath u) = some (.session sess)) {i : ℕ} (hi : i < sess.totalChunks)
    (hi6 : i < 10 ^ 6) {data : Bytes} (hdata : data.length = sess.chunkSizeFor i) :
    Inv (fm.write (chunkPath u i) (.raw data)) := by
  refine ⟨fun v sess hv => h.ids v sess (session_of_write (raw_ne_session data) hv), ?_⟩
  intro v sess' hv path f hpath hf
  replace hv := session_of_write (raw_ne_session data) hv
  rw [read_write] at hf
  split_ifs at hf with heq
  · subst heq
    -- only the directory of `u` itself gets the new file
    have hroot : chunkPath u i = transferRoot u ++ ("chunks/" ++ Decimal.pad 6 i) := by
      rw [chunkPath, chunksPrefix, String.append_assoc]
    rw [hroot] at hpath
    obtain ⟨rfl, -⟩ := (hasPrefix_transferRoot (h.ids u sess hu).1 (h.ids v sess' hv).1 _ _).1 hpath
    obtain rfl : sess = sess' := by
      rw [hu] at hv
      cases hv
      rfl
    exact ⟨i, hi, hi6, rfl, data, (Option.some.inj hf).symm, hdata⟩
  · exact h.chunks v sess' hv path f hpath hf

theorem Inv.write_session {fm : Storage} (h : Inv fm) {u : String} (hu : IsID u)
    (hfree : fm.list (transferRoot u) = []) {sess : Session} (hsess : sess.uploadID = u) :
    Inv (fm.write (metadataPath u) (.session sess)) := by
  have hids : ∀ v sess', (fm.write (metadataPath u) (.session sess)).read (metadataPath v) =
      some (.session sess') → IsID v ∧ sess'.uploadID = v ∧
        (v = u ∨ fm.read (metadataPath v) = some (.session sess')) := by
    intro v sess' hv
    rw [read_write] at hv
    split_ifs at hv with heq
    · cases hv
      obtain rfl := metadataPath_injective heq
      exact ⟨hu, hsess, .inl rfl⟩
    · exact ⟨(h.ids v sess' hv).1, (h.ids v sess' hv).2, .inr hv⟩
  refine ⟨fun v sess' hv => ⟨(hids v sess' hv).1, (hids v sess' hv).2.1⟩, ?_⟩
  intro v sess' hv path f hpath hf
  obtain ⟨hv', -, hcase⟩ := hids v sess' hv
  have hne : path ≠ metadataPath u := by
    rintro rfl
    exact absurd ((hasPrefix_transferRoot hu hv' _ _).1 hpath).2 (by decide)
  rw [read_write_ne _ hne] at hf
  rcases hcase with rfl | hold
  · -- the directory of the new session is empty
    have hmem : path ∈ fm.list (transferRoot v) := by
      rw [mem_list]
      rw [hasPrefix_iff] at hpath ⊢
      exact ⟨(hasPrefix_iff.1 (hasPrefix_append _ _)).trans hpath, f, hf⟩
    rw [hfree] at hmem
    exact absurd hmem not_mem_nil
  · exact h.chunks v sess' hold path f hpath hf

/-! ### What a call leaves in the storage -/

theorem sub_delete_writeStream (fm : Storage) (path : String) (body : Body) (o : StreamOutcome) :
    Sub ((writeStream fm path body o).1.delete path) fm := by
  unfold writeStream
  split_ifs
  · exact delete_write path _
  · cases o.left with
    | none => exact Sub.delete path
    | some data => exact delete_write path _

theorem writeStream_of_ok {fm : Storage} {path : String} {body : Body} {o : StreamOutcome}
    (h : (writeStream fm path body o).2 = true) :
    (writeStream fm path body o).1 = fm.write path (.raw body.bytes) := by
  unfold writeStream at h ⊢
  split_ifs at h ⊢
  rfl

variable (svc : Service)

theorem storeChunk_cases (fm : Storage) (sess : Session) (u : String) (index : ℕ) (body : Body)
    (o : StreamOutcome) :
    Sub (storeChunk fm sess u index body o).1 fm ∨
      ∃ data, data.length = sess.chunkSizeFor index ∧
        (storeChunk fm sess u index body o).1 =
          fm.write (chunkPath u index) (.raw data) := by
  have hsub := sub_delete_writeStream fm (chunkPath u index)
    (body.limit (safeChunkLimit (sess.chunkSizeFor index))) o
  unfold storeChunk
  simp only
  split
  · rename_i fm' hw
    rw [hw] at hsub
    exact .inl hsub
  · rename_i fm' hw
    split_ifs with hlen
    · rw [hw] at hsub
      exact .inl hsub
    · have hok := writeStream_of_ok (congrArg Prod.snd hw)
      rw [hw] at hok
      exact .inr ⟨_, not_not.1 hlen, hok⟩

theorem writeChunk_cases (fm : Storage) (now : Time) (u : String) (userID index : ℕ) (body : Body)
    (o : StreamOutcome) :
    Sub (writeChunk fm now u userID index body o).1 fm ∨
      ∃ sess data, fm.read (metadataPath u) = some (.session sess) ∧ index < sess.totalChunks ∧
        data.length = sess.chunkSizeFor index ∧
        (writeChunk fm now u userID index body o).1 =
          fm.write (chunkPath u index) (.raw data) := by
  unfold writeChunk
  cases hacc : access fm now u userID with
  | error err => exact .inl (refl fm)
  | ok sess =>
    simp only
    split_ifs with hdone hindex
    · exact .inl (refl fm)
    · exact .inl (refl fm)
    · rcases storeChunk_cases fm sess u index body o with hsub | ⟨data, hlen, heq⟩
      · exact .inl hsub
      · exact .inr ⟨sess, data, read_of_access hacc, not_le.1 hindex, hlen, heq⟩

/-- The data is assembled, and possibly the sentinel written. -/
def Assembled (svc : Service) (fm : Storage) (u : String) (fm' : Storage) : Prop :=
  ∃ data, fm' = fm.write (dataPath u) (.raw data) ∨
    fm' = (fm.write (dataPath u) (.raw data)).write (donePath u) (.done ⟨true, svc.digest data⟩)

theorem assembleAndDispatch_cases (fm : Storage) (sess : Session) (u : String)
    (e : CompleteEnv) : Sub (svc.assembleAndDispatch fm sess u e).1 fm ∨
      Assembled svc fm u (svc.assembleAndDispatch fm sess u e).1 := by
  have hsub := sub_delete_writeStream fm (dataPath u)
    (chunkReader fm u (List.range sess.totalChunks)) e.assembly
  unfold assembleAndDispatch
  simp only
  split
  · rename_i fm' hw
    rw [hw] at hsub
    exact .inl hsub
  · rename_i fm' hw
    have hok := writeStream_of_ok (congrArg Prod.snd hw)
    rw [hw] at hok hsub
    split_ifs with hsum hdisp hwrit
    · exact .inl hsub
    · exact .inl hsub
    · exact .inr ⟨_, .inr (by rw [← hok])⟩
    · exact .inr ⟨_, .inl hok⟩

/-- `Complete` leaves nothing new, or the data and possibly the sentinel of a live session. -/
theorem complete_cases (fm : Storage) (u : String) (userID : ℕ) (node : Option ℕ)
    (e : CompleteEnv) : Sub (svc.complete fm u userID node e).1 fm ∨
      ∃ sess, fm.read (metadataPath u) = some (.session sess) ∧
        Assembled svc fm u (svc.complete fm u userID node e).1 := by
  unfold complete
  cases hacc : access fm e.now u userID with
  | error err => exact .inl (refl fm)
  | ok sess =>
    simp only
    split_ifs with hnode hdone
    any_goals exact .inl (refl fm)
    split
    · exact .inl (refl fm)
    · split_ifs with hcomp
      · exact .inl (refl fm)
      · refine (assembleAndDispatch_cases svc fm sess u e).imp_right fun hass => ?_
        exact ⟨sess, read_of_access hacc, hass⟩

theorem sub_sweep (fm : Storage) (now : Time) (listed : Bool) : Sub (sweep fm now listed) fm := by
  unfold sweep
  split_ifs
  swap
  · exact refl fm
  generalize (List.filterMap uploadIDFromPath (fm.list transferPrefix)).dedup = ids
  induction ids generalizing fm with
  | nil => exact refl fm
  | cons u ids ih =>
    refine (ih _).trans ?_
    unfold maybeRemove
    split
    · split_ifs
      · exact refl fm
      · exact deleteByPrefix _
    · exact refl fm

theorem sub_abort (fm : Storage) (now : Time) (u : String) (userID : ℕ) :
    Sub (abort fm now u userID).1 fm := by
  unfold abort
  split
  · exact refl fm
  · exact refl fm
  · exact deleteByPrefix _

/-! ### Runs -/

/-- A new session gets an id under which nothing is stored, as `idgen.New` makes it, and the index
of a chunk has at most six digits. -/
def Fits (fm : Storage) : UploadOp → Prop
  | .create _ uploadID _ _ => IsID uploadID ∧ fm.list (transferRoot uploadID) = []
  | .writeChunk _ _ _ index _ _ => index < 10 ^ 6
  | _ => True

instance (fm : Storage) : (op : UploadOp) → Decidable (Fits fm op)
  | .create _ uploadID _ _ =>
    inferInstanceAs (Decidable (IsID uploadID ∧ fm.list (transferRoot uploadID) = []))
  | .writeChunk _ _ _ index _ _ => inferInstanceAs (Decidable (index < 10 ^ 6))
  | .complete .. | .cleanup _ | .abort .. | .sweep .. => .isTrue trivial

theorem Inv.new : Inv .new := ⟨nofun, nofun⟩

theorem Inv.apply {svc : Service} {fm : Storage} {op : UploadOp} (h : Inv fm) (hop : Fits fm op) :
    Inv (svc.apply fm op) := by
  cases op with
  | create now u p ok =>
    rw [Service.apply, create]
    split_ifs
    any_goals exact h
    · exact h.write_session hop.1 hop.2 rfl
  | writeChunk now u userID index body o =>
    rcases writeChunk_cases fm now u userID index body o with hsub | ⟨sess, data, hu, hi, hlen, heq⟩
    · exact h.sub hsub
    · rw [Service.apply, heq]
      exact h.write_chunk hu hi hop hlen
  | complete u userID node e =>
    rcases complete_cases svc fm u userID node e with hsub | ⟨sess, hu, data, hdata⟩
    · exact h.sub hsub
    · have hID : IsID u := (h.ids u sess hu).1
      have hwrite : Inv (fm.write (dataPath u) (.raw data)) := h.write_other hID (by decide) nofun
      rw [Service.apply]
      rcases hdata with heq | heq <;> rw [heq]
      · exact hwrite
      · exact hwrite.write_other hID (by decide) nofun
  | cleanup u => exact h.sub ((Sub.delete _).trans (deleteByPrefix _))
  | abort now u userID => exact h.sub (sub_abort fm now u userID)
  | sweep now listed => exact h.sub (sub_sweep fm now listed)

theorem Inv.run {svc : Service} {fm : Storage} {ops : List UploadOp}
    (hops : Along svc.step Fits .new ops) (hrun : Runs.run svc.step .new ops = some fm) : Inv fm := by
  refine run_inv Inv ?_ Inv.new hops hrun
  rintro fm op fm' h hop hstep
  obtain rfl := Option.some.inj hstep
  exact h.apply hop

/-! ### What `Status` reports -/

/-- The bytes stored below the chunk directory. -/
def storedBytes (fm : Storage) (uploadID : String) : ℕ :=
  ((fm.list (chunksPrefix uploadID)).map fun path =>
    ((fm.read path).bind UploadFile.bytes).elim 0 List.length).sum

section Status

variable {fm : Storage} {u : String} {sess : Session}

section

variable (h : Inv fm) (hu : fm.read (metadataPath u) = some (.session sess))
include h hu

theorem Inv.mem_chunkIndices
    {i : ℕ} : i ∈ chunkIndices fm u ↔ ∃ file, fm.read (chunkPath u i) = some file := by
  rw [chunkIndices, mem_toFinset, mem_filterMap]
  constructor
  · rintro ⟨path, hpath, hi⟩
    rw [mem_list] at hpath
    obtain ⟨hpre, file, hfile⟩ := hpath
    obtain ⟨j, -, hj6, rfl, -⟩ := h.chunks u sess hu path file hpre hfile
    rw [indexFromChunkPath_chunkPath u hj6] at hi
    cases hi
    exact ⟨file, hfile⟩
  · rintro ⟨file, hfile⟩
    obtain ⟨j, -, hj6, heq, -⟩ := h.chunks u sess hu _ file (hasPrefix_chunkPath u i) hfile
    obtain rfl := chunkPath_injective u heq
    refine ⟨chunkPath u i, ?_, indexFromChunkPath_chunkPath u hj6⟩
    rw [mem_list]
    exact ⟨hasPrefix_chunkPath u i, file, hfile⟩

theorem Inv.list_perm : (fm.list (chunksPrefix u)).Perm
      (((List.range sess.totalChunks).filter (· ∈ chunkIndices fm u)).map (chunkPath u)) := by
  have hnodup : (fm.list (chunksPrefix u)).Nodup := fm.files.keys_nodup.filter _
  have hnodup' :
      (((List.range sess.totalChunks).filter (· ∈ chunkIndices fm u)).map (chunkPath u)).Nodup :=
    (nodup_range.filter _).map (chunkPath_injective u)
  rw [perm_ext_iff_of_nodup hnodup hnodup']
  intro path
  rw [mem_list, mem_map]
  constructor
  · rintro ⟨hpre, file, hfile⟩
    obtain ⟨i, hi, -, rfl, -⟩ := h.chunks u sess hu path file hpre hfile
    refine ⟨i, ?_, rfl⟩
    rw [mem_filter, mem_range, decide_eq_true_iff, h.mem_chunkIndices hu]
    exact ⟨hi, file, hfile⟩
  · rintro ⟨i, hi, rfl⟩
    rw [mem_filter, decide_eq_true_iff, h.mem_chunkIndices hu] at hi
    exact ⟨hasPrefix_chunkPath u i, hi.2⟩

theorem Inv.storedBytes_eq : storedBytes fm u =
      (((List.range sess.totalChunks).filter (· ∈ chunkIndices fm u)).map
        sess.chunkSizeFor).sum := by
  rw [storedBytes, ((h.list_perm hu).map _).sum_nat, map_map]
  congr 1
  refine map_congr_left fun i hi => ?_
  rw [mem_filter, decide_eq_true_iff, h.mem_chunkIndices hu] at hi
  obtain ⟨-, file, hfile⟩ := hi
  obtain ⟨j, -, -, heq, data, rfl, hlen⟩ :=
    h.chunks u sess hu _ file (hasPrefix_chunkPath u i) hfile
  obtain rfl := chunkPath_injective u heq
  simp only [Function.comp_apply, hfile, Option.bind_some, UploadFile.bytes, Option.elim_some, hlen]

end

end Status

/-- The sizes of some of the chunks do not exceed the size of the file, so that the sum in `Status`
does not overflow. -/
theorem Session.sum_filter_lt (sess : Session) (f : ℕ → Bool) :
    (((List.range sess.totalChunks).filter f).map sess.chunkSizeFor).sum < 2 ^ 64 := by
  have hperm := ((filter_append_perm f (List.range sess.totalChunks)).map
    sess.chunkSizeFor).sum_nat
  rw [map_append, sum_append, sess.sum_chunkSizeFor] at hperm
  have hsize := sess.totalSize_lt
  omega

/-- **The chunks of a session**: the files below its chunk directory are whole chunks of it, and
`Status` reports the bytes that are stored and a partition of the indices, or fails if the directory
cannot be listed. -/
theorem chunks_exact (svc : Service) (ops : List UploadOp) (fm : Storage)
    (hops : Along svc.step Fits .new ops) (hrun : run svc.step .new ops = some fm)
    (u : String) (sess : Session) (hu : fm.read (metadataPath u) = some (.session sess)) :
    (∀ path file, hasPrefix path (chunksPrefix u) = true → fm.read path = some file →
      ∃ i < sess.totalChunks, path = chunkPath u i ∧
        ∃ data, file = .raw data ∧ data.length = sess.chunkSizeFor i) ∧
    ∀ now, sess.expiresAt = 0 ∨ now ≤ sess.expiresAt →
      Service.status fm now u sess.userID false = .error .listChunks ∧
      ∃ st, Service.status fm now u sess.userID true = .ok st ∧ st.uploadedBytes = storedBytes fm u ∧
        (∀ i ∈ st.receivedChunks, fm.fileExists (chunkPath u i) = true) ∧
        (∀ i ∈ st.missingChunks, fm.fileExists (chunkPath u i) = false) ∧
        (st.receivedChunks ++ st.missingChunks).Perm (List.range sess.totalChunks) := by
  have h : Inv fm := Inv.run hops hrun
  have hid : sess.uploadID = u := (h.ids u sess hu).2
  constructor
  · intro path file hpath hfile
    obtain ⟨i, hi, -, heq, hdata⟩ := h.chunks u sess hu path file hpath hfile
    exact ⟨i, hi, heq, hdata⟩
  · intro now hnow
    simp only [Service.status, access_eq_ok hu hnow, hid]
    refine ⟨rfl, _, rfl, ?_, ?_, ?_, ?_⟩
    · rw [h.storedBytes_eq hu]
      exact Nat.mod_eq_of_lt (sess.sum_filter_lt _)
    · intro i hi
      rw [statusOf, mem_filter, decide_eq_true_iff, h.mem_chunkIndices hu] at hi
      exact (fileExists_iff fm).2 hi.2
    · intro i hi
      rw [statusOf, mem_filter, decide_eq_true_iff, h.mem_chunkIndices hu, ← fileExists_iff] at hi
      exact Bool.eq_false_iff.2 hi.2
    · have hperm := filter_append_perm (· ∈ chunkIndices fm u) (List.range sess.totalChunks)
      simpa only [statusOf, decide_not] using hperm

def byteService : Service := ⟨.bytewise, fun _ => ""⟩

def byteRequest (totalSize : ℕ) (h : totalSize < 2 ^ 64) : CreateParams :=
  ⟨1, 1, 7, "mod.zip", "", totalSize, String.ofList (List.replicate 64 'a'), h⟩

/-- An oversized body, a good one for the same chunk, and a body that breaks off. -/
theorem chunks_exact_after_retry : ∃ fm, run byteService.step .new
        [.create 0 "9f" (byteRequest 2 (by decide)) true,
          .writeChunk 1 "9f" 7 0 ⟨[1, 2, 3], false⟩ {},
          .writeChunk 2 "9f" 7 0 ⟨[1], false⟩ {},
          .writeChunk 3 "9f" 7 1 ⟨[], true⟩ ⟨true, some [5, 5]⟩] = some fm ∧
      Service.status fm 4 "9f" 7 false = .error .listChunks ∧
      ∃ st, Service.status fm 4 "9f" 7 true = .ok st ∧ st.uploadedBytes = storedBytes fm "9f" ∧
        storedBytes fm "9f" = 1 := by
  refine ⟨_, rfl, ?_⟩
  obtain ⟨-, hstat⟩ := chunks_exact byteService [.create 0 "9f" (byteRequest 2 (by decide)) true,
      .writeChunk 1 "9f" 7 0 ⟨[1, 2, 3], false⟩ {},
      .writeChunk 2 "9f" 7 0 ⟨[1], false⟩ {},
      .writeChunk 3 "9f" 7 1 ⟨[], true⟩ ⟨true, some [5, 5]⟩]
    _ (by decide) rfl "9f" (newSession byteService.cfg 0 "9f" (byteRequest 2 (by decide))) (by decide)
  obtain ⟨hfail, st, hst, hbytes, -⟩ := hstat 4 (.inr (by decide))
  exact ⟨hfail, st, hst, hbytes, by decide⟩

/-- Two chunks of an upload with a million and one of them: `Status` reads both paths as the index
100000 and reports one byte. -/
theorem status_misses_chunk : ∃ fm, run byteService.step .new
        [.create 0 "9f" (byteRequest 1000001 (by decide)) true,
          .writeChunk 1 "9f" 7 100000 ⟨[1], false⟩ {},
          .writeChunk 2 "9f" 7 1000000 ⟨[2], false⟩ {}] = some fm ∧
      storedBytes fm "9f" = 2 ∧
      ∃ st, Service.status fm 3 "9f" 7 true = .ok st ∧ st.receivedChunks = [100000] ∧
        st.uploadedBytes = 1 := by
  refine ⟨_, rfl, by decide, ?_⟩
  generalize hfm : byteService.apply _ _ = fm
  -- the loop of `Status` over all indices is not unfolded: what it reads of the session is enough
  obtain ⟨sess, hacc, hid, hchunks, hsize⟩ : ∃ sess, access fm 3 "9f" 7 = .ok sess ∧
      sess.uploadID = "9f" ∧ sess.totalChunks = 1000001 ∧ sess.chunkSizeFor 100000 = 1 := by
    rw [← hfm]
    exact ⟨newSession byteService.cfg 0 "9f" (byteRequest 1000001 (by decide)), rfl, rfl,
      by decide, by decide⟩
  have hrec : receivedChunks fm "9f" true = .ok {100000} := by
    rw [← hfm, receivedChunks, if_pos rfl]
    exact congrArg _ (by decide)
  have hfilt : (List.range 1000001).filter (· ∈ ({100000} : Finset ℕ)) = [100000] := by
    simp only [Finset.mem_singleton]
    rw [filter_eq, count_eq_one_of_mem nodup_range (mem_range.2 (by decide)),
      replicate_one]
  simp only [Service.status, hacc, hid, hrec, Except.map, statusOf, hchunks, hfilt]
  exact ⟨_, rfl, rfl, by rw [map_singleton, hsize]; rfl⟩

end GameAP.Upload
