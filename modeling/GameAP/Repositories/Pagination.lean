import GameAP.Auth.Session
import GameAP.Repositories.DaemonTasks
import GameAP.Repositories.PluginStorage
import GameAP.Repositories.ServerTaskExecutions

/-!
# Pages of the in-memory repositories

`applyPagination` with the offset and the limit as the `uint64` of the source.  The end of a page is
their sum, and a sum that wraps around lies before the offset, so that the slice expression panics
(`page_wraps`).  The pages of one listing do not get there: a slice is shorter than `2 ^ 63`.

The code is the same in all the repositories but that of the tokens, which also slices when the
offset is the end of the list (`PersonalAccessTokenRepository.applyPagination_eq`).  The rest of the
model takes paginations that do not wrap around, for which the pages are the same
(`page_eq_applyPagination`).
-/

namespace GameAP

variable {α : Type}

/-- `entries[lo:hi]`; without a result the expression panics. -/
def slice (entries : List α) (lo hi : UInt64) : Option (List α) :=
  if lo ≤ hi ∧ hi.toNat ≤ entries.length then some ((entries.drop lo.toNat).take (hi.toNat - lo.toNat))
  else none

/-- The limit that is applied: `filters.DefaultLimit` stands for 0. -/
def pageSize (limit : UInt64) : UInt64 := if limit = 0 then 20 else limit

/-- `applyPagination` with a pagination that is not `nil`. -/
def page (limit : UInt64) (entries : List α) (offset : UInt64) : Option (List α) :=
  let length := UInt64.ofNat entries.length
  let stop := offset + pageSize limit
  if length ≤ offset then some [] else slice entries offset (if stop ≤ length then stop else length)

/-- Pages of entries. -/
def PluginStorageRepository.applyPagination (limit : UInt64) (entries : List PluginStorageEntry) :=
  page limit entries

/-- Pages of tasks. -/
def DaemonTaskRepository.applyPagination (limit : UInt64) (tasks : List DaemonTask) :=
  page limit tasks

/-- Pages of executions. -/
def ServerTaskExecutionRepository.applyPagination (limit : UInt64)
    (execs : List ServerTaskExecution) :=
  page limit execs

/-- An offset at the end of the list is not refused here. -/
def PersonalAccessTokenRepository.applyPagination (limit : UInt64) (tokens : List PersonalAccessToken)
    (offset : UInt64) : Option (List PersonalAccessToken) :=
  let length := UInt64.ofNat tokens.length
  let stop := offset + pageSize limit
  if length < offset then some [] else slice tokens offset (if stop ≤ length then stop else length)

variable {entries : List α}

theorem pageSize_pos (limit : UInt64) : 0 < (pageSize limit).toNat := by
  unfold pageSize
  split_ifs with h
  · decide
  · exact Nat.pos_of_ne_zero fun hzero => h (UInt64.toNat_inj.1 hzero)

theorem toNat_length (hlen : entries.length < 2 ^ 63) :
    (UInt64.ofNat entries.length).toNat = entries.length :=
  UInt64.toNat_ofNat_of_lt' (Nat.lt_trans hlen (by decide))

/-- What is cut out from an offset in the list, or at its end. -/
theorem slice_eq (hlen : entries.length < 2 ^ 63) {limit offset : UInt64}
    (hoffset : offset.toNat ≤ entries.length) :
    slice entries offset (if offset + pageSize limit ≤ .ofNat entries.length
      then offset + pageSize limit else .ofNat entries.length) =
      if offset.toNat + (pageSize limit).toNat < 2 ^ 64 then
        some ((entries.drop offset.toNat).take (pageSize limit).toNat)
      else none := by
  have hsize := (pageSize limit).toNat_lt
  have hpos := pageSize_pos limit
  simp only [slice, UInt64.le_iff_toNat_le, toNat_length hlen]
  by_cases hwrap : offset.toNat + (pageSize limit).toNat < 2 ^ 64
  · have hstop : (offset + pageSize limit).toNat = offset.toNat + (pageSize limit).toNat := by
      rw [UInt64.toNat_add, Nat.mod_eq_of_lt hwrap]
    rw [hstop, if_pos (c := _ < 2 ^ 64) hwrap]
    by_cases hle : offset.toNat + (pageSize limit).toNat ≤ entries.length
    · rw [if_pos hle, hstop, if_pos ⟨Nat.le_add_right .., hle⟩, Nat.add_sub_cancel_left]
    · -- the last page ends with the list
      rw [if_neg hle, toNat_length hlen, if_pos ⟨hoffset, Nat.le_refl _⟩,
        List.take_of_length_le (by simp), List.take_of_length_le (by simp; omega)]
  · -- the end is too small by `2 ^ 64`
    have hstop : (offset + pageSize limit).toNat < offset.toNat := by
      rw [UInt64.toNat_add]
      omega
    rw [if_pos (Nat.le_of_lt (Nat.lt_of_lt_of_le hstop hoffset)), if_neg (by omega), if_neg hwrap]

/-- A page is cut out of the list exactly if its end does not wrap around. -/
theorem page_eq (hlen : entries.length < 2 ^ 63) (limit offset : UInt64) :
    page limit entries offset =
      if entries.length ≤ offset.toNat ∨ offset.toNat + (pageSize limit).toNat < 2 ^ 64 then
        some ((entries.drop offset.toNat).take (pageSize limit).toNat)
      else none := by
  have hiff : UInt64.ofNat entries.length ≤ offset ↔ entries.length ≤ offset.toNat := by
    rw [UInt64.le_iff_toNat_le, toNat_length hlen]
  simp only [page, hiff]
  by_cases hend : entries.length ≤ offset.toNat
  · rw [if_pos hend, if_pos (.inl hend), List.drop_eq_nil_of_le hend, List.take_nil]
  · rw [if_neg hend, slice_eq hlen (Nat.le_of_not_le hend)]
    simp only [hend, false_or]

/-- The same for the tokens, but that an offset at the end of the list does not help. -/
theorem PersonalAccessTokenRepository.applyPagination_eq {tokens : List PersonalAccessToken}
    (hlen : tokens.length < 2 ^ 63) (limit offset : UInt64) :
    applyPagination limit tokens offset =
      if tokens.length < offset.toNat ∨ offset.toNat + (pageSize limit).toNat < 2 ^ 64 then
        some ((tokens.drop offset.toNat).take (pageSize limit).toNat)
      else none := by
  have hiff : UInt64.ofNat tokens.length < offset ↔ tokens.length < offset.toNat := by
    rw [UInt64.lt_iff_toNat_lt, toNat_length hlen]
  simp only [applyPagination, hiff]
  by_cases hend : tokens.length < offset.toNat
  · rw [if_pos hend, if_pos (.inl hend), List.drop_eq_nil_of_le hend.le, List.take_nil]
  · rw [if_neg hend, slice_eq hlen (Nat.le_of_not_lt hend)]
    simp only [hend, false_or]

/-- The pages of the rest of the model. -/
theorem page_eq_applyPagination (hlen : entries.length < 2 ^ 63) (p : Pagination) :
    page (.ofNat p.limit) entries (.ofNat p.offset) = some (applyPagination entries (some p)) := by
  have hfits := p.fits
  have hsize : (pageSize (.ofNat p.limit)).toNat = if p.limit = 0 then defaultLimit else p.limit := by
    unfold pageSize
    split_ifs at hfits ⊢ with hzero hlimit hlimit
    · rfl
    · exact absurd (congrArg UInt64.toNat hzero)
        (by rwa [UInt64.toNat_ofNat_of_lt' (Nat.lt_of_add_left_lt hfits)])
    · exact absurd (by rw [hlimit]; rfl) hzero
    · exact UInt64.toNat_ofNat_of_lt' (Nat.lt_of_add_left_lt hfits)
  rw [page_eq hlen, hsize, UInt64.toNat_ofNat_of_lt' (Nat.lt_of_add_right_lt hfits),
    if_pos (.inr hfits), applyPagination]
  split_ifs with hend
  all_goals simp [List.drop_eq_nil_of_le, *]

theorem flatten_pages (hlen : entries.length < 2 ^ 63) {limit : UInt64} {size : ℕ}
    (hsize : (pageSize limit).toNat = size) (n : ℕ) (hn : ∀ i < n, i * size < entries.length) :
    ((List.range n).mapM fun i => page limit entries (.ofNat (i * size))).map List.flatten =
      some (entries.take (n * size)) := by
  induction n with
  | zero => simp
  | succ n ih =>
    have hlast := hn n n.lt_succ_self
    have hwrap : n * size + size < 2 ^ 64 := by
      have hlt := (pageSize limit).toNat_lt
      rcases Nat.eq_zero_or_pos n with rfl | hpos
      · omega
      · have hle := Nat.le_mul_of_pos_left size hpos
        omega
    have hpage : page limit entries (.ofNat (n * size)) =
        some ((entries.drop (n * size)).take size) := by
      rw [page_eq hlen, UInt64.toNat_ofNat_of_lt' (Nat.lt_of_add_right_lt hwrap), hsize,
        if_pos (.inr hwrap)]
    obtain ⟨pages, hpages, htake⟩ := Option.map_eq_some_iff.1
      (ih fun i hi => hn i (Nat.lt_succ_of_lt hi))
    rw [List.range_succ, List.mapM_append, hpages, List.mapM_cons, hpage, Nat.succ_mul, List.take_add]
    simp [htake]

/-- Exactly the elements from the offset on, as many as the limit says, unless the end of the page
wraps around in a list that reaches beyond the offset.  The pages of a listing are the whole
list. -/
theorem page_eq_iff (entries : List α) (hlen : entries.length < 2 ^ 63) (limit : UInt64) :
    (∀ offset, page limit entries offset =
        some ((entries.drop offset.toNat).take (pageSize limit).toNat) ↔
      entries.length ≤ offset.toNat ∨ offset.toNat + (pageSize limit).toNat < 2 ^ 64) ∧
    ∃ n, entries.length ≤ n * (pageSize limit).toNat ∧
      ((List.range n).mapM fun i => page limit entries (.ofNat (i * (pageSize limit).toNat))).map
        List.flatten = some entries := by
  refine ⟨fun offset => ?_, ?_⟩
  · rw [page_eq hlen]
    split_ifs with h
    · exact iff_of_true rfl h
    · exact iff_of_false nofun h
  · obtain ⟨size, hsize⟩ : ∃ size, (pageSize limit).toNat = size := ⟨_, rfl⟩
    have hpos := pageSize_pos limit
    rw [hsize] at hpos ⊢
    have hcovers : entries.length ≤ (entries.length + size - 1) / size * size := by
      have hdiv := Nat.lt_div_mul_add hpos (a := entries.length + size - 1)
      omega
    refine ⟨_, hcovers, ?_⟩
    rw [flatten_pages hlen hsize _ fun i hi => ?_, List.take_of_length_le hcovers]
    have hdiv := Nat.div_mul_le_self (entries.length + size - 1) size
    have hle := Nat.mul_le_mul_right size (Nat.succ_le_of_lt hi)
    rw [Nat.succ_mul] at hle
    omega

theorem page_eq_iff_last : page 2 [0, 1, 2] 2 = some [2] ↔ 3 ≤ 2 ∨ 2 + 2 < 2 ^ 64 :=
  (page_eq_iff [0, 1, 2] (by decide) 2).1 2

theorem page_wraps : page 18446744073709551615 [0, 1] 1 = none := by
  decide

end GameAP
