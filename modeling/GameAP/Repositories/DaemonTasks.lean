import GameAP.Domain
import GameAP.Lib.Selection
import GameAP.Lib.Tables
import Mathlib.Data.Finset.Card
import Mathlib.Data.List.ReduceOption

/-!
# The in-memory daemon task repository

`inmemory.DaemonTaskRepository`: the rows by id, the counter that hands out new ids, and four
secondary indexes (node, server, type and status) that every write maintains incrementally.  The
repository's own mutex makes each operation atomic, so an operation is a function on the
repository; the clock is an argument.

`Consistent` is the representation invariant: rows are stored under their own nonzero id and the
indexes are exact.  `mem_getFilteredTaskIDs` is what the invariant is for: the filtered
intersections of index sets are the brute-force filter of the rows.
-/

namespace GameAP

open Tables Function List

/-- An empty list does not filter. -/
structure FindDaemonTask where
  ids : List ℕ := []
  dedicatedServerIDs : List ℕ := []
  serverIDs : List (Option ℕ) := []
  tasks : List DaemonTaskType := []
  statuses : List DaemonTaskStatus := []
  deriving DecidableEq

structure DaemonTaskRepository where
  tasks : Table ℕ DaemonTask
  nextID : ℕ
  dedicatedServerIDIndex : Index ℕ
  serverIDIndex : Index ℕ
  taskTypeIndex : Index DaemonTaskType
  statusIndex : Index DaemonTaskStatus

namespace DaemonTaskRepository

/-- `NewDaemonTaskRepository`. -/
def new : DaemonTaskRepository := ⟨∅, 0, ∅, ∅, ∅, ∅⟩

variable (r : DaemonTaskRepository) (now : Time)

/-- The row of an id. -/
def row (id : ℕ) : Option DaemonTask := r.tasks.get id

def addToIndexes (t : DaemonTask) : DaemonTaskRepository :=
  { r with
    dedicatedServerIDIndex := r.dedicatedServerIDIndex.add t.dedicatedServerID t.id
    serverIDIndex := r.serverIDIndex.addOpt t.serverID t.id
    taskTypeIndex := r.taskTypeIndex.add t.task t.id
    statusIndex := r.statusIndex.add t.status t.id }

def removeFromIndexes (t : DaemonTask) : DaemonTaskRepository :=
  { r with
    dedicatedServerIDIndex := r.dedicatedServerIDIndex.remove t.dedicatedServerID t.id
    serverIDIndex := r.serverIDIndex.removeOpt t.serverID t.id
    taskTypeIndex := r.taskTypeIndex.remove t.task t.id
    statusIndex := r.statusIndex.remove t.status t.id }

/-- `nextID.Add(1)` on a `uint32` counter. -/
def freshID : ℕ := (r.nextID + 1) % 2 ^ 32

/-- The timestamps that `Save` puts on the caller's task: a task without an id that has no
creation time, or a zero one, gets the current time. -/
def stamp (now : Time) (t : DaemonTask) : DaemonTask :=
  { t with
    updatedAt := some now
    createdAt := if t.id = 0 ∧ (t.createdAt = none ∨ t.createdAt = some 0) then some now
      else t.createdAt }

/-- The end of `Save`: the row is stored under its id and indexed. -/
def store (t : DaemonTask) : DaemonTaskRepository :=
  ({ r with tasks := r.tasks.put t.id t } : DaemonTaskRepository).addToIndexes t

/-- The repository afterwards and the caller's task, to which `Save` assigns the timestamps and,
when it had none, the id.  A task without output keeps the stored output. -/
def save (now : Time) (t : DaemonTask) : DaemonTaskRepository × DaemonTask :=
  if t.id = 0 then
    let t := { stamp now t with id := r.freshID }
    (({ r with nextID := r.freshID } : DaemonTaskRepository).store t, t)
  else
    match r.tasks.get t.id with
    | none => (r.store (stamp now t), stamp now t)
    | some old =>
      ((r.removeFromIndexes old).store { stamp now t with output := t.output.or old.output },
        stamp now t)

def delete (id : ℕ) : DaemonTaskRepository :=
  match r.tasks.get id with
  | none => r
  | some old => { r.removeFromIndexes old with tasks := r.tasks.del id }

/-- Nothing happens when the task does not exist. -/
def appendOutput (id : ℕ) (output : String) : DaemonTaskRepository :=
  match r.tasks.get id with
  | none => r
  | some t => { r with tasks := r.tasks.put id { t with output := some (t.output.getD "" ++ output) } }

section

variable (f : FindDaemonTask)

/-- The first filter that is set chooses the candidates. -/
def candidates : Finset ℕ :=
  if f.ids ≠ [] then f.ids.toFinset.filter fun id => r.tasks.get id ≠ none
  else if f.dedicatedServerIDs ≠ [] then r.dedicatedServerIDIndex.idsOf f.dedicatedServerIDs
  else if f.serverIDs ≠ [] then r.serverIDIndex.idsOf f.serverIDs.reduceOption
  else if f.tasks ≠ [] then r.taskTypeIndex.idsOf f.tasks
  else if f.statuses ≠ [] then r.statusIndex.idsOf f.statuses
  else r.tasks.keys.toFinset

/-- The candidates, intersected with every filter after the first. -/
def getFilteredTaskIDs : Finset ℕ :=
  let ids := r.candidates f
  let ids := if f.dedicatedServerIDs ≠ [] ∧ f.ids ≠ [] then
    ids ∩ r.dedicatedServerIDIndex.idsOf f.dedicatedServerIDs else ids
  let ids := if f.serverIDs ≠ [] ∧ (f.ids ≠ [] ∨ f.dedicatedServerIDs ≠ []) then
    ids ∩ r.serverIDIndex.idsOf f.serverIDs.reduceOption else ids
  let ids := if f.tasks ≠ [] ∧ (f.ids ≠ [] ∨ f.dedicatedServerIDs ≠ [] ∨ f.serverIDs ≠ []) then
    ids ∩ r.taskTypeIndex.idsOf f.tasks else ids
  if f.statuses ≠ [] ∧
      (f.ids ≠ [] ∨ f.dedicatedServerIDs ≠ [] ∨ f.serverIDs ≠ [] ∨ f.tasks ≠ []) then
    ids ∩ r.statusIndex.idsOf f.statuses else ids

/-- `Find` without order and pagination: the rows in the order of their ids, without output. -/
def find : List DaemonTask :=
  (ascending (r.getFilteredTaskIDs f)).filterMap fun id =>
    (r.tasks.get id).map DaemonTask.withoutOutput

/-- `Exists`: with ids, whether all of them are found; otherwise whether any row is. -/
def exists_ : Bool :=
  if f.ids ≠ [] then (r.getFilteredTaskIDs f).card = f.ids.length
  else 0 < (r.getFilteredTaskIDs f).card

end

/-! ### The rows after each operation -/

@[simp] theorem stamp_status (t : DaemonTask) : (stamp now t).status = t.status := rfl

theorem row_store (t : DaemonTask) : (r.store t).row = update r.row t.id (some t) :=
  Table.update_get_put ..

@[simp] theorem row_removeFromIndexes (t : DaemonTask) : (r.removeFromIndexes t).row = r.row := rfl

/-- The row that `Save` stores for a task that has an id. -/
def stored (now : Time) (t : DaemonTask) : DaemonTask :=
  { stamp now t with output := t.output.or ((r.row t.id).bind (·.output)) }

@[simp] theorem stored_id (t : DaemonTask) : (r.stored now t).id = t.id := rfl

variable {t c : DaemonTask}

theorem save_of_none (ht : t.id ≠ 0) (h : r.row t.id = none) (now : Time) :
    r.save now t = (r.store (r.stored now t), stamp now t) := by
  have hs : r.stored now t = stamp now t := by simp [stored, h, stamp]
  unfold row at h
  rw [hs, save, if_neg ht, h]

theorem save_of_some {old : DaemonTask} (ht : t.id ≠ 0) (h : r.row t.id = some old) (now : Time) :
    r.save now t = ((r.removeFromIndexes old).store (r.stored now t), stamp now t) := by
  have hs : r.stored now t = { stamp now t with output := t.output.or old.output } := by
    simp [stored, h]
  unfold row at h
  rw [hs, save, if_neg ht, h]

theorem save_of_new (ht : t.id = 0) (now : Time) :
    r.save now t = (({ r with nextID := r.freshID } : DaemonTaskRepository).store
      { stamp now t with id := r.freshID }, { stamp now t with id := r.freshID }) := by
  rw [save, if_pos ht]

theorem row_save (ht : t.id ≠ 0) (now : Time) :
    (r.save now t).1.row = update r.row t.id (some (r.stored now t)) := by
  cases h : r.row t.id with
  | none => rw [r.save_of_none ht h, row_store, stored_id]
  | some old => rw [r.save_of_some ht h, row_store, stored_id, row_removeFromIndexes]

theorem save_task (ht : t.id ≠ 0) (now : Time) : (r.save now t).2 = stamp now t := by
  cases h : r.row t.id with
  | none => rw [r.save_of_none ht h]
  | some old => rw [r.save_of_some ht h]

theorem row_save_new (ht : t.id = 0) (now : Time) : (r.save now t).1.row =
      update r.row r.freshID (some { stamp now t with id := r.freshID }) := by
  rw [r.save_of_new ht, row_store]
  rfl

theorem row_appendOutput (id : ℕ) (output : String) (j : ℕ) :
    (r.appendOutput id output).row j = if j = id then
      (r.row id).map fun t => { t with output := some (t.output.getD "" ++ output) }
      else r.row j := by
  unfold appendOutput row
  cases h : r.tasks.get id with
  | none =>
    by_cases hj : j = id
    · subst hj; simp [h]
    · simp [hj]
  | some t =>
    simp only [Table.get_put]
    by_cases hj : j = id
    · simp [hj]
    · simp [hj]

/-! ### The representation invariant -/

/-- Rows are stored under their own id, and no row has the id `0`. -/
def Keyed : Prop := ∀ id t, r.row id = some t → t.id = id ∧ id ≠ 0

/-- The rows are keyed and the indexes are exact. -/
structure Consistent : Prop where
  keyed : r.Keyed
  node : Tracks r.row (fun t => some t.dedicatedServerID) r.dedicatedServerIDIndex
  server : Tracks r.row (fun t => t.serverID) r.serverIDIndex
  type : Tracks r.row (fun t => some t.task) r.taskTypeIndex
  status : Tracks r.row (fun t => some t.status) r.statusIndex

theorem new_consistent : new.Consistent where
  keyed := by intro id t h; cases h
  node := tracks_empty
  server := tracks_empty
  type := tracks_empty
  status := tracks_empty

variable {r} {r' : DaemonTaskRepository}

theorem Keyed.of_update (h : r.Keyed) (ht : t.id ≠ 0)
    (hrow : r'.row = update r.row t.id (some t)) : r'.Keyed := by
  intro id u hu
  rw [hrow, update_apply] at hu
  split_ifs at hu with hid
  · cases hu; exact ⟨hid.symm, hid ▸ ht⟩
  · exact h id u hu

theorem Keyed.appendOutput (h : r.Keyed) (id : ℕ) (output : String) :
    (r.appendOutput id output).Keyed := by
  intro j u hu
  rw [r.row_appendOutput] at hu
  split_ifs at hu with hj
  · obtain ⟨t, ht, rfl⟩ := Option.map_eq_some_iff.1 hu
    subst hj
    exact h j t ht
  · exact h j u hu

/-- Storing a row under an unused id, or in the place of the row that was taken out of the
indexes, keeps the invariant. -/
theorem Consistent.store (h : r.Consistent) (ht : t.id ≠ 0) : (match r.row t.id with
      | none => r.store t
      | some old => (r.removeFromIndexes old).store t).Consistent := by
  cases hold : r.row t.id with
  | none =>
    have hrow := r.row_store t
    exact ⟨h.keyed.of_update ht hrow, hrow ▸ h.node.insert hold t,
      hrow ▸ h.server.insert hold t, hrow ▸ h.type.insert hold t, hrow ▸ h.status.insert hold t⟩
  | some old =>
    -- the old row is indexed under its own id, which is the id of the new one
    have hid : old.id = t.id := (h.keyed _ _ hold).1
    have hrow := (r.removeFromIndexes old).row_store t
    exact ⟨h.keyed.of_update ht hrow, hrow ▸ h.node.replace hold hid t,
      hrow ▸ h.server.replace hold hid t, hrow ▸ h.type.replace hold hid t,
      hrow ▸ h.status.replace hold hid t⟩

theorem Consistent.save (h : r.Consistent) (ht : t.id ≠ 0) (now : Time) :
    (r.save now t).1.Consistent := by
  have hs := h.store (t := r.stored now t) ht
  rw [stored_id] at hs
  cases hold : r.row t.id with
  | none => rw [r.save_of_none ht hold]; simpa only [hold] using hs
  | some old => rw [r.save_of_some ht hold]; simpa only [hold] using hs

theorem Consistent.save_new (h : r.Consistent) (ht : t.id = 0)
    (h0 : r.freshID ≠ 0) (hfree : r.row r.freshID = none) (now : Time) :
    (r.save now t).1.Consistent := by
  -- the counter itself is not part of the invariant
  have h' : ({ r with nextID := r.freshID } : DaemonTaskRepository).Consistent := { h with }
  have hs := h'.store (t := { stamp now t with id := r.freshID }) h0
  have hfree' : ({ r with nextID := r.freshID } : DaemonTaskRepository).row r.freshID = none := hfree
  rw [r.save_of_new ht]
  simpa only [hfree'] using hs

theorem Consistent.appendOutput (h : r.Consistent) (id : ℕ) (output : String) :
    (r.appendOutput id output).Consistent := by
  have hrow : (r.appendOutput id output).row = fun j => if j = id then
      (r.row id).map fun t => { t with output := some (t.output.getD "" ++ output) }
      else r.row j := funext (r.row_appendOutput id output)
  have hkeyed := h.keyed.appendOutput id output
  unfold DaemonTaskRepository.appendOutput at hrow hkeyed ⊢
  cases hid : r.tasks.get id with
  | none => exact h
  | some t =>
    have hid' : r.row id = some t := hid
    simp only [hid, hid', Option.map_some] at hrow hkeyed ⊢
    have hupd : ∀ u : DaemonTask, (fun j => if j = id then some u else r.row j) =
        update r.row id (some u) := fun u => by
      funext j; rw [update_apply]
    rw [hupd] at hrow
    exact ⟨hkeyed, hrow ▸ h.node.modify hid' rfl, hrow ▸ h.server.modify hid' rfl,
      hrow ▸ h.type.modify hid' rfl, hrow ▸ h.status.modify hid' rfl⟩

/-! ### What `Find` returns -/

/-- The row satisfies every filter that is set. -/
structure Matches (f : FindDaemonTask) (t : DaemonTask) : Prop where
  id : f.ids ≠ [] → t.id ∈ f.ids
  node : f.dedicatedServerIDs ≠ [] → t.dedicatedServerID ∈ f.dedicatedServerIDs
  server : f.serverIDs ≠ [] → ∃ s, t.serverID = some s ∧ some s ∈ f.serverIDs
  type : f.tasks ≠ [] → t.task ∈ f.tasks
  status : f.statuses ≠ [] → t.status ∈ f.statuses

open Selection in
/-- The filters in the order of the search. -/
def criteria (r : DaemonTaskRepository) (f : FindDaemonTask) : List (Criterion ℕ) :=
  [⟨decide (f.ids ≠ []), f.ids.toFinset.filter fun id => r.tasks.get id ≠ none⟩,
    ⟨decide (f.dedicatedServerIDs ≠ []), r.dedicatedServerIDIndex.idsOf f.dedicatedServerIDs⟩,
    ⟨decide (f.serverIDs ≠ []), r.serverIDIndex.idsOf f.serverIDs.reduceOption⟩,
    ⟨decide (f.tasks ≠ []), r.taskTypeIndex.idsOf f.tasks⟩,
    ⟨decide (f.statuses ≠ []), r.statusIndex.idsOf f.statuses⟩]

theorem getFilteredTaskIDs_eq (r : DaemonTaskRepository) (f : FindDaemonTask) :
    r.getFilteredTaskIDs f = Selection.narrow false
      (Selection.candidates r.tasks.keys.toFinset (r.criteria f)) (r.criteria f) := by
  simp only [getFilteredTaskIDs, candidates, criteria, Selection.narrow, Selection.candidates,
    Bool.false_or, Bool.and_false, Bool.false_eq_true, if_false, Bool.and_eq_true, Bool.or_eq_true,
    decide_eq_true_eq, or_assoc]

theorem mem_keys_iff_row {id : ℕ} : id ∈ r.tasks.keys.toFinset ↔ ∃ t, r.row id = some t :=
  mem_toFinset.trans Table.mem_keys_iff

theorem Consistent.mem_keys_of_mem_criteria (h : r.Consistent) {f : FindDaemonTask} {id : ℕ} :
    ∀ c ∈ r.criteria f, id ∈ c.ids → id ∈ r.tasks.keys.toFinset := by
  simp only [criteria, forall_mem_cons, mem_keys_iff_row]
  exact ⟨fun hid => Option.ne_none_iff_exists'.1 (Finset.mem_filter.1 hid).2,
    h.node.row_of_mem_idsOf, h.server.row_of_mem_idsOf,
    h.type.row_of_mem_idsOf, h.status.row_of_mem_idsOf, nofun⟩

/-- **The indexed search is the brute-force filter.** -/
theorem Consistent.mem_getFilteredTaskIDs (h : r.Consistent) (f : FindDaemonTask) (id : ℕ) :
    id ∈ r.getFilteredTaskIDs f ↔ ∃ t, r.row id = some t ∧ Matches f t := by
  rw [getFilteredTaskIDs_eq, Selection.mem_narrow_candidates_all h.mem_keys_of_mem_criteria,
    mem_keys_iff_row]
  cases hrow : r.row id with
  | none => simp
  | some t =>
    obtain rfl : t.id = id := (h.keyed id t hrow).1
    have hget : r.tasks.get t.id = some t := hrow
    simp only [criteria, forall_mem_cons, decide_eq_true_eq, h.node.mem_idsOf_row hrow,
      h.server.mem_idsOf_row hrow, h.type.mem_idsOf_row hrow, h.status.mem_idsOf_row hrow,
      Finset.mem_filter, mem_toFinset, hget, reduceOption_mem_iff]
    constructor
    · rintro ⟨-, h1, h2, h3, h4, h5, -⟩
      exact ⟨t, rfl, fun hne => (h1 hne).1, fun hne => by simpa using h2 hne,
        fun hne => by simpa [and_comm] using h3 hne, fun hne => by simpa using h4 hne,
        fun hne => by simpa using h5 hne⟩
    · rintro ⟨_, ⟨⟩, m⟩
      exact ⟨⟨t, rfl⟩, fun hne => ⟨m.id hne, nofun⟩, fun hne => by simpa using m.node hne,
        fun hne => by simpa [and_comm] using m.server hne, fun hne => by simpa using m.type hne,
        fun hne => by simpa using m.status hne, nofun⟩

variable {f : FindDaemonTask} {id : ℕ}

theorem find_id (id : ℕ) :
    r.find { ids := [id] } = ((r.row id).map DaemonTask.withoutOutput).toList := by
  have hids : r.getFilteredTaskIDs { ids := [id] } =
      ({id} : Finset ℕ).filter fun id => r.tasks.get id ≠ none := by
    simp [getFilteredTaskIDs, candidates]
  unfold find
  rw [hids]
  unfold row
  cases h : r.tasks.get id with
  | none | some => simp [Finset.filter_singleton, h]

theorem Consistent.mem_find (h : r.Consistent) :
    c ∈ r.find f ↔ ∃ t, r.row t.id = some t ∧ Matches f t ∧ c = t.withoutOutput := by
  unfold find
  simp only [mem_filterMap, mem_ascending, h.mem_getFilteredTaskIDs f, Option.map_eq_some_iff]
  constructor
  · rintro ⟨id, ⟨t, ht, hm⟩, u, hu, rfl⟩
    have hu' : r.row id = some u := hu
    rw [ht] at hu'
    cases hu'
    exact ⟨t, by rw [(h.keyed id t ht).1]; exact ht, hm, rfl⟩
  · rintro ⟨t, ht, hm, rfl⟩
    exact ⟨t.id, ⟨t, ht, hm⟩, t, ht, rfl⟩

theorem Consistent.exists_iff (h : r.Consistent) (hids : f.ids = []) :
    r.exists_ f = true ↔ ∃ id t, r.row id = some t ∧ Matches f t := by
  simp only [exists_, hids, ne_eq, not_true_eq_false, if_false, decide_eq_true_eq, Finset.card_pos]
  simp only [Finset.Nonempty, h.mem_getFilteredTaskIDs]

/-! ### The output of tasks that several callers write -/

/-- What callers do, in the order in which they take the mutex of the repository. -/
inductive OutputCall where
  | appendOutput (id : ℕ) (chunk : String)
  | find (f : FindDaemonTask)
  /-- the copy at `k` of those that were handed out is saved with a status -/
  | save (now : Time) (k : ℕ) (status : DaemonTaskStatus)

/-- The repository and the copies of rows that its callers hold, however old. -/
structure OutputState where
  repo : DaemonTaskRepository
  copies : List DaemonTask

/-- One call; a caller of `Save` goes on with the task that `Save` has stamped. -/
def OutputState.call (s : OutputState) : OutputCall → OutputState
  | .appendOutput id chunk => { s with repo := s.repo.appendOutput id chunk }
  | .find f => { s with copies := s.copies ++ s.repo.find f }
  | .save now k status =>
    match s.copies[k]? with
    | none => s
    | some t =>
      let saved := s.repo.save now (t.withStatus status)
      ⟨saved.1, s.copies.set k saved.2⟩

/-- The stored output of a task, empty when there is none yet. -/
def outputOf (id : ℕ) : Option String := (r.row id).map (·.output.getD "")

/-- What a call appends to the output of a task. -/
def OutputCall.chunkFor (id : ℕ) : OutputCall → String
  | .appendOutput j chunk => if j = id then chunk else ""
  | _ => ""

/-- All that is appended to the output of a task, in call order. -/
def appendedTo (id : ℕ) (calls : List OutputCall) : String :=
  (calls.map (OutputCall.chunkFor id)).foldr (· ++ ·) ""

/-- A copy that `Find` has handed out: it has the id of a row and no output. -/
structure IsCopy (r : DaemonTaskRepository) (t : DaemonTask) : Prop where
  output : t.output = none
  id : t.id ≠ 0
  row : r.row t.id ≠ none

theorem Keyed.isCopy_of_mem_find (h : r.Keyed) (hc : c ∈ r.find f) : IsCopy r c := by
  obtain ⟨id, -, hid⟩ := mem_filterMap.1 hc
  obtain ⟨t, ht, rfl⟩ := Option.map_eq_some_iff.1 hid
  obtain ⟨rfl, h0⟩ := h id t ht
  refine ⟨rfl, h0, ?_⟩
  show r.row t.id ≠ none
  rw [show r.row t.id = some t from ht]
  simp

theorem IsCopy.outputOf_save (h : IsCopy r t) (now : Time) (id : ℕ) :
    (r.save now t).1.outputOf id = r.outputOf id := by
  unfold outputOf
  rw [row_save r h.id, update_apply]
  by_cases hid : id = t.id
  · obtain ⟨old, hold⟩ := Option.ne_none_iff_exists'.1 h.row
    rw [if_pos hid, hid, hold]
    simp [stored, h.output, hold]
  · rw [if_neg hid]

theorem outputOf_appendOutput (id : ℕ) (chunk : String) (j : ℕ) :
    (r.appendOutput id chunk).outputOf j =
      (r.outputOf j).map (· ++ (OutputCall.appendOutput id chunk).chunkFor j) := by
  unfold outputOf OutputCall.chunkFor
  rw [row_appendOutput]
  by_cases hj : j = id
  · subst hj
    cases r.row j with
    | none | some => simp
  · have hj' : id ≠ j := Ne.symm hj
    cases r.row j with
    | none | some => simp [hj, hj']

/-- What every call keeps: the rows are keyed, and who holds a copy may save it. -/
structure OutputState.Inv (s : OutputState) : Prop where
  keyed : s.repo.Keyed
  copies : ∀ t ∈ s.copies, IsCopy s.repo t

theorem IsCopy.of_outputOf (h : IsCopy r t)
    (hrow : (r'.outputOf t.id).isSome = (r.outputOf t.id).isSome) : IsCopy r' t := by
  refine ⟨h.output, h.id, fun hnone => h.row ?_⟩
  rw [outputOf, outputOf, hnone, Option.isSome_map, Option.isSome_map] at hrow
  simpa using hrow.symm

/-- **One call** appends its chunk to the stored output and changes no output otherwise. -/
theorem OutputState.Inv.call {s : OutputState} (h : s.Inv) (c : OutputCall) : (s.call c).Inv ∧
      ∀ id, (s.call c).repo.outputOf id = (s.repo.outputOf id).map (· ++ c.chunkFor id) := by
  cases c with
  | appendOutput id chunk =>
    have hout := outputOf_appendOutput (r := s.repo) id chunk
    refine ⟨⟨h.keyed.appendOutput id chunk, fun t ht => (h.copies t ht).of_outputOf ?_⟩, hout⟩
    rw [OutputState.call, hout, Option.isSome_map]
  | find f =>
    refine ⟨⟨h.keyed, fun t ht => ?_⟩, fun id => by simp [OutputState.call, OutputCall.chunkFor]⟩
    rcases mem_append.1 ht with ht | ht
    · exact h.copies t ht
    · exact h.keyed.isCopy_of_mem_find ht
  | save now k status =>
    have hsame : ∀ o : Option String, o.map (· ++ "") = o := by simp
    simp only [OutputState.call, OutputCall.chunkFor, hsame]
    cases hk : s.copies[k]? with
    | none => exact ⟨h, fun _ => rfl⟩
    | some t =>
      have ht : IsCopy s.repo (t.withStatus status) := let c := h.copies t (mem_of_getElem? hk)
        { c with }
      have hout := ht.outputOf_save now
      refine ⟨⟨h.keyed.of_update (t := s.repo.stored now (t.withStatus status)) ht.id
        (row_save s.repo ht.id now), fun u hu => ?_⟩, hout⟩
      rcases mem_or_eq_of_mem_set hu with hu | rfl
      · exact (h.copies u hu).of_outputOf (by rw [hout])
      · have hstamp : IsCopy s.repo (stamp now (t.withStatus status)) := { ht with }
        rw [save_task s.repo ht.id]
        exact hstamp.of_outputOf (by rw [hout])

/-- **No output is lost or duplicated**: in every interleaving of `AppendOutput` with callers that
find tasks and save them back, the stored output is what it was followed by the appended chunks. -/
theorem outputOf_calls (hr : r.Keyed) (calls : List OutputCall) (id : ℕ) :
    (calls.foldl OutputState.call ⟨r, []⟩).repo.outputOf id =
      (r.outputOf id).map (· ++ appendedTo id calls) := by
  have hrun : ∀ (calls : List OutputCall) (s : OutputState), s.Inv →
      (calls.foldl OutputState.call s).repo.outputOf id =
        (s.repo.outputOf id).map (· ++ appendedTo id calls) := by
    intro calls
    induction calls with
    | nil => intro s _; simp [appendedTo]
    | cons c cs ih =>
      intro s hs
      obtain ⟨hinv, hout⟩ := hs.call c
      rw [List.foldl_cons, ih _ hinv, hout, Option.map_map]
      congr 1
      funext o
      simp [appendedTo, String.append_assoc]
  exact hrun calls ⟨r, []⟩ ⟨hr, by simp⟩

def oneTask : DaemonTaskRepository :=
  (new.save 5 { id := 0, dedicatedServerID := 1, task := .serverStart, status := .waiting }).1

/-- The copy that is saved last is older than the second chunk. -/
theorem outputOf_calls_stale : oneTask.Keyed ∧
    ([.appendOutput 1 "a", .find {}, .appendOutput 1 "b", .save 6 0 .working].foldl
      OutputState.call ⟨oneTask, []⟩).repo.outputOf 1 = some "ab" :=
  have hr : oneTask.Keyed := (new_consistent.save_new rfl (by decide) rfl 5).keyed
  ⟨hr, (outputOf_calls hr _ 1).trans (by decide)⟩

end DaemonTaskRepository

end GameAP
