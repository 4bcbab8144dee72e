import GameAP.Lib.Runs
import GameAP.Repositories.DaemonTasks

/-!
# Searches of the daemon task repository after any history

Every write keeps the representation invariant, so that the searches are exact after any history
(`search_exact`).  A new task must get an id from the counter that is free: a row under it would
stay in the indexes.  `Exists` is a search except for a filter with ids, where it asks for all of
them (`exists_misses`).
-/

namespace GameAP

open Runs Tables

namespace DaemonTaskRepository

inductive TaskWrite
  | save (now : Time) (t : DaemonTask)
  | delete (id : ℕ)
  | appendOutput (id : ℕ) (output : String)

section

variable (r : DaemonTaskRepository)

def write : TaskWrite → Option DaemonTaskRepository
  | .save now t => some (r.save now t).1
  | .delete id => some (r.delete id)
  | .appendOutput id output => some (r.appendOutput id output)

/-- The id that a new task gets from the counter is free. -/
def FreshID : TaskWrite → Prop
  | .save _ t => t.id = 0 → r.freshID ≠ 0 ∧ r.row r.freshID = none
  | _ => True

variable (f : FindDaemonTask)

/-- `FindWithOutput` without order and pagination; no filter is the same as an empty one. -/
def findWithOutput : List DaemonTask := (ascending (r.getFilteredTaskIDs f)).filterMap r.tasks.get

def count : ℕ := (r.getFilteredTaskIDs f).card

end

variable {r : DaemonTaskRepository} {f : FindDaemonTask}

theorem row_delete (r : DaemonTaskRepository) (id : ℕ) :
    (r.delete id).row = Function.update r.row id none := by
  unfold delete
  cases hid : r.tasks.get id with
  | none => exact (Function.update_eq_self_iff.2 hid.symm).symm
  | some old => exact Table.update_get_del ..

theorem Consistent.delete (h : r.Consistent) (id : ℕ) : (r.delete id).Consistent := by
  have hrow := r.row_delete id
  have hkeyed : (r.delete id).Keyed := by
    intro j t ht
    rw [hrow, Function.update_apply] at ht
    split_ifs at ht
    exact h.keyed j t ht
  unfold DaemonTaskRepository.delete at hrow hkeyed ⊢
  cases hid : r.tasks.get id with
  | none => exact h
  | some old =>
    have hold : old.id = id := (h.keyed id old hid).1
    rw [hid] at hrow hkeyed
    exact ⟨hkeyed, hrow ▸ h.node.delete hid hold, hrow ▸ h.server.delete hid hold,
      hrow ▸ h.type.delete hid hold, hrow ▸ h.status.delete hid hold⟩

theorem consistent_write (r : DaemonTaskRepository) (w : TaskWrite) (r' : DaemonTaskRepository)
    (h : r.Consistent) (hfresh : r.FreshID w) (hwrite : r.write w = some r') : r'.Consistent := by
  cases w with
  | save now t =>
    cases hwrite
    by_cases ht : t.id = 0
    · exact h.save_new ht (hfresh ht).1 (hfresh ht).2 now
    · exact h.save ht now
  | delete id => cases hwrite; exact h.delete id
  | appendOutput id output => cases hwrite; exact h.appendOutput id output

theorem Consistent.map_id_findWithOutput (h : r.Consistent) (f : FindDaemonTask) :
    (r.findWithOutput f).map DaemonTask.id = ascending (r.getFilteredTaskIDs f) := by
  have hids : ∀ ids : List ℕ, (∀ id ∈ ids, ∃ t, r.tasks.get id = some t) →
      (ids.filterMap r.tasks.get).map DaemonTask.id = ids := by
    intro ids
    induction ids with
    | nil => exact fun _ => rfl
    | cons id ids ih =>
      intro hrows
      obtain ⟨⟨t, ht⟩, hrest⟩ := List.forall_mem_cons.1 hrows
      rw [List.filterMap_cons_some ht, List.map_cons, ih hrest, (h.keyed id t ht).1]
  refine hids _ fun id hid => ?_
  obtain ⟨t, ht, -⟩ := (h.mem_getFilteredTaskIDs f id).1 (mem_ascending.1 hid)
  exact ⟨t, ht⟩

theorem Consistent.length_findWithOutput (h : r.Consistent) (f : FindDaemonTask) :
    (r.findWithOutput f).length = r.count f := by
  have hset : (ascending (r.getFilteredTaskIDs f)).toFinset = r.getFilteredTaskIDs f := by
    ext id
    rw [List.mem_toFinset, mem_ascending]
  rw [← List.length_map DaemonTask.id, h.map_id_findWithOutput, count,
    ← List.toFinset_card_of_nodup (nodup_ascending _), hset]

theorem Consistent.mem_findWithOutput (h : r.Consistent) {t : DaemonTask} :
    t ∈ r.findWithOutput f ↔ r.row t.id = some t ∧ Matches f t := by
  simp only [findWithOutput, List.mem_filterMap, mem_ascending, h.mem_getFilteredTaskIDs f]
  constructor
  · rintro ⟨id, ⟨u, hu, hm⟩, ht⟩
    obtain rfl : u = t := Option.some.inj (hu.symm.trans ht)
    obtain rfl := (h.keyed id u hu).1
    exact ⟨hu, hm⟩
  · rintro ⟨ht, hm⟩
    exact ⟨t.id, ⟨t, ht, hm⟩, ht⟩

/-- As many tasks as ids are found exactly if the ids are distinct and a matching task is stored
under each of them. -/
theorem Consistent.count_eq_length_iff (h : r.Consistent) (hids : f.ids ≠ []) :
    r.count f = f.ids.length ↔
      f.ids.Nodup ∧ ∀ id ∈ f.ids, ∃ t, r.row id = some t ∧ Matches f t := by
  have hmem := h.mem_getFilteredTaskIDs f
  have hsub : r.getFilteredTaskIDs f ⊆ f.ids.toFinset := by
    intro id hid
    obtain ⟨t, ht, hm⟩ := (hmem id).1 hid
    rw [← (h.keyed id t ht).1]
    exact List.mem_toFinset.2 (hm.id hids)
  have hcard : f.ids.toFinset.card ≤ f.ids.length := List.toFinset_card_le f.ids
  simp only [← hmem]
  unfold count
  constructor
  · intro heq
    have hall : r.getFilteredTaskIDs f = f.ids.toFinset :=
      Finset.eq_of_subset_of_card_le hsub (by omega)
    refine ⟨?_, fun id hid => by rwa [hall, List.mem_toFinset]⟩
    rw [hall] at heq
    exact Multiset.toFinset_card_eq_card_iff_nodup.1 heq
  · rintro ⟨hnodup, hall⟩
    rw [← List.toFinset_card_of_nodup hnodup]
    exact congrArg Finset.card (hsub.antisymm fun id hid => hall id (List.mem_toFinset.1 hid))

/-- **Searches** find exactly the stored tasks that satisfy all the fields of the filter, each once,
and `Count` is their number.  `Exists` says whether there is one, exactly if there are no ids in the
filter, or no task matches, or the ids are distinct and a matching task is stored under each. -/
theorem search_exact {ws : List TaskWrite} {r : DaemonTaskRepository}
    (hfresh : Along write FreshID new ws) (hrun : run write new ws = some r) (f : FindDaemonTask) :
    (∀ t, t ∈ r.findWithOutput f ↔ r.row t.id = some t ∧ Matches f t) ∧
    ((r.findWithOutput f).map DaemonTask.id).Nodup ∧
    r.find f = (r.findWithOutput f).map DaemonTask.withoutOutput ∧
    r.count f = (r.findWithOutput f).length ∧
    ((r.exists_ f = true ↔ r.findWithOutput f ≠ []) ↔
      f.ids = [] ∨ (∀ id t, r.row id = some t → ¬ Matches f t) ∨
      f.ids.Nodup ∧ ∀ id ∈ f.ids, ∃ t, r.row id = some t ∧ Matches f t) := by
  have h : r.Consistent := run_inv Consistent consistent_write new_consistent hfresh hrun
  have hlen := h.length_findWithOutput f
  refine ⟨fun t => h.mem_findWithOutput, ?_, ?_, hlen.symm, ?_⟩
  · rw [h.map_id_findWithOutput]
    exact nodup_ascending _
  · rw [find, findWithOutput, List.map_filterMap]
  · by_cases hids : f.ids = []
    · rw [← List.length_pos_iff, hlen, exists_, ← count]
      simp [hids]
    · have hnone : r.count f = 0 ↔ ∀ id t, r.row id = some t → ¬ Matches f t := by
        rw [count, Finset.card_eq_zero, Finset.eq_empty_iff_forall_notMem]
        simp only [h.mem_getFilteredTaskIDs f, not_exists, not_and]
      have hpos := List.length_pos_iff.2 hids
      rw [← h.count_eq_length_iff hids, ← hnone, ← List.length_pos_iff, hlen, exists_, ← count]
      simp only [hids, ne_eq, not_false_eq_true, if_true, decide_eq_true_eq, false_or]
      omega

def written : List TaskWrite :=
  [.save 5 { id := 0, dedicatedServerID := 1, task := .serverStart, status := .waiting },
    .save 6 { id := 0, dedicatedServerID := 2, task := .serverStop, status := .waiting },
    .appendOutput 1 "a", .save 7 { id := 0, dedicatedServerID := 1, task := .cmdExec, status := .error },
    .delete 3]

/-- Of three tasks two are left, and both are asked for. -/
theorem search_exact_written : ∃ r, run write new written = some r ∧
    (r.exists_ { ids := [2, 1], statuses := [.waiting] } = true ↔
      r.findWithOutput { ids := [2, 1], statuses := [.waiting] } ≠ []) ∧
    r.count { statuses := [.waiting] } = (r.findWithOutput { statuses := [.waiting] }).length := by
  have hfresh : Along write FreshID new written := by
    exact ⟨fun _ => ⟨by decide, by decide⟩, fun _ => ⟨by decide, by decide⟩, trivial,
      fun _ => ⟨by decide, by decide⟩, trivial, trivial⟩
  have hexact := fun f => @search_exact written _ hfresh rfl f
  refine ⟨_, rfl, (hexact _).2.2.2.2.2 (.inr (.inr ⟨by decide, fun id hid => ?_⟩)), (hexact _).2.2.2.1⟩
  rw [List.mem_pair] at hid
  rcases hid with rfl | rfl
  all_goals exact ⟨_, rfl, fun _ => by decide, fun h => absurd rfl h, fun h => absurd rfl h,
    fun h => absurd rfl h, fun _ => by decide⟩

-- a task saved under the id 1 stays in the indexes when the counter hands out the same id
example : ((run write new
      [.save 5 { id := 1, dedicatedServerID := 1, task := .serverStart, status := .waiting },
        .save 5 { id := 0, dedicatedServerID := 1, task := .serverStart, status := .working }]).map
      fun r => (r.find { statuses := [.waiting] }).map DaemonTask.status) = some [.working] := by
  decide

/-- Of the tasks 1 and 2 there is one, and it is found. -/
theorem exists_misses : oneTask.exists_ { ids := [1, 2] } = false ∧
    (oneTask.find { ids := [1, 2] }).length = 1 ∧ oneTask.exists_ { ids := [1, 1] } = false := by
  decide

end DaemonTaskRepository

end GameAP
