import Mathlib.Algebra.Order.BigOperators.Group.Finset
import Mathlib.Data.List.Sort
import GameAP.Domain
import GameAP.Lib.Selection
import GameAP.Lib.Tables
import GameAP.Repositories.Caching

/-!
# The in-memory repository of plugin storage

`inmemory.PluginStorageRepository`: the entries by id and indexes by plugin, by key and by entity.
There are two notions of the same entity.  `Save` looks for equal pointers (`findExistingEntry`),
where an absent type or id differs from every present one; for the entity index (`makeEntityKey`) an
absent type is the empty one and an absent id is 0.

`Consistent` is the representation invariant, under which the search through the indexes finds the
entries that match the filter (`mem_getFilteredEntryIDs`).  `Unique` says that an entry is
determined by its plugin, key and entity, in the first sense; deletions and saves without an id keep
it.
-/

namespace GameAP

open Tables Function Finset

/-- A payload under a plugin, key and entity. -/
structure PluginStorageEntry where
  id : ℕ := 0
  pluginID : ℕ
  key : String
  entityType : Option String := none
  entityID : Option ℕ := none
  payload : List UInt8
  createdAt : Option Time := none
  updatedAt : Option Time := none
  deriving DecidableEq

/-- An entity in a filter. -/
structure PluginStorageEntityPair where
  entityType : Option String := none
  entityID : Option ℕ := none
  deriving DecidableEq

/-- An empty list does not filter. -/
structure FindPluginStorage where
  ids : List ℕ := []
  pluginIDs : List ℕ := []
  keys : List String := []
  entityPairs : List PluginStorageEntityPair := []
  keyPrefix : Option String := none
  deriving DecidableEq

/-- The key of the entity index. -/
structure EntityKey where
  entityType : String
  entityID : ℕ
  deriving DecidableEq

/-- An absent part is empty or zero. -/
def makeEntityKey (entityType : Option String) (entityID : Option ℕ) : EntityKey :=
  ⟨entityType.getD "", entityID.getD 0⟩

/-- What a plugin has stored. -/
structure PluginStorageUsage where
  keys : ℕ
  bytes : ℕ
  deriving DecidableEq

/-- What identifies an entry for `Save`. -/
structure PluginStorageSlot where
  pluginID : ℕ
  key : String
  entityType : Option String
  entityID : Option ℕ
  deriving DecidableEq

namespace PluginStorageEntry

/-- What identifies the entry. -/
def slot (e : PluginStorageEntry) : PluginStorageSlot :=
  ⟨e.pluginID, e.key, e.entityType, e.entityID⟩

/-- Where the entity index has the entry. -/
def entityKey (e : PluginStorageEntry) : EntityKey := makeEntityKey e.entityType e.entityID

end PluginStorageEntry

/-- The entries, their counter and indexes. -/
structure PluginStorageRepository where
  entries : Table ℕ PluginStorageEntry := ∅
  nextID : ℕ := 0
  pluginIDIndex : Index ℕ := ∅
  keyIndex : Index String := ∅
  entityIndex : Index EntityKey := ∅

namespace PluginStorageRepository

variable (r : PluginStorageRepository)

/-- The row of an id. -/
def row (id : ℕ) : Option PluginStorageEntry := r.entries.get id

/-- The id under the fields of its entry. -/
def addToIndexes (e : PluginStorageEntry) : PluginStorageRepository :=
  { r with
    pluginIDIndex := r.pluginIDIndex.add e.pluginID e.id
    keyIndex := r.keyIndex.add e.key e.id
    entityIndex := r.entityIndex.add e.entityKey e.id }

/-- The id is in no index any more. -/
def removeFromIndexes (e : PluginStorageEntry) : PluginStorageRepository :=
  { r with
    pluginIDIndex := r.pluginIDIndex.remove e.pluginID e.id
    keyIndex := r.keyIndex.remove e.key e.id
    entityIndex := r.entityIndex.remove e.entityKey e.id }

/-- 0 when there is none. -/
def findExistingEntry (slot : PluginStorageSlot) : ℕ :=
  ((ascending (r.pluginIDIndex.ids slot.pluginID)).find? fun id =>
    (r.entries.get id).any fun e =>
      e.key = slot.key && e.entityType = slot.entityType && e.entityID = slot.entityID).getD 0

/-- The indexes without the entry that is replaced, and the entry with its id. -/
def resolveEntryID (now : Time) (e : PluginStorageEntry) :
    PluginStorageRepository × PluginStorageEntry :=
  if e.id ≠ 0 then
    match r.entries.get e.id with
    | some old => (r.removeFromIndexes old, e)
    | none => (r, e)
  else if r.findExistingEntry e.slot ≠ 0 then
    match r.entries.get (r.findExistingEntry e.slot) with
    | some old => (r.removeFromIndexes old,
        { e with id := r.findExistingEntry e.slot, createdAt := old.createdAt })
    | none => (r, { e with id := r.findExistingEntry e.slot })
  else ({ r with nextID := r.nextID + 1 }, { e with id := r.nextID + 1, createdAt := some now })

/-- The end of `Save`: the entry is stored under its id and indexed. -/
def store (e : PluginStorageEntry) : PluginStorageRepository :=
  ({ r with entries := r.entries.put e.id e } : PluginStorageRepository).addToIndexes e

/-- With the id that `resolveEntryID` gives. -/
def save (now : Time) (e : PluginStorageEntry) : PluginStorageRepository :=
  (r.resolveEntryID now e).1.store { (r.resolveEntryID now e).2 with updatedAt := some now }

/-- The row goes, and its id from the indexes. -/
def delete (id : ℕ) : PluginStorageRepository :=
  match r.entries.get id with
  | some e => { r.removeFromIndexes e with entries := r.entries.del id }
  | none => r

/-- The first filter that is set chooses the candidates. -/
def candidates (f : FindPluginStorage) : Finset ℕ :=
  if f.ids ≠ [] then f.ids.toFinset.filter fun id => r.entries.get id ≠ none
  else if f.pluginIDs ≠ [] then r.pluginIDIndex.idsOf f.pluginIDs
  else if f.keys ≠ [] then r.keyIndex.idsOf f.keys
  else if f.entityPairs ≠ [] then
    r.entityIndex.idsOf (f.entityPairs.map fun pair => makeEntityKey pair.entityType pair.entityID)
  else r.entries.keys.toFinset

/-- The candidates, intersected with every filter after the first. -/
def intersected (f : FindPluginStorage) : Finset ℕ :=
  let ids := r.candidates f
  let ids := if f.pluginIDs ≠ [] ∧ f.ids ≠ [] then ids ∩ r.pluginIDIndex.idsOf f.pluginIDs else ids
  let ids := if f.keys ≠ [] ∧ (f.ids ≠ [] ∨ f.pluginIDs ≠ []) then
    ids ∩ r.keyIndex.idsOf f.keys else ids
  if f.entityPairs ≠ [] ∧ (f.ids ≠ [] ∨ f.pluginIDs ≠ [] ∨ f.keys ≠ []) then
    ids ∩ r.entityIndex.idsOf
      (f.entityPairs.map fun pair => makeEntityKey pair.entityType pair.entityID) else ids

def hasPrefix (key start : String) : Bool := start.toList.isPrefixOf key.toList

/-- The ids that a filter finds. -/
def getFilteredEntryIDs (f : FindPluginStorage) : Finset ℕ :=
  match f.keyPrefix with
  | none | some "" => r.intersected f
  | some start => (r.intersected f).filter fun id =>
      (r.entries.get id).any fun e => hasPrefix e.key start

/-- The order by a field. -/
def compareEntries (field : String) (a b : PluginStorageEntry) : Ordering :=
  match field with
  | "id" => compare a.id b.id
  | "plugin_id" => compare a.pluginID b.pluginID
  | "key" => compare a.key b.key
  | _ => .eq

/-- `sortEntries`, of entries in the order of their ids. -/
def sortEntries (order : List Sorting) (rows : List PluginStorageEntry) : List PluginStorageEntry :=
  if order = [] then rows
  else rows.insertionSort fun a b => lessBy compareEntries order b a = false

/-- Sorted, and cut to the page. -/
def find (f : FindPluginStorage) (order : List Sorting) (page : Option Pagination) :
    List PluginStorageEntry :=
  applyPagination (sortEntries order
    ((ascending (r.getFilteredEntryIDs f)).filterMap r.entries.get)) page

/-- A filter without fields is refused. -/
def deleteByFilter (f : FindPluginStorage) : Except String PluginStorageRepository :=
  if f.ids = [] ∧ f.pluginIDs = [] ∧ f.keys = [] ∧ f.entityPairs = [] then
    .error "a non-empty filter is required for DeleteByFilter"
  else .ok ((ascending (r.getFilteredEntryIDs f)).foldl delete r)

/-- All entries of a plugin go. -/
def deleteByPlugin (pluginID : ℕ) : PluginStorageRepository :=
  (ascending (r.pluginIDIndex.ids pluginID)).foldl delete r

/-- The length of a payload. -/
def size (id : ℕ) : ℕ := (r.entries.get id).elim 0 fun e => e.payload.length

/-- The entries of a plugin and their bytes. -/
def usageByPlugin (pluginID : ℕ) : PluginStorageUsage where
  keys := ((r.pluginIDIndex.ids pluginID).filter fun id => r.entries.get id ≠ none).card
  bytes := ∑ id ∈ r.pluginIDIndex.ids pluginID, r.size id

/-! ### The representation invariant -/

theorem row_store (e : PluginStorageEntry) :
    (r.store e).row = update r.row e.id (some e) :=
  Table.update_get_put ..

/-- Entries are stored under their own id, which the counter has handed out, and the indexes are
exact. -/
structure Consistent : Prop where
  keyed : ∀ id e, r.row id = some e → e.id = id ∧ id ≠ 0 ∧ id ≤ r.nextID
  plugin : Tracks r.row (fun e => some e.pluginID) r.pluginIDIndex
  key : Tracks r.row (fun e => some e.key) r.keyIndex
  entity : Tracks r.row (fun e => some e.entityKey) r.entityIndex

theorem consistent_empty : ({} : PluginStorageRepository).Consistent where
  keyed _ _ h := by cases h
  plugin := tracks_empty
  key := tracks_empty
  entity := tracks_empty

/-- An entry is determined by its plugin, key and entity. -/
def Unique : Prop :=
  ∀ id id' e e', r.row id = some e → r.row id' = some e' → e.slot = e'.slot → id = id'

variable {r} {e old : PluginStorageEntry} {id : ℕ} {now : Time}

theorem Consistent.row_next (h : r.Consistent) : r.row (r.nextID + 1) = none := by
  refine Option.eq_none_iff_forall_ne_some.2 fun e hrow => ?_
  exact absurd (h.keyed _ _ hrow).2.2 (Nat.not_succ_le_self _)

theorem Consistent.store_new (h : r.Consistent) (hid : e.id = r.nextID + 1) :
    (({ r with nextID := r.nextID + 1 } : PluginStorageRepository).store e).Consistent := by
  have hfree : r.row e.id = none := hid ▸ h.row_next
  have hrow : (({ r with nextID := r.nextID + 1 } : PluginStorageRepository).store e).row =
      update r.row e.id (some e) := row_store _ e
  refine ⟨fun id' e' he' => ?_, hrow ▸ h.plugin.insert hfree e, hrow ▸ h.key.insert hfree e,
    hrow ▸ h.entity.insert hfree e⟩
  rw [hrow, update_apply] at he'
  split_ifs at he' with heq
  · cases he'
    exact ⟨heq.symm, by omega, heq.trans hid |>.le⟩
  · obtain ⟨h₁, h₂, h₃⟩ := h.keyed id' e' he'
    exact ⟨h₁, h₂, Nat.le_succ_of_le h₃⟩

theorem Consistent.store_replace (h : r.Consistent) (hold : r.row e.id = some old) :
    ((r.removeFromIndexes old).store e).Consistent := by
  obtain ⟨hid, hne, hle⟩ := h.keyed _ _ hold
  have hrow := (r.removeFromIndexes old).row_store e
  refine ⟨fun id' e' he' => ?_, hrow ▸ h.plugin.replace hold hid e, hrow ▸ h.key.replace hold hid e,
    hrow ▸ h.entity.replace hold hid e⟩
  rw [hrow, update_apply] at he'
  split_ifs at he' with heq
  · cases he'
    rw [heq]
    exact ⟨rfl, hne, hle⟩
  · exact h.keyed id' e' he'

theorem row_delete (r : PluginStorageRepository) (id : ℕ) :
    (r.delete id).row = update r.row id none := by
  unfold delete
  cases hget : r.entries.get id with
  | none => exact (update_eq_self_iff.2 hget.symm).symm
  | some e => exact Table.update_get_del ..

theorem Consistent.delete (h : r.Consistent) (id : ℕ) : (r.delete id).Consistent := by
  have hrow := r.row_delete id
  unfold PluginStorageRepository.delete at hrow ⊢
  cases hget : r.entries.get id with
  | none => exact h
  | some e =>
    simp only [hget] at hrow ⊢
    have hold : r.row id = some e := hget
    have hid := (h.keyed id e hold).1
    refine ⟨fun id' e' he' => ?_, hrow ▸ h.plugin.delete hold hid, hrow ▸ h.key.delete hold hid,
      hrow ▸ h.entity.delete hold hid⟩
    rw [hrow, update_apply] at he'
    split_ifs at he'
    exact h.keyed id' e' he'

theorem Consistent.foldl_delete (h : r.Consistent) (ids : List ℕ) :
    (ids.foldl PluginStorageRepository.delete r).Consistent := by
  induction ids generalizing r with
  | nil => exact h
  | cons id ids ih => exact ih (h.delete id)

theorem row_foldl_delete (r : PluginStorageRepository) (ids : List ℕ) (id : ℕ) :
    (ids.foldl PluginStorageRepository.delete r).row id = if id ∈ ids then none else r.row id := by
  induction ids generalizing r with
  | nil => simp
  | cons j ids ih =>
    rw [List.foldl_cons, ih, row_delete, update_apply]
    by_cases hj : id = j
    · simp [hj]
    · simp [hj]

/-! ### Saving -/

theorem findExistingEntry_cases (h : r.Consistent) (slot : PluginStorageSlot) :
    (r.findExistingEntry slot = 0 ∧ ∀ id e, r.row id = some e → e.slot ≠ slot) ∨
    (r.findExistingEntry slot ≠ 0 ∧
      ∃ e, r.row (r.findExistingEntry slot) = some e ∧ e.slot = slot) := by
  unfold findExistingEntry
  cases hfind : (ascending (r.pluginIDIndex.ids slot.pluginID)).find? fun id =>
      (r.entries.get id).any fun e =>
        e.key = slot.key && e.entityType = slot.entityType && e.entityID = slot.entityID with
  | none =>
    refine .inl ⟨rfl, fun id e hrow hslot => ?_⟩
    subst hslot
    have hmem : id ∈ ascending (r.pluginIDIndex.ids e.pluginID) :=
      mem_ascending.2 ((h.plugin e.pluginID id).2 ⟨e, hrow, rfl⟩)
    have hget : r.entries.get id = some e := hrow
    have hnone := List.find?_eq_none.1 hfind id hmem
    simp [hget, PluginStorageEntry.slot] at hnone
  | some id =>
    have hmem := mem_ascending.1 (List.mem_of_find?_eq_some hfind)
    have hany := List.find?_some hfind
    obtain ⟨e, hrow, hplug⟩ := (h.plugin _ _).1 hmem
    have hget : r.entries.get id = some e := hrow
    simp only [hget, Option.any_some, Bool.and_eq_true, decide_eq_true_eq] at hany
    refine .inr ⟨(h.keyed id e hrow).2.1, e, hrow, ?_⟩
    simp [PluginStorageEntry.slot, hany, Option.some.inj hplug]

/-- What a save without an id does: the entry is stored under the next id of the counter, or in the
place of the entry with the same plugin, key and entity. -/
structure Saved (r r' : PluginStorageRepository) (e e' : PluginStorageEntry) : Prop where
  consistent : r'.Consistent
  row : r'.row = update r.row e'.id (some e')
  slot : e'.slot = e.slot
  payload : e'.payload = e.payload
  place : (r.row e'.id = none ∧ ∀ id old, r.row id = some old → old.slot ≠ e.slot) ∨
    ∃ old, r.row e'.id = some old ∧ old.slot = e.slot

theorem Consistent.save (h : r.Consistent) (he : e.id = 0) (now : Time) :
    ∃ e', Saved r (r.save now e) e e' := by
  unfold PluginStorageRepository.save resolveEntryID
  rw [if_neg (not_not.2 he)]
  rcases findExistingEntry_cases h e.slot with ⟨hzero, hnone⟩ | ⟨hne, old, hold, hslot⟩
  · rw [if_neg (not_not.2 hzero)]
    exact ⟨_, h.store_new rfl, row_store _ _, rfl, rfl, .inl ⟨h.row_next, hnone⟩⟩
  · have hget : r.entries.get (r.findExistingEntry e.slot) = some old := hold
    rw [if_pos hne]
    simp only [hget]
    exact ⟨_, h.store_replace hold, row_store _ _, rfl, rfl, .inr ⟨old, hold, hslot⟩⟩

variable {r' : PluginStorageRepository} {e' : PluginStorageEntry} {pluginID : ℕ}

theorem Saved.slot_old (hs : Saved r r' e e') (hold : r.row e'.id = some old) :
    old.slot = e.slot := by
  rcases hs.place with ⟨hnone, -⟩ | ⟨old', hrow, hslot⟩
  · rw [hnone] at hold
    cases hold
  · rw [hrow] at hold
    cases hold
    exact hslot

theorem Saved.unique (hs : Saved r r' e e') (h : r.Unique) : r'.Unique := by
  -- the entry with the slot, if there was one, is the one that was replaced
  have hself : ∀ id old, r.row id = some old → old.slot = e.slot → id = e'.id := by
    intro id old hrow hslot
    rcases hs.place with ⟨-, hnone⟩ | ⟨old', hrow', hslot'⟩
    · exact absurd hslot (hnone id old hrow)
    · exact h _ _ _ _ hrow hrow' (hslot.trans hslot'.symm)
  intro id₁ id₂ e₁ e₂ h₁ h₂ hslot
  rw [hs.row, update_apply] at h₁ h₂
  split_ifs at h₁ h₂ with heq₁ heq₂ heq₂
  · rw [heq₁, heq₂]
  · cases h₁
    rw [heq₁, hself id₂ e₂ h₂ (hslot.symm.trans hs.slot)]
  · cases h₂
    rw [heq₂, hself id₁ e₁ h₁ (hslot.trans hs.slot)]
  · exact h _ _ _ _ h₁ h₂ hslot

theorem Unique.foldl_delete (h : r.Unique) (ids : List ℕ) :
    (ids.foldl PluginStorageRepository.delete r).Unique := by
  intro id₁ id₂ e₁ e₂ h₁ h₂ hslot
  rw [row_foldl_delete] at h₁ h₂
  split_ifs at h₁ h₂
  exact h _ _ _ _ h₁ h₂ hslot

/-! ### What `Find` returns -/

/-- The entry satisfies every filter that is set. -/
structure Matches (f : FindPluginStorage) (e : PluginStorageEntry) : Prop where
  id : f.ids ≠ [] → e.id ∈ f.ids
  plugin : f.pluginIDs ≠ [] → e.pluginID ∈ f.pluginIDs
  key : f.keys ≠ [] → e.key ∈ f.keys
  entity : f.entityPairs ≠ [] →
    ∃ pair ∈ f.entityPairs, e.entityKey = makeEntityKey pair.entityType pair.entityID
  start : ∀ start, f.keyPrefix = some start → start ≠ "" → hasPrefix e.key start = true

open Selection in
section

variable (r : PluginStorageRepository) (f : FindPluginStorage)

/-- The filters in the order of the search. -/
def criteria : List (Criterion ℕ) :=
  [⟨decide (f.ids ≠ []), f.ids.toFinset.filter fun id => r.entries.get id ≠ none⟩,
    ⟨decide (f.pluginIDs ≠ []), r.pluginIDIndex.idsOf f.pluginIDs⟩,
    ⟨decide (f.keys ≠ []), r.keyIndex.idsOf f.keys⟩,
    ⟨decide (f.entityPairs ≠ []), r.entityIndex.idsOf
      (f.entityPairs.map fun pair => makeEntityKey pair.entityType pair.entityID)⟩]

theorem intersected_eq : r.intersected f = Selection.narrow false
      (Selection.candidates r.entries.keys.toFinset (r.criteria f)) (r.criteria f) := by
  simp only [intersected, candidates, criteria, Selection.narrow, Selection.candidates,
    Bool.false_or, Bool.and_false, Bool.false_eq_true, if_false, Bool.and_eq_true, Bool.or_eq_true,
    decide_eq_true_eq, or_assoc]

end

theorem mem_keys_iff_row : id ∈ r.entries.keys.toFinset ↔ ∃ e, r.row id = some e :=
  List.mem_toFinset.trans Table.mem_keys_iff

theorem Consistent.mem_keys_of_mem_criteria (h : r.Consistent) {f : FindPluginStorage} :
    ∀ c ∈ r.criteria f, id ∈ c.ids → id ∈ r.entries.keys.toFinset := by
  simp only [criteria, List.forall_mem_cons, mem_keys_iff_row]
  exact ⟨fun hid => Option.ne_none_iff_exists'.1 (mem_filter.1 hid).2,
    h.plugin.row_of_mem_idsOf, h.key.row_of_mem_idsOf, h.entity.row_of_mem_idsOf, nofun⟩

theorem Consistent.mem_intersected (h : r.Consistent) (f : FindPluginStorage) (id : ℕ) :
    id ∈ r.intersected f ↔ ∃ e, r.row id = some e ∧ Matches { f with keyPrefix := none } e := by
  rw [intersected_eq, Selection.mem_narrow_candidates_all h.mem_keys_of_mem_criteria,
    mem_keys_iff_row]
  cases hrow : r.row id with
  | none => simp
  | some e =>
    obtain rfl : e.id = id := (h.keyed id e hrow).1
    have hget : r.entries.get e.id = some e := hrow
    simp only [criteria, List.forall_mem_cons, decide_eq_true_eq, h.plugin.mem_idsOf_row hrow,
      h.key.mem_idsOf_row hrow, h.entity.mem_idsOf_row hrow, mem_filter, List.mem_toFinset,
      hget]
    constructor
    · rintro ⟨-, h₁, h₂, h₃, h₄, -⟩
      exact ⟨e, rfl, fun hne => (h₁ hne).1, fun hne => by simpa using h₂ hne,
        fun hne => by simpa using h₃ hne, fun hne => by simpa [eq_comm] using h₄ hne, nofun⟩
    · rintro ⟨_, ⟨⟩, m⟩
      exact ⟨⟨e, rfl⟩, fun hne => ⟨m.id hne, nofun⟩, fun hne => by simpa using m.plugin hne,
        fun hne => by simpa using m.key hne, fun hne => by simpa [eq_comm] using m.entity hne, nofun⟩

theorem matches_iff {f : FindPluginStorage} :
    Matches f e ↔ Matches { f with keyPrefix := none } e ∧
      ∀ start, f.keyPrefix = some start → start ≠ "" → hasPrefix e.key start = true := by
  constructor
  · exact fun m => ⟨⟨m.id, m.plugin, m.key, m.entity, nofun⟩, m.start⟩
  · rintro ⟨m, hstart⟩
    exact ⟨m.id, m.plugin, m.key, m.entity, hstart⟩

/-- **The search through the indexes finds the entries that match.** -/
theorem Consistent.mem_getFilteredEntryIDs (h : r.Consistent) (f : FindPluginStorage) (id : ℕ) :
    id ∈ r.getFilteredEntryIDs f ↔ ∃ e, r.row id = some e ∧ Matches f e := by
  simp only [matches_iff (f := f)]
  unfold getFilteredEntryIDs
  split
  · rename_i hnone
    simp [h.mem_intersected, hnone]
  · rename_i hempty
    simp [h.mem_intersected, hempty]
  · rename_i start hne hstart
    have hne : start ≠ "" := fun heq => hne (heq ▸ rfl)
    rw [mem_filter, h.mem_intersected]
    cases hrow : r.row id with
    | none => simp
    | some e =>
      have hget : r.entries.get id = some e := hrow
      simp [hget, hstart, hne]

theorem mem_sortEntries {order : List Sorting} {rows : List PluginStorageEntry} :
    e ∈ sortEntries order rows ↔ e ∈ rows := by
  unfold sortEntries
  split_ifs
  · rfl
  · exact List.mem_insertionSort _

theorem Consistent.head?_find (h : r.Consistent) (f : FindPluginStorage) (order : List Sorting) :
    (∀ e, (r.find f order (some { limit := 1 })).head? = some e →
      r.row e.id = some e ∧ Matches f e) ∧
    ((r.find f order (some { limit := 1 })).head? = none →
      ∀ id e, r.row id = some e → ¬ Matches f e) := by
  have hmem : ∀ e, e ∈ sortEntries order
      ((ascending (r.getFilteredEntryIDs f)).filterMap r.entries.get) ↔
      r.row e.id = some e ∧ Matches f e := by
    intro e
    rw [mem_sortEntries, List.mem_filterMap]
    constructor
    · rintro ⟨id, hid, hget⟩
      obtain ⟨e', hrow, hm⟩ := (h.mem_getFilteredEntryIDs f id).1 (mem_ascending.1 hid)
      have hrow' : r.row id = some e := hget
      rw [hrow] at hrow'
      cases hrow'
      rw [(h.keyed id e hrow).1]
      exact ⟨hrow, hm⟩
    · rintro ⟨hrow, hm⟩
      exact ⟨e.id, mem_ascending.2 ((h.mem_getFilteredEntryIDs f e.id).2 ⟨e, hrow, hm⟩), hrow⟩
  have hhead : ∀ rows : List PluginStorageEntry,
      (applyPagination rows (some { limit := 1 })).head? = rows.head? := by
    intro rows
    cases rows <;> simp [applyPagination]
  unfold find
  rw [hhead]
  refine ⟨fun e he => (hmem e).1 (List.mem_of_mem_head? he), fun hnone id e hrow hm => ?_⟩
  have hnil := List.head?_eq_none_iff.1 hnone
  have hrow' : r.row e.id = some e := by rwa [(h.keyed id e hrow).1]
  have := (hmem e).2 ⟨hrow', hm⟩
  rw [hnil] at this
  cases this

/-! ### Usage -/

theorem Consistent.mem_ids (h : r.Consistent) :
    id ∈ r.pluginIDIndex.ids pluginID ↔ ∃ e, r.row id = some e ∧ e.pluginID = pluginID := by
  rw [h.plugin]
  simp

theorem Consistent.keys_usageByPlugin (h : r.Consistent) (pluginID : ℕ) :
    (r.usageByPlugin pluginID).keys = (r.pluginIDIndex.ids pluginID).card := by
  unfold usageByPlugin
  rw [filter_true_of_mem]
  intro id hid
  obtain ⟨e, hrow, -⟩ := h.mem_ids.1 hid
  have hget : r.entries.get id = some e := hrow
  simp [hget]

theorem size_of_row (hrow : r.row id = some e) : r.size id = e.payload.length := by
  have hget : r.entries.get id = some e := hrow
  simp [size, hget]

theorem size_congr (h : r'.row id = r.row id) : r'.size id = r.size id := by
  have hget : r'.entries.get id = r.entries.get id := h
  simp [size, hget]

section

variable (hs : Saved r r' e e')

include hs

theorem Saved.size_ne (hid : id ≠ e'.id) : r'.size id = r.size id :=
  size_congr (by rw [hs.row, update_of_ne hid])

theorem Saved.size_self : r'.size e'.id = e.payload.length := by
  rw [size_of_row (e := e') (by rw [hs.row, update_self]), hs.payload]

theorem Saved.ids (h : r.Consistent) (pluginID : ℕ) :
    r'.pluginIDIndex.ids pluginID = if pluginID = e.pluginID then
      insert e'.id (r.pluginIDIndex.ids pluginID) else r.pluginIDIndex.ids pluginID := by
  have hplug : e'.pluginID = e.pluginID := congrArg PluginStorageSlot.pluginID hs.slot
  ext id
  rw [hs.consistent.mem_ids, hs.row, update_apply]
  by_cases hid : id = e'.id
  · subst hid
    rw [if_pos rfl]
    by_cases hp : pluginID = e.pluginID
    · subst hp
      simp [hplug]
    · rw [if_neg hp, h.mem_ids]
      constructor
      · rintro ⟨x, hx, rfl⟩
        cases hx
        exact absurd hplug hp
      · rintro ⟨old, hrow, rfl⟩
        exact absurd (congrArg PluginStorageSlot.pluginID (hs.slot_old hrow)) hp
  · split_ifs
    · rw [mem_insert, h.mem_ids]
      simp [hid]
    · rw [h.mem_ids]

theorem Saved.usage_other (h : r.Consistent)
    (hp : pluginID ≠ e.pluginID) : r'.usageByPlugin pluginID = r.usageByPlugin pluginID := by
  have hids : r'.pluginIDIndex.ids pluginID = r.pluginIDIndex.ids pluginID := by
    rw [hs.ids h, if_neg hp]
  have hne : ∀ id ∈ r.pluginIDIndex.ids pluginID, id ≠ e'.id := by
    rintro id hid rfl
    obtain ⟨x, hrow, hx⟩ := hs.consistent.mem_ids.1 (hids ▸ hid)
    rw [hs.row, update_self] at hrow
    cases hrow
    exact hp (hx.symm.trans (congrArg PluginStorageSlot.pluginID hs.slot))
  have hkeys : (r'.usageByPlugin pluginID).keys = (r.usageByPlugin pluginID).keys := by
    rw [h.keys_usageByPlugin, hs.consistent.keys_usageByPlugin, hids]
  have hbytes : (r'.usageByPlugin pluginID).bytes = (r.usageByPlugin pluginID).bytes := by
    simp only [usageByPlugin, hids]
    exact sum_congr rfl fun id hid => hs.size_ne (hne id hid)
  exact congrArg₂ PluginStorageUsage.mk hkeys hbytes

theorem Saved.usage_new (h : r.Consistent) (hnew : r.row e'.id = none) :
    (r'.usageByPlugin e.pluginID).keys = (r.usageByPlugin e.pluginID).keys + 1 ∧
    (r'.usageByPlugin e.pluginID).bytes =
      (r.usageByPlugin e.pluginID).bytes + e.payload.length := by
  have hids := hs.ids h e.pluginID
  rw [if_pos rfl] at hids
  have hnot : e'.id ∉ r.pluginIDIndex.ids e.pluginID := by
    intro hmem
    obtain ⟨x, hrow, -⟩ := h.mem_ids.1 hmem
    rw [hnew] at hrow
    cases hrow
  constructor
  · rw [h.keys_usageByPlugin, hs.consistent.keys_usageByPlugin, hids,
      card_insert_of_notMem hnot]
  · simp only [usageByPlugin, hids]
    rw [sum_insert hnot, hs.size_self, Nat.add_comm]
    congr 1
    exact sum_congr rfl fun id hid => hs.size_ne fun heq => hnot (heq ▸ hid)

theorem Saved.usage_replace (h : r.Consistent)
    (hold : r.row e'.id = some old) (hslot : old.slot = e.slot) :
    (r'.usageByPlugin e.pluginID).keys = (r.usageByPlugin e.pluginID).keys ∧
    (r'.usageByPlugin e.pluginID).bytes + old.payload.length =
      (r.usageByPlugin e.pluginID).bytes + e.payload.length := by
  have hmem : e'.id ∈ r.pluginIDIndex.ids e.pluginID :=
    h.mem_ids.2 ⟨old, hold, congrArg PluginStorageSlot.pluginID hslot⟩
  have hids := hs.ids h e.pluginID
  rw [if_pos rfl, insert_eq_of_mem hmem] at hids
  constructor
  · rw [h.keys_usageByPlugin, hs.consistent.keys_usageByPlugin, hids]
  · simp only [usageByPlugin, hids]
    rw [← add_sum_erase _ _ hmem, ← add_sum_erase _ r.size hmem, hs.size_self,
      size_of_row hold]
    have hrest : ∑ id ∈ (r.pluginIDIndex.ids e.pluginID).erase e'.id, r'.size id =
        ∑ id ∈ (r.pluginIDIndex.ids e.pluginID).erase e'.id, r.size id :=
      sum_congr rfl fun id hid => hs.size_ne (ne_of_mem_erase hid)
    omega

end

theorem Consistent.usage_foldl_delete_le (h : r.Consistent) (ids : List ℕ) (pluginID : ℕ) :
    ((ids.foldl PluginStorageRepository.delete r).usageByPlugin pluginID).keys ≤
      (r.usageByPlugin pluginID).keys ∧
    ((ids.foldl PluginStorageRepository.delete r).usageByPlugin pluginID).bytes ≤
      (r.usageByPlugin pluginID).bytes := by
  have h' := h.foldl_delete ids
  have hrow := r.row_foldl_delete ids
  generalize ids.foldl PluginStorageRepository.delete r = r' at h' hrow ⊢
  have hkept : ∀ id ∈ r'.pluginIDIndex.ids pluginID,
      id ∈ r.pluginIDIndex.ids pluginID ∧ r'.row id = r.row id := by
    intro id hid
    obtain ⟨e, he, hp⟩ := h'.mem_ids.1 hid
    rw [hrow] at he ⊢
    split_ifs at he ⊢
    exact ⟨h.mem_ids.2 ⟨e, he, hp⟩, rfl⟩
  have hsub : r'.pluginIDIndex.ids pluginID ⊆ r.pluginIDIndex.ids pluginID :=
    fun id hid => (hkept id hid).1
  constructor
  · rw [h.keys_usageByPlugin, h'.keys_usageByPlugin]
    exact card_le_card hsub
  · calc ∑ id ∈ r'.pluginIDIndex.ids pluginID, r'.size id
        = ∑ id ∈ r'.pluginIDIndex.ids pluginID, r.size id :=
          sum_congr rfl fun id hid => size_congr (hkept id hid).2
      _ ≤ ∑ id ∈ r.pluginIDIndex.ids pluginID, r.size id := sum_le_sum_of_subset hsub

/-- `DeleteByPlugin` removes the entries of the plugin and no others, keeps the indexes exact, and
leaves the plugin without usage and the usage of the others as it is. -/
theorem plugin_removed (h : r.Consistent) (pluginID : ℕ) :
    (r.deleteByPlugin pluginID).Consistent ∧
    (∀ id, (r.deleteByPlugin pluginID).row id = (r.row id).filter (·.pluginID ≠ pluginID)) ∧
    ∀ other, (r.deleteByPlugin pluginID).usageByPlugin other =
      if other = pluginID then ⟨0, 0⟩ else r.usageByPlugin other := by
  have h' : (r.deleteByPlugin pluginID).Consistent := h.foldl_delete _
  have hrow (id) : (r.deleteByPlugin pluginID).row id =
      (r.row id).filter (·.pluginID ≠ pluginID) := by
    simp only [deleteByPlugin, row_foldl_delete, mem_ascending, h.mem_ids]
    cases r.row id with
    | none => simp
    | some e => by_cases hp : e.pluginID = pluginID <;> simp [hp, Option.filter_some]
  refine ⟨h', hrow, fun other => ?_⟩
  have hids : (r.deleteByPlugin pluginID).pluginIDIndex.ids other =
      if other = pluginID then ∅ else r.pluginIDIndex.ids other := by
    ext id
    rw [h'.mem_ids, hrow]
    split_ifs with hp
    · simp [hp, Option.filter_eq_some_iff]
    · rw [h.mem_ids]
      refine exists_congr fun e => ?_
      simp only [Option.filter_eq_some_iff, decide_eq_true_eq]
      grind
  have hkeys := h'.keys_usageByPlugin other
  rw [hids] at hkeys
  split_ifs at hids hkeys ⊢ with hp
  · simp [usageByPlugin, hids]
  · rw [← h.keys_usageByPlugin] at hkeys
    refine congrArg₂ PluginStorageUsage.mk hkeys ?_
    rw [hids]
    refine sum_congr rfl fun id hid => size_congr ?_
    obtain ⟨e, he, rfl⟩ := h.mem_ids.1 hid
    simp [hrow, he, hp]

/-- Two plugins have stored something under the same key. -/
theorem plugin_removed_saved :
    let r := (({} : PluginStorageRepository).save 1 ⟨0, 7, "k", none, none, [1], none, none⟩).save 2
      ⟨0, 8, "k", none, none, [2, 3], none, none⟩
    (r.deleteByPlugin 7).usageByPlugin 7 = ⟨0, 0⟩ ∧ (r.deleteByPlugin 7).usageByPlugin 8 = ⟨1, 2⟩ := by
  obtain ⟨e, hs⟩ := consistent_empty.save (e := ⟨0, 7, "k", none, none, [1], none, none⟩) rfl 1
  obtain ⟨e', hs'⟩ := hs.consistent.save (e := ⟨0, 8, "k", none, none, [2, 3], none, none⟩) rfl 2
  have husage := (plugin_removed hs'.consistent 7).2.2
  exact ⟨husage 7, (husage 8).trans (by decide)⟩

end PluginStorageRepository

end GameAP
