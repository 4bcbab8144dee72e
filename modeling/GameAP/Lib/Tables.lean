import Mathlib.Data.List.AList
import Mathlib.Data.Finset.Fold

/-!
# Tables and secondary indexes

A `Table κ ν` is a finite map, an association list with distinct keys.  `get`, `put`, `del`,
`delWhere` and `mapValues` are its operations, each with one lookup lemma, so that no proof looks at
the order of the entries.

A row store that keeps, for some key of its rows, the set of row ids with that key has a
*secondary index*.  `Index.add` and `Index.remove` are the incremental updates, and
`Tracks rows key x` says that the index `x` is exact: it lists an id under a key precisely when the
row stored under that id has the key.  The three `Tracks` rules say how exactness survives a new
row, a replaced row and a deleted one.
-/

namespace Tables

/-- A finite map from `κ` to `ν`. -/
abbrev Table (κ ν : Type*) := AList (fun _ : κ => ν)

open Function List

namespace Table

variable {κ ν : Type*} [DecidableEq κ] {v w : ν}

section

variable (m : Table κ ν) (k : κ)

/-- The value of a key. -/
def get : Option ν := m.lookup k

/-- A new value for a key. -/
def put (v : ν) : Table κ ν := m.insert k v

/-- The table without a key. -/
def del : Table κ ν := m.erase k

end

omit [DecidableEq κ] in
/-- Delete every key that satisfies `f`. -/
def delWhere (m : Table κ ν) (f : κ → Bool) : Table κ ν :=
  ⟨m.entries.filter fun e => !f e.1, m.nodupKeys.sublist List.filter_sublist⟩

omit [DecidableEq κ] in
/-- Change the value of every key. -/
def mapValues (m : Table κ ν) (f : κ → ν → ν) : Table κ ν :=
  ⟨m.entries.map fun e => ⟨e.1, f e.1 e.2⟩, by
    have hkeys : (m.entries.map fun e => (⟨e.1, f e.1 e.2⟩ : Sigma fun _ : κ => ν)).keys =
        m.entries.keys := by
      simp [List.keys]
    rw [List.NodupKeys, hkeys]
    exact m.nodupKeys⟩

@[simp] theorem get_empty (k : κ) : (∅ : Table κ ν).get k = none := rfl

section

variable (m : Table κ ν) {k k' : κ}

theorem get_put (k k' : κ) (v : ν) : (m.put k v).get k' = if k' = k then some v else m.get k' := by
  split_ifs with h
  · subst h; exact AList.lookup_insert m
  · exact AList.lookup_insert_ne h

@[simp] theorem get_put_self (k : κ) (v : ν) : (m.put k v).get k = some v := by
  rw [get_put, if_pos rfl]

theorem get_put_ne (h : k' ≠ k) (v : ν) : (m.put k v).get k' = m.get k' := by
  rw [get_put, if_neg h]

theorem get_del (k k' : κ) : (m.del k).get k' = if k' = k then none else m.get k' := by
  split_ifs with h
  · subst h; exact AList.lookup_erase k' m
  · exact AList.lookup_erase_ne h

@[simp] theorem get_del_self (k : κ) : (m.del k).get k = none := by
  rw [get_del, if_pos rfl]

theorem get_del_ne (h : k' ≠ k) : (m.del k).get k' = m.get k' := by
  rw [get_del, if_neg h]

theorem update_get_put (k : κ) (v : ν) : (m.put k v).get = update m.get k (some v) := by
  funext k'
  rw [get_put, update_apply]

theorem update_get_del (k : κ) : (m.del k).get = update m.get k none := by
  funext k'
  rw [get_del, update_apply]

end

theorem get_of_put {m : Table κ ν} {k k' : κ} (h : (m.put k v).get k' = some w) :
    (k' = k ∧ v = w) ∨ m.get k' = some w := by
  rw [get_put] at h
  split_ifs at h with hk
  · exact .inl ⟨hk, Option.some.inj h⟩
  · exact .inr h

theorem get_of_del {m : Table κ ν} {k k' : κ} (h : (m.del k).get k' = some w) :
    m.get k' = some w := by
  rw [get_del] at h
  split_ifs at h
  exact h

theorem get_eq_some_iff {m : Table κ ν} {k : κ} :
    m.get k = some v ↔ (⟨k, v⟩ : Sigma fun _ : κ => ν) ∈ m.entries := by
  exact AList.mem_lookup_iff

theorem entries_put (m : Table κ ν) (k : κ) (v : ν) :
    (m.put k v).entries = ⟨k, v⟩ :: m.entries.kerase k := rfl

theorem entries_del (m : Table κ ν) (k : κ) : (m.del k).entries = m.entries.kerase k := rfl

theorem mem_keys_iff {m : Table κ ν} {k : κ} : k ∈ m.keys ↔ ∃ v, m.get k = some v := by
  rw [← AList.mem_keys, ← AList.lookup_isSome, Option.isSome_iff_exists]
  rfl

theorem keys_put (m : Table κ ν) (k : κ) (v : ν) :
    (m.put k v).keys ~ if m.get k = none then k :: m.keys else m.keys := by
  rw [put, AList.keys_insert]
  split_ifs with h
  · rw [erase_of_not_mem]
    intro hmem
    obtain ⟨w, hw⟩ := mem_keys_iff.1 hmem
    rw [h] at hw
    cases hw
  · exact (perm_cons_erase (mem_keys_iff.2 (Option.ne_none_iff_exists'.1 h))).symm

theorem keys_del_sublist (m : Table κ ν) (k : κ) : (m.del k).keys <+ m.keys := by
  rw [del, AList.keys_erase]
  exact erase_sublist

theorem get_delWhere (m : Table κ ν) (f : κ → Bool) (k : κ) :
    (m.delWhere f).get k = if f k then none else m.get k := by
  refine Option.ext fun v => ?_
  rw [get_eq_some_iff]
  have hmem : (⟨k, v⟩ : Sigma fun _ : κ => ν) ∈ (m.delWhere f).entries ↔
      (⟨k, v⟩ : Sigma fun _ : κ => ν) ∈ m.entries ∧ f k = false := by
    simp [delWhere]
  rw [hmem, ← get_eq_some_iff]
  cases hf : f k with
  | false | true => simp

theorem get_mapValues (m : Table κ ν) (f : κ → ν → ν) (k : κ) :
    (m.mapValues f).get k = (m.get k).map (f k) := by
  refine Option.ext fun v => ?_
  rw [get_eq_some_iff, Option.map_eq_some_iff]
  simp only [mapValues, mem_map, get_eq_some_iff]
  constructor
  · rintro ⟨⟨k', v'⟩, hmem, heq⟩
    cases heq
    exact ⟨v', hmem, rfl⟩
  · rintro ⟨v', hmem, rfl⟩
    exact ⟨⟨k, v'⟩, hmem, rfl⟩

end Table

/-! ### Secondary indexes -/

/-- For each key the set of ids of the rows that have it; a key without rows has no entry. -/
abbrev Index (κ : Type*) := Table κ (Finset ℕ)

namespace Index

variable {κ : Type*} [DecidableEq κ]

section

variable (x : Index κ) (k k' : κ) (id j : ℕ)

/-- The ids listed under a key. -/
def ids (k : κ) : Finset ℕ := (x.get k).getD ∅

/-- One id more under a key. -/
def add (k : κ) (id : ℕ) : Index κ := x.put k (insert id (x.ids k))

/-- Remove an id, and the entry of the key with it when it was the last one. -/
def remove (k : κ) (id : ℕ) : Index κ :=
  match x.get k with
  | none => x
  | some s => if s.erase id = ∅ then x.del k else x.put k (s.erase id)

/-- A row without the key is not indexed. -/
def addOpt (k : Option κ) (id : ℕ) : Index κ := k.elim x fun k => x.add k id

def removeOpt (k : Option κ) (id : ℕ) : Index κ := k.elim x fun k => x.remove k id

theorem mem_ids_add : j ∈ (x.add k id).ids k' ↔ k' = k ∧ j = id ∨ j ∈ x.ids k' := by
  unfold add ids
  rw [Table.get_put]
  split_ifs with h
  · subst h; simp
  · simp [h]

theorem mem_ids_remove : j ∈ (x.remove k id).ids k' ↔ j ∈ x.ids k' ∧ ¬ (k' = k ∧ j = id) := by
  unfold remove ids
  cases hk : x.get k with
  | none =>
    by_cases h : k' = k
    · subst h; simp [hk]
    · simp [h]
  | some s =>
    by_cases h : k' = k
    · subst h
      by_cases he : s.erase id = ∅
      · have hs : ∀ j ∈ s, j = id := fun j hj => by
          by_contra hne
          have : j ∈ s.erase id := Finset.mem_erase.2 ⟨hne, hj⟩
          simp [he] at this
        simpa [he, hk] using hs j
      · simp [he, hk, and_comm]
    · by_cases he : s.erase id = ∅
      · simp [he, h, Table.get_del_ne x h]
      · simp [he, h, Table.get_put_ne x h]

/-- The ids listed under any of the keys. -/
def idsOf (ks : List κ) : Finset ℕ := ks.foldr (fun k s => x.ids k ∪ s) ∅

end

variable {ks : List κ} {i : ℕ}

theorem mem_idsOf {x : Index κ} {id : ℕ} : id ∈ x.idsOf ks ↔ ∃ k ∈ ks, id ∈ x.ids k := by
  unfold idsOf
  induction ks with
  | nil => simp
  | cons k ks ih => simp [ih]

section

variable (x : Index κ) (k : Option κ) (k' : κ) (id j : ℕ)

theorem mem_ids_addOpt : j ∈ (x.addOpt k id).ids k' ↔ k = some k' ∧ j = id ∨ j ∈ x.ids k' := by
  cases k with
  | none => simp [addOpt]
  | some k => simp [addOpt, mem_ids_add, eq_comm]

theorem mem_ids_removeOpt :
    j ∈ (x.removeOpt k id).ids k' ↔ j ∈ x.ids k' ∧ ¬ (k = some k' ∧ j = id) := by
  cases k with
  | none => simp [removeOpt]
  | some k => simp [removeOpt, mem_ids_remove, eq_comm]

end

end Index

section Tracks

variable {κ ρ : Type*} [DecidableEq κ] {rows : ℕ → Option ρ} {key : ρ → Option κ} {x : Index κ}

/-- The index lists an id under a key exactly when the row of that id has the key. -/
def Tracks (rows : ℕ → Option ρ) (key : ρ → Option κ) (x : Index κ) : Prop :=
  ∀ k id, id ∈ x.ids k ↔ ∃ r, rows id = some r ∧ key r = some k

theorem tracks_empty : Tracks (fun _ => none) key (∅ : Index κ) := by
  intro k id
  simp [Index.ids]

variable {id : ℕ} {old r : ρ}

section

variable (h : Tracks rows key x)

include h

theorem Tracks.insert (hid : rows id = none) (r : ρ) :
    Tracks (update rows id (some r)) key (x.addOpt (key r) id) := by
  intro k j
  rw [Index.mem_ids_addOpt, h k j]
  by_cases hj : j = id
  · subst hj; simp [hid]
  · simp [hj]

theorem Tracks.replace (hid : rows id = some old) (hi : i = id) (r : ρ) :
    Tracks (update rows id (some r)) key ((x.removeOpt (key old) i).addOpt (key r) id) := by
  subst hi
  intro k j
  rw [Index.mem_ids_addOpt, Index.mem_ids_removeOpt, h k j]
  by_cases hj : j = i
  · subst hj; simp [hid]
  · simp [hj]

theorem Tracks.delete (hid : rows id = some old)
    (hi : i = id) : Tracks (update rows id none) key (x.removeOpt (key old) i) := by
  subst hi
  intro k j
  rw [Index.mem_ids_removeOpt, h k j]
  by_cases hj : j = i
  · subst hj; simp [hid]
  · simp [hj]

theorem Tracks.mem_idsOf : id ∈ x.idsOf ks ↔ ∃ r, rows id = some r ∧ ∃ k ∈ ks, key r = some k := by
  rw [Index.mem_idsOf]
  constructor
  · rintro ⟨k, hk, hid⟩
    obtain ⟨r, hr, hkey⟩ := (h k id).1 hid
    exact ⟨r, hr, k, hk, hkey⟩
  · rintro ⟨r, hr, k, hk, hkey⟩
    exact ⟨k, hk, (h k id).2 ⟨r, hr, hkey⟩⟩

theorem Tracks.row_of_mem_idsOf (hid : id ∈ x.idsOf ks) : ∃ r, rows id = some r :=
  (h.mem_idsOf.1 hid).imp fun _ hr => hr.1

theorem Tracks.mem_idsOf_row (hr : rows id = some r) :
    id ∈ x.idsOf ks ↔ ∃ k ∈ ks, key r = some k := by
  rw [h.mem_idsOf, hr]
  simp

theorem Tracks.modify (hid : rows id = some old)
    (hr : key r = key old) : Tracks (update rows id (some r)) key x := by
  intro k j
  rw [h k j]
  by_cases hj : j = id
  · subst hj; simp [hid, hr]
  · simp [hj]

end

end Tracks

/-- The elements of a finite set of ids in increasing order. -/
def ascending (s : Finset ℕ) : List ℕ := (List.range (s.fold max 0 id + 1)).filter (· ∈ s)

@[simp] theorem mem_ascending {s : Finset ℕ} : i ∈ ascending s ↔ i ∈ s := by
  simp only [ascending, mem_filter, mem_range, decide_eq_true_eq, and_iff_right_iff_imp]
  intro hi
  have hle : i ≤ s.fold max 0 id := Finset.le_fold_max i |>.2 (.inr ⟨i, hi, le_refl i⟩)
  omega

theorem nodup_ascending (s : Finset ℕ) : (ascending s).Nodup := nodup_range.filter _

@[simp] theorem ascending_singleton (i : ℕ) : ascending {i} = [i] := by
  simp only [ascending, Finset.fold_singleton, id_eq, Nat.max_zero, range_succ,
    filter_append]
  have hlt : (range i).filter (· ∈ ({i} : Finset ℕ)) = [] := by
    simp only [filter_eq_nil_iff, mem_range, Finset.mem_singleton, decide_eq_true_eq]
    omega
  rw [hlt]
  simp

end Tables
