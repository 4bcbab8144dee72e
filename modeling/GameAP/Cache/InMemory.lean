import GameAP.Domain
import GameAP.Lib.Tables

/-!
# The in-memory cache

`cache.InMemory`: values under string keys, each with a time after which it is not found any more.
An operation is atomic, and an expired item stays in the map until `cleanup` takes it away.
-/

namespace GameAP

open Tables

/-- `item`; the expiration 0 is the zero time, which never comes. -/
structure CacheItem (α : Type) where
  value : α
  expiration : Time := 0
  deriving DecidableEq

def CacheItem.isExpired {α : Type} (item : CacheItem α) (now : Time) : Bool :=
  item.expiration ≠ 0 && item.expiration < now

/-- `cache.InMemory`. -/
structure InMemoryCache (α : Type) where
  items : Table String (CacheItem α) := ∅

namespace InMemoryCache

variable {α : Type} (c : InMemoryCache α)

/-- `none` is `ErrNotFound`. -/
def get (now : Time) (key : String) : Option α :=
  match c.items.get key with
  | none => none
  | some item => if item.isExpired now then none else some item.value

/-- `Set`, with the duration 0 for a value that does not expire. -/
def set (now : Time) (key : String) (value : α) (expiration : Time) : InMemoryCache α :=
  ⟨c.items.put key ⟨value, if 0 < expiration then now + expiration else 0⟩⟩

def delete (key : String) : InMemoryCache α := ⟨c.items.del key⟩

def cleanup (now : Time) : InMemoryCache α :=
  ⟨c.items.delWhere fun key => (c.items.get key).any fun item => item.isExpired now⟩

variable {c}
variable {now : Time} {key : String} {value : α}

theorem exists_item_of_get (h : c.get now key = some value) :
    ∃ item, c.items.get key = some item ∧ item.value = value := by
  unfold get at h
  cases hitem : c.items.get key with
  | none => simp [hitem] at h
  | some item =>
    simp only [hitem] at h
    split_ifs at h
    exact ⟨item, rfl, Option.some.inj h⟩

theorem items_delete_self (key : String) : (c.delete key).items.get key = none :=
  Table.get_del_self _ _

variable {k : String}

theorem items_delete_ne (hk : k ≠ key) :
    (c.delete key).items.get k = c.items.get k := Table.get_del_ne _ hk

theorem items_set_self (now : Time) (key : String) (value : α) (expiration : Time) :
    ∃ item, (c.set now key value expiration).items.get key = some item ∧ item.value = value :=
  ⟨_, Table.get_put_self _ _ _, rfl⟩

theorem items_set_ne {expiration : Time} (hk : k ≠ key) :
    (c.set now key value expiration).items.get k = c.items.get k := Table.get_put_ne _ hk _

theorem items_delete_none (h : c.items.get k = none) : (c.delete key).items.get k = none := by
  by_cases hk : k = key
  · rw [hk, items_delete_self]
  · rw [items_delete_ne hk, h]

theorem items_cleanup {item : CacheItem α}
    (h : (c.cleanup now).items.get key = some item) : c.items.get key = some item := by
  unfold cleanup at h
  rw [Table.get_delWhere] at h
  split_ifs at h
  exact h

end InMemoryCache

end GameAP
