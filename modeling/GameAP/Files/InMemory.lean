import GameAP.Lib.Tables

/-!
# The in-memory file manager

`files.InMemoryFileManager`: a map from paths to contents, with prefix matching on the path as a
string.  It is the storage over which the transfer and upload protocols are modelled, and the
reference that the local file manager is compared with.

The type of contents is a parameter: most of the modelled code stores either raw bytes or a record
that it has marshalled, and a typed content keeps the two apart the way parsing does.
-/

namespace GameAP

open Tables

def hasPrefix (s pre : String) : Bool := pre.toList.isPrefixOf s.toList

theorem hasPrefix_iff {s pre : String} : hasPrefix s pre = true ↔ pre.toList <+: s.toList :=
  List.isPrefixOf_iff_prefix

theorem hasPrefix_append (pre s : String) : hasPrefix (pre ++ s) pre = true := by
  rw [hasPrefix_iff, String.toList_append]
  exact List.prefix_append _ _

theorem hasPrefix_append_append (pre s t : String) :
    hasPrefix (pre ++ s) (pre ++ t) = hasPrefix s t := by
  rw [Bool.eq_iff_iff, hasPrefix_iff, hasPrefix_iff, String.toList_append, String.toList_append,
    List.prefix_append_right_inj]

structure InMemoryFileManager (α : Type) where
  files : Table String α

namespace InMemoryFileManager

variable {α : Type} (fm : InMemoryFileManager α)

def new : InMemoryFileManager α := ⟨∅⟩

/-- `Read` and `ReadStream`; `none` is the error that the file was not found. -/
def read (path : String) : Option α := fm.files.get path

/-- `Write`, and `WriteStream` once the reader was drained. -/
def write (path : String) (data : α) : InMemoryFileManager α := ⟨fm.files.put path data⟩

def delete (path : String) : InMemoryFileManager α := ⟨fm.files.del path⟩

/-- `Exists`. -/
def fileExists (path : String) : Bool := (fm.files.get path).isSome

/-- The full paths that start with the given one. -/
def list (dir : String) : List String := fm.files.keys.filter fun path => hasPrefix path dir

def deleteByPrefix (pre : String) : InMemoryFileManager α :=
  ⟨fm.files.delWhere fun path => hasPrefix path pre⟩

theorem read_write (path p : String) (data : α) :
    (fm.write path data).read p = if p = path then some data else fm.read p :=
  Table.get_put fm.files path p data

@[simp] theorem read_write_self (path : String) (data : α) :
    (fm.write path data).read path = some data := by
  rw [read_write, if_pos rfl]

variable {path p : String}

theorem read_write_ne (h : p ≠ path) (data : α) : (fm.write path data).read p = fm.read p := by
  rw [read_write, if_neg h]

theorem read_delete (path p : String) :
    (fm.delete path).read p = if p = path then none else fm.read p :=
  Table.get_del fm.files path p

theorem read_delete_ne (h : p ≠ path) : (fm.delete path).read p = fm.read p := by
  rw [read_delete, if_neg h]

theorem read_deleteByPrefix (pre p : String) :
    (fm.deleteByPrefix pre).read p = if hasPrefix p pre then none else fm.read p :=
  Table.get_delWhere fm.files _ p

theorem fileExists_iff : fm.fileExists path = true ↔ ∃ data, fm.read path = some data :=
  Option.isSome_iff_exists

theorem mem_list {dir : String} :
    p ∈ fm.list dir ↔ hasPrefix p dir = true ∧ ∃ data, fm.read p = some data := by
  rw [list, List.mem_filter, Table.mem_keys_iff, and_comm]
  rfl

/-- Every file of `fm'` is a file of `fm`. -/
def Sub (fm' fm : InMemoryFileManager α) : Prop :=
  ∀ p data, fm'.read p = some data → fm.read p = some data

theorem Sub.refl : Sub fm fm := fun _ _ h => h

variable {fm}

theorem Sub.trans {fm' fm'' : InMemoryFileManager α} (h' : Sub fm'' fm') (h : Sub fm' fm) :
    Sub fm'' fm :=
  fun p data hp => h p data (h' p data hp)

theorem Sub.delete (path : String) : Sub (fm.delete path) fm := by
  intro p data hp
  rw [read_delete] at hp
  split_ifs at hp
  exact hp

theorem Sub.deleteByPrefix (pre : String) : Sub (fm.deleteByPrefix pre) fm := by
  intro p data hp
  rw [read_deleteByPrefix] at hp
  split_ifs at hp
  exact hp

theorem Sub.delete_write (path : String) (data : α) : Sub ((fm.write path data).delete path) fm := by
  intro p data' hp
  rw [read_delete, read_write] at hp
  split_ifs at hp with hpath
  exact hp

end InMemoryFileManager

end GameAP
