import GameAP.Domain
import GameAP.Files.InMemory
import GameAP.Lib.DirTree

/-!
# The local file manager

`files.LocalFileManager`: files in a directory tree below a root that `os.Root` does not let a path
leave.  Paths are those of a Unix system, the tree has no links and no operation fails for a reason
outside the tree.

`DeleteByPrefix` rebuilds the prefix matching of `InMemoryFileManager` from `filepath.Dir`,
`filepath.Base` and one directory listing: it deletes the files whose path starts with `Dir/Base`
(`stored_afterDelete`).  **`deleteByPrefix_agrees_iff`**: the two agree on every tree exactly when
the prefix is one that `Dir` and `Base` put together again (`Plain`) or its directory leaves the
root.
-/

namespace GameAP

open Filepath List Forest

structure LocalFileManager where
  root : Forest Bytes
  wf : root.WF

/-- A path in normal form, as all that the panel writes to; `os.Root` takes another path to one of
these or refuses it. -/
structure NormalPath where
  dir : List Name
  name : Name
  valid : ∀ c ∈ dir ++ [name], Valid c

/-- The path as a text. -/
def NormalPath.toString (p : NormalPath) : String := String.ofList (join (p.dir ++ [p.name]))

namespace LocalFileManager

/-- The path is given from its last component up. -/
def mkdirAll (t : Forest Bytes) : List Name → Except FileError (Forest Bytes)
  | [] => .ok t
  | n :: up =>
    if t.stat up.reverse n then .ok t
    else
      match mkdirAll t up with
      | .ok t => t.mkdir up.reverse n
      | .error e => .error e

/-- `Write` and `WriteStream` of the entry `n` of the directory `ds`. -/
def writeAt (t : Forest Bytes) (ds : List Name) (n : Name) (data : Bytes) :
    Except FileError (Forest Bytes) :=
  if t.stat ds n then t.writeFile ds n data
  else
    match mkdirAll t ds.reverse with
    | .ok t => t.writeFile ds n data
    | .error e => .error e

/-- The loop of `removeDirRecursive` over the entries of a directory: what is left of them.
`Root.Remove` does not remove a directory that has entries. -/
def removeEntries : Forest Bytes → Forest Bytes
  | .nil => .nil
  | .file _ _ rest => removeEntries rest
  | .dir n children rest =>
    match removeEntries children with
    | .nil => removeEntries rest
    | left => .dir n left rest

/-- The loop of `DeleteByPrefix` over the entries of the prefix directory. -/
def deleteMatching (base : Name) : Forest Bytes → Forest Bytes
  | .nil => .nil
  | .file n data rest =>
    if base.isPrefixOf n ∨ n = base then deleteMatching base rest
    else .file n data (deleteMatching base rest)
  | .dir n children rest =>
    if base.isPrefixOf n ∨ n = base then
      match removeEntries children with
      | .nil => deleteMatching base rest
      | left => .dir n left rest
    else .dir n children (deleteMatching base rest)

/-! ### Writing -/

variable {t t' : Forest Bytes}

theorem mkdirAll_cases {up : List Name} (h : mkdirAll t up = .ok t') :
    (∀ cs, t'.lookup cs = t.lookup cs) ∧ (t.WF → (∀ n ∈ up, Valid n) → t'.WF) := by
  induction up generalizing t' with
  | nil => cases h; exact ⟨fun _ => rfl, fun hwf _ => hwf⟩
  | cons n up ih =>
    rw [mkdirAll] at h
    split_ifs at h with hstat
    · cases h; exact ⟨fun _ => rfl, fun hwf _ => hwf⟩
    · cases hup : mkdirAll t up with
      | error err => rw [hup] at h; cases h
      | ok t₁ =>
        simp only [hup] at h
        obtain ⟨hlook₁, hwf₁⟩ := ih hup
        obtain ⟨hlook, hwf'⟩ := mkdir_cases h
        refine ⟨fun cs => (hlook cs).trans (hlook₁ cs), fun hwf hv => hwf' (hwf₁ hwf ?_) ?_⟩
        · exact fun m hm => hv m (mem_cons_of_mem n hm)
        · exact hv n (mem_cons_self ..)

variable {ds : List Name} {n : Name} {data : Bytes}

/-- What a successful `Write` does: the file has the new content, no other file changes. -/
theorem writeAt_cases (h : writeAt t ds n data = .ok t') :
    (∀ cs, t'.lookup cs = if cs = ds ++ [n] then some data else t.lookup cs) ∧
      (t.WF → (∀ c ∈ ds ++ [n], Valid c) → t'.WF) := by
  unfold writeAt at h
  split_ifs at h with hstat
  · obtain ⟨hlook, hwf'⟩ := writeFile_cases h
    exact ⟨hlook, fun hwf hv => hwf' hwf (hv n (by simp))⟩
  · cases hmk : mkdirAll t ds.reverse with
    | error err => rw [hmk] at h; cases h
    | ok t₁ =>
      simp only [hmk] at h
      obtain ⟨hlook₁, hwf₁⟩ := mkdirAll_cases hmk
      obtain ⟨hlook, hwf'⟩ := writeFile_cases h
      refine ⟨fun cs => ?_, fun hwf hv => hwf' (hwf₁ hwf ?_) (hv n (by simp))⟩
      · rw [hlook, hlook₁]
      · exact fun c hc => hv c (mem_append_left _ (mem_reverse.1 hc))

theorem mkdirAll_empty (up : List Name) :
    ∃ t, mkdirAll .nil up = .ok t ∧ t.openDir up.reverse = .ok .nil := by
  induction up with
  | nil => exact ⟨.nil, rfl, rfl⟩
  | cons n up ih =>
    obtain ⟨t, hmk, hopen⟩ := ih
    have hstat : (Forest.nil : Forest Bytes).stat up.reverse n = false := by
      cases hup : up.reverse <;> simp [Forest.stat, Forest.openDir, Forest.names]
    refine ⟨t.modify (.dir n .nil) up.reverse, ?_, ?_⟩
    · simp [mkdirAll, hstat, hmk, Forest.mkdir, hopen, Forest.names]
    · rw [reverse_cons, Forest.openDir_append (Forest.openDir_modify hopen), Forest.openDir,
        if_pos rfl, Forest.openDir_nil]

theorem writeAt_empty (ds : List Name) (n : Name) (data : Bytes) :
    ∃ t, writeAt .nil ds n data = .ok t := by
  obtain ⟨t, hmk, hopen⟩ := mkdirAll_empty ds.reverse
  rw [reverse_reverse] at hopen
  have hstat : (Forest.nil : Forest Bytes).stat ds n = false := by
    cases ds <;> simp [Forest.stat, Forest.openDir, Forest.names]
  refine ⟨t.modify (Forest.setFile n data) ds, ?_⟩
  simp [writeAt, hstat, hmk, writeFile, hopen, hasDir]

/-! ### Deleting -/

/-- `removeDirRecursive` leaves nothing, so that no directory is kept for its entries. -/
@[simp] theorem removeEntries_eq_nil (t : Forest Bytes) : removeEntries t = .nil := by
  induction t with
  | nil => rfl
  | file n data rest ih => exact ih
  | dir n children rest ihc ihr => rw [removeEntries, ihc, ihr]

variable {b : Name} (p : NormalPath)

theorem isPrefixOf_or_eq : b.isPrefixOf n = true ∨ n = b ↔ b <+: n := by
  rw [List.isPrefixOf_iff_prefix]
  constructor
  · rintro (h | rfl)
    · exact h
    · exact prefix_refl n
  · exact .inl

theorem lookup_deleteMatching (b : Name) (t : Forest Bytes) (c : Name) (cs : List Name) :
    (deleteMatching b t).lookup (c :: cs) = if b <+: c then none else t.lookup (c :: cs) := by
  induction t with
  | nil => exact (ite_self none).symm
  | file n data rest ih =>
    simp only [deleteMatching, isPrefixOf_or_eq]
    by_cases hn : b <+: n
    · rw [if_pos hn, ih, Forest.lookup]
      split_ifs with hc heq
      · rfl
      · rw [(List.cons.inj heq).1] at hc
        exact absurd hn hc
      · rfl
    · rw [if_neg hn, Forest.lookup, ih, Forest.lookup]
      split_ifs with heq hc hc
      · rw [(List.cons.inj heq).1] at hc
        exact absurd hc hn
      · rfl
      · rfl
      · rfl
  | dir n children rest _ ih =>
    simp only [deleteMatching, isPrefixOf_or_eq, removeEntries_eq_nil]
    by_cases hn : b <+: n
    · rw [if_pos hn, ih, Forest.lookup]
      split_ifs with hc heq
      · rfl
      · exact absurd (heq ▸ hn) hc
      · rfl
    · rw [if_neg hn, Forest.lookup, ih, Forest.lookup]
      split_ifs with heq hc hc
      · exact absurd (heq ▸ hc) hn
      · rfl
      · rfl
      · rfl

theorem mem_names_deleteMatching (h : n ∈ (deleteMatching b t).names) : n ∈ t.names := by
  induction t with
  | nil => exact h
  | file m data rest ih =>
    rw [deleteMatching] at h
    split_ifs at h
    · exact mem_cons_of_mem m (ih h)
    · exact mem_cons.2 ((mem_cons.1 h).imp id ih)
  | dir m children rest _ ih =>
    simp only [deleteMatching, removeEntries_eq_nil] at h
    split_ifs at h
    · exact mem_cons_of_mem m (ih h)
    · exact mem_cons.2 ((mem_cons.1 h).imp id ih)

theorem wf_deleteMatching (hwf : t.WF) (b : Name) : (deleteMatching b t).WF := by
  induction t with
  | nil => trivial
  | file m data rest ih =>
    rw [deleteMatching]
    split_ifs
    · exact ih hwf.2.2
    · exact ⟨hwf.1, fun h => hwf.2.1 (mem_names_deleteMatching h), ih hwf.2.2⟩
  | dir m children rest _ ih =>
    simp only [deleteMatching, removeEntries_eq_nil]
    split_ifs
    · exact ih hwf.2.2.2
    · exact ⟨hwf.1, fun h => hwf.2.1 (mem_names_deleteMatching h), hwf.2.2.1, ih hwf.2.2.2⟩

theorem lookup_modify_deleteMatching {e : Forest Bytes} (h : t.openDir ds = .ok e)
    (b : Name) (cs : List Name) :
    (∀ n rest, cs = ds ++ n :: rest → b <+: n → (t.modify (deleteMatching b) ds).lookup cs = none) ∧
    ((∀ n rest, cs = ds ++ n :: rest → ¬b <+: n) →
      (t.modify (deleteMatching b) ds).lookup cs = t.lookup cs) := by
  constructor
  · rintro n rest rfl hn
    rw [lookup_append (openDir_modify h), lookup_deleteMatching, if_pos hn]
  · intro hkeep
    by_cases hpre : ds <+: cs
    · obtain ⟨cs, rfl⟩ := hpre
      rw [lookup_append (openDir_modify h), lookup_append h]
      cases cs with
      | nil => rw [lookup_nil, lookup_nil]
      | cons c cs => rw [lookup_deleteMatching, if_neg (hkeep c cs rfl)]
    · exact lookup_modify_outside hpre

/-! ### The manager -/

/-- `NewLocalFileManager` on an empty directory. -/
def new : LocalFileManager := ⟨.nil, trivial⟩

section

variable (fm : LocalFileManager)

/-- `Write` and `WriteStream`. -/
def write (p : NormalPath) (data : Bytes) : Except FileError LocalFileManager :=
  match h : writeAt fm.root p.dir p.name data with
  | .ok t => .ok ⟨t, (writeAt_cases h).2 fm.wf p.valid⟩
  | .error e => .error e

def deleteByPrefix (pre : String) : Except FileError LocalFileManager :=
  match inRoot (dir pre.toList) with
  | none => .error .escapes
  | some ds =>
    match fm.root.openDir ds with
    | .ok _ =>
      .ok ⟨fm.root.modify (deleteMatching (base pre.toList)) ds,
        fm.wf.modify fun _ he => wf_deleteMatching (fm.wf.openDir he) _⟩
    | .error .notExist => .ok fm
    | .error e => .error e

/-- The files that `DeleteByPrefix` leaves: an error comes before the first deletion. -/
def afterDelete (pre : String) : LocalFileManager :=
  match fm.deleteByPrefix pre with
  | .ok fm' => fm'
  | .error _ => fm

/-- The content of the file with the given slash-separated path. -/
def stored (path : String) : Option Bytes :=
  fm.root.lookup (components path.toList)

end

theorem components_toString : components p.toString.toList = p.dir ++ [p.name] := by
  rw [NormalPath.toString, String.toList_ofList]
  exact components_join (fun c hc => (p.valid c hc).slash_notMem) (by simp)

variable {path : String} {fm : LocalFileManager} {mem : InMemoryFileManager Bytes}

theorem stored_write {fm' : LocalFileManager} {p : NormalPath}
    (h : fm.write p data = .ok fm') (path : String) :
    fm'.stored path = if path = p.toString then some data else fm.stored path := by
  unfold write at h
  split at h
  case h_2 => cases h
  case h_1 t hw =>
    cases h
    have hpath : components path.toList = p.dir ++ [p.name] ↔ path = p.toString := by
      rw [← components_toString]
      refine ⟨fun h => ?_, fun heq => heq ▸ rfl⟩
      rw [← String.toList_inj, ← join_components path.toList, h, join_components]
    rw [stored, (writeAt_cases hw).1]
    simp only [hpath]
    rfl

/-- The files that the local version deletes: below the directory of the prefix, those whose path
continues with a name that starts with its last element. -/
def Covers (pre : String) (cs : List Name) : Prop :=
  ∃ ds, inRoot (dir pre.toList) = some ds ∧ ∃ n rest, cs = ds ++ n :: rest ∧ base pre.toList <+: n

theorem stored_afterDelete (fm : LocalFileManager) (pre path : String) :
    (Covers pre (components path.toList) → (fm.afterDelete pre).stored path = none) ∧
      (¬Covers pre (components path.toList) →
        (fm.afterDelete pre).stored path = fm.stored path) := by
  unfold afterDelete deleteByPrefix
  cases hdir : inRoot (dir pre.toList) with
  | none =>
    refine ⟨?_, fun _ => rfl⟩
    rintro ⟨ds, hds, -⟩
    rw [hdir] at hds
    cases hds
  | some ds =>
    simp only
    cases hopen : fm.root.openDir ds with
    | ok e =>
      obtain ⟨hgone, hkept⟩ :=
        lookup_modify_deleteMatching hopen (base pre.toList) (components path.toList)
      constructor
      · rintro ⟨ds', hds', n, rest, hcs, hn⟩
        obtain rfl : ds = ds' := Option.some.inj (hdir.symm.trans hds')
        exact hgone n rest hcs hn
      · intro hcov
        exact hkept fun n rest hcs hn => hcov ⟨ds, hdir, n, rest, hcs, hn⟩
    | error err =>
      -- nothing is deleted, and nothing is stored below the directory
      have hnone : Covers pre (components path.toList) → fm.stored path = none := by
        rintro ⟨ds', hds', n, rest, hcs, hn⟩
        obtain rfl : ds = ds' := Option.some.inj (hdir.symm.trans hds')
        rw [stored, hcs]
        exact lookup_of_openDir_error fm.wf hopen n rest
      cases err <;> exact ⟨hnone, fun _ => rfl⟩

/-! ### Comparison with the in-memory manager -/

/-- The two managers hold the same files. -/
def Mirrors (fm : LocalFileManager) (mem : InMemoryFileManager Bytes) : Prop :=
  ∀ path, mem.read path = fm.stored path

/-- The two managers after the same writes, all of which the local one accepted. -/
inductive Built : LocalFileManager → InMemoryFileManager Bytes → Prop
  | new : Built new .new
  | write {fm fm' : LocalFileManager} {mem : InMemoryFileManager Bytes} {p : NormalPath}
      {data : Bytes} : Built fm mem → fm.write p data = .ok fm' →
      Built fm' (mem.write p.toString data)

theorem Built.mirrors (h : Built fm mem) : Mirrors fm mem := by
  induction h with
  | new => exact fun path => rfl
  | write _ hw ih =>
    intro path
    rw [InMemoryFileManager.read_write, stored_write hw, ih path]

theorem mirrors_delete_iff (hm : Mirrors fm mem) (pre : String) :
    Mirrors (fm.afterDelete pre) (mem.deleteByPrefix pre) ↔
      ∀ path data, fm.stored path = some data →
        (Covers pre (components path.toList) ↔ hasPrefix path pre = true) := by
  refine forall_congr' fun path => ?_
  obtain ⟨hgone, hkept⟩ := stored_afterDelete fm pre path
  rw [InMemoryFileManager.read_deleteByPrefix, hm path]
  by_cases hcov : Covers pre (components path.toList)
  · rw [hgone hcov]
    cases fm.stored path with
    | none => simp
    | some data => simp [hcov]
  · rw [hkept hcov]
    cases fm.stored path with
    | none => simp
    | some data => simp [hcov]

/-- A prefix that `Dir` and `Base` take apart without a loss: its directory is in normal form and it
does not end in a slash. -/
def Plain (pre : String) : Prop :=
  (∀ d ∈ (components pre.toList).dropLast, Valid d) ∧ (components pre.toList).getLast? ≠ some []

instance (pre : String) : Decidable (Plain pre) := inferInstanceAs (Decidable (_ ∧ _))

theorem built_single (data : Bytes) :
    ∃ fm mem, Built fm mem ∧ fm.stored p.toString = some data := by
  obtain ⟨t, ht⟩ := writeAt_empty p.dir p.name data
  have hw : ∃ fm, new.write p data = .ok fm := by
    unfold write
    split
    case h_1 t' h' => exact ⟨_, rfl⟩
    case h_2 err h' => exact absurd (ht.symm.trans h') nofun
  obtain ⟨fm, hfm⟩ := hw
  exact ⟨fm, _, Built.new.write hfm, by rw [stored_write hfm, if_pos rfl]⟩

variable {pre : String}

theorem hasPrefix_iff_components (hpre : components pre.toList = ds ++ [b]) :
    hasPrefix path pre = true ↔ ∃ n rest, components path.toList = ds ++ n :: rest ∧ b <+: n := by
  have hslash : ∀ n ∈ ds ++ [b], '/' ∉ n := by
    rw [← hpre]
    exact fun n hn => slash_notMem_of_mem_components hn
  rw [hasPrefix_iff, ← join_components pre.toList, hpre, ← join_components path.toList,
    join_prefix_iff (fun n hn => hslash n (mem_append_left _ hn))
      (fun n hn => slash_notMem_of_mem_components hn) (hslash b (by simp))
      (components_ne_nil _), join_components]

theorem covers_iff_of_plain (h : Plain pre) (path : String) :
    Covers pre (components path.toList) ↔ hasPrefix path pre = true := by
  obtain ⟨ds, b, hpre⟩ := exists_components_concat pre.toList
  rw [Plain, hpre, dropLast_concat, getLast?_concat] at h
  have hb : b ≠ [] := fun hnil => h.2 (congrArg some hnil)
  rw [hasPrefix_iff_components hpre, Covers, inRoot_dir hpre h.1, base_eq hpre hb]
  simp only [Option.some.injEq, exists_eq_left']

/-- `Dir` and `Base` of any prefix below the root name a file that the local version deletes. -/
theorem exists_covered (h : inRoot (dir pre.toList) = some ds) :
    ∃ p : NormalPath, p.dir = ds ∧ Covers pre (p.dir ++ [p.name]) := by
  obtain ⟨hb0, hb⟩ := base_of_inRoot h
  obtain ⟨x, b, hxb⟩ := exists_cons_of_ne_nil hb0
  have hname : Valid (base pre.toList ++ ['x']) := by
    rw [hxb] at hb ⊢
    refine ⟨by simp, by simpa using hb, by simp, ?_⟩
    cases b <;> simp
  refine ⟨⟨ds, base pre.toList ++ ['x'], ?_⟩, rfl, ds, h, _, [], rfl, prefix_append _ _⟩
  intro c hc
  rcases mem_append.1 hc with hc | hc
  · exact valid_of_inRoot h c hc
  · rw [mem_singleton.1 hc]
    exact hname

theorem exists_not_covered (h : inRoot (dir pre.toList) = some ds) :
    ∃ p : NormalPath, p.dir = ds ∧ ¬Covers pre (p.dir ++ [p.name]) := by
  obtain ⟨hb0, -⟩ := base_of_inRoot h
  obtain ⟨x, b, hxb⟩ := exists_cons_of_ne_nil hb0
  obtain ⟨y, hy, hyx⟩ : ∃ y : Char, Valid [y] ∧ y ≠ x := by
    by_cases hx : x = 'a'
    · exact ⟨'b', by decide, by rw [hx]; decide⟩
    · exact ⟨'a', by decide, Ne.symm hx⟩
  refine ⟨⟨ds, [y], ?_⟩, rfl, ?_⟩
  · intro c hc
    rcases mem_append.1 hc with hc | hc
    · exact valid_of_inRoot h c hc
    · rw [mem_singleton.1 hc]
      exact hy
  · rintro ⟨ds', hds', n, rest, hcs, hn⟩
    obtain rfl : ds = ds' := Option.some.inj (h.symm.trans hds')
    obtain rfl : [y] = n := (List.cons.inj (append_cancel_left hcs)).1
    rw [hxb] at hn
    exact hyx (cons_prefix_cons.1 hn).1.symm

/-- Below the root only a plain prefix is matched file by file: a file that is deleted shows that
the directory is in normal form, and one that is kept that the prefix does not end in a slash. -/
theorem plain_of_covers_iff (hroot : inRoot (dir pre.toList) = some ds)
    (h : ∀ p : NormalPath, Covers pre (p.dir ++ [p.name]) ↔ hasPrefix p.toString pre = true) :
    Plain pre := by
  obtain ⟨ds', b, hpre⟩ := exists_components_concat pre.toList
  have hvalid : ∀ d ∈ ds', Valid d := by
    obtain ⟨p, -, hcov⟩ := exists_covered hroot
    obtain ⟨n, rest, hcs, -⟩ := (hasPrefix_iff_components hpre).1 ((h p).1 hcov)
    rw [components_toString] at hcs
    intro d hd
    exact p.valid d (hcs ▸ mem_append_left _ hd)
  rw [Plain, hpre, dropLast_concat, getLast?_concat]
  refine ⟨hvalid, fun hb => ?_⟩
  obtain rfl : ds' = ds := Option.some.inj ((inRoot_dir hpre hvalid).symm.trans hroot)
  obtain ⟨p, hdir, hcov⟩ := exists_not_covered hroot
  refine hcov ((h p).2 ((hasPrefix_iff_components hpre).2 ⟨p.name, [], ?_, ?_⟩))
  · rw [components_toString, hdir]
  · rw [Option.some.inj hb]
    exact nil_prefix

theorem covers_iff_of_outside (hroot : inRoot (dir pre.toList) = none)
    (hpath : fm.stored path = some data) :
    Covers pre (components path.toList) ↔ hasPrefix path pre = true := by
  constructor
  · rintro ⟨ds, hds, -⟩
    rw [hroot] at hds
    cases hds
  · -- a stored path that starts with the prefix keeps its directory below the root
    intro h
    obtain ⟨ds, b, hpre⟩ := exists_components_concat pre.toList
    obtain ⟨n, rest, hcs, -⟩ := (hasPrefix_iff_components hpre).1 h
    have hvalid : ∀ d ∈ ds, Valid d := fun d hd =>
      fm.wf.valid_of_lookup hpath d (hcs ▸ mem_append_left _ hd)
    rw [inRoot_dir hpre hvalid] at hroot
    cases hroot

/-- **When the two deletions agree**: on every tree built by writes, exactly when the prefix is
plain or its directory leaves the root, where neither deletes anything. -/
theorem deleteByPrefix_agrees_iff (pre : String) :
    (∀ fm mem, Built fm mem → Mirrors (fm.afterDelete pre) (mem.deleteByPrefix pre)) ↔
      Plain pre ∨ inRoot (dir pre.toList) = none := by
  constructor
  · intro h
    rw [or_iff_not_imp_right]
    intro hroot
    obtain ⟨ds, hds⟩ := Option.ne_none_iff_exists'.1 hroot
    refine plain_of_covers_iff hds fun p => ?_
    -- they agree on the tree with a single file
    obtain ⟨fm, mem, hbuilt, hp⟩ := built_single p []
    rw [← components_toString p]
    exact (mirrors_delete_iff hbuilt.mirrors pre).1 (h fm mem hbuilt) _ _ hp
  · rintro (hplain | hroot) fm mem hbuilt
    · rw [mirrors_delete_iff hbuilt.mirrors]
      exact fun path _ _ => covers_iff_of_plain hplain path
    · rw [mirrors_delete_iff hbuilt.mirrors]
      exact fun path data hpath => covers_iff_of_outside hroot hpath

/-- The root of an upload with one file, deleted with the prefix that `upload.Service.Abort` and the
janitor pass. -/
theorem prefix_with_slash_keeps_files : ∃ fm mem, Built fm mem ∧
      (mem.deleteByPrefix "transfers/9f/").read "transfers/9f/upload.json" = none ∧
      (fm.afterDelete "transfers/9f/").stored "transfers/9f/upload.json" = some [7] :=
  ⟨⟨.dir "transfers".toList (.dir "9f".toList (.file "upload.json".toList [7] .nil) .nil) .nil,
      by decide⟩,
    _,
    @Built.write _ _ _ ⟨["transfers".toList, "9f".toList], "upload.json".toList, by decide⟩ [7]
      .new rfl,
    by decide, by decide⟩

end LocalFileManager

end GameAP
