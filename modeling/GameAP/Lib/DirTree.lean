import GameAP.Lib.Filepath

/-!
# Directory trees

A tree of directories and files with contents of any type, and the operations of a file system on
it, each addressed by the components of a path: `openDir`, `stat`, `mkdir`, `writeFile`.  Every
change is a change of the entries of one directory, `modify`; its lemmas say what is then found
below that directory (`openDir_modify`, `lookup_append`) and elsewhere
(`lookup_modify_outside`), and that the tree stays well formed (`WF.modify`).
-/

namespace Filepath

open List

/-- Why an operation was refused; `escapes` is for a path that leaves the root. -/
inductive FileError where
  | notExist
  | notDir
  | isDir
  | escapes
  deriving DecidableEq

inductive Forest (α : Type) where
  | nil
  | file (name : Name) (data : α) (rest : Forest α)
  | dir (name : Name) (children : Forest α) (rest : Forest α)
  deriving DecidableEq

namespace Forest

variable {α : Type}

/-- The names of the entries. -/
def names : Forest α → List Name
  | nil => []
  | file n _ rest => n :: rest.names
  | dir n _ rest => n :: rest.names

/-- The names are valid and no directory has two entries of one name. -/
def WF : Forest α → Prop
  | nil => True
  | file n _ rest => Valid n ∧ n ∉ rest.names ∧ rest.WF
  | dir n children rest => Valid n ∧ n ∉ rest.names ∧ children.WF ∧ rest.WF

instance decidableWF : (t : Forest α) → Decidable t.WF
  | nil => isTrue trivial
  | file n _ rest =>
    have := decidableWF rest
    inferInstanceAs (Decidable (Valid n ∧ n ∉ rest.names ∧ rest.WF))
  | dir n children rest =>
    have := decidableWF children
    have := decidableWF rest
    inferInstanceAs (Decidable (Valid n ∧ n ∉ rest.names ∧ children.WF ∧ rest.WF))

/-- The content of the file with the given path components. -/
def lookup : Forest α → List Name → Option α
  | nil, _ => none
  | file n data rest, cs => if cs = [n] then some data else rest.lookup cs
  | dir _ _ _, [] => none
  | dir n children rest, c :: cs => if c = n then children.lookup cs else rest.lookup (c :: cs)

/-! ### Operations -/

/-- The entries of the directory with the given components. -/
def openDir : Forest α → List Name → Except FileError (Forest α)
  | f, [] => .ok f
  | nil, _ :: _ => .error .notExist
  | file n _ rest, d :: ds => if d = n then .error .notDir else rest.openDir (d :: ds)
  | dir n children rest, d :: ds =>
    if d = n then children.openDir ds else rest.openDir (d :: ds)

/-- The entries of one directory replaced by `f` of them. -/
def modify (f : Forest α → Forest α) : Forest α → List Name → Forest α
  | t, [] => f t
  | nil, _ :: _ => nil
  | file n data rest, d :: ds =>
    if d = n then file n data rest else file n data (rest.modify f (d :: ds))
  | dir n children rest, d :: ds =>
    if d = n then dir n (children.modify f ds) rest else dir n children (rest.modify f (d :: ds))

/-- The directory entry `n` is a directory. -/
def hasDir (n : Name) : Forest α → Bool
  | nil => false
  | file _ _ rest => rest.hasDir n
  | dir m _ rest => m = n || rest.hasDir n

/-- The file `n` of one directory written or overwritten. -/
def setFile (n : Name) (data : α) : Forest α → Forest α
  | nil => file n data nil
  | file m old rest => if m = n then file m data rest else file m old (rest.setFile n data)
  | dir m children rest => dir m children (rest.setFile n data)

section

variable (t : Forest α) (ds : List Name) (n : Name)

/-- The directory `ds` has an entry `n`. -/
def stat : Bool :=
  match t.openDir ds with
  | .ok entries => n ∈ entries.names
  | .error _ => false

/-- A new directory `n` in the directory `ds`, where an existing entry is no error. -/
def mkdir : Except FileError (Forest α) :=
  match t.openDir ds with
  | .ok entries => .ok (if n ∈ entries.names then t else t.modify (dir n nil) ds)
  | .error e => .error e

/-- The file `n` of the directory `ds` created or truncated, and written. -/
def writeFile (data : α) : Except FileError (Forest α) :=
  match t.openDir ds with
  | .ok entries =>
    if entries.hasDir n then .error .isDir else .ok (t.modify (setFile n data) ds)
  | .error e => .error e

end

/-! ### Looking up files -/

@[simp] theorem openDir_nil (t : Forest α) : t.openDir [] = .ok t := by rw [openDir]

@[simp] theorem modify_nil (f : Forest α → Forest α) (t : Forest α) : t.modify f [] = f t := by
  rw [modify]

@[simp] theorem lookup_nil (t : Forest α) : t.lookup [] = none := by
  induction t with
  | nil => rfl
  | file n data rest ih => exact ih
  | dir n children rest => rfl

variable {n : Name} {data : α}

theorem lookup_of_notMem_names {t : Forest α} (h : n ∉ t.names) (cs : List Name) :
    t.lookup (n :: cs) = none := by
  induction t with
  | nil => rfl
  | file m data rest ih =>
    rw [names, mem_cons, not_or] at h
    rw [lookup, if_neg (fun heq => h.1 (List.cons.inj heq).1), ih h.2]
  | dir m children rest _ ih =>
    rw [names, mem_cons, not_or] at h
    rw [lookup, if_neg h.1, ih h.2]

section

variable {t e : Forest α} {ds : List Name} (h : t.openDir ds = .ok e) (cs : List Name)
include h

theorem openDir_append : t.openDir (ds ++ cs) = e.openDir cs := by
  fun_induction openDir t ds with
  | case1 t => cases h; rfl
  | case2 | case3 => cases h
  | case4 n data rest d ds hd ih =>
    rw [cons_append, openDir, if_neg hd]
    exact ih h
  | case5 children rest d ds ih =>
    rw [cons_append, openDir, if_pos rfl]
    exact ih h
  | case6 n children rest d ds hd ih =>
    rw [cons_append, openDir, if_neg hd]
    exact ih h

theorem lookup_append : t.lookup (ds ++ cs) = e.lookup cs := by
  fun_induction openDir t ds with
  | case1 t => cases h; rfl
  | case2 | case3 => cases h
  | case4 n data rest d ds hd ih =>
    rw [cons_append, lookup, if_neg (fun heq => hd (List.cons.inj heq).1)]
    exact ih h
  | case5 children rest d ds ih =>
    rw [cons_append, lookup, if_pos rfl]
    exact ih h
  | case6 n children rest d ds hd ih =>
    rw [cons_append, lookup, if_neg hd]
    exact ih h

end

theorem lookup_of_openDir_error {t : Forest α} {ds : List Name} {err : FileError} (hwf : t.WF)
    (h : t.openDir ds = .error err) (c : Name) (cs : List Name) :
    t.lookup (ds ++ c :: cs) = none := by
  fun_induction openDir t ds with
  | case1 t => cases h
  | case2 => rfl
  | case3 data rest d ds =>
    rw [cons_append, lookup, if_neg (by simp)]
    exact lookup_of_notMem_names hwf.2.1 _
  | case4 n data rest d ds hd ih =>
    rw [cons_append, lookup, if_neg (by simp)]
    exact ih hwf.2.2 h
  | case5 children rest d ds ih =>
    rw [cons_append, lookup, if_pos rfl]
    exact ih hwf.2.2.1 h
  | case6 n children rest d ds hd ih =>
    rw [cons_append, lookup, if_neg hd]
    exact ih hwf.2.2.2 h

theorem WF.valid_of_lookup {t : Forest α} (hwf : t.WF) {cs : List Name}
    (h : t.lookup cs = some data) : ∀ c ∈ cs, Valid c := by
  fun_induction lookup t cs with
  | case1 => cases h
  | case2 n data rest =>
    intro c hc
    rw [mem_singleton.1 hc]
    exact hwf.1
  | case3 n data rest cs hcs ih => exact ih hwf.2.2 h
  | case4 => cases h
  | case5 children rest c cs ih =>
    intro x hx
    rcases mem_cons.1 hx with rfl | hx
    · exact hwf.1
    · exact ih hwf.2.2.1 h x hx
  | case6 n children rest c cs hc ih => exact ih hwf.2.2.2 h

/-! ### Changing one directory -/

section Modify

variable {t e : Forest α} {f : Forest α → Forest α} {ds : List Name}

theorem openDir_modify (h : t.openDir ds = .ok e) : (t.modify f ds).openDir ds = .ok (f e) := by
  fun_induction openDir t ds with
  | case1 t =>
    cases h
    rw [modify_nil, openDir_nil]
  | case2 | case3 => cases h
  | case4 n data rest d ds hd ih =>
    rw [modify, if_neg hd, openDir, if_neg hd]
    exact ih h
  | case5 children rest d ds ih =>
    rw [modify, if_pos rfl, openDir, if_pos rfl]
    exact ih h
  | case6 n children rest d ds hd ih =>
    rw [modify, if_neg hd, openDir, if_neg hd]
    exact ih h

theorem lookup_modify_outside {cs : List Name} (h : ¬ds <+: cs) :
    (t.modify f ds).lookup cs = t.lookup cs := by
  fun_induction modify f t ds generalizing cs with
  | case1 t => exact absurd nil_prefix h
  | case2 | case3 => rfl
  | case4 n data rest d ds hd ih => rw [lookup, lookup, ih h]
  | case5 children rest d ds ih =>
    cases cs with
    | nil => rfl
    | cons c cs =>
      rw [lookup, lookup]
      split_ifs with hc
      · subst hc
        exact ih fun hpre => h (cons_prefix_cons.2 ⟨rfl, hpre⟩)
      · rfl
  | case6 n children rest d ds hd ih =>
    cases cs with
    | nil => rfl
    | cons c cs => rw [lookup, lookup, ih h]

theorem names_modify_cons (f : Forest α → Forest α) (t : Forest α) (d : Name) (ds : List Name) :
    (t.modify f (d :: ds)).names = t.names := by
  induction t with
  | nil => rfl
  | file n data rest ih =>
    rw [modify]
    split_ifs
    · rfl
    · rw [names, names, ih]
  | dir n children rest _ ih =>
    rw [modify]
    split_ifs
    · rfl
    · rw [names, names, ih]

theorem WF.openDir (hwf : t.WF) (h : t.openDir ds = .ok e) : e.WF := by
  fun_induction Forest.openDir t ds with
  | case1 t => cases h; exact hwf
  | case2 | case3 => cases h
  | case4 n data rest d ds hd ih => exact ih hwf.2.2 h
  | case5 children rest d ds ih => exact ih hwf.2.2.1 h
  | case6 n children rest d ds hd ih => exact ih hwf.2.2.2 h

theorem WF.modify (hwf : t.WF) (hf : ∀ e, t.openDir ds = .ok e → (f e).WF) :
    (t.modify f ds).WF := by
  fun_induction Forest.modify f t ds with
  | case1 t => exact hf t (openDir_nil t)
  | case2 | case3 => exact hwf
  | case4 n data rest d ds hd ih =>
    rw [Forest.openDir, if_neg hd] at hf
    rw [WF, names_modify_cons]
    exact ⟨hwf.1, hwf.2.1, ih hwf.2.2 hf⟩
  | case5 children rest d ds ih =>
    rw [Forest.openDir, if_pos rfl] at hf
    exact ⟨hwf.1, hwf.2.1, ih hwf.2.2.1 hf, hwf.2.2.2⟩
  | case6 n children rest d ds hd ih =>
    rw [Forest.openDir, if_neg hd] at hf
    rw [WF, names_modify_cons]
    exact ⟨hwf.1, hwf.2.1, hwf.2.2.1, ih hwf.2.2.2 hf⟩

end Modify

/-! ### Writing -/

theorem lookup_setFile {t : Forest α} (h : t.hasDir n = false) (data : α) (cs : List Name) :
    (t.setFile n data).lookup cs = if cs = [n] then some data else t.lookup cs := by
  induction t with
  | nil => rfl
  | file m old rest ih =>
    rw [setFile]
    split_ifs with hm hcs hcs
    · rw [lookup, hm, if_pos hcs]
    · rw [lookup, lookup, hm, if_neg hcs, if_neg hcs]
    · rw [lookup, ih h, if_pos hcs, if_neg]
      rw [hcs]
      exact fun heq => hm (List.cons.inj heq).1.symm
    · rw [lookup, lookup, ih h, if_neg hcs]
  | dir m children rest _ ih =>
    rw [hasDir, Bool.or_eq_false_iff] at h
    have hm : m ≠ n := of_decide_eq_false h.1
    cases cs with
    | nil => rfl
    | cons c cs =>
      rw [setFile, lookup, lookup, ih h.2]
      split_ifs with hc hcs
      · rw [List.cons.injEq] at hcs
        exact absurd (hc.symm.trans hcs.1) hm
      · rfl
      · rfl
      · rfl

theorem mem_names_setFile {t : Forest α} {m : Name}
    (h : m ∈ (t.setFile n data).names) : m = n ∨ m ∈ t.names := by
  induction t with
  | nil => exact .inl (mem_singleton.1 h)
  | file k old rest ih =>
    rw [setFile] at h
    split_ifs at h with hk
    · exact .inr h
    · rcases mem_cons.1 h with rfl | h
      · exact .inr (mem_cons_self ..)
      · exact (ih h).imp id (mem_cons_of_mem k)
  | dir k children rest _ ih =>
    rcases mem_cons.1 h with rfl | h
    · exact .inr (mem_cons_self ..)
    · exact (ih h).imp id (mem_cons_of_mem k)

theorem WF.setFile {t : Forest α} (hwf : t.WF) (hn : Valid n) (h : t.hasDir n = false)
    (data : α) : (t.setFile n data).WF := by
  induction t with
  | nil => exact ⟨hn, not_mem_nil, trivial⟩
  | file m old rest ih =>
    rw [Forest.setFile]
    split_ifs with hm
    · exact hwf
    · refine ⟨hwf.1, fun hmem => ?_, ih hwf.2.2 h⟩
      rcases mem_names_setFile hmem with hmn | hmem
      · exact hm hmn
      · exact hwf.2.1 hmem
  | dir m children rest _ ih =>
    rw [hasDir, Bool.or_eq_false_iff] at h
    refine ⟨hwf.1, fun hmem => ?_, hwf.2.2.1, ih hwf.2.2.2 h.2⟩
    rcases mem_names_setFile hmem with hmn | hmem
    · exact of_decide_eq_false h.1 hmn
    · exact hwf.2.1 hmem

theorem mkdir_cases {t t' : Forest α} {ds : List Name} (h : t.mkdir ds n = .ok t') :
    (∀ cs, t'.lookup cs = t.lookup cs) ∧ (t.WF → Valid n → t'.WF) := by
  unfold mkdir at h
  cases hopen : t.openDir ds with
  | error err => rw [hopen] at h; cases h
  | ok e =>
    simp only [hopen, Except.ok.injEq] at h
    split_ifs at h with hmem
    · subst h
      exact ⟨fun _ => rfl, fun hwf _ => hwf⟩
    · subst h
      refine ⟨fun cs => ?_, fun hwf hn => hwf.modify fun e' he' => ?_⟩
      · by_cases hpre : ds <+: cs
        · obtain ⟨cs, rfl⟩ := hpre
          rw [lookup_append (openDir_modify hopen), lookup_append hopen]
          cases cs with
          | nil => rw [lookup_nil, lookup_nil]
          | cons c cs =>
            rw [lookup]
            split_ifs with hc
            · subst hc
              rw [lookup_of_notMem_names hmem]
              rfl
            · rfl
        · exact lookup_modify_outside hpre
      · obtain rfl : e = e' := Except.ok.inj (hopen.symm.trans he')
        exact ⟨hn, hmem, trivial, hwf.openDir hopen⟩

theorem writeFile_cases {t t' : Forest α} {ds : List Name} (h : t.writeFile ds n data = .ok t') :
    (∀ cs, t'.lookup cs = if cs = ds ++ [n] then some data else t.lookup cs) ∧
      (t.WF → Valid n → t'.WF) := by
  unfold writeFile at h
  cases hopen : t.openDir ds with
  | error err => rw [hopen] at h; cases h
  | ok e =>
    simp only [hopen] at h
    split_ifs at h with hdir
    rw [Bool.not_eq_true] at hdir
    obtain rfl := Except.ok.inj h
    refine ⟨fun cs => ?_, fun hwf hn => hwf.modify fun e' he' => ?_⟩
    · by_cases hpre : ds <+: cs
      · obtain ⟨cs, rfl⟩ := hpre
        rw [lookup_append (openDir_modify hopen), lookup_append hopen, lookup_setFile hdir]
        simp only [append_cancel_left_eq]
      · rw [lookup_modify_outside hpre, if_neg]
        rintro rfl
        exact hpre (prefix_append ds [n])
    · obtain rfl : e = e' := Except.ok.inj (hopen.symm.trans he')
      exact (hwf.openDir hopen).setFile hn hdir data

end Forest

end Filepath
