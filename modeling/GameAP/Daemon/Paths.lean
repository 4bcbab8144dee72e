import GameAP.Lib.Filepath

/-!
# The paths that are sent to a daemon

The file manager joins the work path of the node, the directory of the server and the path that the
user gave, and `stripWorkPath` takes the work path off again, because the daemon resolves what it
receives below its own work path.  A daemon takes `/` for a separator, or, on Windows, both `/` and
`\`.

* `stripWorkPath` is textual: it cuts a prefix, then a drive letter, then slashes.  `Cuts` says when
  the prefix ends where a name ends, `NothingToCut` when it need not be there;
* below a clean work path, and if nothing climbs, `Cuts` is exact (`strip_denotes_joined`), and so
  is the condition under which a path stays in the directory of the server (`strip_confined`);
* otherwise both may fail (`doubled_slash_not_cut`, `drive_name_leaves_dir`).
-/

namespace GameAP

open Filepath List

/-- Why a path or a file name is not accepted. -/
inductive PathError
  | pathContainsTraversal
  | pathContainsNullByte
  | filenameEmpty
  | filenameContainsTraversal
  | filenameContainsPathSeparator
  deriving DecidableEq

/-- `strings.ReplaceAll` of backslashes by slashes. -/
def normalize (p : List Char) : List Char := p.map fun c => if c = '\\' then '/' else c

def trimPrefix (p pre : List Char) : List Char :=
  if pre.isPrefixOf p then p.drop pre.length else p

/-- `strings.Contains`. -/
def containsStr (sub : List Char) : List Char → Bool
  | [] => sub.isEmpty
  | c :: s => sub.isPrefixOf (c :: s) || containsStr sub s

/-- `strings.TrimLeft` of slashes. -/
def trimLeftSlashes (p : List Char) : List Char := p.dropWhile (· = '/')

def validatePath (p : List Char) : Except PathError Unit :=
  if p = [] then .ok ()
  else if '\x00' ∈ p then .error .pathContainsNullByte
  else
    let rel := trimPrefix (normalize p) ['/']
    if rel = [] then .ok ()
    else if (components rel).any (· = ['.', '.']) then .error .pathContainsTraversal
    else .ok ()

/-- A file name is one name. -/
def validateFilename (filename : List Char) : Except PathError Unit :=
  if filename = [] then .error .filenameEmpty
  else if containsStr ['.', '.'] filename then .error .filenameContainsTraversal
  else if '/' ∈ filename ∨ '\\' ∈ filename then .error .filenameContainsPathSeparator
  else .ok ()

def isASCIILetter (c : Char) : Bool := ('a' ≤ c ∧ c ≤ 'z') ∨ ('A' ≤ c ∧ c ≤ 'Z')

/-- The path begins with a letter and a colon. -/
def driveLike : List Char → Bool
  | c :: ':' :: _ => isASCIILetter c
  | _ => false

def stripWorkPath (workPath fullPath : List Char) : List Char :=
  let normWork := normalize workPath
  let normFull := normalize fullPath
  let rel := trimPrefix normFull normWork
  let rel := if driveLike rel then rel.drop 2 else rel
  let rel := trimLeftSlashes rel
  if rel = [] then ['.'] else rel

/-! ### What a path denotes -/

/-- The separators of a daemon: `/`, or both `/` and `\`. -/
inductive Convention
  | slash
  | both
  deriving DecidableEq

def Convention.norm : Convention → List Char → List Char
  | .slash, p => p
  | .both, p => normalize p

/-- The file that a path denotes: whether the path is rooted, and the names on the way. -/
def denotes (conv : Convention) (p : List Char) : Bool × List Name :=
  (isRooted (conv.norm p), cleanComponents (conv.norm p))

/-- The daemon resolves a path below its work path. -/
def resolve (conv : Convention) (workPath rel : List Char) : Bool × List Name :=
  denotes conv (if workPath = [] then rel else workPath ++ '/' :: rel)

/-- The first file is a directory in which the second one lies, or they are the same. -/
def Contains (dir file : Bool × List Name) : Prop := file.1 = dir.1 ∧ dir.2 <+: file.2

instance (dir file : Bool × List Name) : Decidable (Contains dir file) :=
  inferInstanceAs (Decidable (_ ∧ _))

/-! ### Normalising -/

theorem normalize_append (a b : List Char) : normalize (a ++ b) = normalize a ++ normalize b :=
  map_append

theorem normalize_cons_slash (b : List Char) : normalize ('/' :: b) = '/' :: normalize b := rfl

theorem backslash_notMem_normalize (p : List Char) : '\\' ∉ normalize p := by
  intro h
  obtain ⟨c, -, hc⟩ := mem_map.1 h
  split_ifs at hc with hback
  · exact absurd hc (by decide)
  · exact hback hc

variable {p : List Char} {ns : List Name}

theorem normalize_eq_self (hp : '\\' ∉ p) : normalize p = p := by
  induction p with
  | nil => rfl
  | cons c p ih =>
    rw [mem_cons, not_or] at hp
    have hc : (if c = '\\' then '/' else c) = c := if_neg (Ne.symm hp.1)
    rw [normalize, map_cons, hc]
    exact congrArg (c :: ·) (ih hp.2)

theorem normalize_join (ps : List (List Char)) : normalize (join ps) = join (ps.map normalize) := by
  induction ps with
  | nil => rfl
  | cons p ps ih =>
    cases ps with
    | nil => rw [join_singleton, map_singleton, join_singleton]
    | cons q ps =>
      rw [join_cons_cons, normalize_append, normalize_cons_slash, ih]
      rfl

theorem names_normalize (p : List Char) :
    names (normalize p) = (names p).flatMap fun n => names (normalize n) := by
  have hcomp : names (normalize p) = (components p).flatMap fun n => names (normalize n) := by
    conv_lhs => rw [← join_components p]
    rw [normalize_join, names_join, flatMap_map]
  rw [hcomp, names]
  induction components p with
  | nil => rfl
  | cons c cs ih =>
    by_cases hc : c ≠ [] ∧ c ≠ ['.']
    · rw [filter_cons_of_pos (by simpa using hc), flatMap_cons, flatMap_cons, ih]
    · have hnone : names (normalize c) = [] := by
        rcases not_and_or.1 hc with h | h
        all_goals rw [not_not.1 h]; rfl
      rw [filter_cons_of_neg (by simpa using hc), flatMap_cons, hnone, nil_append, ih]

theorem names_trimLeftSlashes (p : List Char) : names (trimLeftSlashes p) = names p := by
  unfold trimLeftSlashes
  induction p with
  | nil => rfl
  | cons c p ih =>
    by_cases hc : c = '/'
    · subst hc
      rw [dropWhile_cons_of_pos (by decide), ih, names_cons_slash]
    · rw [dropWhile_cons_of_neg (by simpa using hc)]

theorem Convention.norm_append_slash (conv : Convention) (a b : List Char) :
    conv.norm (a ++ '/' :: b) = conv.norm a ++ '/' :: conv.norm b := by
  cases conv with
  | slash => rfl
  | both => exact normalize_append a ('/' :: b)

theorem Convention.norm_append (conv : Convention) (a b : List Char) :
    conv.norm (a ++ b) = conv.norm a ++ conv.norm b := by
  cases conv with
  | slash => rfl
  | both => exact normalize_append a b

theorem Convention.norm_ne_nil (conv : Convention) (hp : p ≠ []) : conv.norm p ≠ [] := by
  cases conv with
  | slash => exact hp
  | both => exact fun h => hp (map_eq_nil_iff.1 h)

/-- Without backslashes, or where they are separators, both kinds of daemon read the normalised
path. -/
theorem Convention.norm_eq_normalize {conv : Convention}
    (hp : conv = .slash → '\\' ∉ p) : conv.norm p = normalize p := by
  cases conv with
  | slash => exact (normalize_eq_self (hp rfl)).symm
  | both => rfl

/-! ### Cutting the work path off -/

section

variable (workPath : List Char) {r : List Char} (hdrive : driveLike (normalize r) = false)
include hdrive

theorem stripWorkPath_append : stripWorkPath workPath (workPath ++ r) =
      if trimLeftSlashes (normalize r) = [] then ['.'] else trimLeftSlashes (normalize r) := by
  have hpre : (normalize workPath).isPrefixOf (normalize workPath ++ normalize r) = true :=
    isPrefixOf_iff_prefix.2 (prefix_append _ _)
  have htrim : trimPrefix (normalize (workPath ++ r)) (normalize workPath) = normalize r := by
    rw [normalize_append, trimPrefix, if_pos hpre, drop_left]
  simp only [stripWorkPath, htrim, hdrive, Bool.false_eq_true, if_false]

theorem names_stripWorkPath_append :
    names (stripWorkPath workPath (workPath ++ r)) = names (normalize r) := by
  rw [stripWorkPath_append workPath hdrive, ← names_trimLeftSlashes (normalize r)]
  split_ifs with hnil
  · rw [hnil, names_dot, names_nil]
  · rfl

end

theorem backslash_notMem_stripWorkPath (workPath fullPath : List Char) :
    '\\' ∉ stripWorkPath workPath fullPath := by
  have hfull := backslash_notMem_normalize fullPath
  have htrim : '\\' ∉ trimPrefix (normalize fullPath) (normalize workPath) := by
    unfold trimPrefix
    split_ifs
    · exact fun h => hfull (mem_of_mem_drop h)
    · exact hfull
  unfold stripWorkPath
  simp only
  split_ifs
  · decide
  · exact fun h => htrim (mem_of_mem_drop ((dropWhile_sublist _).subset h))
  · decide
  · exact fun h => htrim ((dropWhile_sublist _).subset h)

theorem isRooted_stripWorkPath (workPath fullPath : List Char) :
    isRooted (stripWorkPath workPath fullPath) = false := by
  unfold stripWorkPath
  simp only
  generalize (if driveLike _ = true then _ else _ : List Char) = rel
  split_ifs with hnil
  · rfl
  · obtain ⟨c, t, hct⟩ := exists_cons_of_ne_nil hnil
    have hc : c ≠ '/' := by
      have hhead := head?_dropWhile_not (fun c : Char => decide (c = '/')) rel
      unfold trimLeftSlashes at hct
      rw [hct] at hhead
      simpa using hhead
    rw [hct]
    exact decide_eq_false fun h => hc (Option.some.inj h)

theorem norm_stripWorkPath (conv : Convention) (workPath fullPath : List Char) :
    conv.norm (stripWorkPath workPath fullPath) = stripWorkPath workPath fullPath := by
  have hback := backslash_notMem_stripWorkPath workPath fullPath
  rw [Convention.norm_eq_normalize (fun _ => hback), normalize_eq_self hback]

/-- The work path is a prefix of the full path, the rest begins with a new name that is not taken
for a drive, and a daemon that does not know the backslash finds none in the rest. -/
def Cuts (conv : Convention) (workPath fullPath : List Char) : Prop :=
  workPath <+: fullPath ∧
    let r := fullPath.drop workPath.length
    (r = [] ∨ (workPath ≠ [] ∧ (normalize r).head? = some '/') ∨
      (workPath.getLast? = some '/' ∧ driveLike (normalize r) = false)) ∧
    (conv = .slash → '\\' ∉ r)

instance (conv : Convention) (workPath fullPath : List Char) :
    Decidable (Cuts conv workPath fullPath) := by
  unfold Cuts
  infer_instance

theorem driveLike_cons_slash (r : List Char) : driveLike ('/' :: r) = false := by
  cases r with
  | nil => rfl
  | cons c r =>
    by_cases hc : c = ':'
    · subst hc; rfl
    · simp [driveLike, hc]

theorem denotes_append_slash {conv : Convention} {workPath rel : List Char}
    (hW : workPath ≠ []) (hns : names (conv.norm rel) = ns) :
    denotes conv (workPath ++ '/' :: rel) = (isRooted (conv.norm workPath),
      ((names (conv.norm workPath) ++ ns).foldl
        (cleanStep (isRooted (conv.norm workPath))) []).reverse) := by
  rw [denotes, conv.norm_append_slash, isRooted_append (conv.norm_ne_nil hW), cleanComponents_eq,
    isRooted_append (conv.norm_ne_nil hW), names_append_slash, hns]

theorem resolve_strip {conv : Convention} {workPath fullPath : List Char}
    (h : Cuts conv workPath fullPath) :
    resolve conv workPath (stripWorkPath workPath fullPath) = denotes conv fullPath := by
  obtain ⟨⟨r, rfl⟩, hcut⟩ := h
  simp only [drop_left] at hcut
  obtain ⟨hboun, hback⟩ := hcut
  by_cases hW : workPath = []
  · -- nothing is cut from nothing
    subst hW
    rcases hboun with rfl | ⟨hW, -⟩ | ⟨hlast, -⟩
    · cases conv <;> decide
    · exact absurd rfl hW
    · exact absurd hlast (by decide)
  have hr : conv.norm r = normalize r := Convention.norm_eq_normalize hback
  have hdrive : driveLike (normalize r) = false := by
    rcases hboun with rfl | ⟨-, hhead⟩ | ⟨-, hdrive⟩
    · rfl
    · obtain ⟨t, ht⟩ := head?_eq_some_iff.1 hhead
      rw [ht]
      exact driveLike_cons_slash t
    · exact hdrive
  have hnames : names (conv.norm (stripWorkPath workPath (workPath ++ r))) = names (normalize r) := by
    rw [norm_stripWorkPath, names_stripWorkPath_append workPath hdrive]
  -- the names of the joined path are those of its two parts, wherever the slash stands
  have hsplit : names (conv.norm workPath ++ normalize r) =
      names (conv.norm workPath) ++ names (normalize r) := by
    rcases hboun with rfl | ⟨-, hhead⟩ | ⟨hlast, -⟩
    · rw [show normalize [] = [] from rfl, append_nil, names_nil, append_nil]
    · obtain ⟨t, ht⟩ := head?_eq_some_iff.1 hhead
      rw [ht, names_append_slash, names_cons_slash]
    · obtain ⟨v, rfl⟩ := getLast?_eq_some_iff.1 hlast
      rw [conv.norm_append_slash, show conv.norm [] = [] by cases conv <;> rfl, append_assoc,
        cons_append, nil_append, names_append_slash, names_append_slash, names_nil,
        append_nil]
  rw [resolve, if_neg hW, denotes_append_slash hW hnames, denotes, conv.norm_append, hr,
    cleanComponents_eq, hsplit, isRooted_append (conv.norm_ne_nil hW)]

/-- There is nothing to cut: the work path leads nowhere, like `.`, and its text does not stand in
front of the full path. -/
def NothingToCut (conv : Convention) (workPath fullPath : List Char) : Prop :=
  (workPath = [] ∨ ¬ normalize workPath <+: normalize fullPath) ∧
    cleanComponents (conv.norm workPath) = [] ∧
    isRooted (conv.norm workPath) = isRooted (conv.norm fullPath) ∧
    driveLike (normalize fullPath) = false ∧ (conv = .slash → '\\' ∉ fullPath)

instance (conv : Convention) (workPath fullPath : List Char) :
    Decidable (NothingToCut conv workPath fullPath) :=
  inferInstanceAs (Decidable (_ ∧ _))

theorem names_stripWorkPath_of_nothingToCut {workPath fullPath : List Char}
    (hpre : workPath = [] ∨ ¬ normalize workPath <+: normalize fullPath)
    (hdrive : driveLike (normalize fullPath) = false) :
    names (stripWorkPath workPath fullPath) = names (normalize fullPath) := by
  have htrim : trimPrefix (normalize fullPath) (normalize workPath) = normalize fullPath := by
    unfold trimPrefix
    rcases hpre with rfl | hpre
    · exact ite_self _
    · rw [if_neg fun h => hpre ( isPrefixOf_iff_prefix.1 h)]
  rw [← names_trimLeftSlashes (normalize fullPath)]
  simp only [stripWorkPath, htrim, hdrive, Bool.false_eq_true, if_false]
  split_ifs with hnil
  · rw [hnil, names_dot, names_nil]
  · rfl

theorem resolve_strip_of_nothingToCut {conv : Convention} {workPath fullPath : List Char}
    (h : NothingToCut conv workPath fullPath) :
    resolve conv workPath (stripWorkPath workPath fullPath) = denotes conv fullPath := by
  obtain ⟨hpre, hnone, hrooted, hdrive, hback⟩ := h
  have hfull : conv.norm fullPath = normalize fullPath := Convention.norm_eq_normalize hback
  have hnames : names (conv.norm (stripWorkPath workPath fullPath)) = names (conv.norm fullPath) := by
    rw [norm_stripWorkPath, names_stripWorkPath_of_nothingToCut hpre hdrive, hfull]
  by_cases hW : workPath = []
  · -- the daemon takes the path as it is, and it is not rooted
    subst hW
    have hroot : isRooted (conv.norm fullPath) = false := by
      rw [← hrooted]
      cases conv <;> rfl
    have hsent : isRooted (conv.norm (stripWorkPath [] fullPath)) = false := by
      rw [norm_stripWorkPath]
      exact isRooted_stripWorkPath [] fullPath
    rw [resolve, if_pos rfl, denotes, denotes, cleanComponents_eq, cleanComponents_eq, hnames, hroot,
      hsent]
  · rw [cleanComponents_eq, reverse_eq_nil_iff] at hnone
    rw [resolve, if_neg hW, denotes_append_slash hW hnames, foldl_append, hnone, hrooted, denotes,
      cleanComponents_eq]

/-! ### Paths that do not climb -/

variable {es : List (List Char)}

theorem joinPaths_cons {workPath : List Char} (hW : workPath ≠ [])
    (hes : es ≠ []) : joinPaths (workPath :: es) = clean (workPath ++ '/' :: join es) := by
  obtain ⟨c, w, rfl⟩ := exists_cons_of_ne_nil hW
  obtain ⟨e, es, rfl⟩ := exists_cons_of_ne_nil hes
  rw [joinPaths, join_cons_cons]

theorem climb_notMem_names (hup : ['.', '.'] ∉ names (normalize p)) : ['.', '.'] ∉ names p := by
  intro h
  rw [names_normalize] at hup
  exact hup (mem_flatMap.2 ⟨_, h, by decide⟩)

theorem ne_nil_of_clean {p : List Char} (hclean : clean p = p) : p ≠ [] := by
  rintro rfl
  exact absurd hclean (by decide)

theorem exists_joinPaths_eq {workPath : List Char}
    (hclean : clean workPath = workPath) (hdot : workPath ≠ ['.']) (hes : es ≠ [])
    (hup : ∀ e ∈ es, ['.', '.'] ∉ names e) :
    ∃ r, joinPaths (workPath :: es) = workPath ++ r ∧ (r = [] ∧ es.flatMap names = [] ∨
        workPath ≠ ['/'] ∧ r = '/' :: join (es.flatMap names) ∨
        workPath = ['/'] ∧ r = join (es.flatMap names)) := by
  have hW : workPath ≠ [] := ne_nil_of_clean hclean
  have hup' : ['.', '.'] ∉ names (join es) := by
    rw [names_join, mem_flatMap]
    rintro ⟨e, he, hmem⟩
    exact hup e he hmem
  rw [joinPaths_cons hW hes]
  by_cases hroot : workPath = ['/']
  · subst hroot
    refine ⟨join (es.flatMap names), ?_, .inr (.inr ⟨rfl, rfl⟩)⟩
    have hup'' : ['.', '.'] ∉ names ('/' :: join es) := by
      exact hup'
    rw [cons_append, nil_append, clean_cons_slash hup'', names_cons_slash, names_join]
    rfl
  · rw [clean_append_slash hclean hdot hroot hup', names_join]
    split_ifs with hnone
    · exact ⟨[], (append_nil _).symm, .inl ⟨rfl, hnone⟩⟩
    · exact ⟨_, rfl, .inr (.inl ⟨hroot, rfl⟩)⟩

theorem names_normalize_join_names (es : List (List Char)) :
    names (normalize (join (es.flatMap names))) = es.flatMap fun e => names (normalize e) := by
  rw [normalize_join, names_join, flatMap_map, flatMap_assoc]
  refine congrArg (es.flatMap ·) (funext fun e => ?_)
  exact (names_normalize e).symm

/-- The full path lies below `/` and its text looks like a drive there. -/
def TakenForDrive (workPath fullPath : List Char) : Prop :=
  workPath = ['/'] ∧ driveLike (normalize (fullPath.drop 1)) = true

instance (workPath fullPath : List Char) : Decidable (TakenForDrive workPath fullPath) :=
  inferInstanceAs (Decidable (_ ∧ _))

/-- The names that are left when the drive is cut off the first one. -/
def driveRest : List Name → List Name
  | [] => []
  | n :: ns =>
    if n.drop 2 = [] ∨ n.drop 2 = ['.'] ∨ n.drop 2 = ['.', '.'] then ns else n.drop 2 :: ns

/-- The names below the work path that the daemon gets, of those that were joined to it. -/
def sentNames (workPath fullPath : List Char) (ns : List Name) : List Name :=
  if TakenForDrive workPath fullPath then driveRest ns else ns

theorem names_of_slash_notMem {tail : List Char} (h : '/' ∉ tail) :
    names tail = if tail = [] ∨ tail = ['.'] then [] else [tail] := by
  rw [names, components, splitOn_eq_singleton h]
  split_ifs with hskip
  · rcases hskip with rfl | rfl <;> rfl
  · rw [filter_cons_of_pos (by simpa using hskip), filter_nil]

/-- What looks like a drive is the beginning of the first name. -/
theorem names_driveLike (h : driveLike p = true) : ∃ c tail rest, isASCIILetter c = true ∧
    '/' ∉ tail ∧ names p = (c :: ':' :: tail) :: rest ∧ names (p.drop 2) = names tail ++ rest := by
  obtain ⟨c, t, rfl⟩ : ∃ c t, p = c :: ':' :: t := by
    unfold driveLike at h
    split at h
    · exact ⟨_, _, rfl⟩
    · cases h
  have hletter : isASCIILetter c = true := h
  have hc : c ≠ '/' := by
    rintro rfl
    cases h
  have hname (tail : List Char) (htail : '/' ∉ tail) :
      names (c :: ':' :: tail) = [c :: ':' :: tail] := by
    rw [names_of_slash_notMem, if_neg (by simp)]
    simp [Ne.symm hc, htail]
  by_cases hslash : '/' ∈ t
  · obtain ⟨tail, u, rfl, htail⟩ := eq_append_cons_of_mem hslash
    refine ⟨c, tail, names u, hletter, htail, ?_, names_append_slash tail u⟩
    rw [← cons_append, ← cons_append, names_append_slash, hname tail htail, singleton_append]
  · exact ⟨c, t, [], hletter, hslash, hname t hslash, (append_nil _).symm⟩

theorem names_strip_drive {r : List Char} (h : driveLike (normalize r) = true) :
    names (stripWorkPath ['/'] ('/' :: r)) = names ((normalize r).drop 2) := by
  have htrim : trimPrefix (normalize ('/' :: r)) (normalize ['/']) = normalize r := rfl
  rw [← names_trimLeftSlashes ((normalize r).drop 2)]
  simp only [stripWorkPath, htrim, h, if_true]
  split_ifs with hnil
  · rw [hnil, names_dot, names_nil]
  · rfl

theorem names_strip_joinPaths {workPath : List Char}
    (hclean : clean workPath = workPath) (hdot : workPath ≠ ['.']) (hes : es ≠ [])
    (hup : ∀ e ∈ es, ['.', '.'] ∉ names (normalize e))
    (hdrive : ¬ TakenForDrive workPath (joinPaths (workPath :: es))) :
    names (stripWorkPath workPath (joinPaths (workPath :: es))) =
      es.flatMap fun e => names (normalize e) := by
  obtain ⟨r, hjoin, hr⟩ :=
    exists_joinPaths_eq hclean hdot hes fun e he => climb_notMem_names (hup e he)
  rw [hjoin] at hdrive
  rw [hjoin, ← names_normalize_join_names]
  rcases hr with ⟨rfl, hnone⟩ | ⟨-, rfl⟩ | ⟨rfl, rfl⟩
  · rw [names_stripWorkPath_append workPath rfl, hnone]
    rfl
  · have hslash : driveLike (normalize ('/' :: join (es.flatMap names))) = false :=
      driveLike_cons_slash _
    rw [names_stripWorkPath_append workPath hslash, normalize_cons_slash, names_cons_slash]
  · exact names_stripWorkPath_append _ (Bool.eq_false_iff.2 fun h => hdrive ⟨rfl, h⟩)

theorem climb_notMem_of_validatePath (hp : validatePath p = .ok ()) :
    ['.', '.'] ∉ names (normalize p) := by
  unfold validatePath at hp
  split_ifs at hp with hnil hnull
  · subst hnil
    decide
  · simp only at hp
    intro hmem
    have hcomp : ['.', '.'] ∈ components (normalize p) := mem_of_mem_filter hmem
    -- the slash that is trimmed stands behind an empty component
    have hrel : ['.', '.'] ∈ components (trimPrefix (normalize p) ['/']) := by
      unfold trimPrefix
      split_ifs with hpre
      · obtain ⟨t, ht⟩ := isPrefixOf_iff_prefix.1 hpre
        rw [← ht] at hcomp ⊢
        have hsplit : components (['/'] ++ t) = [] :: components t := components_append_slash [] t
        rw [hsplit, mem_cons] at hcomp
        exact hcomp.resolve_left (by decide)
      · exact hcomp
    split_ifs at hp with hrel0 hany
    · rw [hrel0] at hrel
      exact absurd hrel (by decide)
    · exact hany (any_eq_true.2 ⟨_, hrel, decide_eq_true rfl⟩)

theorem climb_notMem_of_validateFilename {f : List Char} (hf : validateFilename f = .ok ()) :
    ['.', '.'] ∉ names (normalize f) := by
  unfold validateFilename at hf
  split_ifs at hf with hnil hup hsep
  rw [not_or] at hsep
  intro hmem
  have hcomp : ['.', '.'] ∈ components (normalize f) := mem_of_mem_filter hmem
  rw [normalize_eq_self hsep.2, components, splitOn_eq_singleton hsep.1,
    mem_singleton] at hcomp
  exact hup (hcomp ▸ rfl)

/-! ### Staying in the directory of the server -/

/-- `filepath.IsAbs` on the host of the daemon. -/
def Convention.isAbs : Convention → List Char → Bool
  | .slash, p => isRooted p
  | .both, p =>
    match normalize p with
    | '/' :: _ => true
    | c :: ':' :: '/' :: _ => isASCIILetter c
    | _ => false

theorem resolve_eq {conv : Convention} {workPath rel : List Char}
    (hW : workPath ≠ []) (hns : names (conv.norm rel) = ns) (hup : ['.', '.'] ∉ ns) :
    resolve conv workPath rel =
      (isRooted (conv.norm workPath), cleanComponents (conv.norm workPath) ++ ns) := by
  subst hns
  rw [resolve, if_neg hW, denotes, conv.norm_append_slash, isRooted_append (conv.norm_ne_nil hW),
    cleanComponents_append_slash (conv.norm_ne_nil hW) hup]

/-- A climb in front of the other names goes nowhere at the root. -/
theorem resolve_root {conv : Convention} {rel tail : List Char} {rest : List Name}
    (hns : names (conv.norm rel) = names tail ++ rest) (htail : '/' ∉ tail)
    (hval : ∀ n ∈ rest, Valid n) :
    resolve conv ['/'] rel =
      (true, if tail = [] ∨ tail = ['.'] ∨ tail = ['.', '.'] then rest else tail :: rest) := by
  have hroot : conv.norm ['/'] = ['/'] := by cases conv <;> rfl
  rw [resolve, if_neg (by decide), denotes_append_slash (by decide) hns, hroot,
    show names ['/'] = [] by decide, nil_append, show isRooted ['/'] = true by decide]
  refine Prod.ext rfl ?_
  rw [names_of_slash_notMem htail]
  by_cases hclimb : tail = ['.', '.']
  · subst hclimb
    rw [if_neg (by decide), if_pos (by decide), singleton_append, foldl_cons,
      show cleanStep true [] ['.', '.'] = [] from rfl, foldl_cleanStep hval, append_nil,
      reverse_reverse]
  · split_ifs with hskip hmem hmem
    · rw [nil_append, foldl_cleanStep hval, append_nil, reverse_reverse]
    · exact absurd (by simpa [hclimb] using hskip) hmem
    · exact absurd (by simpa [hclimb] using hmem) hskip
    · have hvalid : ∀ n ∈ [tail] ++ rest, Valid n := by
        intro n hn
        rcases mem_append.1 hn with hn | hn
        · rw [mem_singleton.1 hn]
          exact ⟨fun h => hskip (.inl h), htail, fun h => hskip (.inr h), hclimb⟩
        · exact hval n hn
      rw [foldl_cleanStep hvalid, append_nil, reverse_reverse, singleton_append]

/-- **What the daemon gets** of a path that was joined to a clean work path and does not climb. -/
theorem resolve_strip_joinPaths {conv : Convention} {workPath : List Char}
    (hclean : clean workPath = workPath) (hdot : workPath ≠ ['.']) (hes : es ≠ [])
    (hup : ∀ e ∈ es, ['.', '.'] ∉ names (normalize e)) :
    resolve conv workPath (stripWorkPath workPath (joinPaths (workPath :: es))) =
      (isRooted (conv.norm workPath), cleanComponents (conv.norm workPath) ++
        sentNames workPath (joinPaths (workPath :: es)) (es.flatMap fun e => names (normalize e))) := by
  have hW : workPath ≠ [] := ne_nil_of_clean hclean
  have hup' : ['.', '.'] ∉ es.flatMap fun e => names (normalize e) := by
    rw [mem_flatMap]
    rintro ⟨e, he, hmem⟩
    exact hup e he hmem
  rw [sentNames]
  split_ifs with hdrive
  · obtain ⟨rfl, hlike⟩ := hdrive
    obtain ⟨r, hjoin, hr⟩ :=
      exists_joinPaths_eq hclean hdot hes fun e he => climb_notMem_names (hup e he)
    obtain rfl : r = join (es.flatMap names) := by
      rcases hr with ⟨rfl, hnone⟩ | ⟨hne, -⟩ | ⟨-, hr⟩
      · rw [hnone]
        rfl
      · exact absurd rfl hne
      · exact hr
    rw [hjoin] at hlike ⊢
    obtain ⟨c, tail, rest, -, htail, hns, hcut⟩ := names_driveLike hlike
    simp only [singleton_append, drop_succ_cons, drop_zero] at hlike hns hcut
    rw [names_normalize_join_names] at hns
    have hrest : ∀ n ∈ rest, n ∈ es.flatMap fun e => names (normalize e) := by
      intro n hn
      rw [hns]
      exact mem_cons_of_mem _ hn
    have hval : ∀ n ∈ rest, Valid n := by
      intro n hn
      obtain ⟨e, he, hmem⟩ := mem_flatMap.1 (hrest n hn)
      exact valid_names (hup e he) n hmem
    have hsent : names (conv.norm (stripWorkPath ['/'] ('/' :: join (es.flatMap names)))) =
        names tail ++ rest := by
      rw [norm_stripWorkPath, names_strip_drive hlike, hcut]
    rw [hns, driveRest, singleton_append, resolve_root hsent htail hval]
    cases conv <;> rfl
  · refine resolve_eq hW ?_ hup'
    rw [norm_stripWorkPath, names_strip_joinPaths hclean hdot hes hup hdrive]

/-! ### Backslashes -/

theorem mem_of_mem_components {n : Name} {c : Char} (hn : n ∈ components p) (hc : c ∈ n) : c ∈ p := by
  rw [← join_components p]
  exact mem_join_of_mem hn hc

theorem backslash_notMem_names {n : Name} (hn : n ∈ names (normalize p)) : '\\' ∉ n := fun h =>
  backslash_notMem_normalize p (mem_of_mem_components (mem_of_mem_filter hn) h)

theorem exists_backslash_name (h : '\\' ∈ p) : ∃ n ∈ names p, '\\' ∈ n := by
  rw [← join_components p] at h
  rcases mem_join h with hslash | ⟨n, hn, hmem⟩
  · exact absurd hslash (by decide)
  · refine ⟨n, mem_filter.2 ⟨hn, decide_eq_true ⟨?_, ?_⟩⟩, hmem⟩
    · rintro rfl
      exact not_mem_nil hmem
    · rintro rfl
      exact absurd hmem (by decide)

theorem backslash_notMem_sentNames {workPath fullPath : List Char} (hns : ∀ n ∈ ns, '\\' ∉ n) :
    ∀ n ∈ sentNames workPath fullPath ns, '\\' ∉ n := by
  unfold sentNames
  split_ifs
  · cases ns with
    | nil => exact hns
    | cons m ms =>
      intro n hn
      rw [driveRest] at hn
      split_ifs at hn
      · exact hns n (mem_cons_of_mem m hn)
      · rcases mem_cons.1 hn with rfl | hn
        · exact fun h => hns m mem_cons_self (mem_of_mem_drop h)
        · exact hns n (mem_cons_of_mem m hn)
  · exact hns

theorem climb_notMem_conv (conv : Convention) (h : ['.', '.'] ∉ names (normalize p)) :
    ['.', '.'] ∉ names (conv.norm p) := by
  cases conv with
  | slash => exact climb_notMem_names h
  | both => exact h

/-! ### Finding the file that was meant -/

theorem driveRest_ne (c : Char) (tail : List Char) (rest : List Name) :
    driveRest ((c :: ':' :: tail) :: rest) ≠ (c :: ':' :: tail) :: rest := by
  intro h
  rw [driveRest] at h
  split_ifs at h
  · exact absurd (congrArg length h) (by simp)
  · have hlen := congrArg length (List.cons.inj h).1
    simp at hlen
    omega

theorem cleanComponents_cons_slash {b : List Char} (hup : ['.', '.'] ∉ names b) :
    cleanComponents ('/' :: b) = names b := by
  rw [cleanComponents_eq, names_cons_slash, foldl_cleanStep (valid_names hup), append_nil,
    reverse_reverse]

/-- What the daemon gets of a path that it finds has not lost a name to a drive or to a
backslash. -/
theorem eq_of_sentNames {conv : Convention} {workPath fullPath j : List Char}
    (h : sentNames workPath fullPath (names (normalize j)) = names (conv.norm j)) :
    (conv = .slash → '\\' ∉ j) ∧
      (workPath = ['/'] → fullPath.drop 1 = j → driveLike (normalize j) = false) := by
  have hback : conv = .slash → '\\' ∉ j := by
    rintro rfl hmem
    obtain ⟨n, hn, hnb⟩ := exists_backslash_name hmem
    have hsent : n ∈ sentNames workPath fullPath (names (normalize j)) := by
      rw [h]
      exact hn
    exact backslash_notMem_sentNames (fun _ => backslash_notMem_names) n hsent hnb
  refine ⟨hback, ?_⟩
  rintro rfl rfl
  rw [← Bool.not_eq_true]
  intro hlike
  obtain ⟨c, tail, rest, -, -, hns, -⟩ := names_driveLike hlike
  rw [sentNames, if_pos ⟨rfl, hlike⟩, Convention.norm_eq_normalize hback, hns] at h
  exact driveRest_ne c tail rest h

theorem cuts_of_resolve_strip {conv : Convention} {workPath : List Char}
    (hclean : clean workPath = workPath) (hdot : workPath ≠ ['.']) (hes : es ≠ [])
    (hup : ∀ e ∈ es, ['.', '.'] ∉ names (normalize e))
    (h : resolve conv workPath (stripWorkPath workPath (joinPaths (workPath :: es))) =
      denotes conv (joinPaths (workPath :: es))) : Cuts conv workPath (joinPaths (workPath :: es)) := by
  have hW : workPath ≠ [] := ne_nil_of_clean hclean
  have hup' : ['.', '.'] ∉ names (normalize (join (es.flatMap names))) := by
    rw [names_normalize_join_names, mem_flatMap]
    rintro ⟨e, he, hmem⟩
    exact hup e he hmem
  obtain ⟨r, hjoin, hr⟩ :=
    exists_joinPaths_eq hclean hdot hes fun e he => climb_notMem_names (hup e he)
  rw [resolve_strip_joinPaths hclean hdot hes hup, ← names_normalize_join_names, hjoin] at h
  rw [hjoin, Cuts, drop_left]
  refine ⟨prefix_append _ _, ?_⟩
  rcases hr with ⟨rfl, -⟩ | ⟨hroot, rfl⟩ | ⟨rfl, rfl⟩
  · exact ⟨.inl rfl, fun _ => not_mem_nil⟩
  · rw [denotes, conv.norm_append_slash, cleanComponents_append_slash (conv.norm_ne_nil hW)
      (climb_notMem_conv conv hup')] at h
    have hsent := append_cancel_left (congrArg Prod.snd h)
    refine ⟨.inr (.inl ⟨hW, rfl⟩), fun hconv hmem => (eq_of_sentNames hsent).1 hconv ?_⟩
    exact (mem_cons.1 hmem).resolve_left (by decide)
  · have hroot : conv.norm ['/'] = ['/'] := by cases conv <;> rfl
    rw [denotes, conv.norm_append, hroot] at h
    have hsent := congrArg Prod.snd h
    simp only [singleton_append, cleanComponents_cons_slash (climb_notMem_conv conv hup')] at hsent
    obtain ⟨hback, hdrive⟩ := eq_of_sentNames hsent
    exact ⟨.inr (.inr ⟨rfl, hdrive rfl rfl⟩), hback⟩

/-- **Stripping the work path**: the daemon finds the file that was meant if the work path is cut
off where a name ends, or if there is nothing to cut.  The first is exact if the work path is clean
and nothing climbs. -/
theorem strip_denotes_joined (conv : Convention) (workPath serverDir path : List Char) :
    (Cuts conv workPath (joinPaths [workPath, serverDir, path]) ∨
        NothingToCut conv workPath (joinPaths [workPath, serverDir, path]) →
      resolve conv workPath (stripWorkPath workPath (joinPaths [workPath, serverDir, path])) =
        denotes conv (joinPaths [workPath, serverDir, path])) ∧
    (clean workPath = workPath → workPath ≠ ['.'] → ['.', '.'] ∉ names (normalize serverDir) →
      validatePath path = .ok () →
      (resolve conv workPath (stripWorkPath workPath (joinPaths [workPath, serverDir, path])) =
          denotes conv (joinPaths [workPath, serverDir, path]) ↔
        Cuts conv workPath (joinPaths [workPath, serverDir, path]))) := by
  refine ⟨fun h => h.elim resolve_strip resolve_strip_of_nothingToCut, ?_⟩
  intro hclean hdot hdir hpath
  refine ⟨cuts_of_resolve_strip hclean hdot (cons_ne_nil _ _) fun e he => ?_, resolve_strip⟩
  rcases mem_cons.1 he with rfl | he
  · exact hdir
  · rw [mem_singleton.1 he]
    exact climb_notMem_of_validatePath hpath

theorem strip_denotes_usual : resolve .both "C:\\gameap".toList (stripWorkPath "C:\\gameap".toList
        (joinPaths ["C:\\gameap".toList, "servers/1".toList, "cfg\\c:x".toList])) =
      denotes .both (joinPaths ["C:\\gameap".toList, "servers/1".toList, "cfg\\c:x".toList]) ∧
    resolve .slash "./".toList (stripWorkPath "./".toList
        (joinPaths ["./".toList, "servers/1".toList, "server.cfg".toList])) =
      denotes .slash (joinPaths ["./".toList, "servers/1".toList, "server.cfg".toList]) :=
  ⟨((strip_denotes_joined _ _ _ _).2 (by decide) (by decide) (by decide) (by decide)).2 (by decide),
    (strip_denotes_joined _ _ _ _).1 (.inr (by decide))⟩

/-- A doubled slash in the work path is gone after joining, so the prefix is not found. -/
theorem doubled_slash_not_cut : validatePath "server.cfg".toList = .ok () ∧
    stripWorkPath "/srv//gameap".toList
        (joinPaths ["/srv//gameap".toList, "servers/1".toList, "server.cfg".toList]) =
      "srv/gameap/servers/1/server.cfg".toList ∧
    ∀ conv, resolve conv "/srv//gameap".toList (stripWorkPath "/srv//gameap".toList
        (joinPaths ["/srv//gameap".toList, "servers/1".toList, "server.cfg".toList])) ≠
      denotes conv (joinPaths ["/srv//gameap".toList, "servers/1".toList, "server.cfg".toList]) := by
  refine ⟨by decide, by decide, fun conv => ?_⟩
  cases conv <;> decide

-- a work path that is a dot is cut from the front of a hidden file's name
example : stripWorkPath ".".toList (joinPaths [".".toList, [], ".env".toList]) = "env".toList := by
  decide

-- behind a slash at the end of the work path, a name may look like a drive
example : stripWorkPath "/srv/".toList (joinPaths ["/srv/".toList, [], "c:x".toList]) =
    "x".toList := by
  decide

section Confined

variable {conv : Convention} {workPath serverDir path : List Char}

/-- **Confinement**: an accepted path leads into the directory of the server exactly when its name
has no backslash for a daemon that does not know it, and when the names of the directory are still
there if the first name below `/` is taken for a drive. -/
theorem strip_confined (conv : Convention) (workPath serverDir path : List Char)
    (filename : Option (List Char)) (hclean : clean workPath = workPath)
    (habs : conv.isAbs workPath = true) (hdir : ['.', '.'] ∉ names (normalize serverDir))
    (hpath : validatePath path = .ok ()) (hfile : ∀ f ∈ filename, validateFilename f = .ok ()) :
    Contains (resolve conv workPath serverDir) (resolve conv workPath (stripWorkPath workPath
        (joinPaths (workPath :: serverDir :: path :: filename.toList)))) ↔
      (conv = .slash → '\\' ∉ serverDir) ∧
      (TakenForDrive workPath (joinPaths (workPath :: serverDir :: path :: filename.toList)) →
        names (normalize serverDir) <+: driveRest
          ((serverDir :: path :: filename.toList).flatMap fun e => names (normalize e))) := by
  have hdot : workPath ≠ ['.'] := by
    rintro rfl
    cases conv <;> exact absurd habs (by decide)
  have hW : workPath ≠ [] := ne_nil_of_clean hclean
  have hup : ∀ e ∈ serverDir :: path :: filename.toList, ['.', '.'] ∉ names (normalize e) := by
    intro e he
    rcases mem_cons.1 he with rfl | he
    · exact hdir
    rcases mem_cons.1 he with rfl | he
    · exact climb_notMem_of_validatePath hpath
    · exact climb_notMem_of_validateFilename (hfile e (Option.mem_toList.1 he))
  rw [resolve_strip_joinPaths hclean hdot (cons_ne_nil _ _) hup,
    resolve_eq hW rfl (climb_notMem_conv conv hdir), Contains, and_iff_right rfl,
    prefix_append_right_inj]
  generalize hfull : joinPaths (workPath :: serverDir :: path :: filename.toList) = full
  generalize hns : (serverDir :: path :: filename.toList).flatMap (fun e => names (normalize e)) = ns
  have hplain : ∀ n ∈ ns, '\\' ∉ n := by
    rw [← hns]
    intro n hn
    obtain ⟨e, -, hmem⟩ := mem_flatMap.1 hn
    exact backslash_notMem_names hmem
  by_cases hback : conv = .slash → '\\' ∉ serverDir
  · rw [Convention.norm_eq_normalize hback, sentNames]
    split_ifs with hdrive
    · exact ⟨fun h => ⟨hback, fun _ => h⟩, fun h => h.2 hdrive⟩
    · refine iff_of_true ?_ ⟨hback, fun h => absurd h hdrive⟩
      rw [← hns, flatMap_cons]
      exact prefix_append _ _
  · -- a name of the directory with a backslash is not among those that are sent
    refine iff_of_false (fun hpre => ?_) fun h => hback h.1
    push Not at hback
    obtain ⟨rfl, hmem⟩ := hback
    obtain ⟨n, hn, hnb⟩ := exists_backslash_name hmem
    exact backslash_notMem_sentNames hplain n (hpre.subset hn) hnb

theorem strip_confined_upload : Contains (resolve .slash "/srv/gameap".toList "servers/1".toList)
      (resolve .slash "/srv/gameap".toList (stripWorkPath "/srv/gameap".toList
        (joinPaths ["/srv/gameap".toList, "servers/1".toList, "\\c:x/ok..ok".toList,
          "server.cfg".toList]))) :=
  (strip_confined .slash "/srv/gameap".toList "servers/1".toList "\\c:x/ok..ok".toList
    (some "server.cfg".toList) (by decide) (by decide) (by decide) (by decide)
    (fun f hf => by cases hf; decide)).2 ⟨by decide, by decide⟩

/-- Below `/` the name of the directory loses what looks like a drive. -/
theorem drive_name_leaves_dir :
    clean "/".toList = "/".toList ∧ validatePath "server.cfg".toList = .ok () ∧
    stripWorkPath "/".toList (joinPaths ["/".toList, "c:servers".toList, "server.cfg".toList]) =
      "servers/server.cfg".toList ∧
    ∀ conv : Convention, conv.isAbs "/".toList = true ∧
      ¬ Contains (resolve conv "/".toList "c:servers".toList)
        (resolve conv "/".toList (stripWorkPath "/".toList
          (joinPaths ["/".toList, "c:servers".toList, "server.cfg".toList]))) := by
  refine ⟨by decide, by decide, by decide, fun conv => ?_⟩
  cases conv <;> decide

end Confined

end GameAP
