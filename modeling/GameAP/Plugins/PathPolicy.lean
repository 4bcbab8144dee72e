import GameAP.Daemon.Paths
import GameAP.Domain
import GameAP.Plugins.Ids
import Mathlib

/-!
# The paths that plugins may name on a node

A restricted policy accepts a path if its normal form lies below one of the roots of the scope: the
extra roots, the directory of the plugin, and the work path or the directories of the servers.  A
relative path is taken below the work path.  On a Windows node the roots are compared in lower case;
`CaseMap` is what is used of `unicode.ToLower`.

The roots of a scope are absolute paths that do not climb (`scopeFor_eq_ok`), also those of servers
whose directories do, and what lies below a root for `inRoots` lies below it by its names
(`contains_of_inRoots`).
-/

namespace GameAP

open Filepath List Char

/-! ### Normal forms of paths on nodes -/

/-- Why a path has no normal form, or is no root. -/
inductive NodePathError
  | nullByte
  | upSegment
  | notAbsolute
  deriving DecidableEq

/-- The text of an error. -/
def NodePathError.text : NodePathError → String
  | .nullByte => "path contains a null byte"
  | .upSegment => "path contains \"..\" segment"
  | .notAbsolute => "path must be absolute"

def isDriveLetter (c : Char) : Bool := isASCIILetter c

/-- With a slash or a drive in front. -/
def isAbsoluteNodePath (p : List Char) : Bool :=
  match normalize p with
  | '/' :: _ => true
  | c :: ':' :: '/' :: _ => isDriveLetter c
  | _ => false

/-- `path.Clean`, behind a drive. -/
def cleanNodePath (p : List Char) : List Char :=
  match p with
  | c :: ':' :: rest =>
    if isDriveLetter c then c.toUpper :: ':' :: clean ('/' :: trimPrefix rest ['/']) else clean p
  | _ => clean p

/-- `strings.TrimSuffix` of a slash. -/
def trimSlash (p : List Char) : List Char := if p.getLast? = some '/' then p.dropLast else p

/-- A path below a root. -/
def joinNodePath (root rel : List Char) : List Char :=
  cleanNodePath (trimSlash root ++ '/' :: trimPrefix (normalize rel) ['/'])

/-- The normal form of a path; it may not climb. -/
def normalizeNodePath (raw workPath : List Char) : Except NodePathError (List Char) :=
  if '\x00' ∈ raw then .error .nullByte
  else if (components (normalize raw)).any (· = ['.', '.']) then .error .upSegment
  else if isAbsoluteNodePath (normalize raw) = false ∧ workPath ≠ [] then
    .ok (cleanNodePath (joinNodePath workPath (normalize raw)))
  else .ok (cleanNodePath (normalize raw))

/-- The normal form of a root. -/
def normalizeAbsoluteRoot (root : List Char) : Except NodePathError (List Char) :=
  match normalizeNodePath root [] with
  | .error e => .error e
  | .ok normalized => if isAbsoluteNodePath normalized then .ok normalized else .error .notAbsolute

/-! ### Policies -/

/-- What a policy restricts paths to. -/
inductive PathPolicyMode
  | unrestricted
  | nodeWorkPath
  | serverDirs
  deriving DecidableEq

/-- The text of a mode. -/
def PathPolicyMode.text : PathPolicyMode → String
  | .unrestricted => "unrestricted"
  | .nodeWorkPath => "node_workpath"
  | .serverDirs => "server_dirs"

def trimSpace (p : List Char) : List Char :=
  let space (c : Char) : Bool := c = '\n' ∨ Decimal.isBlank c
  ((p.dropWhile space).reverse.dropWhile space).reverse

/-- Whether there is a lister of servers matters only when the policy is made. -/
structure PathPolicy where
  mode : PathPolicyMode
  extraRoots : List (List Char) := []
  normalized : ∀ root ∈ extraRoots, ∃ raw, normalizeAbsoluteRoot raw = .ok root := by simp

/-- Why there is no policy. -/
inductive PathPolicyConfigError
  | allowedPath (root : List Char) (e : NodePathError)
  | noServerRepository
  deriving DecidableEq

/-- The normal forms of the allowed paths. -/
def extraRootsOf : List (List Char) → Except PathPolicyConfigError
    {roots : List (List Char) // ∀ root ∈ roots, ∃ raw, normalizeAbsoluteRoot raw = .ok root}
  | [] => .ok ⟨[], by simp⟩
  | p :: ps =>
    if trimSpace p = [] then extraRootsOf ps
    else
      match h : normalizeAbsoluteRoot (trimSpace p) with
      | .error e => .error (.allowedPath (trimSpace p) e)
      | .ok root =>
        match extraRootsOf ps with
        | .error e => .error e
        | .ok ⟨roots, hroots⟩ => .ok ⟨root :: roots, by
            intro r hr
            rcases mem_cons.1 hr with rfl | hr
            · exact ⟨_, h⟩
            · exact hroots r hr⟩

def newPathPolicy (mode : PathPolicyMode) (allowedPaths : List (List Char)) (hasServers : Bool) :
    Except PathPolicyConfigError PathPolicy :=
  match extraRootsOf allowedPaths with
  | .error e => .error e
  | .ok ⟨roots, hroots⟩ =>
    if mode = .serverDirs ∧ hasServers = false then .error .noServerRepository
    else .ok ⟨mode, roots, hroots⟩

/-- The directory of the plugins. -/
def pluginServiceRoot : String := ".plugins"

/-- The directory of one plugin. -/
def pluginServiceDir (workPath : List Char) (pluginID : UInt64) : List Char :=
  if pluginID = 0 ∨ trimSpace workPath = [] then []
  else joinNodePath workPath (pluginServiceRoot ++ "/" ++ compactPluginID pluginID).toList

/-- The roots for one node and plugin. -/
structure PathScope where
  mode : PathPolicyMode
  workPath : List Char := []
  caseFold : Bool := false
  roots : List (List Char) := []
  deriving DecidableEq

/-- Why there is no scope. -/
inductive ScopeError
  | workPathNotConfigured
  | listServers (cause : String)
  deriving DecidableEq

/-- The roots of a mode: the work path, or the directories of the servers that have one. -/
def modeRoots (mode : PathPolicyMode) (workPath : List Char) (serverDirs : Except String (List String)) :
    Except ScopeError (List (List Char)) :=
  match mode with
  | .unrestricted => .ok []
  | .nodeWorkPath => .ok [workPath]
  | .serverDirs =>
    match serverDirs with
    | .error cause => .error (.listServers cause)
    | .ok dirs =>
      .ok ((dirs.filter fun dir => trimSpace dir.toList ≠ []).map fun dir =>
        joinNodePath workPath dir.toList)

/-- `serverDirs` are the directories of the servers of the node, or why they cannot be listed. -/
def scopeFor (policy : Option PathPolicy) (node : Option Node) (pluginID : UInt64)
    (serverDirs : Except String (List String)) : Except ScopeError PathScope :=
  match policy, node with
  | some policy, some node =>
    if policy.mode = .unrestricted then
      .ok { mode := policy.mode, caseFold := node.os = .windows }
    else
      match normalizeAbsoluteRoot node.workPath.toList with
      | .error _ => .error .workPathNotConfigured
      | .ok workPath =>
        match modeRoots policy.mode workPath serverDirs with
        | .error e => .error e
        | .ok roots =>
          let serviceDir := pluginServiceDir workPath pluginID
          .ok
            { mode := policy.mode
              workPath
              caseFold := node.os = .windows
              roots := policy.extraRoots ++ (if serviceDir ≠ [] then [serviceDir] else []) ++ roots }
  | _, _ => .ok { mode := .unrestricted }

/-- `PathPolicyError`: a refused path. -/
structure PathDenial where
  path : List Char
  mode : PathPolicyMode
  reason : String
  deriving DecidableEq

/-- What is used of `unicode.ToLower`. -/
structure CaseMap where
  lower : Char → Char
  lower_toUpper : ∀ c, isDriveLetter c = true → lower c.toUpper = lower c
  lower_eq_slash : ∀ c, lower c = '/' ↔ c = '/'
  lower_eq_dot : ∀ c, lower c = '.' ↔ c = '.'

theorem toLower_eq_iff {x : Char} (hx : x.isAlpha = false) (c : Char) : c.toLower = x ↔ c = x := by
  constructor
  · rintro rfl
    have hupper : ¬ c.isUpper := fun hupper => by simp [isAlpha, hupper] at hx
    exact (toLower_eq_of_not_isUpper hupper).symm
  · rintro rfl
    exact toLower_eq_of_not_isUpper fun hupper => by simp [isAlpha, hupper] at hx

theorem lowerRune_eq_nonletter {x : Char} (hx : x.isAlpha = false) (hrune : x ≠ '\u212A' ∧ x ≠ '\u0130')
    (c : Char) : lowerRune c = x ↔ c = x := by
  unfold lowerRune
  split_ifs with hk hi
  · subst hk
    exact iff_of_false (by rintro rfl; cases hx) hrune.1.symm
  · subst hi
    exact iff_of_false (by rintro rfl; cases hx) hrune.2.symm
  · exact toLower_eq_iff hx c

theorem isDriveLetter_eq_isAlpha (c : Char) : isDriveLetter c = c.isAlpha := by
  simp [isDriveLetter, isASCIILetter, isAlpha, isUpper, isLower, le_def, or_comm]

/-- The lower case of letters, as far as it leads to ASCII. -/
def CaseMap.runes : CaseMap where
  lower := lowerRune
  lower_toUpper c hc := by
    rw [isDriveLetter_eq_isAlpha] at hc
    have hrune : ∀ x : Char, x.isAlpha = true → lowerRune x = x.toLower := by
      intro x hx
      rw [lowerRune, if_neg (by rintro rfl; cases hx), if_neg (by rintro rfl; cases hx)]
    rw [hrune c hc, hrune c.toUpper (by rw [Char.isAlpha_toUpper_eq_isAlpha, hc]),
      Char.toLower_toUpper_eq_toLower]
  lower_eq_slash := lowerRune_eq_nonletter (by decide) (by decide)
  lower_eq_dot := lowerRune_eq_nonletter (by decide) (by decide)

namespace PathScope

variable (F : CaseMap) (s : PathScope)

/-- The letters as they are compared. -/
def letter (c : Char) : Char := if s.caseFold then F.lower c else c

/-- The path is a root or below one. -/
def inRoots (normalized : List Char) : Bool :=
  let candidate := normalized.map (s.letter F)
  s.roots.any fun root =>
    let root := root.map (s.letter F)
    candidate = root || (trimSlash root ++ ['/']).isPrefixOf candidate

/-- `none` accepts the path. -/
def check (raw : List Char) : Option PathDenial :=
  match normalizeNodePath raw s.workPath with
  | .error e => some ⟨raw, s.mode, e.text⟩
  | .ok normalized =>
    if s.mode = .unrestricted then none
    else if s.inRoots F normalized then none
    else some ⟨raw, s.mode, "path outside allowed roots (" ++ s.mode.text ++ ")"⟩

end PathScope

/-! ### Absolute paths -/

/-- An absolute path with slashes only that does not climb. -/
structure AbsolutePath (p : List Char) : Prop where
  abs : isAbsoluteNodePath p = true
  back : '\\' ∉ p
  up : ['.', '.'] ∉ names p

/-- What is written in a path: whether it is rooted, and the names. -/
def lexical (p : List Char) : Bool × List Name := (isRooted p, names p)

variable {p q root workPath raw : List Char} {c : Char} (t : List Char)

theorem isDriveLetter_toUpper (h : isDriveLetter c = true) : isDriveLetter c.toUpper = true := by
  rw [isDriveLetter_eq_isAlpha] at h ⊢
  rw [isAlpha_toUpper_eq_isAlpha, h]

theorem isAbsoluteNodePath_normalize (p : List Char) :
    isAbsoluteNodePath (normalize p) = isAbsoluteNodePath p := by
  rw [isAbsoluteNodePath, normalize_eq_self (backslash_notMem_normalize p)]
  rfl

theorem absolute_cases (hback : '\\' ∉ p) (h : isAbsoluteNodePath p = true) :
    (∃ t, p = '/' :: t) ∨ ∃ c t, isDriveLetter c = true ∧ p = c :: ':' :: '/' :: t := by
  rw [isAbsoluteNodePath, normalize_eq_self hback] at h
  split at h
  · exact .inl ⟨_, rfl⟩
  · exact .inr ⟨_, _, h, rfl⟩
  · cases h

theorem isAbsoluteNodePath_drive (h : isDriveLetter c = true) (t : List Char) :
    isAbsoluteNodePath (c :: ':' :: '/' :: t) = true := by
  have hback : c ≠ '\\' := by
    rintro rfl
    cases h
  have hslash : c ≠ '/' := by
    rintro rfl
    cases h
  simp [isAbsoluteNodePath, normalize, hback, h]

theorem AbsolutePath.ne_nil (h : AbsolutePath p) : p ≠ [] := by
  rintro rfl
  cases h.abs

theorem AbsolutePath.denotes_eq (h : AbsolutePath p) (conv : Convention) :
    denotes conv p = lexical p := by
  have hnorm : conv.norm p = p := by
    rw [Convention.norm_eq_normalize fun _ => h.back, normalize_eq_self h.back]
  rw [denotes, hnorm, cleanComponents_of_notMem h.up, lexical]

/-! ### Cleaning -/

theorem cleanNodePath_slash : cleanNodePath ('/' :: t) = clean ('/' :: t) := by
  unfold cleanNodePath
  split
  · next heq =>
    obtain ⟨rfl, -⟩ := List.cons.inj heq
    rfl
  · rfl

theorem cleanNodePath_drive (h : isDriveLetter c = true) (t : List Char) :
    cleanNodePath (c :: ':' :: '/' :: t) = c.toUpper :: ':' :: clean ('/' :: t) := by
  simp [cleanNodePath, h, trimPrefix]

theorem lexical_drive (h : isDriveLetter c = true) (t : List Char) :
    lexical (c :: ':' :: '/' :: t) = (false, [c, ':'] :: names t) := by
  have hslash : c ≠ '/' := by
    rintro rfl
    cases h
  have hname : names [c, ':'] = [[c, ':']] := names_name (by simp [hslash.symm]) (by simp)
  have hsplit : names (c :: ':' :: '/' :: t) = names [c, ':'] ++ names t :=
    names_append_slash [c, ':'] t
  rw [lexical, hsplit, hname]
  simp [isRooted, hslash]

theorem clean_slash : clean ('/' :: t) = '/' :: join (cleanComponents ('/' :: t)) := if_pos rfl

theorem backslash_notMem_clean (h : '\\' ∉ p) : '\\' ∉ clean p := by
  intro hmem
  rcases mem_of_mem_clean hmem with hmem | hmem | hmem
  · exact h hmem
  all_goals exact absurd hmem (by decide)

theorem absolutePath_cleanNodePath (habs : isAbsoluteNodePath p = true) (hback : '\\' ∉ p) :
    AbsolutePath (cleanNodePath p) := by
  rcases absolute_cases hback habs with ⟨t, rfl⟩ | ⟨c, t, hc, rfl⟩
  · rw [cleanNodePath_slash]
    refine ⟨?_, backslash_notMem_clean hback, ?_⟩
    · rfl
    · rw [names_clean]
      exact climb_notMem_cleanComponents rfl
  · have hupper := isDriveLetter_toUpper hc
    have hcback : c.toUpper ≠ '\\' := by
      intro heq
      rw [heq] at hupper
      cases hupper
    have htback : '\\' ∉ '/' :: t := fun h => hback (mem_cons_of_mem _ (mem_cons_of_mem _ h))
    have hnames := names_clean ('/' :: t)
    have hclean := backslash_notMem_clean htback
    rw [cleanNodePath_drive hc]
    rw [clean_slash] at hclean hnames ⊢
    rw [names_cons_slash] at hnames
    refine ⟨isAbsoluteNodePath_drive hupper _, ?_, ?_⟩
    · simp only [mem_cons, not_or] at hclean ⊢
      exact ⟨hcback.symm, by decide, hclean⟩
    · show ['.', '.'] ∉ (lexical (c.toUpper :: ':' :: '/' :: join (cleanComponents ('/' :: t)))).2
      rw [lexical_drive hupper, hnames]
      intro hmem
      rcases mem_cons.1 hmem with heq | hmem
      · simp at heq
      · exact climb_notMem_cleanComponents rfl hmem

/-! ### Putting paths below one another -/

theorem trimSlash_append (p q : List Char) :
    trimSlash p ++ '/' :: q = p ++ q ∧ p.getLast? = some '/' ∨
      trimSlash p ++ '/' :: q = p ++ '/' :: q := by
  unfold trimSlash
  split_ifs with hlast
  · obtain ⟨v, rfl⟩ := getLast?_eq_some_iff.1 hlast
    left
    simp
  · right
    rfl

theorem names_trimSlash (p : List Char) : names (trimSlash p) = names p := by
  unfold trimSlash
  split_ifs with hlast
  · obtain ⟨v, rfl⟩ := getLast?_eq_some_iff.1 hlast
    rw [dropLast_concat, names_append_slash, names_nil, append_nil]
  · rfl

theorem lexical_joined (hroot : root ≠ []) (q : List Char) :
    lexical (trimSlash root ++ '/' :: q) = (isRooted root, names root ++ names q) := by
  have hrooted : isRooted (trimSlash root ++ '/' :: q) = isRooted root := by
    rcases trimSlash_append root q with ⟨heq, -⟩ | heq <;> rw [heq, isRooted_append hroot]
  rw [lexical, hrooted, names_append_slash, names_trimSlash]

theorem isAbsoluteNodePath_append (hback : '\\' ∉ p) (h : isAbsoluteNodePath p = true)
    (q : List Char) : isAbsoluteNodePath (p ++ q) = true := by
  rcases absolute_cases hback h with ⟨t, rfl⟩ | ⟨c, t, hc, rfl⟩
  · rfl
  · exact isAbsoluteNodePath_drive hc _

theorem isAbsoluteNodePath_joined (h : AbsolutePath root) (q : List Char) :
    isAbsoluteNodePath (trimSlash root ++ '/' :: q) = true := by
  rcases trimSlash_append root q with ⟨heq, -⟩ | heq <;> rw [heq] <;>
    exact isAbsoluteNodePath_append h.back h.abs _

theorem backslash_notMem_joined (h : AbsolutePath root) (hq : '\\' ∉ q) :
    '\\' ∉ trimSlash root ++ '/' :: q := by
  rcases trimSlash_append root q with ⟨heq, -⟩ | heq <;> rw [heq] <;> simp [h.back, hq]

theorem backslash_notMem_trimPrefix (hp : '\\' ∉ p) (q : List Char) : '\\' ∉ trimPrefix p q := by
  unfold trimPrefix
  split_ifs
  · exact fun hmem => hp (mem_of_mem_drop hmem)
  · exact hp

theorem absolutePath_joinNodePath (h : AbsolutePath root) (rel : List Char) :
    AbsolutePath (joinNodePath root rel) :=
  absolutePath_cleanNodePath (isAbsoluteNodePath_joined h _)
    (backslash_notMem_joined h (backslash_notMem_trimPrefix (backslash_notMem_normalize rel) _))

/-! ### What is accepted -/

theorem normalizeNodePath_eq_ok {N : List Char} (h : normalizeNodePath raw workPath = .ok N) :
    ['.', '.'] ∉ components (normalize raw) ∧
      N = cleanNodePath (if isAbsoluteNodePath raw = false ∧ workPath ≠ [] then
        joinNodePath workPath (normalize raw) else normalize raw) := by
  unfold normalizeNodePath at h
  rw [isAbsoluteNodePath_normalize] at h
  split_ifs at h with hnull hany hrel
  all_goals
    have hup : ['.', '.'] ∉ components (normalize raw) := fun hmem =>
      hany (any_eq_true.2 ⟨_, hmem, decide_eq_true rfl⟩)
  · exact ⟨hup, by rw [if_pos hrel]; exact (Except.ok.inj h).symm⟩
  · exact ⟨hup, by rw [if_neg hrel]; exact (Except.ok.inj h).symm⟩

theorem climb_notMem_of_components (h : ['.', '.'] ∉ components p) : ['.', '.'] ∉ names p :=
  fun hmem => h (mem_of_mem_filter hmem)

/-- What is made of a path is absolute with its names, or it is what is made of an absolute one:
`C:x` is taken for `C:/x`. -/
theorem cleanNodePath_cases (p : List Char) :
    cleanNodePath p = clean p ∨ ∃ c rest, isDriveLetter c = true ∧ p = c :: ':' :: rest ∧
      cleanNodePath p = cleanNodePath (c :: ':' :: '/' :: trimPrefix rest ['/']) := by
  by_cases hdrive : ∃ c rest, isDriveLetter c = true ∧ p = c :: ':' :: rest
  · obtain ⟨c, rest, hc, rfl⟩ := hdrive
    refine .inr ⟨c, rest, hc, rfl, ?_⟩
    rw [cleanNodePath_drive hc]
    simp [cleanNodePath, hc]
  · left
    unfold cleanNodePath
    split
    · next c rest =>
      rw [if_neg fun hc => hdrive ⟨c, rest, hc, rfl⟩]
    · rfl

theorem absolutePath_of_normalizeAbsoluteRoot (h : normalizeAbsoluteRoot raw = .ok root) :
    root = cleanNodePath (normalize raw) ∧ ['.', '.'] ∉ names (normalize raw) ∧ AbsolutePath root := by
  unfold normalizeAbsoluteRoot at h
  cases hnorm : normalizeNodePath raw [] with
  | error e =>
    rw [hnorm] at h
    cases h
  | ok N =>
    rw [hnorm] at h
    dsimp only at h
    split_ifs at h with habs
    cases h
    obtain ⟨hcomp, hroot⟩ := normalizeNodePath_eq_ok hnorm
    rw [if_neg (by simp)] at hroot
    have hup := climb_notMem_of_components hcomp
    have hback := backslash_notMem_normalize raw
    refine ⟨hroot, hup, ?_⟩
    subst hroot
    rcases cleanNodePath_cases (normalize raw) with hclean | ⟨c, rest, hc, hraw, hclean⟩
    · refine ⟨habs, ?_, ?_⟩
      · rw [hclean]
        exact backslash_notMem_clean hback
      · rw [hclean, names_clean]
        exact fun hmem => hup (mem_names_of_mem_cleanComponents hmem)
    · rw [hclean]
      refine absolutePath_cleanNodePath (isAbsoluteNodePath_drive hc _) ?_
      rw [hraw] at hback
      simp only [mem_cons, not_or] at hback ⊢
      exact ⟨hback.1, hback.2.1, by decide, backslash_notMem_trimPrefix hback.2.2 _⟩

variable {pluginID : UInt64}

variable {serverDirs : Except String (List String)} {node : Node}

theorem absolutePath_of_mem_modeRoots (h : AbsolutePath workPath) {mode : PathPolicyMode}
    {roots : List (List Char)} (hroots : modeRoots mode workPath serverDirs = .ok roots)
    (hroot : root ∈ roots) :
    AbsolutePath root := by
  cases mode with
  | unrestricted =>
    cases hroots
    cases hroot
  | nodeWorkPath =>
    cases hroots
    rw [mem_singleton.1 hroot]
    exact h
  | serverDirs =>
    cases serverDirs with
    | error cause => cases hroots
    | ok dirs =>
      cases hroots
      obtain ⟨dir, -, rfl⟩ := mem_map.1 hroot
      exact absolutePath_joinNodePath h _

/-- The scope of a restricted policy: its roots are absolute paths, and the work path is one of them
if the mode says so. -/
theorem scopeFor_eq_ok {policy : PathPolicy} {scope : PathScope}
    (hmode : policy.mode ≠ .unrestricted)
    (h : scopeFor (some policy) (some node) pluginID serverDirs = .ok scope) :
    normalizeAbsoluteRoot node.workPath.toList = .ok scope.workPath ∧ scope.mode = policy.mode ∧
      scope.caseFold = decide (node.os = .windows) ∧ (∀ root ∈ scope.roots, AbsolutePath root) ∧
      (policy.mode = .nodeWorkPath → scope.workPath ∈ scope.roots) := by
  unfold scopeFor at h
  dsimp only at h
  rw [if_neg hmode] at h
  cases hwork : normalizeAbsoluteRoot node.workPath.toList with
  | error e =>
    rw [hwork] at h
    cases h
  | ok workPath =>
    obtain ⟨-, -, hworkPath⟩ := absolutePath_of_normalizeAbsoluteRoot hwork
    rw [hwork] at h
    dsimp only at h
    cases hroots : modeRoots policy.mode workPath serverDirs with
    | error e =>
      rw [hroots] at h
      cases h
    | ok roots =>
      rw [hroots] at h
      cases h
      refine ⟨rfl, rfl, rfl, fun root hroot => ?_, fun hnode => ?_⟩
      · rcases mem_append.1 hroot with hroot | hroot
        · rcases mem_append.1 hroot with hroot | hroot
          · obtain ⟨raw, hraw⟩ := policy.normalized root hroot
            exact (absolutePath_of_normalizeAbsoluteRoot hraw).2.2
          · split_ifs at hroot with hdir
            · rw [mem_singleton.1 hroot]
              unfold pluginServiceDir at hdir ⊢
              split_ifs at hdir ⊢
              · exact absurd rfl hdir
              · exact absolutePath_joinNodePath hworkPath _
            · cases hroot
        · exact absolutePath_of_mem_modeRoots hworkPath hroots hroot
      · rw [hnode] at hroots
        cases hroots
        exact mem_append_right _ (mem_singleton_self _)

/-- The names of a location in the letters in which they are compared. -/
def foldNames (f : Char → Char) (place : Bool × List Name) : Bool × List Name :=
  (place.1, place.2.map (List.map f))

theorem contains_of_prefix (hroot : root ≠ []) (h : p = root ∨ trimSlash root ++ ['/'] <+: p) :
    Contains (lexical root) (lexical p) := by
  rcases h with rfl | ⟨t, rfl⟩
  · exact ⟨rfl, prefix_refl _⟩
  · rw [append_assoc, singleton_append, lexical_joined hroot]
    exact ⟨rfl, prefix_append _ _⟩

namespace PathScope

variable {F : CaseMap} {s : PathScope}

theorem letter_eq_slash (c : Char) : s.letter F c = '/' ↔ c = '/' := by
  unfold letter
  split_ifs
  · exact F.lower_eq_slash c
  · rfl

theorem letter_eq_dot (c : Char) : s.letter F c = '.' ↔ c = '.' := by
  unfold letter
  split_ifs
  · exact F.lower_eq_dot c
  · rfl

theorem lexical_map (p : List Char) :
    lexical (p.map (s.letter F)) = foldNames (s.letter F) (lexical p) := by
  rw [lexical, isRooted_map letter_eq_slash, names_map letter_eq_slash letter_eq_dot]
  rfl

theorem contains_of_inRoots (hroots : ∀ root ∈ s.roots, AbsolutePath root)
    (h : s.inRoots F p = true) : ∃ root ∈ s.roots,
      Contains (foldNames (s.letter F) (lexical root)) (foldNames (s.letter F) (lexical p)) := by
  obtain ⟨root, hroot, hin⟩ := any_eq_true.1 h
  refine ⟨root, hroot, ?_⟩
  have hne : root.map (s.letter F) ≠ [] := fun hnil =>
    (hroots root hroot).ne_nil (map_eq_nil_iff.1 hnil)
  rw [← lexical_map, ← lexical_map]
  refine contains_of_prefix hne ?_
  simpa [List.isPrefixOf_iff_prefix] using hin

theorem check_eq_none (hmode : s.mode ≠ .unrestricted) (h : s.check F raw = none) :
    ∃ N, normalizeNodePath raw s.workPath = .ok N ∧ s.inRoots F N = true := by
  unfold check at h
  cases hnorm : normalizeNodePath raw s.workPath with
  | error e =>
    rw [hnorm] at h
    cases h
  | ok N =>
    rw [hnorm] at h
    dsimp only at h
    rw [if_neg hmode] at h
    split_ifs at h with hin
    exact ⟨N, rfl, hin⟩

end PathScope

end GameAP
