import GameAP.Plugins.PathPolicy

/-!
# Where the paths of plugins lead

The policy checks the normal form of a path.  The daemon gets `stripWorkPath` of the path as it was
sent, and resolves it below its work path.

`check_confines`: the location that the daemon addresses lies below a root of the scope, if the path
is cut where the check thinks it is (`SentAsChecked`), or if the whole work path is a root and no
name of the path ends in two dots.  Otherwise the two readings differ: `a:..` is a name for the
check, and a drive and a climb for `stripWorkPath` (`sent_outside_roots`).
-/

namespace GameAP

open Filepath List

/-! ### Where the daemon goes -/

/-- The separators of the node's system. -/
def NodeOS.convention : NodeOS → Convention
  | .windows => .both
  | .linux | .macos | .other => .slash

/-- The location that `FileService` addresses: the work path with what is sent below it. -/
def Node.addresses (node : Node) (p : List Char) : Bool × List Name :=
  resolve node.os.convention node.workPath.toList (stripWorkPath node.workPath.toList p)

/-- The location is a root of the scope or lies below one. -/
def PathScope.Confines (F : CaseMap) (s : PathScope) (conv : Convention) (place : Bool × List Name) :
    Prop :=
  ∃ root ∈ s.roots, Contains (foldNames (s.letter F) (denotes conv root)) (foldNames (s.letter F) place)

instance (F : CaseMap) (s : PathScope) (conv : Convention) (place : Bool × List Name) :
    Decidable (s.Confines F conv place) := inferInstanceAs (Decidable (∃ _ ∈ _, _))

/-- The work path is an absolute path of the node's system, and has no backslash unless that
separates names. -/
def Node.NativeWorkPath (node : Node) : Prop :=
  node.os.convention.isAbs node.workPath.toList = true ∧
    (node.os.convention = .slash → '\\' ∉ node.workPath.toList)

instance (node : Node) : Decidable node.NativeWorkPath := inferInstanceAs (Decidable (_ ∧ _))

/-- A path that is sent as it is checked: an absolute one begins with the work path, which ends
where a name ends, and a relative one does not begin with a drive. -/
def SentAsChecked (workPath p : List Char) : Prop :=
  if isAbsoluteNodePath p then Cuts .both (normalize workPath) (normalize p)
  else driveLike (normalize p) = false

instance (workPath p : List Char) : Decidable (SentAsChecked workPath p) := by
  unfold SentAsChecked
  infer_instance

/-! ### What is sent -/

variable {F : CaseMap} {node : Node} {scope : PathScope} {workPath p N : List Char}
  {f : Char → Char}

theorem suffix_stripWorkPath (workPath p : List Char) :
    stripWorkPath workPath p = ['.'] ∨ stripWorkPath workPath p <:+ normalize p := by
  have htrim : trimPrefix (normalize p) (normalize workPath) <:+ normalize p := by
    unfold trimPrefix
    split_ifs
    · exact drop_suffix _ _
    · exact suffix_refl _
  unfold stripWorkPath
  simp only
  split_ifs
  · exact .inl rfl
  · exact .inr ((dropWhile_suffix _).trans ((drop_suffix _ _).trans htrim))
  · exact .inl rfl
  · exact .inr ((dropWhile_suffix _).trans htrim)

theorem climb_notMem_stripWorkPath (workPath : List Char)
    (h : ∀ c ∈ components (normalize p), ¬ ['.', '.'] <:+ c) :
    ['.', '.'] ∉ names (stripWorkPath workPath p) := by
  rcases suffix_stripWorkPath workPath p with hdot | hsuf
  · rw [hdot, names_dot]
    exact not_mem_nil
  · intro hmem
    obtain ⟨c, hc, hend⟩ := exists_suffix_of_mem_components hsuf (mem_of_mem_filter hmem)
    exact h c hc hend

theorem names_stripWorkPath_relative (hwork : isAbsoluteNodePath workPath = true)
    (hrel : isAbsoluteNodePath p = false) (hdrive : driveLike (normalize p) = false) :
    names (stripWorkPath workPath p) = names (normalize p) := by
  have htrim : trimPrefix (normalize p) (normalize workPath) = normalize p := by
    refine if_neg fun hprefix => ?_
    obtain ⟨t, ht⟩ := List.isPrefixOf_iff_prefix.1 hprefix
    rw [← isAbsoluteNodePath_normalize] at hwork hrel
    have habs := isAbsoluteNodePath_append (backslash_notMem_normalize workPath) hwork t
    rw [ht, hrel] at habs
    cases habs
  simp only [stripWorkPath, htrim, hdrive, Bool.false_eq_true, if_false]
  rw [← names_trimLeftSlashes (normalize p)]
  split_ifs with hnil
  · rw [hnil, names_dot, names_nil]
  · rfl

/-! ### The work path of a node -/

namespace Node.NativeWorkPath

variable (h : node.NativeWorkPath)
include h

theorem ne_nil : node.workPath.toList ≠ [] := by
  intro hnil
  have habs := h.1
  rw [hnil] at habs
  cases hconv : node.os.convention <;> rw [hconv] at habs <;> cases habs

theorem normalize_ne_nil : normalize node.workPath.toList ≠ [] := Convention.both.norm_ne_nil h.ne_nil

theorem isAbsolute : isAbsoluteNodePath node.workPath.toList = true := by
  have habs := h.1
  cases hconv : node.os.convention with
  | slash =>
    rw [hconv] at habs
    obtain ⟨t, ht⟩ := head?_eq_some_iff.1 (of_decide_eq_true habs)
    rw [ht]
    rfl
  | both =>
    rw [hconv] at habs
    exact habs

/-- Where the separators of the panel are those of the node, the daemon reads what the panel
reads. -/
theorem addresses_eq (p : List Char) : node.addresses p =
    resolve .both (normalize node.workPath.toList) (stripWorkPath node.workPath.toList p) := by
  rw [Node.addresses, resolve, resolve, if_neg h.ne_nil, if_neg h.normalize_ne_nil, denotes, denotes,
    Convention.norm_append_slash, Convention.norm_append_slash, Convention.norm_eq_normalize h.2,
    norm_stripWorkPath, norm_stripWorkPath, Convention.norm,
    normalize_eq_self (backslash_notMem_normalize _)]

theorem addresses_below (hup : ['.', '.'] ∉ names (normalize node.workPath.toList))
    (hsent : ['.', '.'] ∉ names (stripWorkPath node.workPath.toList p)) :
    node.addresses p = (isRooted (normalize node.workPath.toList),
      names (normalize node.workPath.toList) ++ names (stripWorkPath node.workPath.toList p)) := by
  have hback := backslash_notMem_normalize node.workPath.toList
  rw [h.addresses_eq, resolve_eq h.normalize_ne_nil (by rw [norm_stripWorkPath]) hsent, Convention.norm,
    normalize_eq_self hback, cleanComponents_of_notMem hup]

end Node.NativeWorkPath

/-! ### Cleaning and the letter of a drive -/

/-- The letters are compared so that drives in upper and lower case are the same. -/
def IgnoresDriveCase (f : Char → Char) : Prop := ∀ c, isDriveLetter c = true → f c.toUpper = f c

theorem foldNames_cleanNodePath (habs : isAbsoluteNodePath p = true)
    (hback : '\\' ∉ p) (hup : ['.', '.'] ∉ names p) (hf : isRooted p = true ∨ IgnoresDriveCase f) :
    foldNames f (lexical (cleanNodePath p)) = foldNames f (lexical p) := by
  rcases absolute_cases hback habs with ⟨t, rfl⟩ | ⟨c, t, hc, rfl⟩
  · rw [cleanNodePath_slash, lexical, names_clean, cleanComponents_of_notMem hup, clean_slash]
    rfl
  · have hupt : ['.', '.'] ∉ names ('/' :: t) := by
      have hsplit := congrArg Prod.snd (lexical_drive hc t)
      dsimp only [lexical] at hsplit
      rw [hsplit] at hup
      exact fun hmem => hup (mem_cons_of_mem _ hmem)
    have hfold : f c.toUpper = f c := by
      rcases hf with hroot | hf
      · have hfalse := congrArg Prod.fst (lexical_drive hc t)
        dsimp only [lexical] at hfalse
        rw [hfalse] at hroot
        cases hroot
      · exact hf c hc
    have hnames := names_clean ('/' :: t)
    rw [clean_slash, names_cons_slash, cleanComponents_of_notMem hupt, names_cons_slash] at hnames
    rw [cleanNodePath_drive hc, clean_slash, lexical_drive (isDriveLetter_toUpper hc), lexical_drive hc,
      cleanComponents_of_notMem hupt, names_cons_slash, hnames]
    simp [foldNames, hfold]

theorem names_trimPrefix_slash (p : List Char) : names (trimPrefix p ['/']) = names p := by
  unfold trimPrefix
  split_ifs with hprefix
  · obtain ⟨t, rfl⟩ := List.isPrefixOf_iff_prefix.1 hprefix
    exact (names_cons_slash t).symm
  · rfl

theorem foldNames_joinNodePath {root rel : List Char} (h : AbsolutePath root)
    (hup : ['.', '.'] ∉ names (normalize rel)) (hf : isRooted root = true ∨ IgnoresDriveCase f) :
    foldNames f (lexical (joinNodePath root rel)) =
      foldNames f (isRooted root, names root ++ names (normalize rel)) := by
  have hlex := lexical_joined h.ne_nil (trimPrefix (normalize rel) ['/'])
  rw [names_trimPrefix_slash] at hlex
  have hroot := congrArg Prod.fst hlex
  have hnames := congrArg Prod.snd hlex
  dsimp only [lexical] at hroot hnames
  have hback := backslash_notMem_trimPrefix (backslash_notMem_normalize rel) ['/']
  rw [← hlex, joinNodePath]
  refine foldNames_cleanNodePath (isAbsoluteNodePath_joined h _) (backslash_notMem_joined h hback) ?_ ?_
  · rw [hnames, mem_append, not_or]
    exact ⟨h.up, hup⟩
  · rw [hroot]
    exact hf

theorem foldNames_append (f : Char → Char) (rooted : Bool) (ns ms : List Name) :
    foldNames f (rooted, ns ++ ms) =
      ((foldNames f (rooted, ns)).1, (foldNames f (rooted, ns)).2 ++ ms.map (map f)) := by
  simp [foldNames]

theorem PathScope.ignoresDriveCase (h : scope.caseFold = true) : IgnoresDriveCase (scope.letter F) := by
  intro c hc
  simp only [PathScope.letter, h, if_true]
  exact F.lower_toUpper c hc

theorem Node.NativeWorkPath.rooted_or (h : node.NativeWorkPath)
    (hfold : scope.caseFold = decide (node.os = .windows)) :
    isRooted (normalize node.workPath.toList) = true ∨ IgnoresDriveCase (scope.letter F) := by
  by_cases hos : node.os = .windows
  · exact .inr (PathScope.ignoresDriveCase (by rw [hfold, hos]; rfl))
  · have hconv : node.os.convention = .slash := by
      cases hnode : node.os <;> first | rfl | exact absurd hnode hos
    have habs := h.1
    rw [hconv] at habs
    left
    obtain ⟨t, ht⟩ := head?_eq_some_iff.1 (of_decide_eq_true habs)
    rw [ht]
    rfl

/-! ### The check and the location -/

section Check

variable (hnode : node.NativeWorkPath)
  (hwork : normalizeAbsoluteRoot node.workPath.toList = .ok scope.workPath)
  (hfold : scope.caseFold = decide (node.os = .windows))
include hnode hwork hfold

theorem foldNames_workPath : foldNames (scope.letter F) (lexical scope.workPath) =
    foldNames (scope.letter F) (lexical (normalize node.workPath.toList)) := by
  obtain ⟨hclean, hup, -⟩ := absolutePath_of_normalizeAbsoluteRoot hwork
  have habs := hnode.isAbsolute
  rw [← isAbsoluteNodePath_normalize] at habs
  rw [hclean]
  exact foldNames_cleanNodePath habs (backslash_notMem_normalize _) hup (hnode.rooted_or hfold)

omit hwork in
theorem foldNames_addresses_absolute (habs : isAbsoluteNodePath p = true)
    (hup : ['.', '.'] ∉ names (normalize p))
    (hcuts : Cuts .both (normalize node.workPath.toList) (normalize p)) :
    foldNames (scope.letter F) (node.addresses p) =
      foldNames (scope.letter F) (lexical (cleanNodePath (normalize p))) := by
  have hback := backslash_notMem_normalize p
  have hlex : node.addresses p = lexical (normalize p) := by
    have hstrip := resolve_strip hcuts
    simp only [stripWorkPath, normalize_eq_self (backslash_notMem_normalize _)] at hstrip
    rw [hnode.addresses_eq, stripWorkPath, hstrip, denotes, Convention.norm,
      normalize_eq_self hback, cleanComponents_of_notMem hup, lexical]
  have hroot : isRooted (normalize p) = isRooted (normalize node.workPath.toList) := by
    obtain ⟨t, ht⟩ := hcuts.1
    rw [← ht, isRooted_append hnode.normalize_ne_nil]
  rw [← isAbsoluteNodePath_normalize] at habs
  rw [hlex]
  exact (foldNames_cleanNodePath habs hback hup (hroot ▸ hnode.rooted_or hfold)).symm

/-- A relative path is taken below the work path, once as it is normalised and once as it is
sent. -/
theorem foldNames_addresses_relative (hrel : isAbsoluteNodePath p = false)
    (hup : ['.', '.'] ∉ names (normalize p)) (hdrive : driveLike (normalize p) = false) :
    foldNames (scope.letter F) (node.addresses p) =
      foldNames (scope.letter F) (lexical (cleanNodePath (joinNodePath scope.workPath (normalize p)))) := by
  obtain ⟨-, hworkUp, hscope⟩ := absolutePath_of_normalizeAbsoluteRoot hwork
  have hworkNames := foldNames_workPath (F := F) hnode hwork hfold
  have hstrip := names_stripWorkPath_relative hnode.isAbsolute hrel hdrive
  have hidem : normalize (normalize p) = normalize p := normalize_eq_self (backslash_notMem_normalize p)
  have hfolds : isRooted scope.workPath = true ∨ IgnoresDriveCase (scope.letter F) := by
    rw [show isRooted scope.workPath = _ from congrArg Prod.fst hworkNames]
    exact hnode.rooted_or hfold
  have hjoined := absolutePath_joinNodePath hscope (normalize p)
  have hjoin := foldNames_joinNodePath hscope (by rwa [hidem]) hfolds
  have hclean : foldNames (scope.letter F)
      (lexical (cleanNodePath (joinNodePath scope.workPath (normalize p)))) =
      foldNames (scope.letter F) (lexical (joinNodePath scope.workPath (normalize p))) := by
    refine foldNames_cleanNodePath hjoined.abs hjoined.back hjoined.up ?_
    rw [show isRooted (joinNodePath scope.workPath (normalize p)) = _ from congrArg Prod.fst hjoin]
    exact hfolds
  rw [hnode.addresses_below hworkUp (hstrip ▸ hup), hstrip, hclean, hjoin, hidem, foldNames_append,
    foldNames_append, ← lexical, ← lexical, hworkNames]

theorem foldNames_addresses (hN : normalizeNodePath p scope.workPath = .ok N)
    (hsent : SentAsChecked node.workPath.toList p) :
    foldNames (scope.letter F) (node.addresses p) = foldNames (scope.letter F) (lexical N) := by
  obtain ⟨-, -, hscope⟩ := absolutePath_of_normalizeAbsoluteRoot hwork
  obtain ⟨hcomp, rfl⟩ := normalizeNodePath_eq_ok hN
  have hup := climb_notMem_of_components hcomp
  unfold SentAsChecked at hsent
  cases habs : isAbsoluteNodePath p with
  | true =>
    rw [if_pos habs] at hsent
    exact foldNames_addresses_absolute hnode hfold habs hup hsent
  | false =>
    rw [habs, if_neg Bool.false_ne_true] at hsent
    rw [if_pos ⟨rfl, hscope.ne_nil⟩]
    exact foldNames_addresses_relative hnode hwork hfold habs hup hsent

end Check

/-- **Confinement**: a path that a restricted policy accepts leads the daemon to a root of the scope
or below one, if it is sent as it is checked, or if the work path is a root and no name ends in two
dots. -/
theorem check_confines (F : CaseMap) (policy : PathPolicy) (hmode : policy.mode ≠ .unrestricted)
    (node : Node) (pluginID : UInt64) (serverDirs : Except String (List String)) {scope : PathScope}
    (hscope : scopeFor (some policy) (some node) pluginID serverDirs = .ok scope) {p : List Char}
    (hcheck : scope.check F p = none) (hnode : node.NativeWorkPath)
    (hsent : SentAsChecked node.workPath.toList p ∨
      policy.mode = .nodeWorkPath ∧ ∀ c ∈ components (normalize p), ¬ ['.', '.'] <:+ c) :
    scope.Confines F node.os.convention (node.addresses p) := by
  obtain ⟨hwork, hscopeMode, hfold, hroots, hworkRoot⟩ := scopeFor_eq_ok hmode hscope
  obtain ⟨-, hworkUp, -⟩ := absolutePath_of_normalizeAbsoluteRoot hwork
  rcases hsent with hsent | ⟨hworkMode, hends⟩
  · obtain ⟨N, hN, hin⟩ := PathScope.check_eq_none (hscopeMode ▸ hmode) hcheck
    obtain ⟨root, hroot, hcont⟩ := PathScope.contains_of_inRoots hroots hin
    refine ⟨root, hroot, ?_⟩
    rw [(hroots root hroot).denotes_eq, foldNames_addresses hnode hwork hfold hN hsent]
    exact hcont
  · have hroot := hworkRoot hworkMode
    refine ⟨scope.workPath, hroot, ?_⟩
    have hclimb := climb_notMem_stripWorkPath node.workPath.toList hends
    rw [(hroots _ hroot).denotes_eq, hnode.addresses_below hworkUp hclimb, foldNames_append, ← lexical,
      foldNames_workPath hnode hwork hfold]
    exact ⟨rfl, List.prefix_append _ _⟩

/-- The servers of a Windows node in lower and upper case. -/
def sampleWindowsNode : Node := { id := 2, os := .windows, workPath := "C:\\GameAP" }

def sampleWindowsScope : PathScope where
  mode := .serverDirs
  workPath := "C:/GameAP".toList
  caseFold := true
  roots := ["C:/GameAP/.plugins/a4".toList, "C:/GameAP/servers/cs".toList]

theorem check_confines_windows :
    scopeFor (some { mode := .serverDirs }) (some sampleWindowsNode) 7 (.ok ["servers\\cs", " "]) =
      .ok sampleWindowsScope ∧
    sampleWindowsScope.check .runes "Servers\\CS/maps".toList = none ∧
    sampleWindowsScope.Confines .runes .both (sampleWindowsNode.addresses "Servers\\CS/maps".toList) :=
  ⟨by decide, by decide,
    check_confines .runes { mode := .serverDirs } (by decide) sampleWindowsNode 7
      (.ok ["servers\\cs", " "]) (by decide) (by decide) (by decide) (.inl (by decide))⟩

def sampleLinuxNode : Node := { id := 1, workPath := "/srv/gameap" }

/-- The scope of the whole work path, for a plugin without a directory of its own. -/
def sampleWorkPathScope : PathScope where
  mode := .nodeWorkPath
  workPath := "/srv/gameap".toList
  roots := ["/srv/gameap".toList]

/-- The scope of no server, with an extra root. -/
def sampleExtraScope : PathScope where
  mode := .serverDirs
  workPath := "/srv/gameap".toList
  roots := ["/opt/shared".toList]

/-- The name `a:..` loses its drive and climbs out of the work path; a path below an extra root
leads into the work path, which is not below a root. -/
theorem sent_outside_roots :
    (scopeFor (some { mode := .nodeWorkPath }) (some sampleLinuxNode) 0 (.ok []) =
        .ok sampleWorkPathScope ∧
      sampleWorkPathScope.check .runes "a:../other/x".toList = none ∧
      stripWorkPath "/srv/gameap".toList "a:../other/x".toList = "../other/x".toList ∧
      ¬ sampleWorkPathScope.Confines .runes .slash (sampleLinuxNode.addresses "a:../other/x".toList)) ∧
    (∃ policy, newPathPolicy .serverDirs ["/opt/shared".toList] true = .ok policy ∧
      scopeFor (some policy) (some sampleLinuxNode) 0 (.ok []) = .ok sampleExtraScope ∧
      sampleExtraScope.check .runes "/opt/shared/x".toList = none ∧
      stripWorkPath "/srv/gameap".toList "/opt/shared/x".toList = "opt/shared/x".toList ∧
      ¬ sampleExtraScope.Confines .runes .slash (sampleLinuxNode.addresses "/opt/shared/x".toList)) := by
  refine ⟨⟨by decide, by decide, by decide, by decide⟩, _, rfl, ?_, ?_, ?_, ?_⟩
  all_goals decide

end GameAP
