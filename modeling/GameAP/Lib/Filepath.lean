import Mathlib.Data.List.Basic

/-!
# Slash-separated paths

Lexical operations on paths with the separator `/`: `clean`, `dir` and `base` of a path package, and
`inRoot`, the components that a path has below a root directory that it must not leave.

* `join_prefix_iff`: a path continues `d₁/…/dₖ/b` exactly when its first components are `d₁, …, dₖ`
  and the next one continues `b`;
* `inRoot_dir`, `base_eq`: the directory and the last element of a path in normal form;
* `names` are the components that count, and `clean_append_slash` says what joined paths become when
  the names below do not climb.
-/

namespace Filepath

open List

/-- A component of a path. -/
abbrev Name := List Char

/-- A name that a directory entry can have. -/
def Valid (n : Name) : Prop := n ≠ [] ∧ '/' ∉ n ∧ n ≠ ['.'] ∧ n ≠ ['.', '.']

instance (n : Name) : Decidable (Valid n) := inferInstanceAs (Decidable (_ ∧ _))

/-- The path with the given components. -/
def join (cs : List Name) : List Char := List.intercalate ['/'] cs

/-- What stands between the slashes of a path. -/
def components (p : List Char) : List Name := p.splitOn '/'

/-- The component `..` over the stack of the components before it. -/
def climb (rooted : Bool) : List Name → List Name
  | [] => if rooted then [] else [['.', '.']]
  | top :: rest => if top = ['.', '.'] then ['.', '.'] :: top :: rest else rest

/-- One component of a path over the stack of the components before it. -/
def cleanStep (rooted : Bool) (out : List Name) (c : Name) : List Name :=
  if c = [] ∨ c = ['.'] then out
  else if c = ['.', '.'] then climb rooted out
  else c :: out

section

variable (p : List Char)

def isRooted : Bool := p.head? = some '/'

/-- The components of the shortest equivalent path. -/
def cleanComponents : List Name :=
  ((components p).foldl (cleanStep (isRooted p)) []).reverse

/-- The shortest equivalent path. -/
def clean : List Char :=
  if isRooted p then '/' :: join (cleanComponents p)
  else if cleanComponents p = [] then ['.'] else join (cleanComponents p)

/-- All but the last element: the path up to its last slash, cleaned. -/
def dir : List Char := clean (join ((components p).dropLast ++ [[]]))

/-- The last element of the path, slashes at its end left aside. -/
def base : Name :=
  if p = [] then ['.']
  else (((components p).filter (· ≠ [])).getLast?).getD ['/']

/-- The components of a path below a root directory; `none` when the path leaves it. -/
def inRoot : Option (List Name) :=
  if isRooted p ∨ (cleanComponents p).head? = some ['.', '.'] then none
  else some (cleanComponents p)

end

/-! ### Joining components -/

@[simp] theorem join_singleton (n : Name) : join [n] = n := intercalate_singleton

theorem join_cons_cons (n m : Name) (cs : List Name) :
    join (n :: m :: cs) = n ++ '/' :: join (m :: cs) := by
  simp [join, intercalate_cons_cons]

variable {cs : List Name}

theorem components_join (hcs : ∀ n ∈ cs, '/' ∉ n) (h0 : cs ≠ []) : components (join cs) = cs :=
  splitOn_intercalate '/' hcs h0

theorem join_components (p : List Char) : join (components p) = p := intercalate_splitOn '/'

theorem components_ne_nil (p : List Char) : components p ≠ [] := splitOn_ne_nil '/' p

theorem exists_components_concat (p : List Char) : ∃ ds b, components p = ds ++ [b] :=
  ⟨_, _, (dropLast_concat_getLast (components_ne_nil p)).symm⟩

variable {p : List Char} {n : Name}

/-- A path is a name, or it has a name before its first slash. -/
@[elab_as_elim]
theorem slash_induction {motive : List Char → Prop} (p : List Char)
    (name : ∀ n, '/' ∉ n → motive n)
    (slash : ∀ n q, '/' ∉ n → motive q → motive (n ++ '/' :: q)) : motive p := by
  by_cases hp : '/' ∈ p
  · obtain ⟨n, q, heq, hn⟩ := eq_append_cons_of_mem hp
    rw [heq]
    exact slash n q hn (slash_induction q name slash)
  · exact name p hp
termination_by p.length

theorem slash_notMem_of_mem_components (hn : n ∈ components p) : '/' ∉ n := by
  induction p using slash_induction with
  | name m hm =>
    rw [components, splitOn_eq_singleton hm, mem_singleton] at hn
    rwa [hn]
  | slash m q hm ih =>
    rw [components, splitOn_append_cons_self_of_not_mem hm] at hn
    rcases mem_cons.1 hn with rfl | hn
    · exact hm
    · exact ih hn

theorem mem_join {c : Char} (hc : c ∈ join cs) : c = '/' ∨ ∃ n ∈ cs, c ∈ n := by
  induction cs with
  | nil => exact absurd hc not_mem_nil
  | cons n cs ih =>
    cases cs with
    | nil =>
      rw [join_singleton] at hc
      exact .inr ⟨n, mem_singleton_self n, hc⟩
    | cons m cs =>
      rw [join_cons_cons, mem_append, mem_cons] at hc
      rcases hc with hc | hc | hc
      · exact .inr ⟨n, mem_cons_self .., hc⟩
      · exact .inl hc
      · rcases ih hc with hslash | ⟨x, hx, hcx⟩
        · exact .inl hslash
        · exact .inr ⟨x, mem_cons_of_mem n hx, hcx⟩

theorem mem_join_of_mem (hn : n ∈ cs) {c : Char} (hc : c ∈ n) : c ∈ join cs := by
  induction cs with
  | nil => cases hn
  | cons m cs ih =>
    cases cs with
    | nil => rwa [join_singleton, ← mem_singleton.1 hn]
    | cons m' cs =>
      rcases mem_cons.1 hn with rfl | hn
      · exact mem_append_left _ hc
      · exact mem_append_right _ (mem_cons_of_mem _ (ih hn))

variable {b : List Char}

theorem prefix_of_prefix_append_slash {n t : List Char} (hb : '/' ∉ b) (h : b <+: n ++ '/' :: t) :
    b <+: n := by
  rcases prefix_or_prefix_of_prefix h (prefix_append n ('/' :: t)) with hbn | hnb
  · exact hbn
  · -- `b` cannot reach the slash
    obtain ⟨r, rfl⟩ := hnb
    cases r with
    | nil => exact (append_nil n).symm ▸ prefix_refl n
    | cons c r =>
      have hc : c :: r <+: '/' :: t := (prefix_append_right_inj n).1 h
      have hslash : c = '/' := (cons_prefix_cons.1 hc).1
      subst hslash
      exact absurd (mem_append_right n (mem_cons_self ..)) hb

theorem append_slash_prefix_iff {d n s t : List Char} (hd : '/' ∉ d) (hn : '/' ∉ n) :
    d ++ '/' :: s <+: n ++ '/' :: t ↔ d = n ∧ s <+: t := by
  constructor
  · intro h
    obtain ⟨r, rfl⟩ : d <+: n :=
      prefix_of_prefix_append_slash hd ((prefix_append d ('/' :: s)).trans h)
    rw [append_assoc, prefix_append_right_inj] at h
    cases r with
    | nil => exact ⟨(append_nil d).symm, (cons_prefix_cons.1 h).2⟩
    | cons c r =>
      have hc : '/' = c := (cons_prefix_cons.1 h).1
      subst hc
      exact absurd (mem_append_right d (mem_cons_self ..)) hn
  · rintro ⟨rfl, h⟩
    exact (prefix_append_right_inj d).2 (cons_prefix_cons.2 ⟨rfl, h⟩)

variable {ds : List Name}

/-- **Prefixes of paths**: the path `cs` continues the path `ds/b` exactly when its components
continue `ds` with a name that continues `b`. -/
theorem join_prefix_iff {b : Name} (hds : ∀ n ∈ ds, '/' ∉ n)
    (hcs : ∀ n ∈ cs, '/' ∉ n) (hb : '/' ∉ b) (h0 : cs ≠ []) :
    join (ds ++ [b]) <+: join cs ↔ ∃ n rest, cs = ds ++ n :: rest ∧ b <+: n := by
  induction ds generalizing cs with
  | nil =>
    obtain ⟨n, rest, rfl⟩ := exists_cons_of_ne_nil h0
    have hjoin : b <+: join (n :: rest) ↔ b <+: n := by
      cases rest with
      | nil => rw [join_singleton]
      | cons m rest =>
        exact ⟨prefix_of_prefix_append_slash hb, fun h => h.trans (prefix_append n _)⟩
    rw [nil_append, join_singleton, hjoin]
    constructor
    · exact fun h => ⟨n, rest, rfl, h⟩
    · rintro ⟨n', rest', heq, h⟩
      cases heq
      exact h
  | cons d ds ih =>
    have hd : '/' ∉ d := hds d (mem_cons_self ..)
    have hjoin : join (d :: ds ++ [b]) = d ++ '/' :: join (ds ++ [b]) := by
      cases ds <;> exact join_cons_cons _ _ _
    rw [hjoin]
    obtain ⟨n, rest, rfl⟩ := exists_cons_of_ne_nil h0
    have hn : '/' ∉ n := hcs n (mem_cons_self ..)
    cases rest with
    | nil =>
      rw [join_singleton]
      constructor
      · intro h
        exact absurd (h.subset (mem_append_right d (mem_cons_self ..))) hn
      · rintro ⟨n', rest', heq, -⟩
        simp at heq
    | cons m rest =>
      rw [join_cons_cons, append_slash_prefix_iff hd hn,
        ih (fun x hx => hds x (mem_cons_of_mem _ hx))
          (fun x hx => hcs x (mem_cons_of_mem _ hx)) (cons_ne_nil _ _)]
      constructor
      · rintro ⟨rfl, n', rest', heq, h⟩
        exact ⟨n', rest', by rw [heq]; rfl, h⟩
      · rintro ⟨n', rest', heq, h⟩
        rw [cons_append, List.cons.injEq] at heq
        exact ⟨heq.1.symm, n', rest', heq.2, h⟩

/-! ### Cleaning -/

theorem Valid.slash_notMem (h : Valid n) : '/' ∉ n := h.2.1

/-- The stack while a path without a leading slash is cleaned: names over climbs. -/
def Stacked (out : List Name) : Prop :=
  ∃ vs k, out = vs ++ List.replicate k ['.', '.'] ∧ ∀ v ∈ vs, Valid v

variable {out : List Name}

theorem Stacked.climb (h : Stacked out) : Stacked (climb false out) := by
  obtain ⟨vs, k, rfl, hvs⟩ := h
  cases vs with
  | nil =>
    -- only climbs so far: one more
    refine ⟨[], k + 1, ?_, by simp⟩
    cases k with
    | zero => rfl
    | succ k => simp [Filepath.climb, replicate_succ]
  | cons v vs =>
    have hv : Valid v := hvs v (mem_cons_self ..)
    refine ⟨vs, k, ?_, fun x hx => hvs x (mem_cons_of_mem v hx)⟩
    simp [Filepath.climb, hv.2.2.2]

variable {c : Name}

theorem Stacked.cleanStep (h : Stacked out) (hc : '/' ∉ c) : Stacked (cleanStep false out c) := by
  unfold Filepath.cleanStep
  split_ifs with hskip hup
  · exact h
  · exact h.climb
  · rw [not_or] at hskip
    obtain ⟨vs, k, rfl, hvs⟩ := h
    refine ⟨c :: vs, k, rfl, ?_⟩
    intro x hx
    rcases mem_cons.1 hx with rfl | hx
    · exact ⟨hskip.1, hc, hskip.2, hup⟩
    · exact hvs x hx

theorem stacked_foldl (hcs : ∀ c ∈ cs, '/' ∉ c)
    (h : Stacked out) : Stacked (cs.foldl (cleanStep false) out) := by
  induction cs generalizing out with
  | nil => exact h
  | cons c cs ih =>
    exact ih (fun x hx => hcs x (mem_cons_of_mem c hx))
      (h.cleanStep (hcs c (mem_cons_self ..)))

theorem valid_of_inRoot (h : inRoot p = some ds) : ∀ d ∈ ds, Valid d := by
  unfold inRoot at h
  split_ifs at h with hout
  rw [not_or, Bool.not_eq_true] at hout
  obtain ⟨hroot, hhead⟩ := hout
  obtain rfl : cleanComponents p = ds := Option.some.inj h
  have hstack : Stacked ((components p).foldl (cleanStep false) []) :=
    stacked_foldl (fun c hc => slash_notMem_of_mem_components hc) ⟨[], 0, rfl, by simp⟩
  obtain ⟨vs, k, hout, hvs⟩ := hstack
  rw [cleanComponents, hroot, hout, reverse_append, reverse_replicate] at hhead ⊢
  cases k with
  | zero =>
    intro d hd
    simp only [replicate_zero, nil_append, mem_reverse] at hd
    exact hvs d hd
  | succ k => simp [replicate_succ] at hhead

theorem foldl_cleanStep (h : ∀ c ∈ cs, Valid c) (rooted : Bool) (out : List Name) :
    cs.foldl (cleanStep rooted) out = cs.reverse ++ out := by
  induction cs generalizing out with
  | nil => rfl
  | cons c cs ih =>
    have hc := h c mem_cons_self
    rw [foldl_cons, cleanStep, if_neg (not_or.2 ⟨hc.1, hc.2.2.1⟩), if_neg hc.2.2.2,
      ih (fun x hx => h x (mem_cons_of_mem c hx)), reverse_cons, append_assoc]
    rfl

theorem isRooted_join_cons (hc : Valid c) (cs : List Name) : isRooted (join (c :: cs)) = false := by
  obtain ⟨x, c, rfl⟩ := exists_cons_of_ne_nil hc.1
  have hx : x ≠ '/' := by
    rintro rfl
    exact hc.slash_notMem (mem_cons_self ..)
  cases cs with
  | nil => simp [isRooted, hx]
  | cons d cs => simp [join_cons_cons, isRooted, hx]

theorem cleanComponents_join (h : ∀ c ∈ cs, Valid c) (h0 : cs ≠ []) :
    cleanComponents (join cs) = cs := by
  rw [cleanComponents, components_join (fun c hc => (h c hc).slash_notMem) h0, foldl_cleanStep h,
    append_nil, reverse_reverse]

theorem inRoot_join (h : ∀ c ∈ cs, Valid c) (h0 : cs ≠ []) : inRoot (join cs) = some cs := by
  obtain ⟨c, cs, rfl⟩ := exists_cons_of_ne_nil h0
  have hc : Valid c := h c (mem_cons_self ..)
  rw [inRoot, cleanComponents_join h h0, isRooted_join_cons hc, if_neg]
  simp [hc.2.2.2]

/-! ### The directory and the last element of a path -/

theorem inRoot_dir {b : Name} (hp : components p = ds ++ [b])
    (hds : ∀ d ∈ ds, Valid d) : inRoot (dir p) = some ds := by
  rw [dir, hp, dropLast_concat]
  cases ds with
  | nil => rfl
  | cons d ds =>
    have hslash : ∀ n ∈ d :: ds ++ [[]], '/' ∉ n := by
      intro n hn
      rcases mem_append.1 hn with hn | hn
      · exact (hds n hn).slash_notMem
      · rw [mem_singleton.1 hn]
        exact not_mem_nil
    have hroot : isRooted (join (d :: ds ++ [[]])) = false :=
      isRooted_join_cons (hds d (mem_cons_self ..)) _
    have hclean : cleanComponents (join (d :: ds ++ [[]])) = d :: ds := by
      rw [cleanComponents, components_join hslash (by simp), foldl_append, foldl_cleanStep hds]
      simp [cleanStep]
    rw [clean, hroot, hclean]
    exact inRoot_join hds (cons_ne_nil d ds)

theorem base_eq {b : Name} (hp : components p = ds ++ [b]) (hb : b ≠ []) : base p = b := by
  have hp0 : p ≠ [] := by
    rintro rfl
    have hnil : [[]] = ds ++ [b] := hp
    cases ds with
    | nil => exact hb (List.cons.inj hnil).1.symm
    | cons d ds => simp at hnil
  rw [base, if_neg hp0, hp, filter_append]
  simp [hb]

theorem base_of_inRoot (h : inRoot (dir p) = some ds) : base p ≠ [] ∧ '/' ∉ base p := by
  unfold base
  split_ifs with hp0
  · decide
  cases hlast : ((components p).filter (· ≠ [])).getLast? with
  | some b =>
    obtain ⟨hmem, hb⟩ := mem_filter.1 (mem_of_getLast? hlast)
    exact ⟨of_decide_eq_true hb, slash_notMem_of_mem_components hmem⟩
  | none =>
    -- every component is empty, there are two of them, and the directory is rooted
    exfalso
    have hempty : ∀ c ∈ components p, c = [] := by
      intro c hc
      by_contra hne
      have hmem : c ∈ (components p).filter (· ≠ []) := mem_filter.2 ⟨hc, decide_eq_true hne⟩
      rw [getLast?_eq_none_iff.1 hlast] at hmem
      exact not_mem_nil hmem
    match hcs : components p with
    | [] => exact components_ne_nil p hcs
    | [c] =>
      apply hp0
      rw [← join_components p, hcs, join_singleton]
      exact hempty c (hcs ▸ mem_singleton_self c)
    | c :: c' :: cs =>
      have hc : c = [] := hempty c (hcs ▸ mem_cons_self ..)
      subst hc
      have hdir : ∃ t, dir p = '/' :: t := by
        have hne : (c' :: cs).dropLast ++ [[]] ≠ [] := by simp
        obtain ⟨m, ms, hms⟩ := exists_cons_of_ne_nil hne
        rw [dir, hcs, dropLast_cons_cons, cons_append, hms, join_cons_cons]
        exact ⟨_, rfl⟩
      obtain ⟨t, ht⟩ := hdir
      rw [ht] at h
      simp [inRoot, isRooted] at h

/-! ### The names on a path -/

/-- The components of a path that cleaning does not skip. -/
def names (p : List Char) : List Name := (components p).filter fun c => c ≠ [] ∧ c ≠ ['.']

/-- The path through all the elements, cleaned; empty elements at the front are left aside. -/
def joinPaths : List (List Char) → List Char
  | [] => []
  | [] :: ps => joinPaths ps
  | (c :: p) :: ps => clean (join ((c :: p) :: ps))

theorem components_append_slash (a b : List Char) :
    components (a ++ '/' :: b) = components a ++ components b :=
  splitOn_append_cons_self a b

theorem names_append_slash (a b : List Char) : names (a ++ '/' :: b) = names a ++ names b := by
  rw [names, components_append_slash, filter_append]
  rfl

@[simp] theorem names_nil : names [] = [] := by decide

@[simp] theorem names_dot : names ['.'] = [] := by decide

theorem names_cons_slash (b : List Char) : names ('/' :: b) = names b := names_append_slash [] b

theorem names_join (ps : List (List Char)) : names (join ps) = ps.flatMap names := by
  induction ps with
  | nil => exact names_nil
  | cons p ps ih =>
    cases ps with
    | nil => rw [join_singleton, flatMap_cons, flatMap_nil, append_nil]
    | cons q ps =>
      rw [join_cons_cons, names_append_slash, ih]
      rfl

theorem join_append (hcs : cs ≠ []) (hds : ds ≠ []) :
    join (cs ++ ds) = join cs ++ '/' :: join ds := by
  obtain ⟨d, ds, rfl⟩ := exists_cons_of_ne_nil hds
  induction cs with
  | nil => exact absurd rfl hcs
  | cons c cs ih =>
    cases cs with
    | nil => rw [singleton_append, join_cons_cons, join_singleton]
    | cons c' cs =>
      rw [cons_append, cons_append, join_cons_cons, ← cons_append,
        ih (cons_ne_nil _ _), join_cons_cons, append_assoc, cons_append]

theorem foldl_cleanStep_filter (rooted : Bool) (cs out : List Name) :
    (cs.filter fun c => c ≠ [] ∧ c ≠ ['.']).foldl (cleanStep rooted) out =
      cs.foldl (cleanStep rooted) out := by
  induction cs generalizing out with
  | nil => rfl
  | cons c cs ih =>
    by_cases hc : c = [] ∨ c = ['.']
    · have hstep : cleanStep rooted out c = out := if_pos hc
      have hskip : ¬ (c ≠ [] ∧ c ≠ ['.']) := fun h => hc.elim h.1 h.2
      rw [filter_cons_of_neg (by simpa using hskip), ih, foldl_cons, hstep]
    · have hkeep : c ≠ [] ∧ c ≠ ['.'] := not_or.1 hc
      rw [filter_cons_of_pos (by simpa using hkeep), foldl_cons, ih, foldl_cons]

theorem cleanComponents_eq (p : List Char) :
    cleanComponents p = ((names p).foldl (cleanStep (isRooted p)) []).reverse := by
  rw [cleanComponents, names, foldl_cleanStep_filter]

theorem valid_of_mem_names (hc : c ∈ names p) (hup : c ≠ ['.', '.']) : Valid c := by
  obtain ⟨hmem, hskip⟩ := mem_filter.1 hc
  obtain ⟨hnil, hdot⟩ : c ≠ [] ∧ c ≠ ['.'] := of_decide_eq_true hskip
  exact ⟨hnil, slash_notMem_of_mem_components hmem, hdot, hup⟩

theorem valid_names (hup : ['.', '.'] ∉ names p) : ∀ c ∈ names p, Valid c :=
  fun _ hc => valid_of_mem_names hc (fun h => hup (h ▸ hc))

variable {a : List Char} {rooted : Bool}

theorem isRooted_append (ha : a ≠ []) (b : List Char) : isRooted (a ++ b) = isRooted a := by
  obtain ⟨c, a, rfl⟩ := exists_cons_of_ne_nil ha
  rfl

theorem cleanComponents_append_slash (ha : a ≠ []) (hup : ['.', '.'] ∉ names b) :
    cleanComponents (a ++ '/' :: b) = cleanComponents a ++ names b := by
  rw [cleanComponents_eq, names_append_slash, isRooted_append ha, foldl_append,
    foldl_cleanStep (valid_names hup), reverse_append, reverse_reverse,
    ← cleanComponents_eq]

theorem clean_append_slash (ha : clean a = a) (hdot : a ≠ ['.'])
    (hroot : a ≠ ['/']) (hup : ['.', '.'] ∉ names b) :
    clean (a ++ '/' :: b) = if names b = [] then a else a ++ '/' :: join (names b) := by
  have hnil : a ≠ [] := by
    rintro rfl
    exact absurd ha (by decide)
  have hcs : cleanComponents a ≠ [] := by
    intro hcs
    rw [clean, hcs, if_pos rfl] at ha
    split_ifs at ha
    · exact hroot ha.symm
    · exact hdot ha.symm
  rw [clean, isRooted_append hnil, cleanComponents_append_slash hnil hup]
  by_cases hb : names b = []
  · rw [if_pos hb, hb, append_nil]
    exact ha
  · have hjoin := join_append hcs hb
    rw [if_neg hb, hjoin, if_neg (append_ne_nil_of_left_ne_nil hcs _)]
    rw [clean, if_neg hcs] at ha
    by_cases hrooted : isRooted a = true
    · rw [if_pos hrooted] at ha ⊢
      rw [← cons_append, ha]
    · rw [if_neg hrooted] at ha ⊢
      rw [ha]

theorem clean_cons_slash (hup : ['.', '.'] ∉ names b) :
    clean ('/' :: b) = '/' :: join (names b) := by
  have hroot : isRooted ('/' :: b) = true := rfl
  rw [clean, if_pos hroot, cleanComponents_eq, names_cons_slash, foldl_cleanStep (valid_names hup),
    append_nil, reverse_reverse]

/-! ### The names of a clean path -/

theorem mem_climb (h : c ∈ climb rooted out) : c ∈ out ∨ c = ['.', '.'] := by
  cases out with
  | nil =>
    cases rooted
    · exact .inr (mem_singleton.1 h)
    · cases h
  | cons top rest =>
    simp only [climb] at h
    split_ifs at h
    · rcases mem_cons.1 h with h | h
      · exact .inr h
      · exact .inl h
    · exact .inl (mem_cons_of_mem _ h)

theorem mem_foldl_cleanStep
    (h : c ∈ cs.foldl (cleanStep rooted) out) : c ∈ out ∨ c ∈ cs ∧ c ≠ [] ∧ c ≠ ['.'] := by
  induction cs generalizing out with
  | nil => exact .inl h
  | cons d cs ih =>
    rcases ih h with hout | ⟨hcs, hskip⟩
    · unfold cleanStep at hout
      split_ifs at hout with hskip hup
      · exact .inl hout
      · rcases mem_climb hout with hmem | rfl
        · exact .inl hmem
        · exact .inr ⟨hup ▸ mem_cons_self, by decide, by decide⟩
      · rcases mem_cons.1 hout with rfl | hmem
        · exact .inr ⟨mem_cons_self, not_or.1 hskip⟩
        · exact .inl hmem
    · exact .inr ⟨mem_cons_of_mem _ hcs, hskip⟩

theorem mem_names_of_mem_cleanComponents (h : c ∈ cleanComponents p) : c ∈ names p := by
  rcases mem_foldl_cleanStep (mem_reverse.1 h) with hnil | ⟨hmem, hskip⟩
  · cases hnil
  · exact mem_filter.2 ⟨hmem, decide_eq_true hskip⟩

theorem climb_rooted_notMem (h : ['.', '.'] ∉ out) : ['.', '.'] ∉ climb true out := by
  cases out with
  | nil => exact not_mem_nil
  | cons top rest =>
    have htop : top ≠ ['.', '.'] := fun heq => h (heq ▸ mem_cons_self)
    rw [climb, if_neg htop]
    exact fun hmem => h (mem_cons_of_mem _ hmem)

theorem foldl_cleanStep_rooted_notMem (h : ['.', '.'] ∉ out) :
    ['.', '.'] ∉ cs.foldl (cleanStep true) out := by
  induction cs generalizing out with
  | nil => exact h
  | cons d cs ih =>
    refine ih ?_
    unfold cleanStep
    split_ifs with hskip hup
    · exact h
    · exact climb_rooted_notMem h
    · intro hmem
      rcases mem_cons.1 hmem with heq | hmem
      · exact hup heq.symm
      · exact h hmem

theorem climb_notMem_cleanComponents (h : isRooted p = true) : ['.', '.'] ∉ cleanComponents p := by
  rw [cleanComponents, h, mem_reverse]
  exact foldl_cleanStep_rooted_notMem not_mem_nil

theorem names_name (hslash : '/' ∉ c) (hskip : c ≠ [] ∧ c ≠ ['.']) : names c = [c] := by
  rw [names, components, splitOn_eq_singleton hslash]
  simp [hskip]

theorem names_join_cleanComponents (p : List Char) :
    names (join (cleanComponents p)) = cleanComponents p := by
  have hnames : ∀ c ∈ cleanComponents p, names c = [c] := by
    intro c hc
    obtain ⟨hmem, hskip⟩ := mem_filter.1 (mem_names_of_mem_cleanComponents hc)
    exact names_name (slash_notMem_of_mem_components hmem) (of_decide_eq_true hskip)
  rw [names_join, flatMap_congr hnames]
  exact flatMap_singleton' _

theorem names_clean (p : List Char) : names (clean p) = cleanComponents p := by
  unfold clean
  split_ifs with hroot hnil
  · rw [names_cons_slash, names_join_cleanComponents]
  · rw [names_dot, hnil]
  · exact names_join_cleanComponents p

theorem cleanComponents_of_notMem (hup : ['.', '.'] ∉ names p) : cleanComponents p = names p := by
  rw [cleanComponents_eq, foldl_cleanStep (valid_names hup), append_nil, reverse_reverse]

theorem mem_of_mem_clean {x : Char} (h : x ∈ clean p) : x ∈ p ∨ x = '/' ∨ x = '.' := by
  have hjoin : x ∈ join (cleanComponents p) → x ∈ p ∨ x = '/' ∨ x = '.' := by
    intro hmem
    rcases mem_join hmem with hslash | ⟨c, hc, hx⟩
    · exact .inr (.inl hslash)
    · have hcomp := mem_of_mem_filter (mem_names_of_mem_cleanComponents hc)
      exact .inl (join_components p ▸ mem_join_of_mem hcomp hx)
  unfold clean at h
  split_ifs at h
  · rcases mem_cons.1 h with h | h
    · exact .inr (.inl h)
    · exact hjoin h
  · exact .inr (.inr (mem_singleton.1 h))
  · exact hjoin h

/-! ### Parts of paths, and paths with other letters -/

theorem exists_suffix_of_mem_components {q : List Char} (h : q <:+ p)
    (hc : c ∈ components q) : ∃ d ∈ components p, c <:+ d := by
  obtain ⟨a, rfl⟩ := h
  induction a with
  | nil => exact ⟨c, hc, suffix_refl c⟩
  | cons x a ih =>
    obtain ⟨d, hd, hcd⟩ := ih
    rw [cons_append, components, splitOn_cons_eq_if_modifyHead]
    split_ifs
    · exact ⟨d, mem_cons_of_mem _ hd, hcd⟩
    · obtain ⟨m, ms, hms⟩ := exists_cons_of_ne_nil (components_ne_nil (a ++ q))
      rw [show List.splitOn '/' (a ++ q) = m :: ms from hms, modifyHead_cons]
      rw [hms] at hd
      rcases mem_cons.1 hd with rfl | hd
      · exact ⟨x :: d, mem_cons_self, hcd.trans (suffix_cons x d)⟩
      · exact ⟨d, mem_cons_of_mem _ hd, hcd⟩

section Map

variable {f : Char → Char}

section

variable (hslash : ∀ x, f x = '/' ↔ x = '/')
include hslash

theorem components_map (p : List Char) :
    components (p.map f) = (components p).map (List.map f) := by
  induction p with
  | nil => rfl
  | cons x p ih =>
    unfold components at ih ⊢
    rw [map_cons, splitOn_cons_eq_if_modifyHead, splitOn_cons_eq_if_modifyHead, ih]
    by_cases hx : x = '/'
    · simp [hx, (hslash '/').2 rfl]
    · obtain ⟨m, ms, hms⟩ := exists_cons_of_ne_nil (components_ne_nil p)
      rw [show List.splitOn '/' p = m :: ms from hms]
      simp [hx, mt (hslash x).1 hx]

theorem names_map (hdot : ∀ x, f x = '.' ↔ x = '.')
    (p : List Char) : names (p.map f) = (names p).map (List.map f) := by
  have hskip : ∀ c : Name, c.map f = ['.'] ↔ c = ['.'] := by
    intro c
    rw [map_eq_singleton_iff]
    constructor
    · rintro ⟨x, rfl, hx⟩
      rw [(hdot x).1 hx]
    · rintro rfl
      exact ⟨'.', rfl, (hdot '.').2 rfl⟩
  rw [names, components_map hslash, filter_map, names]
  refine congrArg (List.map (List.map f)) (filter_congr fun c _ => ?_)
  simp [hskip]

theorem isRooted_map (p : List Char) : isRooted (p.map f) = isRooted p := by
  cases p with
  | nil => rfl
  | cons x p => simp [isRooted, hslash]

end

end Map

end Filepath
