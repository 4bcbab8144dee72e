import GameAP.Lib.Replace

/-!
# Splitting a command line into words

The quoting rules of the POSIX shell: blanks separate words, single quotes keep everything up to the
next single quote, double quotes keep everything but a backslash before `$`, a backquote, `"`, `\`
and a newline, and a backslash outside of quotes keeps the next character.  Operators, expansions
and comments are not looked at.

* `step` reads one character; `run_withWords` says that words are only added, `grows` that a word
  that has begun only gets longer;
* `split_quote`: a text between single quotes is one word where no quote is open and no word has
  begun, and only there (`between_of_split`);
* `replaceEach_quote` says where patterns without quotes are replaced if a part of the text is
  quoted.
-/

namespace ShellWords

open Replace List

/-- Which quotes are open, and whether a backslash has just been read. -/
inductive Mode
  | plain
  | escaped
  | single
  | double
  | doubleEscaped
  deriving DecidableEq

/-- The state of the reader: `word` is what there is of the current word, and `words` are the words
before it, the latest first in both. -/
structure State where
  mode : Mode := .plain
  word : Option (List Char) := none
  words : List (List Char) := []
  deriving DecidableEq

/-- What separates words. -/
def isBlank (c : Char) : Bool := c == ' ' || c == '\t' || c == '\n'

/-- The characters that a backslash keeps between double quotes. -/
def isSpecial (c : Char) : Bool := "$`\"\\".toList.any (· == c)

namespace State

variable (s : State)

/-- A character of the word. -/
def push (c : Char) : State := { s with word := some (c :: s.word.getD []) }

/-- A quote begins a word, if there is none. -/
def begin : State := { s with word := some (s.word.getD []) }

def flush : State :=
  match s.word with
  | none => s
  | some w => { s with word := none, words := w.reverse :: s.words }

def enter (mode : Mode) : State := { s with mode }

def stepPlain (c : Char) : State :=
  if c == '\'' then s.begin.enter .single
  else if c == '"' then s.begin.enter .double
  else if c == '\\' then s.enter .escaped
  else if isBlank c then s.flush
  else s.push c

def stepDouble (c : Char) : State :=
  if c == '"' then s.enter .plain
  else if c == '\\' then s.enter .doubleEscaped
  else s.push c

def step (c : Char) : State :=
  match s.mode with
  | .plain => s.stepPlain c
  | .escaped => if c == '\n' then s.enter .plain else (s.push c).enter .plain
  | .single => if c == '\'' then s.enter .plain else s.push c
  | .double => s.stepDouble c
  | .doubleEscaped =>
    if c == '\n' then s.enter .double
    else if isSpecial c then (s.push c).enter .double
    else ((s.push '\\').push c).enter .double

/-- The state after a text. -/
def run (text : List Char) : State := text.foldl step s

end State

/-- The words of a text.  A quote that is not closed ends with the text. -/
def split (text : List Char) : List (List Char) := ((State.run {} text).flush).words.reverse

namespace State

variable {s : State} {text : List Char}

theorem run_append (s : State) (a b : List Char) : s.run (a ++ b) = (s.run a).run b :=
  foldl_append

theorem run_cons (s : State) (c : Char) (text : List Char) : s.run (c :: text) = (s.step c).run text :=
  rfl

/-! ### Words are only added -/

section

variable (s : State) (ws : List (List Char))

/-- The state with other words before its own ones. -/
def withWords : State := { s with words := s.words ++ ws }

theorem flush_withWords : (s.withWords ws).flush = s.flush.withWords ws := by
  unfold flush withWords
  cases hword : s.word <;> simp [hword]

theorem step_withWords (c : Char) : (s.withWords ws).step c = (s.step c).withWords ws := by
  have hmode : (s.withWords ws).mode = s.mode := rfl
  unfold step
  rw [hmode]
  cases s.mode <;> simp only [stepPlain, stepDouble, flush_withWords] <;> split_ifs <;> rfl

theorem run_withWords (text : List Char) :
    (s.withWords ws).run text = (s.run text).withWords ws := by
  induction text generalizing s with
  | nil => rfl
  | cons c text ih => rw [run_cons, run_cons, step_withWords, ih]

end

theorem run_eq_withWords (text : List Char) :
    s.run text = (State.run { s with words := [] } text).withWords s.words := by
  rw [← run_withWords]
  rfl

/-! ### A word that has begun -/

/-- A word that has begun is continued, or it is a word now. -/
theorem step_word {w : List Char} (hw : s.word = some w) (c : Char) :
    (∃ d, (s.step c).word = some (d ++ w) ∧ (s.step c).words = s.words) ∨
      (s.step c).words = w.reverse :: s.words := by
  have hkeep (t : State) (d : List Char) (hword : t.word = some (d ++ w)) (hwords : t.words = s.words) :
      (∃ d, t.word = some (d ++ w) ∧ t.words = s.words) ∨ t.words = w.reverse :: s.words :=
    .inl ⟨d, hword, hwords⟩
  unfold step
  cases s.mode with
  | plain =>
    simp only [stepPlain]
    split_ifs
    · exact hkeep _ [] (by simp [begin, enter, hw]) rfl
    · exact hkeep _ [] (by simp [begin, enter, hw]) rfl
    · exact hkeep _ [] hw rfl
    · exact .inr (by simp [flush, hw])
    · exact hkeep _ [c] (by simp [push, hw]) rfl
  | escaped =>
    dsimp only
    split_ifs
    · exact hkeep _ [] hw rfl
    · exact hkeep _ [c] (by simp [push, enter, hw]) rfl
  | single =>
    dsimp only
    split_ifs
    · exact hkeep _ [] hw rfl
    · exact hkeep _ [c] (by simp [push, hw]) rfl
  | double =>
    simp only [stepDouble]
    split_ifs
    · exact hkeep _ [] hw rfl
    · exact hkeep _ [] hw rfl
    · exact hkeep _ [c] (by simp [push, hw]) rfl
  | doubleEscaped =>
    dsimp only
    split_ifs
    · exact hkeep _ [] hw rfl
    · exact hkeep _ [c] (by simp [push, enter, hw]) rfl
    · exact hkeep _ [c, '\\'] (by simp [push, enter, hw]) rfl

/-- **Words grow**: the word that has begun is the beginning of the next word of the text. -/
theorem grows {w : List Char} (hw : s.word = some w) (text : List Char) :
    ∃ r ws, (s.run text).flush.words.reverse = s.words.reverse ++ (w.reverse ++ r) :: ws := by
  induction text generalizing s w with
  | nil => exact ⟨[], [], by simp [run, flush, hw]⟩
  | cons c text ih =>
    rw [run_cons]
    rcases step_word hw c with ⟨d, hword, hwords⟩ | hwords
    · obtain ⟨r, ws, heq⟩ := ih hword
      exact ⟨d.reverse ++ r, ws, by rw [heq, hwords]; simp⟩
    · refine ⟨[], (State.run { s.step c with words := [] } text).flush.words.reverse, ?_⟩
      rw [run_eq_withWords, flush_withWords, hwords]
      simp only [withWords, reverse_append, reverse_cons, append_assoc, append_nil, singleton_append]

/-- A quote that is open has begun a word. -/
def Opened (s : State) : Prop :=
  s.mode = .single ∨ s.mode = .double ∨ s.mode = .doubleEscaped → ∃ w, s.word = some w

theorem opened_step (hs : Opened s) (c : Char) : Opened (s.step c) := by
  unfold step
  cases hmode : s.mode with
  | plain =>
    simp only [stepPlain]
    split_ifs
    · exact fun _ => ⟨_, rfl⟩
    · exact fun _ => ⟨_, rfl⟩
    · simp [Opened, enter]
    · have hflush : s.flush.mode = .plain := by
        unfold flush
        cases s.word <;> exact hmode
      simp [Opened, hflush]
    · exact fun _ => ⟨_, rfl⟩
  | escaped =>
    dsimp only
    split_ifs
    · simp [Opened, enter]
    · exact fun _ => ⟨_, rfl⟩
  | single =>
    dsimp only
    split_ifs
    · simp [Opened, enter]
    · exact fun _ => ⟨_, rfl⟩
  | double =>
    obtain ⟨w, hw⟩ := hs (.inr (.inl hmode))
    simp only [stepDouble]
    split_ifs
    · exact fun _ => ⟨w, hw⟩
    · exact fun _ => ⟨w, hw⟩
    · exact fun _ => ⟨_, rfl⟩
  | doubleEscaped =>
    obtain ⟨w, hw⟩ := hs (.inr (.inr hmode))
    dsimp only
    split_ifs
    · exact fun _ => ⟨w, hw⟩
    · exact fun _ => ⟨_, rfl⟩
    · exact fun _ => ⟨_, rfl⟩

theorem opened_run (hs : Opened s) (text : List Char) : Opened (s.run text) := by
  induction text generalizing s with
  | nil => exact hs
  | cons c text ih => exact ih (opened_step hs c)

/-! ### Between two words -/

/-- No quote is open, and no word has begun. -/
structure Between (s : State) : Prop where
  mode : s.mode = .plain
  word : s.word = none

theorem Between.eq (hs : Between s) : s = withWords {} s.words := by
  obtain ⟨mode, word, words⟩ := s
  obtain ⟨rfl, rfl⟩ := hs
  rfl

end State

open State

/-! ### Quoting -/

/-- Each single quote is closed, escaped and opened again. -/
def escapeQuotes (text : List Char) : List Char :=
  replaceAll ['\''] ['\'', '\\', '\'', '\''] text

/-- The text in single quotes. -/
def quote (text : List Char) : List Char := '\'' :: escapeQuotes text ++ ['\'']

theorem escapeQuotes_quote (text : List Char) :
    escapeQuotes ('\'' :: text) = '\'' :: '\\' :: '\'' :: '\'' :: escapeQuotes text :=
  replaceAll_append (cons_ne_nil _ _) text

theorem escapeQuotes_cons {c : Char} (hc : c ≠ '\'') (text : List Char) :
    escapeQuotes (c :: text) = c :: escapeQuotes text :=
  replaceAll_cons fun h => hc (cons_prefix_cons.1 h).1.symm

theorem run_escapeQuotes (text w : List Char) (words : List (List Char)) :
    State.run ⟨.single, some w, words⟩ (escapeQuotes text) =
      ⟨.single, some (text.reverse ++ w), words⟩ := by
  induction text generalizing w with
  | nil => rfl
  | cons c text ih =>
    rw [reverse_cons, append_assoc]
    by_cases hc : c = '\''
    · subst hc
      exact ih ('\'' :: w)
    · have hstep : State.step ⟨.single, some w, words⟩ c = ⟨.single, some (c :: w), words⟩ := by
        simp [hc, State.step, State.push]
      rw [escapeQuotes_cons hc, run_cons, hstep]
      exact ih (c :: w)

theorem run_quote {s : State} (hs : Between s) (text : List Char) :
    s.run (quote text) = { s with word := some text.reverse } := by
  obtain ⟨mode, word, words⟩ := s
  obtain ⟨rfl, rfl⟩ := hs
  have hquote : quote text = '\'' :: (escapeQuotes text ++ ['\'']) := rfl
  rw [hquote, run_cons, run_append]
  show State.run (State.run ⟨.single, some [], words⟩ _) ['\''] = _
  rw [run_escapeQuotes, append_nil]
  rfl

theorem step_blank {s : State} {c : Char} (hmode : s.mode = .plain) (hc : isBlank c = true) :
    s.step c = s.flush := by
  have hcases : c = ' ' ∨ c = '\t' ∨ c = '\n' := by simpa [isBlank, or_assoc] using hc
  unfold step
  rw [hmode]
  rcases hcases with rfl | rfl | rfl <;> rfl

/-- **A quoted text between two words is one word**, and the words before and after it are those of
the text before and after it. -/
theorem split_quote {a b : List Char} (ha : Between (State.run {} a))
    (hb : ∀ c ∈ b.head?, isBlank c = true) (text : List Char) :
    split (a ++ quote text ++ b) = split a ++ text :: split b := by
  have hquoted : State.run {} (a ++ quote text) =
      withWords { word := some text.reverse } (State.run {} a).words := by
    rw [run_append, run_quote ha, ha.eq]
    rfl
  have hflush : (State.run {} (a ++ quote text)).flush =
      withWords {} (text :: (State.run {} a).words) := by
    rw [hquoted, flush_withWords]
    simp [flush, withWords]
  have hsplit : split a = (State.run {} a).words.reverse := by rw [split, flush, ha.word]
  rw [hsplit]
  cases b with
  | nil =>
    unfold split
    rw [append_nil, hflush]
    simp [withWords, State.run, flush]
  | cons c b =>
    have hc : isBlank c = true := hb c rfl
    have hrun : State.run {} (a ++ quote text ++ c :: b) =
        (State.run {} b).withWords (text :: (State.run {} a).words) := by
      rw [run_append, run_cons, step_blank (by rw [hquoted]; rfl) hc, hflush, run_withWords]
    have hrest : State.run {} (c :: b) = State.run {} b := by
      rw [run_cons, step_blank rfl hc]
      rfl
    unfold split
    rw [hrun, hrest, flush_withWords]
    simp [withWords]

/-- **Only between two words** a quoted text is one word. -/
theorem between_of_split {a b : List Char} {ws : List (List Char)}
    (h : split (a ++ quote ['x'] ++ b) = split a ++ ['x'] :: ws) : Between (State.run {} a) := by
  have hopened : Opened (State.run {} a) := opened_run (by simp [Opened]) a
  unfold split at h
  rw [run_append, run_append] at h
  generalize State.run {} a = s at *
  obtain ⟨mode, word, words⟩ := s
  -- the quoted letter goes to the word that has begun
  have hlong (d w : List Char) (mode' : Mode)
      (hrun : State.run ⟨mode, word, words⟩ (quote ['x']) = ⟨mode', some (d ++ w), words⟩)
      (hd : d ≠ []) (hw : word = some w) : False := by
    obtain ⟨r, ws', hgrow⟩ := grows (s := ⟨mode', some (d ++ w), words⟩) rfl b
    rw [hrun, hgrow] at h
    simp only [State.flush, hw, reverse_cons, append_assoc, singleton_append] at h
    have hhead := (List.cons.inj (append_cancel_left h)).1
    have hlen := congrArg length hhead
    have hpos := length_pos_iff.2 hd
    simp only [reverse_append, append_assoc, length_append, length_reverse] at hlen
    omega
  cases mode with
  | plain =>
    cases word with
    | none => exact ⟨rfl, rfl⟩
    | some w => exact (hlong ['x'] w .plain rfl (by simp) rfl).elim
  | single =>
    obtain ⟨w, rfl⟩ := hopened (.inl rfl)
    exact (hlong ['x'] w .single rfl (by simp) rfl).elim
  | double =>
    obtain ⟨w, rfl⟩ := hopened (.inr (.inl rfl))
    exact (hlong ['\'', 'x', '\''] w .double rfl (by simp) rfl).elim
  | doubleEscaped =>
    obtain ⟨w, rfl⟩ := hopened (.inr (.inr rfl))
    exact (hlong ['\'', 'x', '\'', '\\'] w .double rfl (by simp) rfl).elim
  | escaped =>
    cases word with
    | some w => exact (hlong ['x', '\''] w .single rfl (by simp) rfl).elim
    | none =>
      -- the escaped quote begins a word
      have hrun : State.run ⟨.escaped, none, words⟩ (quote ['x']) =
          ⟨.single, some ['x', '\''], words⟩ := rfl
      obtain ⟨r, ws', hgrow⟩ := grows (s := ⟨.single, some ['x', '\''], words⟩) rfl b
      rw [hrun, hgrow] at h
      have hhead := (List.cons.inj (append_cancel_left h)).1
      simp at hhead

/-! ### Replacing in a command line -/

section Replacing

variable {mark : Char} {p v text : List Char}

/-- Neither a quote nor a backslash. -/
def isOrdinary (c : Char) : Bool := c != '\'' && c != '"' && c != '\\'

/-- A pattern begins with the mark and has no quotes. -/
structure Solid (mark : Char) (p : List Char) : Prop where
  head : p.head? = some mark
  ordinary : ∀ c ∈ p, isOrdinary c = true

section

variable (h : Solid mark p)

include h

theorem Solid.ne_nil : p ≠ [] := by
  rintro rfl
  cases h.head

theorem Solid.mark_mem : mark ∈ p := mem_of_mem_head? h.head

theorem Solid.notMem {c : Char} (hc : isOrdinary c = false) : c ∉ p := fun hmem =>
  Bool.false_ne_true (hc.symm.trans (h.ordinary c hmem))

theorem Solid.head?_replaceAll (htext : text.head? ≠ some mark) :
    (replaceAll p v text).head? = text.head? := by
  cases text with
  | nil => rfl
  | cons c rest =>
    rw [replaceAll_cons]
    · rfl
    · rintro ⟨t, ht⟩
      apply htext
      rw [← ht, List.head?_append, h.head]
      rfl

end

theorem prefix_of_prefix_escapeQuotes (hp : '\'' ∉ p) (h : p <+: escapeQuotes text) : p <+: text := by
  induction text generalizing p with
  | nil => exact h
  | cons c text ih =>
    cases p with
    | nil => exact List.nil_prefix
    | cons d p =>
      by_cases hc : c = '\''
      · subst hc
        exact absurd (mem_cons.2 (.inl (cons_prefix_cons.1 h).1.symm)) hp
      · rw [escapeQuotes_cons hc] at h
        obtain ⟨rfl, hrest⟩ := cons_prefix_cons.1 h
        exact cons_prefix_cons.2 ⟨rfl, ih (fun hmem => hp (mem_cons_of_mem d hmem)) hrest⟩

theorem escapeQuotes_append {a : List Char} (ha : '\'' ∉ a) (text : List Char) :
    escapeQuotes (a ++ text) = a ++ escapeQuotes text := by
  induction a with
  | nil => rfl
  | cons c a ih =>
    rw [mem_cons, not_or] at ha
    rw [cons_append, escapeQuotes_cons (Ne.symm ha.1), ih ha.2, cons_append]

theorem Solid.replaceAll_escapeQuotes (h : Solid mark p) (hv : p <:+: text → '\'' ∉ v) :
    replaceAll p v (escapeQuotes text) = escapeQuotes (replaceAll p v text) := by
  have hp : '\'' ∉ p := h.notMem rfl
  induction text using Replace.rec h.ne_nil with
  | nil => rfl
  | occurrence rest ih =>
    have hquote : '\'' ∉ v := hv (prefix_append p rest).isInfix
    rw [escapeQuotes_append hp, replaceAll_append h.ne_nil, replaceAll_append h.ne_nil,
      escapeQuotes_append hquote, ih fun _ => hquote]
  | other c rest hpre ih =>
    have hskip : ∀ {d : Char} (t : List Char), isOrdinary d = false →
        replaceAll p v (d :: t) = d :: replaceAll p v t := fun {d} t hd =>
      replaceAll_append_cons h.ne_nil (h.notMem hd) [] t
    have hrest := ih fun hocc => hv (hocc.trans (suffix_cons c rest).isInfix)
    rw [replaceAll_cons hpre]
    by_cases hc : c = '\''
    · subst hc
      rw [escapeQuotes_quote, escapeQuotes_quote, hskip _ rfl, hskip _ rfl, hskip _ rfl, hskip _ rfl,
        hrest]
    · have hnot : ¬ p <+: c :: escapeQuotes rest := fun hbeg =>
        hpre (prefix_of_prefix_escapeQuotes hp (by rwa [escapeQuotes_cons hc]))
      rw [escapeQuotes_cons hc, escapeQuotes_cons hc, replaceAll_cons hnot, hrest]

theorem Solid.replaceAll_quote (h : Solid mark p) (hv : p <:+: text → '\'' ∉ v) (a b : List Char) :
    replaceAll p v (a ++ quote text ++ b) =
      replaceAll p v a ++ quote (replaceAll p v text) ++ replaceAll p v b := by
  have hquote : '\'' ∉ p := h.notMem rfl
  have htext : a ++ quote text ++ b = a ++ '\'' :: (escapeQuotes text ++ '\'' :: b) := by simp [quote]
  rw [htext, replaceAll_append_cons h.ne_nil hquote, replaceAll_append_cons h.ne_nil hquote,
    h.replaceAll_escapeQuotes hv]
  simp [quote]

variable {pvs : List (List Char × List Char)} (h : ∀ pv ∈ pvs, Solid mark pv.1)
include h

/-- **Replacing in a command line with a quoted text**: it is quoted as before, if no quote is
inserted in it. -/
theorem replaceEach_quote (hv : ∀ pv ∈ met pvs text, '\'' ∉ pv.2) (a b : List Char) :
    replaceEach pvs (a ++ quote text ++ b) =
      replaceEach pvs a ++ quote (replaceEach pvs text) ++ replaceEach pvs b := by
  induction pvs generalizing a text b with
  | nil => rfl
  | cons pv pvs ih =>
    obtain ⟨hpv, hrest⟩ := forall_mem_cons.1 h
    by_cases hocc : pv.1 <:+: text
    · rw [ met_cons_of_infix hocc, forall_mem_cons] at hv
      rw [replaceEach_cons, hpv.replaceAll_quote fun _ => hv.1, ih hrest hv.2]
      rfl
    · rw [met_cons_of_absent hocc] at hv
      rw [replaceEach_cons, hpv.replaceAll_quote fun hin => absurd hin hocc,
        replaceAll_of_absent hpv.ne_nil hocc, ih hrest hv, replaceEach_cons, replaceEach_cons,
        replaceEach_cons, replaceAll_of_absent hpv.ne_nil hocc]

theorem head?_replaceEach (htext : text.head? ≠ some mark) :
    (replaceEach pvs text).head? = text.head? := by
  induction pvs generalizing text with
  | nil => rfl
  | cons pv pvs ih =>
    obtain ⟨hpv, hrest⟩ := forall_mem_cons.1 h
    have hhead := hpv.head?_replaceAll (v := pv.2) htext
    rw [replaceEach_cons, ih hrest (by rwa [hhead]), hhead]

end Replacing

end ShellWords
