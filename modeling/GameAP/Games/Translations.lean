import GameAP.Plugins.PathPolicy

/-!
# Translations of a game mod

The three `Normalized` of `game_mod_var.go` are the same loop over a map from locales to
translations.  A map has no order: the loop meets its entries in any order, and of two locales with
the same normalised key it keeps the one it meets last.  `normalizedI18n_eq_iff` says when this
makes no difference.
-/

namespace GameAP

open Tables List

/-- `unicode.IsSpace` as `trimSpace` has it. -/
def isSpace (c : Char) : Bool := c = '\n' ∨ Decimal.isBlank c

/-- What is used of `unicode.ToLower`. -/
structure LowerCase where
  lower : Char → Char
  lower_lower : ∀ c, lower (lower c) = lower c
  lower_dash : lower '-' = '-'
  isSpace_lower : ∀ c, isSpace (lower c) = isSpace c

/-- The key of a locale. -/
def normalizeLocaleKey (L : LowerCase) (locale : String) : String :=
  String.ofList (((trimSpace locale.toList).map L.lower).map fun c => if c = '_' then '-' else c)

/-- An entry of a map from locales; a list of them is the map in the order of an iteration. -/
abbrev LocaleEntry (T : Type) := Sigma fun _ : String => T

section

variable {T : Type} (L : LowerCase) (isEmpty : T → Bool)

/-- The entry is not skipped. -/
def Kept (e : LocaleEntry T) : Prop :=
  ¬ (normalizeLocaleKey L e.1 = "" ∨ normalizeLocaleKey L e.1 = "en" ∨ isEmpty e.2 = true)

instance (e : LocaleEntry T) : Decidable (Kept L isEmpty e) := inferInstanceAs (Decidable ¬_)

/-- The loop of `Normalized`; the table without entries stands for `nil`. -/
def normalizedI18n (order : List (LocaleEntry T)) : Table String T :=
  order.foldl (fun m e => if Kept L isEmpty e then m.put (normalizeLocaleKey L e.1) e.2 else m) ∅

end

structure GameModVarTranslation where
  info : String
  description : String
deriving DecidableEq

def GameModVarI18n.normalized (L : LowerCase) :=
  normalizedI18n L fun t : GameModVarTranslation => t.info = "" && t.description = ""

structure GameModVarOptionTranslation where
  label : String

def GameModVarOptionI18n.normalized (L : LowerCase) :=
  normalizedI18n L fun t : GameModVarOptionTranslation => t.label = ""

structure GameModFastRconTranslation where
  info : String

def GameModFastRconI18n.normalized (L : LowerCase) :=
  normalizedI18n L fun t : GameModFastRconTranslation => t.info = ""

theorem trimSpace_map {f : Char → Char} (hf : ∀ c, isSpace (f c) = isSpace c) (s : List Char) :
    trimSpace (s.map f) = (trimSpace s).map f := by
  have hcomp : isSpace ∘ f = isSpace := funext hf
  show (((s.map f).dropWhile isSpace).reverse.dropWhile isSpace).reverse = _
  rw [dropWhile_map, hcomp, ← map_reverse, dropWhile_map, hcomp, ← map_reverse]
  rfl

theorem trimSpace_trimSpace (s : List Char) : trimSpace (trimSpace s) = trimSpace s := by
  show ((((s.dropWhile isSpace).rdropWhile isSpace).dropWhile isSpace).rdropWhile isSpace) =
    (s.dropWhile isSpace).rdropWhile isSpace
  -- what is left begins like the text without the spaces in front
  have hfront : ((s.dropWhile isSpace).rdropWhile isSpace).dropWhile isSpace =
      (s.dropWhile isSpace).rdropWhile isSpace := by
    rw [dropWhile_eq_self_iff]
    intro hpos
    have hpre := List.rdropWhile_prefix isSpace (l := s.dropWhile isSpace)
    rw [hpre.getElem hpos]
    exact dropWhile_eq_self_iff.1 (dropWhile_idempotent ..) _
  rw [hfront, rdropWhile_idempotent]

theorem normalizeLocaleKey_idem (L : LowerCase) (locale : String) :
    normalizeLocaleKey L (normalizeLocaleKey L locale) = normalizeLocaleKey L locale := by
  have hdash (c : Char) : isSpace (if c = '_' then '-' else c) = isSpace c := by
    split_ifs with hc
    · rw [hc]
      decide
    · rfl
  unfold normalizeLocaleKey
  rw [String.toList_ofList, trimSpace_map hdash, trimSpace_map L.isSpace_lower, trimSpace_trimSpace,
    map_map, map_map, map_map, map_map]
  congr 1
  refine map_congr_left fun c _ => ?_
  simp only [Function.comp_apply]
  split_ifs with h h' h' <;> simp_all [L.lower_lower, L.lower_dash]

section

variable {T : Type} {L : LowerCase} {isEmpty : T → Bool} {order : List (LocaleEntry T)}
  {e : LocaleEntry T} {k : String} {t : T}

theorem normalizedI18n_concat : normalizedI18n L isEmpty (order ++ [e]) =
    if Kept L isEmpty e then (normalizedI18n L isEmpty order).put (normalizeLocaleKey L e.1) e.2
    else normalizedI18n L isEmpty order := by
  simp [normalizedI18n]

theorem mem_of_get_normalizedI18n (h : (normalizedI18n L isEmpty order).get k = some t) :
    ∃ e ∈ order, Kept L isEmpty e ∧ normalizeLocaleKey L e.1 = k ∧ e.2 = t := by
  induction order using reverseRecOn with
  | nil => cases h
  | append_singleton order e ih =>
    rw [normalizedI18n_concat] at h
    split_ifs at h with hkept
    · rcases Table.get_of_put h with ⟨hk, ht⟩ | h
      · exact ⟨e, by simp, hkept, hk.symm, ht⟩
      · obtain ⟨e', he', hrest⟩ := ih h
        exact ⟨e', by simp [he'], hrest⟩
    · obtain ⟨e', he', hrest⟩ := ih h
      exact ⟨e', by simp [he'], hrest⟩

theorem isSome_get_normalizedI18n (he : e ∈ order) (hkept : Kept L isEmpty e) :
    ((normalizedI18n L isEmpty order).get (normalizeLocaleKey L e.1)).isSome = true := by
  induction order using reverseRecOn with
  | nil => cases he
  | append_singleton order e' ih =>
    rw [normalizedI18n_concat]
    rcases mem_append.1 he with he | he
    · split_ifs
      · rw [Table.get_put]
        split_ifs
        exacts [rfl, ih he]
      · exact ih he
    · rw [mem_singleton.1 he] at hkept ⊢
      rw [if_pos hkept, Table.get_put_self]
      rfl

/-- The kept entries with the same key have the same translation. -/
def Agree (L : LowerCase) (isEmpty : T → Bool) (order : List (LocaleEntry T)) : Prop :=
  ∀ a ∈ order, ∀ b ∈ order, Kept L isEmpty a → Kept L isEmpty b →
    normalizeLocaleKey L a.1 = normalizeLocaleKey L b.1 → a.2 = b.2

theorem get_normalizedI18n_iff (h : Agree L isEmpty order) :
    (normalizedI18n L isEmpty order).get k = some t ↔
      ∃ e ∈ order, Kept L isEmpty e ∧ normalizeLocaleKey L e.1 = k ∧ e.2 = t := by
  refine ⟨mem_of_get_normalizedI18n, ?_⟩
  rintro ⟨e, he, hkept, rfl, rfl⟩
  obtain ⟨t, ht⟩ := Option.isSome_iff_exists.1 (isSome_get_normalizedI18n he hkept)
  obtain ⟨e', he', hkept', hkey, rfl⟩ := mem_of_get_normalizedI18n ht
  rw [ht, h e' he' e he hkept' hkept hkey]

theorem get_normalizedI18n_last [DecidableEq T] (he : e ∈ order) (hkept : Kept L isEmpty e) :
    ∃ order', order'.Perm order ∧
      (normalizedI18n L isEmpty order').get (normalizeLocaleKey L e.1) = some e.2 := by
  refine ⟨order.erase e ++ [e], (perm_append_singleton ..).trans (perm_cons_erase he).symm, ?_⟩
  rw [normalizedI18n_concat, if_pos hkept, Table.get_put_self]

theorem kept_of_mem_normalizedI18n (he : e ∈ (normalizedI18n L isEmpty order).entries) :
    normalizeLocaleKey L e.1 = e.1 ∧ Kept L isEmpty e := by
  obtain ⟨e', -, hkept, hkey, ht⟩ := mem_of_get_normalizedI18n (Table.get_eq_some_iff.2 he)
  have hidem : normalizeLocaleKey L e.1 = e.1 := by rw [← hkey, normalizeLocaleKey_idem]
  refine ⟨hidem, ?_⟩
  rwa [Kept, hidem, ← hkey, ← ht]

end

open Classical in
/-- The result is the same in every order exactly if kept entries with the same key agree; in every
order, another application changes nothing. -/
theorem normalizedI18n_eq_iff {T : Type} (L : LowerCase) (isEmpty : T → Bool) (m : Table String T) :
    ((∀ order, order.Perm m.entries → ∀ k,
        (normalizedI18n L isEmpty order).get k = (normalizedI18n L isEmpty m.entries).get k) ↔
      Agree L isEmpty m.entries) ∧
    ∀ order, order.Perm m.entries → ∀ again, again.Perm (normalizedI18n L isEmpty order).entries →
      ∀ k, (normalizedI18n L isEmpty again).get k = (normalizedI18n L isEmpty order).get k := by
  refine ⟨⟨fun hsame a ha b hb hkept hkept' hkey => ?_, fun hagree order hperm k => ?_⟩,
    fun order _ again hagain k => ?_⟩
  · -- each of the two entries is the last one in some order
    obtain ⟨order, hperm, hget⟩ := get_normalizedI18n_last ha hkept
    obtain ⟨order', hperm', hget'⟩ := get_normalizedI18n_last hb hkept'
    rw [hsame order hperm] at hget
    rw [hsame order' hperm', ← hkey, hget] at hget'
    exact Option.some.inj hget'
  · have hagree' : Agree L isEmpty order := fun a ha b hb =>
      hagree a (hperm.mem_iff.1 ha) b (hperm.mem_iff.1 hb)
    ext t
    rw [get_normalizedI18n_iff hagree, get_normalizedI18n_iff hagree']
    simp only [hperm.mem_iff]
  · have hagree : Agree L isEmpty again := by
      intro a ha b hb _ _ hkey
      have ha' := hagain.mem_iff.1 ha
      have hb' := hagain.mem_iff.1 hb
      rw [(kept_of_mem_normalizedI18n ha').1, (kept_of_mem_normalizedI18n hb').1] at hkey
      have hget := Table.get_eq_some_iff.2 ha'
      rw [hkey, Table.get_eq_some_iff.2 hb'] at hget
      exact (Option.some.inj hget).symm
    ext t
    rw [get_normalizedI18n_iff hagree, Table.get_eq_some_iff]
    constructor
    · rintro ⟨e, he, -, rfl, rfl⟩
      have he' := hagain.mem_iff.1 he
      rwa [(kept_of_mem_normalizedI18n he').1]
    · intro he
      obtain ⟨hkey, hkept⟩ := kept_of_mem_normalizedI18n he
      exact ⟨_, hagain.mem_iff.2 he, hkept, hkey, rfl⟩

theorem normalized_collision :
    let L : LowerCase := ⟨id, fun _ => rfl, rfl, fun _ => rfl⟩
    let a : GameModVarTranslation := ⟨"a", ""⟩
    let b : GameModVarTranslation := ⟨"b", ""⟩
    (GameModVarI18n.normalized L [⟨"de-at", a⟩, ⟨"de_at", b⟩]).get "de-at" = some b ∧
      (GameModVarI18n.normalized L [⟨"de_at", b⟩, ⟨"de-at", a⟩]).get "de-at" = some a := by
  decide

end GameAP
