import GameAP.Lib.ReadThrough
import GameAP.Repositories.Caching

/-!
# The cached repositories of games and game mods

The two repositories keep what they have read in one cache, under keys of their own, and a write
deletes all the keys of its repository.  Which arguments are part of a key differs from method to
method: for most of them it is all of them, but for `Find` of games by codes it is the codes alone,
with paginations of at most one game or none.

`catalog_read_iff`: over any wrapped repositories and in every state that the calls can lead to, a
read returns what the wrapped repository would return, unless it is a `Find` of games by codes whose
entry was filled with another pagination that has another result.  `limited_entry_answers_all` is
such a read.

The hash of the parameters is taken to be injective.
-/

namespace GameAP

open ReadThrough Tables

/-! ### The calls -/

/-- The filter of games. -/
structure FindGame where
  codes : List String := []
  deriving DecidableEq

/-- The filter of game mods. -/
structure FindGameMod where
  ids : List ℕ := []
  names : List String := []
  gameCodes : List String := []
  deriving DecidableEq

/-- One filter is used. -/
def used {α : Type*} (values : List α) : ℕ := if 0 < values.length then 1 else 0

def FindGame.filterCount (f : FindGame) : ℕ := used f.codes

def FindGameMod.filterCount (f : FindGameMod) : ℕ := used f.ids + used f.names + used f.gameCodes

/-- The reads of the two repositories with their arguments. -/
inductive CatalogQuery
  | gamesAll (order : List Sorting) (page : Option Pagination)
  | games (filter : Option FindGame) (order : List Sorting) (page : Option Pagination)
  | modsAll (order : List Sorting) (page : Option Pagination)
  | mods (filter : Option FindGameMod) (order : List Sorting) (page : Option Pagination)
  deriving DecidableEq

/-- What is hashed. -/
inductive CatalogParams
  | all (order : List Sorting) (page : Option Pagination)
  | codes (codes : List String)
  | gameCodes (codes : List String) (filter : FindGameMod) (order : List Sorting)
    (page : Option Pagination)
  deriving DecidableEq

/-- The repository of the games that is wrapped; `γ` are the games. -/
structure GameSource (σ γ : Type) where
  findAll : σ → List Sorting → Option Pagination → List γ
  find : σ → Option FindGame → List Sorting → Option Pagination → List γ
  save : σ → γ → σ
  delete : σ → String → σ

/-- The repository of the game mods that is wrapped; `δ` are the mods. -/
structure GameModSource (μ δ : Type) where
  findAll : μ → List Sorting → Option Pagination → List δ
  find : μ → Option FindGameMod → List Sorting → Option Pagination → List δ
  save : μ → δ → μ
  delete : μ → ℕ → μ

/-- What a read returns. -/
inductive CatalogRows (γ δ : Type)
  | games (rows : List γ)
  | mods (rows : List δ)
  deriving DecidableEq

/-- A single order by another field than the name. -/
def orderedByOther : List Sorting → Bool
  | [sorting] => sorting.field ≠ "name"
  | _ => false

section Keys

variable {H : Type} (hash : CatalogParams → H)

/-- The key of a read; `none` when it goes to the wrapped repository. -/
def catalogKey : CatalogQuery → Option (CacheKey H)
  | .gamesAll order page => some ⟨"games", "all", hash (.all order page)⟩
  | .games none _ _ => none
  | .games (some filter) order page =>
    if 0 < order.length then none
    else if paginated page then none
    else if 1 < filter.filterCount then none
    else if 0 < filter.codes.length then some ⟨"games", "codes", hash (.codes filter.codes)⟩
    else none
  | .modsAll order page =>
    if 1 < order.length then none
    else if orderedByOther order then none
    else if paginated page then none
    else some ⟨"gamemods", "all", hash (.all order page)⟩
  | .mods none _ _ => none
  | .mods (some filter) order page =>
    if 1 < filter.filterCount then none
    else if orderedByOther order then none
    else if paginated page then none
    else if 0 < filter.gameCodes.length then
      some ⟨"gamemods", "gamecodes", hash (.gameCodes filter.gameCodes filter order page)⟩
    else none

end Keys

/-! ### The repositories -/

structure Catalog (H σ μ γ δ : Type) where
  games : σ
  mods : μ
  cache : Cache (CacheKey H) CatalogQuery (CatalogRows γ δ) := ∅

/-- A read or a write. -/
inductive CatalogOp (γ δ : Type)
  | read (q : CatalogQuery)
  | saveGame (game : γ)
  | deleteGame (code : String)
  | saveMod (mod : δ)
  | deleteMod (id : ℕ)

namespace Catalog

variable {H σ μ γ δ : Type} [DecidableEq H] (hash : CatalogParams → H) (G : GameSource σ γ)
  (M : GameModSource μ δ) (s : Catalog H σ μ γ δ)

/-- What the wrapped repository returns. -/
def eval : CatalogQuery → CatalogRows γ δ
  | .gamesAll order page => .games (G.findAll s.games order page)
  | .games filter order page => .games (G.find s.games filter order page)
  | .modsAll order page => .mods (M.findAll s.mods order page)
  | .mods filter order page => .mods (M.find s.mods filter order page)

/-- `FindAll` and `Find` of the cached repositories: the result, and the cache afterwards. -/
def read (q : CatalogQuery) : CatalogRows γ δ × Cache (CacheKey H) CatalogQuery (CatalogRows γ δ) :=
  ReadThrough.read (catalogKey hash) (s.eval G M) s.cache q

/-- `InvalidatePattern` with all the keys of a repository. -/
def invalidate (repository : String) : Cache (CacheKey H) CatalogQuery (CatalogRows γ δ) :=
  Table.delWhere s.cache fun key => key.repository = repository

def step : CatalogOp γ δ → Catalog H σ μ γ δ
  | .read q => { s with cache := (s.read hash G M q).2 }
  | .saveGame game => { s with games := G.save s.games game, cache := s.invalidate "games" }
  | .deleteGame code => { s with games := G.delete s.games code, cache := s.invalidate "games" }
  | .saveMod mod => { s with mods := M.save s.mods mod, cache := s.invalidate "gamemods" }
  | .deleteMod id => { s with mods := M.delete s.mods id, cache := s.invalidate "gamemods" }

end Catalog

/-! ### Keys and what they stand for -/

section Keys

variable {H : Type} {hash : CatalogParams → H} {q q' : CatalogQuery} {k : CacheKey H}

/-- A `Find` of games by codes, with no pagination that matters for the key. -/
def CatalogQuery.byCodes : CatalogQuery → Option (List String × Option Pagination)
  | .games (some filter) [] page =>
    if filter.codes ≠ [] ∧ paginated page = false then some (filter.codes, page) else none
  | _ => none

/-- A read of games. -/
def CatalogQuery.ofGames : CatalogQuery → Bool
  | .gamesAll _ _ | .games _ _ _ => true
  | .modsAll _ _ | .mods _ _ _ => false

/-- A key says which repository it is from, and which arguments the read has, except for the
pagination of a `Find` of games by codes. -/
theorem catalogKey_cases (h : catalogKey hash q = some k) :
    (∃ order page, q = .gamesAll order page ∧ k = ⟨"games", "all", hash (.all order page)⟩) ∨
    (∃ codes page, q = .games (some ⟨codes⟩) [] page ∧ q.byCodes = some (codes, page) ∧
      k = ⟨"games", "codes", hash (.codes codes)⟩) ∨
    (∃ order page, q = .modsAll order page ∧ k = ⟨"gamemods", "all", hash (.all order page)⟩) ∨
    (∃ filter order page, q = .mods (some filter) order page ∧
      k = ⟨"gamemods", "gamecodes", hash (.gameCodes filter.gameCodes filter order page)⟩) := by
  cases q with
  | gamesAll order page =>
    cases h
    exact .inl ⟨order, page, rfl, rfl⟩
  | games filter order page =>
    cases filter with
    | none => cases h
    | some filter =>
      simp only [catalogKey] at h
      split_ifs at h with horder hpage hcount hcodes
      cases h
      obtain rfl : order = [] := List.length_eq_zero_iff.1 (by omega)
      refine .inr (.inl ⟨filter.codes, page, rfl, ?_, rfl⟩)
      have hne : filter.codes ≠ [] := List.length_pos_iff.1 hcodes
      simp [CatalogQuery.byCodes, hne, hpage]
  | modsAll order page =>
    simp only [catalogKey] at h
    split_ifs at h
    cases h
    exact .inr (.inr (.inl ⟨order, page, rfl, rfl⟩))
  | mods filter order page =>
    cases filter with
    | none => cases h
    | some filter =>
      simp only [catalogKey] at h
      split_ifs at h
      cases h
      exact .inr (.inr (.inr ⟨filter, order, page, rfl, rfl⟩))

theorem repository_of_catalogKey (h : catalogKey hash q = some k) :
    k.repository = if q.ofGames then "games" else "gamemods" := by
  rcases catalogKey_cases h with ⟨order, page, rfl, rfl⟩ | ⟨codes, page, rfl, -, rfl⟩ |
    ⟨order, page, rfl, rfl⟩ | ⟨filter, order, page, rfl, rfl⟩ <;> rfl

theorem catalogKey_of_byCodes (hash : CatalogParams → H) {codes : List String}
    {page : Option Pagination} (h : q.byCodes = some (codes, page)) : q = .games (some ⟨codes⟩) [] page ∧
      catalogKey hash q = some ⟨"games", "codes", hash (.codes codes)⟩ := by
  unfold CatalogQuery.byCodes at h
  split at h
  · next filter page₁ =>
    split_ifs at h with hcodes
    cases h
    have hpos : 0 < filter.codes.length := List.length_pos_iff.2 hcodes.1
    refine ⟨rfl, ?_⟩
    simp [catalogKey, hcodes.2, hpos, FindGame.filterCount, used]
  · cases h

theorem eq_or_byCodes (hinj : Function.Injective hash) (h : catalogKey hash q = some k)
    (h' : catalogKey hash q' = some k) : q' = q ∨ ∃ codes page page',
      q.byCodes = some (codes, page) ∧ k = ⟨"games", "codes", hash (.codes codes)⟩ ∧
      q' = .games (some ⟨codes⟩) [] page' := by
  rcases catalogKey_cases h with ⟨order, page, rfl, rfl⟩ | ⟨codes, page, rfl, hcodes, rfl⟩ |
    ⟨order, page, rfl, rfl⟩ | ⟨filter, order, page, rfl, rfl⟩
  all_goals
    rcases catalogKey_cases h' with ⟨order', page', rfl, hk⟩ | ⟨codes', page', rfl, -, hk⟩ |
      ⟨order', page', rfl, hk⟩ | ⟨filter', order', page', rfl, hk⟩
    all_goals simp only [CacheKey.mk.injEq] at hk
  -- what is left are the pairs of one method
  case inl.inl =>
    obtain ⟨rfl, rfl⟩ := CatalogParams.all.inj (hinj hk.2.2)
    exact .inl rfl
  case inr.inl.inr.inl =>
    cases CatalogParams.codes.inj (hinj hk.2.2)
    exact .inr ⟨codes, page, page', hcodes, rfl, rfl⟩
  case inr.inr.inl.inr.inr.inl =>
    obtain ⟨rfl, rfl⟩ := CatalogParams.all.inj (hinj hk.2.2)
    exact .inl rfl
  case inr.inr.inr.inr.inr.inr =>
    obtain ⟨-, rfl, rfl, rfl⟩ := CatalogParams.gameCodes.inj (hinj hk.2.2)
    exact .inl rfl
  all_goals simp at hk

end Keys

/-! ### What a read returns -/

namespace Catalog

variable {H σ μ γ δ : Type} [DecidableEq H] {hash : CatalogParams → H} {G : GameSource σ γ}
  {M : GameModSource μ δ} {s : Catalog H σ μ γ δ}

/-- The entries have what the wrapped repositories return. -/
def Coherent (hash : CatalogParams → H) (G : GameSource σ γ) (M : GameModSource μ δ)
    (s : Catalog H σ μ γ δ) : Prop := Fresh (catalogKey hash) (s.eval G M) s.cache

theorem Coherent.write {s' : Catalog H σ μ γ δ} (hs : Coherent hash G M s) (ofGames : Bool)
    (hcache : s'.cache = s.invalidate (if ofGames then "games" else "gamemods"))
    (hother : ∀ q, q.ofGames ≠ ofGames → s'.eval G M q = s.eval G M q) : Coherent hash G M s' := by
  unfold Coherent
  rw [hcache]
  refine Fresh.delWhere hs _ fun k entry hget hkept => hother entry.query ?_
  rintro rfl
  have hrep := repository_of_catalogKey (hs k entry hget).1
  exact absurd hrep (of_decide_eq_false hkept)

theorem Coherent.step (hs : Coherent hash G M s) (op : CatalogOp γ δ) :
    Coherent hash G M (s.step hash G M op) := by
  cases op with
  | read q => exact Fresh.read hs q
  | saveGame | deleteGame =>
    refine hs.write true rfl fun q hq => ?_
    cases q <;> first | rfl | exact absurd rfl hq
  | saveMod | deleteMod =>
    refine hs.write false rfl fun q hq => ?_
    cases q <;> first | rfl | exact absurd rfl hq

theorem Coherent.run (hs : Coherent hash G M s) (ops : List (CatalogOp γ δ)) :
    Coherent hash G M (ops.foldl (fun s op => s.step hash G M op) s) := by
  induction ops generalizing s with
  | nil => exact hs
  | cons op ops ih => exact ih (hs.step op)

/-- After any calls, a read returns what the wrapped repository would return, exactly if it is no
`Find` of games by codes, or its entry was filled with a pagination that has the same result. -/
theorem catalog_read_iff (hinj : Function.Injective hash) (games : σ) (mods : μ)
    (ops : List (CatalogOp γ δ)) (q : CatalogQuery) :
    let s := ops.foldl (fun s op => s.step hash G M op) ({ games, mods } : Catalog H σ μ γ δ)
    (s.read hash G M q).1 = s.eval G M q ↔
      ∀ codes page, q.byCodes = some (codes, page) → ∀ entry page',
        s.cache.get ⟨"games", "codes", hash (.codes codes)⟩ = some entry →
        entry.query = .games (some ⟨codes⟩) [] page' →
        G.find s.games (some ⟨codes⟩) [] page' = G.find s.games (some ⟨codes⟩) [] page := by
  intro s
  have h₀ : Coherent hash G M ({ games, mods } : Catalog H σ μ γ δ) := fresh_empty _ _
  have hs : Coherent hash G M s := h₀.run ops
  rw [Catalog.read, Fresh.answer_iff hs]
  constructor
  · intro hsame codes page hcodes entry page' hget hquery
    obtain ⟨rfl, hkey⟩ := catalogKey_of_byCodes hash hcodes
    have heval := hsame _ entry hkey hget
    rw [hquery] at heval
    exact CatalogRows.games.inj heval
  · intro hsame k entry hkey hget
    rcases eq_or_byCodes hinj hkey (hs k entry hget).1 with
      heq | ⟨codes, page, page', hcodes, rfl, heq⟩
    · rw [heq]
    · have hrows := hsame codes page hcodes entry page' hget heq
      rw [heq, (catalogKey_of_byCodes hash hcodes).1]
      exact congrArg CatalogRows.games hrows

end Catalog

/-! ### The games in memory -/

/-- What a game is found and sorted by. -/
structure Game where
  code : String
  name : String
  deriving DecidableEq

/-- The order by a field. -/
def compareGames (field : String) (a b : Game) : Ordering :=
  if field = "code" then compare a.code b.code
  else if field = "name" then compare a.name b.name
  else .eq

/-- `inmemory.GameRepository`, with its games in the order in which they were first saved. -/
def memoryGames : GameSource (List Game) Game where
  findAll rows order page := applyPagination (sortRows compareGames order rows) page
  find rows filter order page :=
    let codes := (filter.getD {}).codes
    let found := if codes = [] then rows else rows.filter fun game => codes.contains game.code
    applyPagination (sortRows compareGames order found) page
  save rows game :=
    if rows.any fun old => old.code = game.code then
      rows.map fun old => if old.code = game.code then game else old
    else rows ++ [game]
  delete rows code := rows.filter fun game => game.code ≠ code

def noMods : GameModSource Unit Unit where
  findAll _ _ _ := []
  find _ _ _ _ := []
  save s _ := s
  delete s _ := s

def sampleGames : List Game := [⟨"cstrike", "Counter-Strike"⟩, ⟨"valve", "Half-Life"⟩]

/-- The two games by their codes. -/
def sampleQuery (page : Option Pagination) : CatalogQuery :=
  .games (some ⟨["cstrike", "valve"]⟩) [] page

namespace Catalog

/-- The catalog after the two games were found with this pagination. -/
def sampleCatalog (page : Option Pagination) : Catalog CatalogParams (List Game) Unit Game Unit :=
  [CatalogOp.read (sampleQuery page)].foldl (fun s op => s.step id memoryGames noMods op)
    { games := sampleGames, mods := () }

/-- The same read again. -/
theorem catalog_read_iff_again :
    ((sampleCatalog none).read id memoryGames noMods (sampleQuery none)).1 = .games sampleGames := by
  refine (catalog_read_iff Function.injective_id sampleGames () [.read (sampleQuery none)]
    (sampleQuery none)).2 ?_
  intro codes page hcodes entry page' hget hquery
  cases hcodes
  cases hget
  cases hquery
  rfl

/-- The entry that was filled with at most one game answers the call for all of them. -/
theorem limited_entry_answers_all :
    ((sampleCatalog (some { limit := 1 })).read id memoryGames noMods (sampleQuery none)).1 =
      .games [⟨"cstrike", "Counter-Strike"⟩] ∧
    (sampleCatalog (some { limit := 1 })).eval memoryGames noMods (sampleQuery none) = .games sampleGames :=
  ⟨rfl, rfl⟩

end Catalog

end GameAP
