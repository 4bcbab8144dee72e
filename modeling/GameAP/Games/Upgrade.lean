import GameAP.Repositories.Catalog

/-!
# The upgrade of the games from the catalog

`GameUpgradeService.UpgradeGames` goes through the entries of the catalog.  Their mods are merged
into the stored ones field by field; their games are built anew and saved in place of the stored
ones, with whatever an administrator has set there.
-/

namespace GameAP

open Tables

/-- `domain.Metadata`, with the JSON text of each value. -/
abbrev Metadata := Table String String

/-- `domain.Game`. -/
structure StoredGame extends Game where
  engine : String
  engineVersion : String
  steamAppIDLinux : Option ℕ := none
  steamAppIDWindows : Option ℕ := none
  steamAppSetConfig : Option String := none
  remoteRepositoryLinux : Option String := none
  remoteRepositoryWindows : Option String := none
  localRepositoryLinux : Option String := none
  localRepositoryWindows : Option String := none
  enabled : ℤ
  metadata : Metadata := ∅

/-- `domain.GlobalAPIGame`, with mods of some type. -/
structure GlobalAPIGame (μ : Type) where
  code : String
  name : String
  engine : String
  engineVersion : String
  steamAppIDLinux : ℕ := 0
  steamAppIDWindows : ℕ := 0
  steamAppSetConfig : String := ""
  remoteRepositoryLinux : String := ""
  remoteRepositoryWindows : String := ""
  metadata : Metadata := ∅
  mods : List μ := []

/-- The pointer to a value that is not the zero value. -/
def unlessZero {α : Type} [DecidableEq α] (zero x : α) : Option α := if x ≠ zero then some x else none

variable {μ σ : Type}

def GlobalAPIGame.toDomainGame (g : GlobalAPIGame μ) : StoredGame where
  code := g.code
  name := g.name
  engine := g.engine
  engineVersion := g.engineVersion
  enabled := 1
  metadata := g.metadata
  steamAppIDLinux := unlessZero 0 g.steamAppIDLinux
  steamAppIDWindows := unlessZero 0 g.steamAppIDWindows
  steamAppSetConfig := unlessZero "" g.steamAppSetConfig
  remoteRepositoryLinux := unlessZero "" g.remoteRepositoryLinux
  remoteRepositoryWindows := unlessZero "" g.remoteRepositoryWindows

/-- The stored games by code. -/
abbrev GameRepository := Table String StoredGame

def GameRepository.save (r : GameRepository) (game : StoredGame) : GameRepository :=
  r.put game.code game

/-- `UpgradeGames` on the games and on whatever `saveMod`, the body of the inner loop, keeps of the
mods.  With an error the transaction ends without an effect. -/
def upgradeGames (saveMod : σ → μ → Option σ) (saves : StoredGame → Bool) :
    List (GlobalAPIGame μ) → GameRepository × σ → Option (GameRepository × σ)
  | [], s => some s
  | apiGame :: apiGames, (games, mods) =>
    if saves apiGame.toDomainGame then
      (apiGame.mods.foldlM saveMod mods).bind fun mods =>
        upgradeGames saveMod saves apiGames (GameRepository.save games apiGame.toDomainGame, mods)
    else none

/-- The entry of a code; the last one, if there are several. -/
def entryOf (catalog : List (GlobalAPIGame μ)) (code : String) : Option (GlobalAPIGame μ) :=
  (catalog.filter fun entry => entry.code = code).getLast?

/-- What the entry does not carry is as before. -/
structure Keeps (entry : GlobalAPIGame μ) (old new : StoredGame) : Prop where
  enabled : new.enabled = old.enabled
  localLinux : new.localRepositoryLinux = old.localRepositoryLinux
  localWindows : new.localRepositoryWindows = old.localRepositoryWindows
  steamLinux : entry.steamAppIDLinux = 0 → new.steamAppIDLinux = old.steamAppIDLinux
  steamWindows : entry.steamAppIDWindows = 0 → new.steamAppIDWindows = old.steamAppIDWindows
  setConfig : entry.steamAppSetConfig = "" → new.steamAppSetConfig = old.steamAppSetConfig
  remoteLinux : entry.remoteRepositoryLinux = "" →
    new.remoteRepositoryLinux = old.remoteRepositoryLinux
  remoteWindows : entry.remoteRepositoryWindows = "" →
    new.remoteRepositoryWindows = old.remoteRepositoryWindows
  metadata : ∀ key, entry.metadata.get key = none → new.metadata.get key = old.metadata.get key

/-- The game without what an administrator can set beside the catalog, or a catalog entry leave
empty. -/
def StoredGame.cleared (g : StoredGame) : StoredGame :=
  { g with
    enabled := 1
    localRepositoryLinux := none
    localRepositoryWindows := none
    steamAppIDLinux := none
    steamAppIDWindows := none
    steamAppSetConfig := none
    remoteRepositoryLinux := none
    remoteRepositoryWindows := none
    metadata := ∅ }

theorem unlessZero_of_eq {α : Type} [DecidableEq α] {zero x : α} (h : x = zero) :
    unlessZero zero x = none := if_neg (not_not.2 h)

theorem keeps_toDomainGame_iff {entry : GlobalAPIGame μ} {old : StoredGame} :
    Keeps entry old entry.toDomainGame ↔ Keeps entry old old.cleared where
  mp h := ⟨h.enabled, h.localLinux, h.localWindows,
    fun hz => (unlessZero_of_eq hz).symm.trans (h.steamLinux hz),
    fun hz => (unlessZero_of_eq hz).symm.trans (h.steamWindows hz),
    fun hz => (unlessZero_of_eq hz).symm.trans (h.setConfig hz),
    fun hz => (unlessZero_of_eq hz).symm.trans (h.remoteLinux hz),
    fun hz => (unlessZero_of_eq hz).symm.trans (h.remoteWindows hz),
    fun key hz => hz.symm.trans (h.metadata key hz)⟩
  mpr h := ⟨h.enabled, h.localLinux, h.localWindows,
    fun hz => (unlessZero_of_eq hz).trans (h.steamLinux hz),
    fun hz => (unlessZero_of_eq hz).trans (h.steamWindows hz),
    fun hz => (unlessZero_of_eq hz).trans (h.setConfig hz),
    fun hz => (unlessZero_of_eq hz).trans (h.remoteLinux hz),
    fun hz => (unlessZero_of_eq hz).trans (h.remoteWindows hz),
    fun key hz => hz.trans (h.metadata key hz)⟩

section Upgrade

variable {saveMod : σ → μ → Option σ} {saves : StoredGame → Bool} {catalog : List (GlobalAPIGame μ)}

theorem entryOf_cons (entry : GlobalAPIGame μ) (code : String) : entryOf (entry :: catalog) code =
      (entryOf catalog code).or (if entry.code = code then some entry else none) := by
  unfold entryOf
  by_cases hcode : entry.code = code
  · simp [hcode, List.getLast?_cons]
  · simp [hcode]

theorem get_upgradeGames {s s' : GameRepository × σ}
    (h : upgradeGames saveMod saves catalog s = some s') (code : String) :
    s'.1.get code = ((entryOf catalog code).map GlobalAPIGame.toDomainGame).or (s.1.get code) := by
  induction catalog generalizing s with
  | nil =>
    cases h
    rfl
  | cons entry catalog ih =>
    simp only [upgradeGames] at h
    split_ifs at h
    obtain ⟨mods, -, h⟩ := Option.bind_eq_some_iff.1 h
    rw [ih h, entryOf_cons, GameRepository.save, Table.get_put]
    by_cases hcode : entry.code = code
    · have hsame : code = entry.toDomainGame.code := hcode.symm
      rw [if_pos hsame, if_pos hcode]
      cases entryOf catalog code <;> rfl
    · have hne : ¬ code = entry.toDomainGame.code := fun heq => hcode heq.symm
      rw [if_neg hne, if_neg hcode, Option.or_none]

end Upgrade

/-- After an upgrade a stored game is unchanged, if the catalog does not have it; otherwise it keeps
what its entry does not carry exactly if there was nothing of the kind, so that clearing it keeps as
much. -/
theorem upgradeGames_keeps_iff (saveMod : σ → μ → Option σ) (saves : StoredGame → Bool)
    (catalog : List (GlobalAPIGame μ)) (games : GameRepository) (mods : σ) (s' : GameRepository × σ)
    (h : upgradeGames saveMod saves catalog (games, mods) = some s') (code : String) (old : StoredGame)
    (hold : games.get code = some old) :
    (entryOf catalog code = none → s'.1.get code = some old) ∧
    ∀ entry, entryOf catalog code = some entry →
      ((∃ new, s'.1.get code = some new ∧ Keeps entry old new) ↔ Keeps entry old old.cleared) := by
  have hget := get_upgradeGames h code
  refine ⟨fun hnone => ?_, fun entry hentry => ?_⟩
  · rw [hget, hnone]
    exact hold
  · rw [hget, hentry, ← keeps_toDomainGame_iff]
    constructor
    · rintro ⟨new, hnew, hkeeps⟩
      cases hnew
      exact hkeeps
    · exact fun hkeeps => ⟨_, rfl, hkeeps⟩

/-- A catalog with one game, and this game as an administrator has disabled it. -/
def sampleEntry : GlobalAPIGame Unit :=
  { code := "cs", name := "Counter-Strike", engine := "GoldSource", engineVersion := "1" }

def disabledGame : StoredGame := { sampleEntry.toDomainGame with enabled := 0 }

theorem upgradeGames_keeps_iff_fresh :
    ∃ s', upgradeGames (fun (s : Unit) _ => some s) (fun _ => true) [sampleEntry]
        (GameRepository.save ∅ sampleEntry.toDomainGame, ()) = some s' ∧
      ∃ new, s'.1.get "cs" = some new ∧ Keeps sampleEntry sampleEntry.toDomainGame new := by
  refine ⟨_, rfl, ((upgradeGames_keeps_iff (fun (s : Unit) _ => some s) (fun _ => true) [sampleEntry]
    _ () _ rfl "cs" sampleEntry.toDomainGame rfl).2 sampleEntry rfl).2 ?_⟩
  exact keeps_toDomainGame_iff.1 ⟨rfl, rfl, rfl, fun _ => rfl, fun _ => rfl, fun _ => rfl,
    fun _ => rfl, fun _ => rfl, fun _ _ => rfl⟩

theorem disabled_game_enabled :
    ∃ s', upgradeGames (fun (s : Unit) _ => some s) (fun _ => true) [sampleEntry]
        (GameRepository.save ∅ disabledGame, ()) = some s' ∧
      (s'.1.get "cs").map StoredGame.enabled = some 1 ∧ disabledGame.enabled = 0 :=
  ⟨_, rfl, rfl, rfl⟩

end GameAP
