import GameAP.Domain
import GameAP.Lib.Decimal
import GameAP.Lib.Runs
import GameAP.Lib.Tables
import GameAP.Lib.Versions

/-!
# The grants of plugins in memory

`CachedPermissionChecker` keeps the grants of a plugin for a time.  A question looks into the
entries, reads the generation, joins or starts the load for the plugin and the generation, and the
load stores what it has read only if the generation is still the same.  An invalidation drops
entries and begins a new generation.

`answered_after_invalidation`: a question that begins after `Invalidate` has returned is answered
with the grants of a version of the records that is not older than the invalidation.  It rests on
`GrantsInv`: an entry was read after the last invalidation of its plugin.

The versions of the records, the generation in which a question began and `floors` are history.
-/

namespace GameAP

open Runs Tables Versions Nat

/-! ### Permissions -/

inductive PluginPermission
  | manageServers
  | manageNodes
  | manageGames
  | manageGameMods
  | manageUsers
  | manageRBAC
  | files
  | filesRead
  | listenEvents
  | secrets
  | nodeCommands
  | ssh
  deriving DecidableEq

def pluginPermissionSupersets : PluginPermission → List PluginPermission
  | .filesRead => [.files]
  | _ => []

def permissionSatisfied (permission : PluginPermission) (granted : List PluginPermission) : Bool :=
  granted.contains permission || (pluginPermissionSupersets permission).any granted.contains

abbrev GrantRecords := Table ℕ (List PluginPermission)

/-- `RepositoryPermissionChecker.Grants`. -/
def grantsOf (pluginID : ℕ) (records : GrantRecords) : List PluginPermission :=
  if pluginID = 0 then [] else (records.get pluginID).getD []

/-- `Has` with a permission, or `Grants`. -/
structure GrantsQuestion where
  pluginID : ℕ
  permission : Option PluginPermission
  deriving DecidableEq

inductive GrantsAnswer
  | has (answer : Bool)
  | grants (permissions : List PluginPermission)
  | failed
  deriving DecidableEq

/-- What `Has` and `Grants` make of the grants. -/
def GrantsQuestion.answer (q : GrantsQuestion) (permissions : List PluginPermission) : GrantsAnswer :=
  match q.permission with
  | some permission => .has (permissionSatisfied permission permissions)
  | none => .grants permissions

/-! ### The checker -/

/-- An entry of the checker. -/
structure GrantsEntry where
  permissions : List PluginPermission
  expiresAt : Time
  deriving DecidableEq

/-- A load that callers may join; a result without grants is an error. -/
structure GrantsFlight where
  pluginID : ℕ
  generation : ℕ
  result : Option (Option (List PluginPermission)) := none
  deriving DecidableEq

/-- `singleflight.Group`: which load is in flight for a key.  A caller joins only a load that was
begun for its key. -/
class SingleFlight (G : Type) where
  empty : G
  find : G → String → Option ℕ
  start : G → String → ℕ → G
  done : G → String → ℕ → G
  find_empty : ∀ key, find empty key = none
  find_start : ∀ group key id key' id', find (start group key id) key' = some id' →
    key' = key ∧ id' = id ∨ find group key' = some id'
  find_done : ∀ group key id key' id', find (done group key id) key' = some id' →
    find group key' = some id'

open SingleFlight

/-- A map from keys to loads is such a group. -/
instance : SingleFlight (Table String ℕ) where
  empty := ∅
  find := Table.get
  start := Table.put
  done group key id := if group.get key = some id then group.del key else group
  find_empty _ := rfl
  find_start _ _ _ _ _ h := (Table.get_of_put h).imp_left fun h => ⟨h.1, h.2.symm⟩
  find_done _ _ _ _ _ h := by
    split_ifs at h
    · exact Table.get_of_del h
    · exact h

/-- The records and the checker with its loads in flight.  `floors g P` is the version of the
records when plugin `P` was last invalidated before generation `g` was over. -/
structure GrantsStore (G : Type) [SingleFlight G] where
  records : Versioned GrantRecords
  entries : Table ℕ GrantsEntry := ∅
  generation : ℕ := 0
  group : G := SingleFlight.empty
  flights : List GrantsFlight := []
  floors : ℕ → ℕ → ℕ := fun _ _ => 0

/-- `cacheKey`. -/
def grantsKey (pluginID generation : ℕ) : String :=
  String.ofList (Nat.toDigits 10 pluginID ++ ':' :: Nat.toDigits 10 generation)

variable {G : Type} [SingleFlight G]

namespace GrantsStore

variable (s : GrantsStore G)

/-- `Invalidate`, or `InvalidateAll` for `none`. -/
def invalidate (pluginID : Option ℕ) : GrantsStore G :=
  { s with
    entries := match pluginID with
      | some P => s.entries.del P
      | none => ∅
    generation := s.generation + 1
    floors := fun g P =>
      if g = s.generation + 1 then
        if pluginID = none ∨ pluginID = some P then s.records.version else s.floors s.generation P
      else s.floors g P }

/-- A load for the plugin and the generation, which others may join. -/
def begin (pluginID generation : ℕ) : GrantsStore G :=
  { s with
    flights := s.flights ++ [{ pluginID, generation }]
    group := start s.group (grantsKey pluginID generation) s.flights.length }

/-- The load stores the grants, if the generation is still the same. -/
def keep (pluginID generation : ℕ) (permissions : List PluginPermission) (expiresAt : Time) :
    GrantsStore G :=
  if s.generation ≠ generation then s
  else { s with entries := s.entries.put pluginID { permissions, expiresAt } }

/-- The load is over: its callers get the result, and nobody joins it any more. -/
def finish (key : String) (id : ℕ) (result : Option (List PluginPermission)) : GrantsStore G :=
  { s with
    flights := s.flights.modify id fun f => { f with result := some result }
    group := done s.group key id }

end GrantsStore

/-- Where a call stands: a question with the generation in which it began, a change of the grants of
a plugin, or an invalidation. -/
inductive GrantsCall
  | ask (q : GrantsQuestion) (began : ℕ)
  | source (q : GrantsQuestion) (began : ℕ)
  | lookup (q : GrantsQuestion) (began : ℕ)
  | currentGeneration (q : GrantsQuestion) (began : ℕ)
  | join (q : GrantsQuestion) (began generation : ℕ)
  | load (q : GrantsQuestion) (began generation flight : ℕ)
  | store (q : GrantsQuestion) (began generation flight : ℕ) (permissions : List PluginPermission)
  | finish (q : GrantsQuestion) (began generation flight : ℕ)
    (result : Option (List PluginPermission))
  | wait (q : GrantsQuestion) (began flight : ℕ)
  | answered (q : GrantsQuestion) (began : ℕ) (answer : GrantsAnswer)
  | change (pluginID : ℕ) (permissions : Option (List PluginPermission))
  | invalidate (pluginID : Option ℕ)
  | returned
  deriving DecidableEq

namespace GrantsCall

/-- The answer when the load has this result. -/
def reply (q : GrantsQuestion) : Option (List PluginPermission) → GrantsAnswer
  | some permissions => q.answer permissions
  | none => .failed

/-- One step of a call; `ttl` is that of the checker. -/
def next (ttl : ℤ) (s : GrantsStore G) (e : Env) : GrantsCall → Option (GrantsStore G × GrantsCall)
  | .ask q began =>
    if q.pluginID = 0 then some (s, .answered q began (q.answer []))
    else if ttl ≤ 0 then some (s, .source q began)
    else some (s, .lookup q began)
  | .source q began =>
    some (s, .answered q began
      (reply q (if e.ok then some (grantsOf q.pluginID s.records.current) else none)))
  | .lookup q began =>
    match s.entries.get q.pluginID with
    | none => some (s, .currentGeneration q began)
    | some entry =>
      if e.now < entry.expiresAt then some (s, .answered q began (q.answer entry.permissions))
      else some (s, .currentGeneration q began)
  | .currentGeneration q began => some (s, .join q began s.generation)
  | .join q began generation =>
    match find s.group (grantsKey q.pluginID generation) with
    | some flight => some (s, .wait q began flight)
    | none =>
      some (s.begin q.pluginID generation, .load q began generation s.flights.length)
  | .load q began generation flight =>
    if !e.ok then some (s, .finish q began generation flight none)
    else if grantsOf q.pluginID s.records.current = [] then
      -- an empty set is not stored
      some (s, .finish q began generation flight (some []))
    else some (s, .store q began generation flight (grantsOf q.pluginID s.records.current))
  | .store q began generation flight permissions =>
    some (s.keep q.pluginID generation permissions (e.now + ttl.toNat),
      .finish q began generation flight (some permissions))
  | .finish q began generation flight result =>
    some (s.finish (grantsKey q.pluginID generation) flight result,
      .answered q began (reply q result))
  | .wait q began flight =>
    match s.flights[flight]? with
    | none => none
    | some f => f.result.map fun result => (s, .answered q began (reply q result))
  | .answered _ _ _ => none
  | .change pluginID permissions =>
    some ({ s with records := s.records.commit (match permissions with
      | some ps => s.records.current.put pluginID ps
      | none => s.records.current.del pluginID) }, .returned)
  | .invalidate pluginID =>
    -- the generation is a `uint64`, and runs in which it wraps around are left out
    if s.generation + 1 < 2 ^ 64 then some (s.invalidate pluginID, .returned) else none
  | .returned => none

/-- Any number of questions, changes and invalidations. -/
def program (ttl : ℤ) : Program (GrantsStore G) GrantsCall Env where
  start s c := match c with
    | .ask _ began => began = s.generation
    | .change _ _ | .invalidate _ => true
    | _ => false
  next _ s c e := next ttl s e c

end GrantsCall

/-! ### What is kept -/

namespace GrantsStore

/-- The grants are those of the plugin in a version of the records from `lo` on. -/
def ReadFrom (s : GrantsStore G) (lo P : ℕ) (permissions : List PluginPermission) : Prop :=
  s.records.ReadBetween lo s.records.version (grantsOf P) permissions

/-- The load with this number is for the plugin and the generation. -/
def IsFlight (s : GrantsStore G) (id P g : ℕ) : Prop :=
  ∃ f, s.flights[id]? = some f ∧ f.pluginID = P ∧ f.generation = g

/-- What steps only add to. -/
structure Extends (s s' : GrantsStore G) : Prop where
  generation : s.generation ≤ s'.generation
  floors : ∀ g P, g ≤ s.generation → s'.floors g P = s.floors g P
  read : ∀ lo P permissions, s.ReadFrom lo P permissions → s'.ReadFrom lo P permissions
  flight : ∀ id P g, s.IsFlight id P g → s'.IsFlight id P g

theorem Extends.refl (s : GrantsStore G) : Extends s s :=
  ⟨le_refl _, fun _ _ _ => rfl, fun _ _ _ h => h, fun _ _ _ h => h⟩

theorem Extends.trans {s t u : GrantsStore G} (h : Extends s t) (h' : Extends t u) : Extends s u where
  generation := h.generation.trans h'.generation
  floors g P hg := (h'.floors g P (hg.trans h.generation)).trans (h.floors g P hg)
  read lo P permissions hr := h'.read lo P permissions (h.read lo P permissions hr)
  flight id P g hf := h'.flight id P g (h.flight id P g hf)

variable {s s' : GrantsStore G} {lo lo' P : ℕ} {permissions : List PluginPermission}

theorem ReadFrom.mono (h : s.ReadFrom lo P permissions) (hlo : lo' ≤ lo) :
    s.ReadFrom lo' P permissions :=
  Versioned.ReadBetween.mono h hlo (le_refl _)

theorem readFrom_current (hlo : lo ≤ s.records.version) :
    s.ReadFrom lo P (grantsOf P s.records.current) :=
  Versioned.readBetween_current hlo (le_refl _)

end GrantsStore

open GrantsStore

structure GrantsInv (s : GrantsStore G) : Prop where
  floors_le : ∀ g P, g ≤ s.generation → s.floors g P ≤ s.records.version
  floors_mono : ∀ g g' P, g ≤ g' → g' ≤ s.generation → s.floors g P ≤ s.floors g' P
  entry : ∀ P e, s.entries.get P = some e → s.ReadFrom (s.floors s.generation P) P e.permissions
  group : ∀ key id, find s.group key = some id →
    ∃ P g, key = grantsKey P g ∧ g ≤ s.generation ∧ s.IsFlight id P g
  flight : ∀ (id : ℕ) f, s.flights[id]? = some f → f.generation ≤ s.generation ∧
    ∀ permissions, f.result = some (some permissions) →
      s.ReadFrom (s.floors f.generation f.pluginID) f.pluginID permissions

namespace GrantsCall

/-- The answer rests on grants that were read after the last invalidation before the generation. -/
def AnswerFrom (s : GrantsStore G) (q : GrantsQuestion) (g : ℕ) (answer : GrantsAnswer) : Prop :=
  answer = .failed ∨ ∃ permissions, answer = q.answer permissions ∧
    (q.pluginID ≠ 0 → s.ReadFrom (s.floors g q.pluginID) q.pluginID permissions)

def Sound (s : GrantsStore G) : GrantsCall → Prop
  | .ask _ began | .source _ began | .lookup _ began | .currentGeneration _ began =>
    began ≤ s.generation
  | .join _ began g => began ≤ g ∧ g ≤ s.generation
  | .load q began g id => began ≤ g ∧ g ≤ s.generation ∧ s.IsFlight id q.pluginID g
  | .store q began g id permissions => began ≤ g ∧ g ≤ s.generation ∧ s.IsFlight id q.pluginID g ∧
    s.ReadFrom (s.floors g q.pluginID) q.pluginID permissions
  | .finish q began g id result => began ≤ g ∧ g ≤ s.generation ∧ s.IsFlight id q.pluginID g ∧
    ∀ permissions ∈ result, s.ReadFrom (s.floors g q.pluginID) q.pluginID permissions
  | .wait q began id => ∃ g, began ≤ g ∧ g ≤ s.generation ∧ s.IsFlight id q.pluginID g
  | .answered q began answer => began ≤ s.generation ∧ AnswerFrom s q began answer
  | .change _ _ | .invalidate _ | .returned => True

variable {s s' : GrantsStore G} {g n : ℕ} {q : GrantsQuestion}

theorem AnswerFrom.extend {answer : GrantsAnswer}
    (h : AnswerFrom s q g answer) (hext : Extends s s') (hg : g ≤ s.generation) :
    AnswerFrom s' q g answer := by
  rcases h with rfl | ⟨permissions, rfl, hread⟩
  · exact .inl rfl
  · refine .inr ⟨permissions, rfl, fun hP => ?_⟩
    rw [hext.floors _ _ hg]
    exact hext.read _ _ _ (hread hP)

theorem Sound.extend {c : GrantsCall} (h : Sound s c) (hext : Extends s s') : Sound s' c := by
  have hgen := hext.generation
  cases c with
  | ask | source | lookup | currentGeneration => exact le_trans h hgen
  | join q began g => exact ⟨h.1, h.2.trans hgen⟩
  | load q began g id => exact ⟨h.1, h.2.1.trans hgen, hext.flight _ _ _ h.2.2⟩
  | store q began g id permissions =>
    obtain ⟨hbegan, hg, hflight, hread⟩ := h
    refine ⟨hbegan, hg.trans hgen, hext.flight _ _ _ hflight, ?_⟩
    rw [hext.floors _ _ hg]
    exact hext.read _ _ _ hread
  | finish q began g id result =>
    obtain ⟨hbegan, hg, hflight, hread⟩ := h
    refine ⟨hbegan, hg.trans hgen, hext.flight _ _ _ hflight, fun permissions hp => ?_⟩
    rw [hext.floors _ _ hg]
    exact hext.read _ _ _ (hread permissions hp)
  | wait q began id =>
    obtain ⟨g, hbegan, hg, hflight⟩ := h
    exact ⟨g, hbegan, hg.trans hgen, hext.flight _ _ _ hflight⟩
  | answered q began answer => exact ⟨h.1.trans hgen, h.2.extend hext h.1⟩
  | change | invalidate | returned => trivial

variable {result : Option (List PluginPermission)}

theorem answerFrom_reply
    (h : ∀ permissions ∈ result, s.ReadFrom (s.floors g q.pluginID) q.pluginID permissions) :
    AnswerFrom s q g (reply q result) := by
  cases result with
  | none => exact .inl rfl
  | some permissions => exact .inr ⟨permissions, rfl, fun _ => h permissions rfl⟩

end GrantsCall

/-! ### What a step does to the store -/

namespace GrantsStore

variable {s : GrantsStore G} (key : String)

theorem extends_invalidate (pluginID : Option ℕ) : Extends s (s.invalidate pluginID) where
  generation := le_succ _
  floors _ _ hg := if_neg (Nat.ne_of_lt (lt_succ_of_le hg))
  read _ _ _ h := h
  flight _ _ _ h := h

theorem extends_begin (P g : ℕ) : Extends s (s.begin P g) where
  generation := le_refl _
  floors _ _ _ := rfl
  read _ _ _ h := h
  flight id P' g' := by
    rintro ⟨f, hf, hP, hg⟩
    have hlt : id < s.flights.length := (List.getElem?_eq_some_iff.1 hf).1
    exact ⟨f, (List.getElem?_append_left hlt).trans hf, hP, hg⟩

theorem extends_keep (P g : ℕ) (permissions : List PluginPermission) (expiresAt : Time) :
    Extends s (s.keep P g permissions expiresAt) := by
  unfold keep
  split_ifs
  · exact Extends.refl s
  · exact ⟨le_refl _, fun _ _ _ => rfl, fun _ _ _ h => h, fun _ _ _ h => h⟩

theorem getElem?_finish (id j : ℕ) (result : Option (List PluginPermission)) :
    (s.finish key id result).flights[j]? =
      if id = j then (s.flights[j]?).map fun f => { f with result := some result }
      else s.flights[j]? := by
  rw [finish, List.getElem?_modify]
  split_ifs <;> cases s.flights[j]? <;> rfl

theorem extends_finish (id : ℕ) (result : Option (List PluginPermission)) :
    Extends s (s.finish key id result) where
  generation := le_refl _
  floors _ _ _ := rfl
  read _ _ _ h := h
  flight j P g := by
    rintro ⟨f, hf, hP, hg⟩
    refine ⟨if id = j then { f with result := some result } else f, ?_, ?_, ?_⟩
    · rw [getElem?_finish, hf]
      split_ifs <;> rfl
    · split_ifs <;> exact hP
    · split_ifs <;> exact hg

theorem extends_commit (r : GrantRecords) : Extends s { s with records := s.records.commit r } where
  generation := le_refl _
  floors _ _ _ := rfl
  read lo P permissions h := by
    have hcommit := Versioned.ReadBetween.commit h r
    exact Versioned.ReadBetween.mono hcommit (le_refl _)
      (by rw [Versioned.version_commit]; exact le_succ _)
  flight _ _ _ h := h

end GrantsStore

namespace GrantsInv

variable {s : GrantsStore G}

theorem empty (records : GrantRecords) :
    GrantsInv ({ records := { current := records } } : GrantsStore G) where
  floors_le _ _ _ := zero_le _
  floors_mono _ _ _ _ _ := le_refl _
  entry _ _ h := by cases h
  group key _ h := by
    rw [find_empty] at h
    cases h
  flight _ _ h := by simp at h

section

variable (h : GrantsInv s)
include h

theorem invalidate (pluginID : Option ℕ) : GrantsInv (s.invalidate pluginID) where
  floors_le g P hg := by
    simp only [GrantsStore.invalidate]
    split_ifs with hlast hinv
    · exact le_refl _
    · exact h.floors_le _ P (le_refl _)
    · exact h.floors_le g P (le_of_lt_succ (lt_of_le_of_ne hg hlast))
  floors_mono g g' P hgg' hg' := by
    simp only [GrantsStore.invalidate]
    -- the new generation comes after all the others
    by_cases hlast' : g' = s.generation + 1
    · by_cases hlast : g = s.generation + 1
      · rw [if_pos hlast, if_pos hlast']
      · have hg : g ≤ s.generation := by omega
        split_ifs
        · exact h.floors_le g P hg
        · exact h.floors_mono g _ P hg (le_refl _)
    · have hg : g' ≤ s.generation := le_of_lt_succ (lt_of_le_of_ne hg' hlast')
      rw [if_neg (by omega), if_neg hlast']
      exact h.floors_mono g g' P hgg' hg
  entry P e he := by
    cases pluginID with
    | none => cases he
    | some P' =>
      have hdel : (s.entries.del P').get P = some e := he
      rw [Table.get_del] at hdel
      split_ifs at hdel with hP
      have hfloor : (s.invalidate (some P')).floors (s.generation + 1) P =
          s.floors s.generation P := by
        simp [GrantsStore.invalidate, Ne.symm hP]
      show s.ReadFrom ((s.invalidate (some P')).floors (s.generation + 1) P) P e.permissions
      rw [hfloor]
      exact h.entry P e hdel
  group key id hkey := by
    obtain ⟨P, g, hk, hg, hflight⟩ := h.group key id hkey
    exact ⟨P, g, hk, hg.trans (le_succ _), hflight⟩
  flight id f hf := by
    obtain ⟨hg, hread⟩ := h.flight id f hf
    refine ⟨hg.trans (le_succ _), fun permissions hres => ?_⟩
    rw [(extends_invalidate pluginID).floors _ _ hg]
    exact hread permissions hres

theorem keep {P : ℕ} {permissions : List PluginPermission}
    (hread : s.ReadFrom (s.floors g P) P permissions) (expiresAt : Time) :
    GrantsInv (s.keep P g permissions expiresAt) := by
  unfold GrantsStore.keep
  split_ifs with hgen
  · exact h
  · obtain rfl : s.generation = g := not_not.1 hgen
    refine ⟨h.floors_le, h.floors_mono, fun P' e he => ?_, h.group, h.flight⟩
    have hput : (s.entries.put P ⟨permissions, expiresAt⟩).get P' = some e := he
    rcases Table.get_of_put hput with ⟨rfl, rfl⟩ | hput
    · exact hread
    · exact h.entry P' e hput

theorem begin (P : ℕ) (hg : g ≤ s.generation) : GrantsInv (s.begin P g) where
  floors_le := h.floors_le
  floors_mono := h.floors_mono
  entry := h.entry
  group key id hkey := by
    rcases find_start _ _ _ _ _ hkey with ⟨hk, rfl⟩ | hput
    · exact ⟨P, g, hk, hg, _, List.getElem?_concat_length, rfl, rfl⟩
    · obtain ⟨P', g', hk', hg', hflight⟩ := h.group key id hput
      exact ⟨P', g', hk', hg', (extends_begin P g).flight _ _ _ hflight⟩
  flight id f hf := by
    have hmem : (s.flights ++ [{ pluginID := P, generation := g }])[id]? = some f := hf
    rw [List.getElem?_append] at hmem
    split_ifs at hmem
    · exact h.flight id f hmem
    · rw [List.mem_singleton.1 (List.mem_of_getElem? hmem)]
      exact ⟨hg, nofun⟩

theorem finish (key : String) {id P : ℕ} (hflight : s.IsFlight id P g)
    (hread : ∀ permissions ∈ result, s.ReadFrom (s.floors g P) P permissions) :
    GrantsInv (s.finish key id result) where
  floors_le := h.floors_le
  floors_mono := h.floors_mono
  entry := h.entry
  group key' id' hkey := by
    obtain ⟨P', g', hk, hg, hf⟩ := h.group key' id' (find_done _ _ _ _ _ hkey)
    exact ⟨P', g', hk, hg, (extends_finish key id result).flight _ _ _ hf⟩
  flight j f hf := by
    rw [getElem?_finish] at hf
    split_ifs at hf with hj
    · subst hj
      obtain ⟨f₀, hf₀, rfl, rfl⟩ := hflight
      rw [hf₀] at hf
      cases hf
      refine ⟨(h.flight id f₀ hf₀).1, fun permissions hres => ?_⟩
      exact hread permissions (Option.some.inj hres)
    · exact h.flight j f hf

theorem commit (r : GrantRecords) : GrantsInv { s with records := s.records.commit r } where
  floors_le g P hg := by
    show s.floors g P ≤ (s.records.commit r).version
    rw [Versioned.version_commit]
    exact (h.floors_le g P hg).trans (le_succ _)
  floors_mono := h.floors_mono
  entry P e he := (extends_commit r).read _ _ _ (h.entry P e he)
  group := h.group
  flight id f hf := by
    obtain ⟨hg, hread⟩ := h.flight id f hf
    exact ⟨hg, fun permissions hres => (extends_commit r).read _ _ _ (hread permissions hres)⟩

end

end GrantsInv

/-! ### Steps and runs -/

namespace GrantsCall

variable {ttl : ℤ} {s s' : GrantsStore G} {e : Env} {c c' : GrantsCall}

/-- The generation in which a question began. -/
def began? : GrantsCall → Option ℕ
  | .ask _ b | .source _ b | .lookup _ b | .currentGeneration _ b | .join _ b _ | .load _ b _ _
  | .store _ b _ _ _ | .finish _ b _ _ _ | .wait _ b _ | .answered _ b _ => some b
  | .change _ _ | .invalidate _ | .returned => none

/-- A step keeps the invariant and what is known, and the call that makes it stays sound. -/
theorem sound_of_next (hs : GrantsInv s) (hc : Sound s c) (h : next ttl s e c = some (s', c')) :
    c'.began? = c.began? ∧ Extends s s' ∧ GrantsInv s' ∧ Sound s' c' := by
  cases c with
  | ask q began =>
    simp only [next] at h
    split_ifs at h with hzero <;> cases h
    · exact ⟨rfl, .refl s, hs, hc, .inr ⟨[], rfl, fun hP => absurd hzero hP⟩⟩
    all_goals exact ⟨rfl, .refl s, hs, hc⟩
  | source q began =>
    cases h
    refine ⟨rfl, .refl s, hs, hc, answerFrom_reply fun permissions hp => ?_⟩
    split_ifs at hp <;> cases hp
    exact readFrom_current (hs.floors_le began _ hc)
  | lookup q began =>
    simp only [next] at h
    cases hentry : s.entries.get q.pluginID with
    | none =>
      rw [hentry] at h
      cases h
      exact ⟨rfl, .refl s, hs, hc⟩
    | some entry =>
      rw [hentry] at h
      dsimp only at h
      split_ifs at h <;> cases h
      · refine ⟨rfl, .refl s, hs, hc, .inr ⟨entry.permissions, rfl, fun _ => ?_⟩⟩
        exact (hs.entry _ _ hentry).mono (hs.floors_mono _ _ _ hc (le_refl _))
      · exact ⟨rfl, .refl s, hs, hc⟩
  | currentGeneration q began =>
    cases h
    exact ⟨rfl, .refl s, hs, hc, le_refl _⟩
  | join q began g =>
    simp only [next] at h
    cases hgroup : find s.group (grantsKey q.pluginID g) with
    | some id =>
      rw [hgroup] at h
      cases h
      obtain ⟨P, g', hkey, -, hflight⟩ := hs.group _ id hgroup
      obtain ⟨rfl, rfl⟩ := Decimal.eq_of_separated (by decide) (String.ofList_injective hkey)
      exact ⟨rfl, .refl s, hs, g, hc.1, hc.2, hflight⟩
    | none =>
      rw [hgroup] at h
      cases h
      exact ⟨rfl, extends_begin _ _, hs.begin _ hc.2, hc.1, hc.2, _, List.getElem?_concat_length, rfl, rfl⟩
  | load q began g id =>
    obtain ⟨hbegan, hg, hflight⟩ := hc
    have hcurr := readFrom_current (P := q.pluginID) (hs.floors_le g q.pluginID hg)
    simp only [next] at h
    split_ifs at h with hok hempty <;> cases h
    · exact ⟨rfl, .refl s, hs, hbegan, hg, hflight, nofun⟩
    · rw [hempty] at hcurr
      exact ⟨rfl, .refl s, hs, hbegan, hg, hflight, fun permissions hp => by cases hp; exact hcurr⟩
    · exact ⟨rfl, .refl s, hs, hbegan, hg, hflight, hcurr⟩
  | store q began g id permissions =>
    obtain ⟨hbegan, hg, hflight, hread⟩ := hc
    cases h
    have hext := extends_keep (s := s) q.pluginID g permissions (e.now + ttl.toNat)
    refine ⟨rfl, hext, hs.keep hread _, ?_⟩
    have hsound : Sound s (.finish q began g id (some permissions)) :=
      ⟨hbegan, hg, hflight, fun ps hps => by cases hps; exact hread⟩
    exact hsound.extend hext
  | finish q began g id result =>
    obtain ⟨hbegan, hg, hflight, hread⟩ := hc
    cases h
    have hext := extends_finish (s := s) (grantsKey q.pluginID g) id result
    refine ⟨rfl, hext, hs.finish _ hflight hread, ?_⟩
    have hsound : Sound s (.answered q began (reply q result)) :=
      ⟨hbegan.trans hg, answerFrom_reply fun ps hps =>
        (hread ps hps).mono (hs.floors_mono _ _ _ hbegan hg)⟩
    exact hsound.extend hext
  | wait q began id =>
    obtain ⟨g, hbegan, hg, f, hf, hP, hgen⟩ := hc
    simp only [next, hf] at h
    obtain ⟨result, hres, heq⟩ := Option.map_eq_some_iff.1 h
    cases heq
    refine ⟨rfl, .refl s, hs, hbegan.trans hg, answerFrom_reply fun ps hps => ?_⟩
    cases hps
    have hread := (hs.flight id f hf).2 ps hres
    rw [hP, hgen] at hread
    exact hread.mono (hs.floors_mono _ _ _ hbegan hg)
  | answered | returned => cases h
  | change pluginID permissions =>
    cases h
    exact ⟨rfl, extends_commit _, hs.commit _, trivial⟩
  | invalidate pluginID =>
    simp only [next] at h
    split_ifs at h
    cases h
    exact ⟨rfl, extends_invalidate _, hs.invalidate _, trivial⟩

theorem sound_of_start (h : (program ttl).start s c = true) : Sound s c := by
  cases c with
  | ask q began => exact (of_decide_eq_true h).le
  | change | invalidate | returned => trivial
  | _ => cases h

/-- The calls from position `n` on have begun in generation `g` or later. -/
abbrev BeganFrom (n g : ℕ) : Pool (GrantsStore G) GrantsCall → Prop :=
  PoolInv (fun s => GrantsInv s ∧ g ≤ s.generation)
    fun i s c => Sound s c ∧ (n ≤ i → ∀ b ∈ c.began?, g ≤ b)

theorem began_of_start (h : (program ttl).start s c = true) : ∀ b ∈ c.began?, b = s.generation := by
  cases c with
  | ask q began =>
    intro b hb
    cases hb
    exact of_decide_eq_true h
  | change | invalidate | returned => exact nofun
  | _ => cases h

theorem beganFrom_step : Stable (program (G := G) ttl).step (BeganFrom n g) := by
  refine (Program.inv_step ?_ ?_).stable guarded_true
  · intro p c hp hstart
    refine ⟨sound_of_start hstart, fun _ b hb => ?_⟩
    rw [began_of_start hstart b hb]
    exact hp.store.2
  · intro p i e c s' c' hp _ hc hnext
    obtain ⟨hsound, hbegan⟩ := hp.call i c hc
    obtain ⟨hsame, hext, hinv, hsound'⟩ := sound_of_next hp.store.1 hsound hnext
    refine ⟨⟨hinv, hp.store.2.trans hext.generation⟩, ⟨hsound', fun hi b hb => ?_⟩,
      fun j d _ hd => ⟨(hp.call j d hd).1.extend hext, (hp.call j d hd).2⟩⟩
    rw [hsame] at hb
    exact hbegan hi b hb

theorem extends_step {p p' : Pool (GrantsStore G) GrantsCall} {m : Move GrantsCall Env}
    (hp : BeganFrom n g p) (h : (program ttl).step p m = some p') : Extends p.store p'.store := by
  obtain ⟨c, rfl, hc, rfl⟩ | ⟨i, e, c, s', c', rfl, hc, hn, rfl⟩ := Program.step_cases h
  · exact .refl _
  · exact (sound_of_next hp.store.1 (hp.call i c hc).1 hn).2.1

theorem extends_run {p q : Pool (GrantsStore G) GrantsCall} {ms : List (Move GrantsCall Env)}
    (hp : BeganFrom n g p) (h : run (program ttl).step p ms = some q) : Extends p.store q.store :=
  run_rel (G := fun _ _ => True) (BeganFrom n g) (fun p q => Extends p.store q.store)
    (fun p => .refl p.store) (fun _ _ _ => .trans) (fun p m p' hp _ => beganFrom_step p m p' hp)
    (fun _ _ _ hp _ => extends_step hp) hp (along_true p ms) h

/-- A question on a plugin that begins after an invalidation of the plugin has returned is answered,
if at all, with the grants of a version of the records that is not older. -/
theorem answered_after_invalidation (ttl : ℤ) (records : GrantRecords)
    (ms ns : List (Move GrantsCall Env)) {p p' r : Pool (GrantsStore G) GrantsCall}
    (hp : run (program ttl).step (Pool.idle { records := { current := records } }) ms = some p)
    {j : ℕ} {e : Env} {target : Option ℕ} (hj : p.calls[j]? = some (.invalidate target))
    (hstep : (program ttl).step p (.advance j e) = some p')
    (hr : run (program ttl).step p' ns = some r) {i : ℕ} (hi : p'.calls.length ≤ i)
    {q : GrantsQuestion} {began : ℕ} {answer : GrantsAnswer}
    (hans : r.calls[i]? = some (.answered q began answer))
    (htarget : target = none ∨ target = some q.pluginID) (hP : q.pluginID ≠ 0) :
    answer = .failed ∨ ∃ permissions, answer = q.answer permissions ∧
      r.store.records.ReadBetween p.store.records.version r.store.records.version
        (grantsOf q.pluginID) permissions := by
  -- of the calls before the invalidation nothing is known but that they are sound
  have hidle : BeganFrom (G := G) 0 0 (Pool.idle { records := { current := records } }) :=
    .idle ⟨GrantsInv.empty records, Nat.zero_le _⟩
  have hsound := run_inv_all (BeganFrom 0 0) beganFrom_step hidle hp
  have hsound' := beganFrom_step p _ p' hsound hstep
  have hext : Extends p'.store r.store := extends_run hsound' hr
  -- the new generation begins with the version of the records at the invalidation
  have hinv : p'.store = p.store.invalidate target := by
    obtain ⟨c, s', c', hc, hnext, rfl⟩ := Program.step_advance hstep
    rw [hj] at hc
    cases hc
    simp only [program, next] at hnext
    split_ifs at hnext
    cases hnext
    rfl
  have hfloor : p'.store.floors p'.store.generation q.pluginID = p.store.records.version := by
    rw [hinv]
    simp [GrantsStore.invalidate, htarget]
  -- the question has begun in that generation or later
  have hbegan : BeganFrom p'.calls.length p'.store.generation p' := by
    refine ⟨⟨hsound'.store.1, le_refl _⟩, fun k c hk => ⟨(hsound'.call k c hk).1, fun hle => ?_⟩⟩
    rw [List.getElem?_eq_none hle] at hk
    cases hk
  have hfinal := run_inv_all (BeganFrom _ _) beganFrom_step hbegan hr
  obtain ⟨⟨hle, hread⟩, hfrom⟩ := hfinal.call i _ hans
  have hmono := hfinal.store.1.floors_mono _ began q.pluginID (hfrom hi began rfl) hle
  rw [hext.floors _ _ (le_refl _), hfloor] at hmono
  rcases hread with rfl | ⟨permissions, rfl, hread⟩
  · exact .inl rfl
  · exact .inr ⟨permissions, rfl, (hread hP).mono hmono⟩

def allGrants : GrantsQuestion := ⟨7, none⟩

def clock : Env := { now := 1 }

def filesGranted : GrantRecords := (∅ : GrantRecords).put 7 [.files]

/-- A question reads the grants, which are then changed; the invalidation is about to run. -/
def readThenChange : List (Move GrantsCall Env) :=
  .spawn (.ask allGrants 0) :: List.replicate 5 (.advance 0 clock) ++
    [.spawn (.change 7 (some [.ssh])), .advance 1 clock, .spawn (.invalidate (some 7))]

/-- A second question, between whose steps the first one goes on. -/
def askAgain : List (Move GrantsCall Env) :=
  .spawn (.ask allGrants 1) :: List.replicate 4 (.advance 3 clock) ++
    [.advance 0 clock, .advance 0 clock] ++ List.replicate 3 (.advance 3 clock)

theorem answered_after_invalidation_revoked :
    ∃ p p' r : Pool (GrantsStore (Table String ℕ)) GrantsCall,
      run (program 10).step (Pool.idle { records := { current := filesGranted } })
        readThenChange = some p ∧
      (program 10).step p (.advance 2 clock) = some p' ∧ run (program 10).step p' askAgain = some r ∧
      r.calls[0]? = some (.answered allGrants 0 (.grants [.files])) ∧
      r.calls[3]? = some (.answered allGrants 1 (.grants [.ssh])) ∧
      (GrantsAnswer.grants [.ssh] = .failed ∨
        ∃ permissions, GrantsAnswer.grants [.ssh] = allGrants.answer permissions ∧
        r.store.records.ReadBetween p.store.records.version r.store.records.version
          (grantsOf 7) permissions) := by
  refine ⟨_, _, _, rfl, rfl, rfl, rfl, rfl, ?_⟩
  exact answered_after_invalidation 10 filesGranted readThenChange askAgain rfl (j := 2) (e := clock)
    rfl rfl rfl (i := 3) (by decide) (q := allGrants) rfl (.inr rfl) (by decide)

end GrantsCall

end GameAP
