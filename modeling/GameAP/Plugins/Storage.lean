import GameAP.Lib.Noninterference
import GameAP.Repositories.PluginStorage

/-!
# The storage of plugins

`hostlibrary.StorageServiceImpl` over the in-memory repository: `Set`, `Get` and `Delete` with a key
and an optional entity, and the quotas of a plugin.  A call reads and deletes by a filter on the
entity index, and writes by equal pointers, so that an absent entity id and the id 0 are the same
for the one and different for the other.

`remembered` is what a history of calls should leave under a plugin, key and entity.
`keyValue_iff`: the service behaves like that and keeps the quotas exactly for scopes that do not
have both an absent id and the id 0 for one plugin, key and type (`absent_and_zero`).
-/

namespace GameAP

open Noninterference PluginStorageRepository

/-- `proto.EntityType`; the enumeration is open. -/
inductive ProtoEntityType
  | unspecified
  | user
  | node
  | clientCertificate
  | game
  | gameMod
  | server
  | role
  | unknown (number : ℕ)
  deriving DecidableEq

def protoToEntityType : ProtoEntityType → Option String
  | .unspecified => some ""
  | .user => some "Gameap\\Models\\User"
  | .node => some "Gameap\\Models\\DedicatedServer"
  | .clientCertificate => some "Gameap\\Models\\ClientCertificate"
  | .game => some "Gameap\\Models\\Game"
  | .gameMod => some "Gameap\\Models\\GameMod"
  | .server => some "Gameap\\Models\\Server"
  | .role => some "roles"
  | .unknown _ => none

def entityTypeFromProto (entityType : Option ProtoEntityType) : Option String :=
  (entityType.bind protoToEntityType).filter fun name => name ≠ ""

/-- The quotas of a plugin. -/
structure StorageConfig where
  maxKeysPerPlugin : ℤ := 0
  maxValueBytes : ℤ := 0
  maxTotalBytes : ℕ := 0
  deriving DecidableEq

def StorageConfig.withDefaults (c : StorageConfig) : StorageConfig where
  maxKeysPerPlugin := if c.maxKeysPerPlugin ≤ 0 then 10000 else c.maxKeysPerPlugin
  maxValueBytes := if c.maxValueBytes ≤ 0 then 1048576 else c.maxValueBytes
  maxTotalBytes := if c.maxTotalBytes = 0 then 67108864 else c.maxTotalBytes

/-- What a request of a plugin names. -/
structure StorageScope where
  pluginID : ℕ
  key : String
  entityType : Option ProtoEntityType := none
  entityID : Option ℕ := none
  deriving DecidableEq

/-- The answer of `Get`. -/
structure StorageGetResponse where
  payload : List UInt8 := []
  found : Bool
  error : Option String := none
  deriving DecidableEq

/-- `storage.StorageSetResponse` and `storage.StorageDeleteResponse`. -/
structure StorageWriteResponse where
  success : Bool
  error : Option String := none
  deriving DecidableEq

namespace StorageScope

variable (y : StorageScope)

/-- What identifies the entry. -/
def slot : PluginStorageSlot := ⟨y.pluginID, y.key, entityTypeFromProto y.entityType, y.entityID⟩

/-- `scopeFilter`. -/
def filter : FindPluginStorage where
  pluginIDs := [y.pluginID]
  keys := [y.key]
  entityPairs := [⟨entityTypeFromProto y.entityType, y.entityID⟩]

/-- The entry that `Set` saves. -/
def entry (payload : List UInt8) : PluginStorageEntry where
  pluginID := y.pluginID
  key := y.key
  entityType := entityTypeFromProto y.entityType
  entityID := y.entityID
  payload := payload

end StorageScope

namespace StorageService

def findScoped (r : PluginStorageRepository) (y : StorageScope) : Option PluginStorageEntry :=
  (r.find y.filter [{ field := "id", direction := .desc }] (some { limit := 1 })).head?

def get (r : PluginStorageRepository) (y : StorageScope) : StorageGetResponse :=
  match findScoped r y with
  | none => { found := false }
  | some e => { payload := e.payload, found := true }

/-- The empty text when the write fits. -/
def checkQuotas (c : StorageConfig) (usage : PluginStorageUsage)
    (existing : Option PluginStorageEntry) (payloadSize : ℕ) : String :=
  if existing.isNone ∧ c.maxKeysPerPlugin ≤ usage.keys then
    "at most " ++ toString c.maxKeysPerPlugin ++ " storage entries per plugin"
  else if c.maxTotalBytes < usage.bytes -
      min (existing.elim 0 fun e => e.payload.length) usage.bytes + payloadSize then
    "storage quota of " ++ toString c.maxTotalBytes ++ " bytes exceeded"
  else ""

def storageSetFailure (message : String) : StorageWriteResponse :=
  { success := false, error := some message }

def set (c : StorageConfig) (now : Time) (r : PluginStorageRepository) (y : StorageScope)
    (payload : List UInt8) : PluginStorageRepository × StorageWriteResponse :=
  if c.maxValueBytes < payload.length then
    (r, storageSetFailure ("payload exceeds " ++ toString c.maxValueBytes ++ " bytes"))
  else if checkQuotas c (r.usageByPlugin y.pluginID) (findScoped r y) payload.length ≠ "" then
    (r, storageSetFailure
      (checkQuotas c (r.usageByPlugin y.pluginID) (findScoped r y) payload.length))
  else
    (r.save now (y.entry payload), { success := true })

def delete (r : PluginStorageRepository) (y : StorageScope) :
    PluginStorageRepository × StorageWriteResponse :=
  match r.deleteByFilter y.filter with
  | .ok r' => (r', { success := true })
  | .error _ => (r, { success := false, error := some "failed to store entry" })

end StorageService

/-- The calls of a plugin. -/
inductive StorageCall
  | get (y : StorageScope)
  | set (y : StorageScope) (payload : List UInt8)
  | delete (y : StorageScope)

/-- The scope of a call. -/
def StorageCall.scope : StorageCall → StorageScope
  | .get y | .set y _ | .delete y => y

inductive StorageResponse
  | got (response : StorageGetResponse)
  | wrote (response : StorageWriteResponse)

/-- The repository and the calls so far, the latest first. -/
structure StorageRun where
  repo : PluginStorageRepository := {}
  log : List (StorageCall × StorageResponse) := []

namespace StorageRun

open StorageService

/-- One call; each plugin has its own configuration. -/
def step (cfg : ℕ → StorageConfig) (x : StorageRun) : Time × StorageCall → StorageRun
  | (_, .get y) => ⟨x.repo, (.get y, .got (StorageService.get x.repo y)) :: x.log⟩
  | (now, .set y payload) =>
    let result := StorageService.set (cfg y.pluginID).withDefaults now x.repo y payload
    ⟨result.1, (.set y payload, .wrote result.2) :: x.log⟩
  | (_, .delete y) =>
    let result := StorageService.delete x.repo y
    ⟨result.1, (.delete y, .wrote result.2) :: x.log⟩

/-! ### The intended behaviour -/

/-- The payload of the last successful `Set` of a slot that no `Delete` of it has followed. -/
def remembered : List (StorageCall × StorageResponse) → PluginStorageSlot → Option (List UInt8)
  | [], _ => none
  | (.set y payload, .wrote response) :: log, slot =>
    if response.success ∧ y.slot = slot then some payload else remembered log slot
  | (.delete y, _) :: log, slot => if y.slot = slot then none else remembered log slot
  | _ :: log, slot => remembered log slot

/-- The answer of `Get` to what is remembered. -/
def answer : Option (List UInt8) → StorageGetResponse
  | none => { found := false }
  | some payload => { payload, found := true }

/-- The plugin keeps to its quotas. -/
def WithinQuotas (cfg : ℕ → StorageConfig) (r : PluginStorageRepository) (pluginID : ℕ) : Prop :=
  (r.usageByPlugin pluginID).keys ≤ (cfg pluginID).withDefaults.maxKeysPerPlugin ∧
    (r.usageByPlugin pluginID).bytes ≤ (cfg pluginID).withDefaults.maxTotalBytes

/-- No two scopes differ in nothing but an absent id here and the id 0 there. -/
def Separated (U : Set StorageScope) : Prop :=
  ∀ y ∈ U, ∀ z ∈ U, y.pluginID = z.pluginID → y.key = z.key →
    entityTypeFromProto y.entityType = entityTypeFromProto z.entityType →
    y.entityID = none → z.entityID ≠ some 0

theorem entityTypeFromProto_ne_empty (entityType : Option ProtoEntityType) :
    entityTypeFromProto entityType ≠ some "" := by
  intro h
  simpa using (Option.filter_eq_some_iff.1 h).2

variable {cfg : ℕ → StorageConfig} {U : Set StorageScope} {x : StorageRun} {y z : StorageScope}

open StorageScope

/-- Under the condition the entity index distinguishes what `Save` distinguishes. -/
theorem Separated.slot_eq (hU : Separated U) (hy : y ∈ U) (hz : z ∈ U)
    (hplug : y.pluginID = z.pluginID) (hkey : y.key = z.key)
    (hent : makeEntityKey (entityTypeFromProto y.entityType) y.entityID =
      makeEntityKey (entityTypeFromProto z.entityType) z.entityID) : y.slot = z.slot := by
  have hty := entityTypeFromProto_ne_empty y.entityType
  have htz := entityTypeFromProto_ne_empty z.entityType
  simp only [makeEntityKey, EntityKey.mk.injEq] at hent
  have htype : entityTypeFromProto y.entityType = entityTypeFromProto z.entityType := by
    cases hy' : entityTypeFromProto y.entityType <;> cases hz' : entityTypeFromProto z.entityType <;>
      simp_all
  have hyz := hU y hy z hz hplug hkey htype
  have hzy := hU z hz y hy hplug.symm hkey.symm htype.symm
  have hid : y.entityID = z.entityID := by
    cases hy' : y.entityID <;> cases hz' : z.entityID <;> simp_all
  simp [slot, hplug, hkey, htype, hid]

/-! ### Under the condition the service is a key-value store -/

/-- The state is what the history says, and the quotas are kept. -/
structure Faithful (cfg : ℕ → StorageConfig) (U : Set StorageScope) (x : StorageRun) : Prop where
  consistent : x.repo.Consistent
  unique : x.repo.Unique
  allowed : ∀ id e, x.repo.row id = some e → ∃ y ∈ U, y.slot = e.slot
  rows : ∀ slot payload, remembered x.log slot = some payload ↔
    ∃ id e, x.repo.row id = some e ∧ e.slot = slot ∧ e.payload = payload
  quotas : ∀ pluginID, WithinQuotas cfg x.repo pluginID

variable {e : PluginStorageEntry} (c : StorageConfig)

theorem matches_filter : PluginStorageRepository.Matches y.filter e ↔
    e.pluginID = y.pluginID ∧ e.key = y.key ∧
      e.entityKey = makeEntityKey (entityTypeFromProto y.entityType) y.entityID := by
  constructor
  · intro m
    have hplug := m.plugin
    have hkey := m.key
    have hent := m.entity
    simp only [filter] at hplug hkey hent
    exact ⟨by simpa using hplug, by simpa using hkey, by simpa using hent⟩
  · rintro ⟨hplug, hkey, hent⟩
    exact {
      id := fun h => absurd rfl h
      plugin := fun _ => by simp [filter, hplug]
      key := fun _ => by simp [filter, hkey]
      entity := fun _ => by simp [filter, hent]
      start := fun _ h => by cases h }

section

variable (hx : Faithful cfg U x) (hU : Separated U) (hy : y ∈ U)
include hx hU hy

theorem Faithful.matches_iff {id : ℕ} (hrow : x.repo.row id = some e) :
    PluginStorageRepository.Matches y.filter e ↔ e.slot = y.slot := by
  rw [matches_filter]
  constructor
  · rintro ⟨hplug, hkey, hent⟩
    obtain ⟨z, hz, hslot⟩ := hx.allowed id e hrow
    rw [← hslot]
    obtain ⟨h₁, h₂, h₃, h₄⟩ := PluginStorageSlot.mk.inj hslot
    refine hU.slot_eq hz hy (h₁.trans hplug) (h₂.trans hkey) ?_
    rw [h₃, h₄]
    exact hent
  · intro hslot
    obtain ⟨h₁, h₂, h₃, h₄⟩ := PluginStorageSlot.mk.inj hslot
    exact ⟨h₁, h₂, by rw [PluginStorageEntry.entityKey, h₃, h₄]⟩

theorem Faithful.findScoped_cases :
    (findScoped x.repo y = none ∧ ∀ id e, x.repo.row id = some e → e.slot ≠ y.slot) ∨
    ∃ e, findScoped x.repo y = some e ∧ x.repo.row e.id = some e ∧ e.slot = y.slot := by
  obtain ⟨hsome, hnone⟩ := hx.consistent.head?_find y.filter [{ field := "id", direction := .desc }]
  cases hfind : findScoped x.repo y with
  | none =>
    refine .inl ⟨rfl, fun id e hrow hslot => ?_⟩
    exact hnone hfind id e hrow ((hx.matches_iff hU hy hrow).2 hslot)
  | some e =>
    obtain ⟨hrow, hm⟩ := hsome e hfind
    exact .inr ⟨e, rfl, hrow, (hx.matches_iff hU hy hrow).1 hm⟩

theorem Faithful.get_eq : StorageService.get x.repo y = answer (remembered x.log y.slot) := by
  unfold StorageService.get
  rcases hx.findScoped_cases hU hy with ⟨hfind, hnone⟩ | ⟨e, hfind, hrow, hslot⟩
  · have hrem : remembered x.log y.slot = none := by
      rw [Option.eq_none_iff_forall_ne_some]
      intro payload hsome
      obtain ⟨id, e, hrow, hslot, -⟩ := (hx.rows _ _).1 hsome
      exact hnone id e hrow hslot
    rw [hfind, hrem]
    rfl
  · rw [hfind, (hx.rows _ _).2 ⟨e.id, e, hrow, hslot, rfl⟩]
    rfl

end

theorem checkQuotas_eq_empty {c : StorageConfig} {usage : PluginStorageUsage}
    {existing : Option PluginStorageEntry} {size : ℕ}
    (h : checkQuotas c usage existing size = "") :
    (existing = none → usage.keys < c.maxKeysPerPlugin) ∧
      usage.bytes - min (existing.elim 0 fun e => e.payload.length) usage.bytes + size ≤
        c.maxTotalBytes := by
  unfold checkQuotas at h
  split_ifs at h with hkeys hbytes
  · simp at h
  · simp at h
  · refine ⟨fun hnone => ?_, Nat.le_of_not_lt hbytes⟩
    by_contra hle
    exact hkeys ⟨by simp [hnone], Int.not_lt.1 hle⟩

section

variable (hx : Faithful cfg U x) (hU : Separated U)
include hx hU

theorem Faithful.save (hy : y ∈ U)
    {payload : List UInt8} {r' : PluginStorageRepository} {e' : PluginStorageEntry}
    (hslot : e.slot = y.slot) (hpayl : e.payload = payload)
    (hs : PluginStorageRepository.Saved x.repo r' e e')
    (hquota : checkQuotas (cfg y.pluginID).withDefaults (x.repo.usageByPlugin y.pluginID)
      (findScoped x.repo y) payload.length = "") (response : StorageWriteResponse)
    (hsucc : response.success = true) :
    Faithful cfg U ⟨r', (.set y payload, .wrote response) :: x.log⟩ := by
  have hplug : e.pluginID = y.pluginID := congrArg PluginStorageSlot.pluginID hslot
  refine ⟨hs.consistent, hs.unique hx.unique, fun id e₁ hrow => ?_, fun slot p => ?_, fun q => ?_⟩
  · rw [hs.row, Function.update_apply] at hrow
    split_ifs at hrow
    · cases hrow
      exact ⟨y, hy, (hs.slot.trans hslot).symm⟩
    · exact hx.allowed id e₁ hrow
  · have hself : r'.row e'.id = some e' := by rw [hs.row, Function.update_self]
    simp only [remembered, hsucc, true_and]
    split_ifs with hy'
    · subst hy'
      constructor
      · rintro ⟨⟩
        exact ⟨e'.id, e', hself, hs.slot.trans hslot, hs.payload.trans hpayl⟩
      · rintro ⟨id, e₁, hrow, hslot₁, rfl⟩
        have hid : id = e'.id := hs.unique hx.unique _ _ _ _ hrow hself
          (hslot₁.trans (hs.slot.trans hslot).symm)
        rw [hid, hself] at hrow
        cases hrow
        rw [hs.payload, hpayl]
    · -- entries of other slots are the same as before
      rw [hx.rows]
      refine exists_congr fun id => exists_congr fun e₁ => ?_
      rw [hs.row, Function.update_apply]
      by_cases hid : id = e'.id
      · rw [if_pos hid]
        constructor
        · rintro ⟨hrow, hslot₁, -⟩
          rw [hid] at hrow
          exact absurd ((hs.slot_old hrow).symm.trans hslot₁) (hslot ▸ hy')
        · rintro ⟨hrow, hslot₁, -⟩
          cases hrow
          exact absurd ((hs.slot.trans hslot).symm.trans hslot₁) hy'
      · rw [if_neg hid]
  · by_cases hq : q = e.pluginID
    · obtain ⟨hkeys, hbytes⟩ := checkQuotas_eq_empty hquota
      have hold := hx.quotas y.pluginID
      unfold WithinQuotas at hold ⊢
      rw [hq, hplug]
      show ((r'.usageByPlugin y.pluginID).keys : ℤ) ≤ _ ∧ (r'.usageByPlugin y.pluginID).bytes ≤ _
      rcases hs.place with ⟨hnew, hnone⟩ | ⟨old, hrow, hslot'⟩
      · have hfind : findScoped x.repo y = none := by
          rcases hx.findScoped_cases hU hy with ⟨hfind, -⟩ | ⟨e₁, -, hrow, hslot₁⟩
          · exact hfind
          · exact absurd (hslot₁.trans hslot.symm) (hnone _ _ hrow)
        obtain ⟨hk, hb⟩ := hs.usage_new hx.consistent hnew
        rw [hplug, hpayl] at hb
        rw [hplug] at hk
        rw [hfind] at hbytes
        have hlt := hkeys hfind
        simp only [Option.elim_none] at hbytes
        omega
      · have hfind : findScoped x.repo y = some old := by
          rcases hx.findScoped_cases hU hy with ⟨-, hnone⟩ | ⟨e₁, hfind, hrow₁, hslot₁⟩
          · exact absurd (hslot'.trans hslot) (hnone _ _ hrow)
          · have hid := hx.unique _ _ _ _ hrow hrow₁ (hslot'.trans (hslot.trans hslot₁.symm))
            rw [hid, hrow₁] at hrow
            rw [hfind, hrow]
        obtain ⟨hk, hb⟩ := hs.usage_replace hx.consistent hrow hslot'
        rw [hplug, hpayl] at hb
        rw [hplug] at hk
        rw [hfind] at hbytes
        simp only [Option.elim_some] at hbytes
        rw [hk]
        omega
    · unfold WithinQuotas
      rw [hs.usage_other hx.consistent hq]
      exact hx.quotas q

theorem Faithful.delete (hy : y ∈ U) : Faithful cfg U ⟨(StorageService.delete x.repo y).1,
      (.delete y, .wrote (StorageService.delete x.repo y).2) :: x.log⟩ := by
  have hdelete : (StorageService.delete x.repo y).1 =
      (Tables.ascending (x.repo.getFilteredEntryIDs y.filter)).foldl
        PluginStorageRepository.delete x.repo := by
    simp [StorageService.delete, PluginStorageRepository.deleteByFilter, filter]
  -- the entries of the slot are gone, the others are as before
  have hrow : ∀ id e, (StorageService.delete x.repo y).1.row id = some e ↔
      x.repo.row id = some e ∧ e.slot ≠ y.slot := by
    intro id e
    have hmem := hx.consistent.mem_getFilteredEntryIDs y.filter id
    rw [← Tables.mem_ascending] at hmem
    rw [hdelete, row_foldl_delete]
    constructor
    · intro h
      split_ifs at h with hfound
      exact ⟨h, fun hslot => hfound (hmem.2 ⟨e, h, (hx.matches_iff hU hy h).2 hslot⟩)⟩
    · rintro ⟨h, hslot⟩
      rw [if_neg]
      · exact h
      · intro hfound
        obtain ⟨e₁, h₁, hm⟩ := hmem.1 hfound
        rw [h] at h₁
        cases h₁
        exact hslot ((hx.matches_iff hU hy h).1 hm)
  refine ⟨?_, ?_, fun id e h => hx.allowed id e ((hrow id e).1 h).1, fun slot payload => ?_,
    fun q => ?_⟩
  · exact hx.consistent.foldl_delete _
  · rw [hdelete]
    exact hx.unique.foldl_delete _
  · simp only [remembered, hrow]
    split_ifs with hslot
    · subst hslot
      simp only [false_iff]
      rintro ⟨id, e, ⟨-, hne⟩, heq, -⟩
      exact hne heq
    · rw [hx.rows]
      refine exists_congr fun id => exists_congr fun e => ?_
      constructor
      · rintro ⟨h, rfl, hpayl⟩
        exact ⟨⟨h, Ne.symm hslot⟩, rfl, hpayl⟩
      · rintro ⟨⟨h, -⟩, heq, hpayl⟩
        exact ⟨h, heq, hpayl⟩
  · obtain ⟨hkeys, hbytes⟩ := hx.consistent.usage_foldl_delete_le
      (Tables.ascending (x.repo.getFilteredEntryIDs y.filter)) q
    obtain ⟨hk, hb⟩ := hx.quotas q
    unfold WithinQuotas
    rw [hdelete]
    exact ⟨le_trans (Int.ofNat_le.2 hkeys) hk, hbytes.trans hb⟩

theorem Faithful.step {a : Time × StorageCall}
    (ha : a.2.scope ∈ U) : Faithful cfg U (x.step cfg a) := by
  obtain ⟨now, call⟩ := a
  cases call with
  | get y => exact { hx with }
  | set y payload =>
    simp only [StorageRun.step, StorageService.set]
    split_ifs with hsize hquota
    any_goals
      refine ⟨hx.consistent, hx.unique, hx.allowed, fun slot p => ?_, hx.quotas⟩
      simp only [remembered]
      exact hx.rows slot p
    · obtain ⟨e', hs⟩ := hx.consistent.save (e := y.entry payload) rfl now
      exact hx.save hU ha rfl rfl hs (not_not.1 hquota) _ rfl
  | delete y => exact hx.delete hU ha

end

theorem withDefaults_pos :
    0 < c.withDefaults.maxKeysPerPlugin ∧ 0 < c.withDefaults.maxValueBytes := by
  simp only [StorageConfig.withDefaults]
  constructor <;> split_ifs <;> omega

theorem faithful_start : Faithful cfg U {} where
  consistent := consistent_empty
  unique _ _ _ _ h := by cases h
  allowed _ _ h := by cases h
  rows _ _ := by
    constructor
    · intro h
      cases h
    · rintro ⟨_, _, h, -⟩
      cases h
  quotas pluginID := by
    exact ⟨(withDefaults_pos (cfg pluginID)).1.le, Nat.zero_le _⟩

theorem Faithful.after (hx : Faithful cfg U x) (hU : Separated U) {calls : List (Time × StorageCall)}
    (hcalls : ∀ a ∈ calls, a.2.scope ∈ U) :
    Faithful cfg U (Noninterference.after (StorageRun.step cfg) x calls) := by
  induction calls generalizing x with
  | nil => exact hx
  | cons a calls ih =>
    obtain ⟨ha, hrest⟩ := List.forall_mem_cons.1 hcalls
    exact ih (hx.step hU ha) hrest

theorem remembered_step (x : StorageRun) (a : Time × StorageCall) {slot : PluginStorageSlot}
    (hslot : slot ≠ a.2.scope.slot) :
    remembered (x.step cfg a).log slot = remembered x.log slot := by
  obtain ⟨now, call⟩ := a
  cases call with
  | get y => rfl
  | set y payload | delete y =>
    have hne : ¬ y.slot = slot := fun h => hslot h.symm
    simp [StorageRun.step, remembered, hne]

theorem nextID_step (cfg : ℕ → StorageConfig) (x : StorageRun) (a : Time × StorageCall) :
    (x.step cfg a).repo.nextID ≤ x.repo.nextID + 1 := by
  obtain ⟨now, call⟩ := a
  cases call with
  | get y => exact Nat.le_succ _
  | set y payload =>
    simp only [StorageRun.step, StorageService.set]
    split_ifs
    · exact Nat.le_succ _
    · exact Nat.le_succ _
    · show (x.repo.resolveEntryID now (y.entry payload)).1.nextID ≤ _
      unfold PluginStorageRepository.resolveEntryID
      split_ifs
      · split <;> exact Nat.le_succ _
      · split <;> exact Nat.le_succ _
      · exact Nat.le_refl _
  | delete y =>
    have hdelete (ids : List ℕ) (r : PluginStorageRepository) :
        (ids.foldl PluginStorageRepository.delete r).nextID = r.nextID := by
      induction ids generalizing r with
      | nil => rfl
      | cons id ids ih =>
        rw [List.foldl_cons, ih, PluginStorageRepository.delete]
        split <;> rfl
    have hfilter : (StorageService.delete x.repo y).1.nextID = x.repo.nextID := by
      simp [StorageService.delete, PluginStorageRepository.deleteByFilter, filter, hdelete]
    exact hfilter.le.trans (Nat.le_succ _)

/-- The ids of rows stay below the number of calls, so the `uint64` that counts them does not wrap
around before `2 ^ 64` calls. -/
theorem nextID_le_length (cfg : ℕ → StorageConfig) (calls : List (Time × StorageCall)) :
    (Noninterference.after (StorageRun.step cfg) {} calls).repo.nextID ≤ calls.length := by
  have hrun (calls : List (Time × StorageCall)) (x : StorageRun) :
      (Noninterference.after (StorageRun.step cfg) x calls).repo.nextID ≤
        x.repo.nextID + calls.length := by
    induction calls generalizing x with
    | nil => exact Nat.le_refl _
    | cons a calls ih =>
      have hstep := nextID_step cfg x a
      have hrest := ih (x.step cfg a)
      rw [List.length_cons]
      exact hrest.trans (by omega)
  simpa using hrun calls {}

/-- The first `Set` of an empty payload succeeds, and the entry is found under every scope with the
same key in the entity index. -/
theorem get_first (cfg : ℕ → StorageConfig) (now : Time) (hplug : y.pluginID = z.pluginID)
    (hkey : y.key = z.key) (hent : makeEntityKey (entityTypeFromProto y.entityType) y.entityID =
      makeEntityKey (entityTypeFromProto z.entityType) z.entityID) :
    (StorageService.get (({} : StorageRun).step cfg (now, .set z [])).repo y).found = true := by
  have hset : (({} : StorageRun).step cfg (now, .set z [])).repo =
      ({} : PluginStorageRepository).save now (z.entry []) := by
    obtain ⟨hkeys, hvalue⟩ := withDefaults_pos (cfg z.pluginID)
    have hsize : ¬ (cfg z.pluginID).withDefaults.maxValueBytes < ([] : List UInt8).length := by
      rw [List.length_nil]
      omega
    have hquota : checkQuotas (cfg z.pluginID).withDefaults
        (({} : PluginStorageRepository).usageByPlugin z.pluginID) (findScoped {} z) 0 = "" := by
      have husage : ({} : PluginStorageRepository).usageByPlugin z.pluginID = ⟨0, 0⟩ := rfl
      rw [husage, checkQuotas, if_neg, if_neg]
      · simp
      · rintro ⟨-, hle⟩
        exact absurd hle (not_le.2 hkeys)
    show (StorageService.set _ now {} z []).1 = _
    rw [StorageService.set, if_neg hsize, List.length_nil, if_neg (not_not.2 hquota)]
  obtain ⟨e', hs⟩ := consistent_empty.save (e := z.entry []) rfl now
  rw [hset]
  have hself := congrFun hs.row e'.id
  rw [Function.update_self] at hself
  have hm : PluginStorageRepository.Matches y.filter e' := by
    obtain ⟨h₁, h₂, h₃, h₄⟩ := PluginStorageSlot.mk.inj hs.slot
    refine matches_filter.2 ⟨h₁.trans hplug.symm, h₂.trans hkey.symm, ?_⟩
    rw [PluginStorageEntry.entityKey, h₃, h₄, hent]
    rfl
  unfold StorageService.get
  cases hfind : findScoped _ y with
  | none =>
    exact absurd hm ((hs.consistent.head?_find y.filter _).2 hfind e'.id e' hself)
  | some e => rfl

/-- The service is a key-value store that keeps its quotas, whatever the calls on these scopes are,
exactly if the scopes are separated. -/
theorem keyValue_iff (cfg : ℕ → StorageConfig) (U : Set StorageScope) :
    Separated U ↔ ∀ calls : List (Time × StorageCall), (∀ a ∈ calls, a.2.scope ∈ U) →
      (∀ y ∈ U, StorageService.get (after (step cfg) {} calls).repo y =
        answer (remembered (after (step cfg) {} calls).log y.slot)) ∧
      (∀ a : Time × StorageCall, a.2.scope ∈ U → ∀ y ∈ U, y.slot ≠ a.2.scope.slot →
        StorageService.get ((after (step cfg) {} calls).step cfg a).repo y =
          StorageService.get (after (step cfg) {} calls).repo y) ∧
      ∀ pluginID, WithinQuotas cfg (after (step cfg) {} calls).repo pluginID := by
  constructor
  · intro hU calls hcalls
    have hx : Faithful cfg U (after (step cfg) {} calls) := faithful_start.after hU hcalls
    refine ⟨fun y hy => hx.get_eq hU hy, fun a ha y hy hslot => ?_, hx.quotas⟩
    rw [(hx.step hU ha).get_eq hU hy, hx.get_eq hU hy, remembered_step _ _ hslot]
  · intro h y hy z hz hplug hkey htype hnone hzero
    obtain ⟨hget, -, -⟩ := h [(0, .set z [])] (by simpa [StorageCall.scope] using hz)
    have hne : ¬ z.slot = y.slot := by
      simp [slot, hnone, hzero]
    have hfound := get_first cfg 0 hplug hkey (y := y) (z := z)
      (by simp [makeEntityKey, htype, hnone, hzero])
    have hans := hget y hy
    simp only [after, List.foldl_cons, List.foldl_nil] at hans
    rw [hans] at hfound
    simp [StorageRun.step, remembered, hne, answer] at hfound

/-- Where one entry is allowed, an absent id and the id 0 make two.  `Get` with the absent id
returns the other one, and `Delete` of the other one takes both. -/
theorem absent_and_zero : let cfg : ℕ → StorageConfig := fun _ => { maxKeysPerPlugin := 1 }
    let absent : StorageScope := { pluginID := 7, key := "k", entityType := some .node }
    let zero : StorageScope := { absent with entityID := some 0 }
    let x := after (step cfg) {} [(0, .set absent [1]), (0, .set zero [2])]
    remembered x.log absent.slot = some [1] ∧
    StorageService.get x.repo absent = { payload := [2], found := true } ∧
    (x.repo.usageByPlugin 7).keys = 2 ∧
    StorageService.get (x.step cfg (0, .delete zero)).repo absent = { found := false } := by
  decide

end StorageRun

end GameAP
