import GameAP.Repositories.Servers
import GameAP.Lib.Runs
import GameAP.Lib.Selection

/-!
# The in-memory server repository with its indexes

`inmemory.ServerRepository` in full: the rows, the servers assigned to each user, the counter of new
ids, and seven secondary indexes that the writes maintain.

A search takes the candidates from the first field that is set and intersects them with the later
ones.  The later ones do not include `GameModIDs`, which does not count as an earlier field for
`Names` either; what is really searched for is `FindServer.effective` (`mem_getFilteredServerIDs`).
A new row is stored without a look at what its id already holds.  `find_exact` is therefore about
filters where `GameModIDs` stands alone, if it is set, and about histories in which the counter
hands out ids that are free.
-/

namespace GameAP

open Tables Runs Selection Function

/-- A `domain.Server` with the columns that the repository filters by. -/
structure ServerRecord extends Server where
  uid : UUID
  deriving DecidableEq

/-- An empty list and a missing flag do not filter. -/
structure FindServer where
  ids : List ℕ := []
  uuids : List UUID := []
  userIDs : List ℕ := []
  enabled : Option Bool := none
  blocked : Option Bool := none
  gameIDs : List String := []
  dsIDs : List ℕ := []
  gameModIDs : List ℕ := []
  names : List String := []
  withDeleted : Bool := false

/-- `inmemory.ServerRepository`. -/
structure IndexedServers where
  servers : Table ℕ ServerRecord
  userServers : Index ℕ
  nextID : ℕ
  uuidIndex : Index UUID
  gameIDIndex : Index String
  dsidIndex : Index ℕ
  gameModIDIndex : Index ℕ
  nameIndex : Index String
  enabledIndex : Index Bool
  blockedIndex : Index Bool

/-- What `sortServers` makes of a list of servers: some order of it. -/
structure ServerOrder where
  sort : List ServerRecord → List ServerRecord
  perm : ∀ l, (sort l).Perm l

namespace IndexedServers

/-- `NewServerRepository`. -/
def new : IndexedServers := ⟨∅, ∅, 0, ∅, ∅, ∅, ∅, ∅, ∅, ∅⟩

variable (r : IndexedServers) (id : ℕ)

/-- The row of an id. -/
def row (id : ℕ) : Option ServerRecord := r.servers.get id

/-! ### Writes -/

/-- A user gets a server. -/
def attachUserServer (userID serverID : ℕ) : IndexedServers :=
  { r with userServers := r.userServers.add userID serverID }

/-- A user loses a server. -/
def detachUserServer (userID serverID : ℕ) : IndexedServers :=
  { r with userServers := r.userServers.remove userID serverID }

/-- The servers of a user. -/
def setUserServers (userID : ℕ) (serverIDs : List ℕ) : IndexedServers :=
  { r with
    userServers := if serverIDs = [] then r.userServers.del userID
      else (r.userServers.del userID).put userID serverIDs.toFinset }

def addToIndexes (s : ServerRecord) : IndexedServers :=
  { r with
    uuidIndex := r.uuidIndex.add s.uid s.id
    gameIDIndex := r.gameIDIndex.add s.gameID s.id
    dsidIndex := r.dsidIndex.add s.dsID s.id
    gameModIDIndex := r.gameModIDIndex.add s.gameModID s.id
    nameIndex := r.nameIndex.add s.name s.id
    enabledIndex := r.enabledIndex.add s.enabled s.id
    blockedIndex := r.blockedIndex.add s.blocked s.id }

def removeFromIndexes (s : ServerRecord) : IndexedServers :=
  { r with
    uuidIndex := r.uuidIndex.remove s.uid s.id
    gameIDIndex := r.gameIDIndex.remove s.gameID s.id
    dsidIndex := r.dsidIndex.remove s.dsID s.id
    gameModIDIndex := r.gameModIDIndex.remove s.gameModID s.id
    nameIndex := r.nameIndex.remove s.name s.id
    enabledIndex := r.enabledIndex.remove s.enabled s.id
    blockedIndex := r.blockedIndex.remove s.blocked s.id }

/-- `nextID.Add(1)` on a `uint32` counter. -/
def freshID : ℕ := (r.nextID + 1) % 2 ^ 32

/-- The row is stored under its id and indexed. -/
def store (s : ServerRecord) : IndexedServers :=
  ({ r with servers := r.servers.put s.id s } : IndexedServers).addToIndexes s

/-- What `Save` and `SaveBulk` do with one server: an old row is taken out of the indexes only if
the caller's server has an id. -/
def saveRow (s : ServerRecord) : IndexedServers :=
  if s.id = 0 then
    ({ r with nextID := r.freshID } : IndexedServers).store { s with id := r.freshID }
  else
    match r.servers.get s.id with
    | none => r.store s
    | some old => (r.removeFromIndexes old).store s

/-- The timestamps that `Save` puts on the caller's server. -/
def stamp (now : Time) (s : ServerRecord) : ServerRecord :=
  { s with
    updatedAt := some now
    createdAt := if s.id = 0 ∧ (s.createdAt = none ∨ s.createdAt = some 0) then some now
      else s.createdAt }

def save (now : Time) (s : ServerRecord) : IndexedServers := r.saveRow (stamp now s)

/-- `SaveBulk`, which puts no timestamps on the servers. -/
def saveBulk (servers : List ServerRecord) : IndexedServers := servers.foldl saveRow r

/-- The row under an id is changed where it is; the indexes do not hear of it. -/
def modifyRow (id : ℕ) (f : ServerRecord → ServerRecord) : IndexedServers :=
  match r.servers.get id with
  | none => r
  | some s => { r with servers := r.servers.put id (f s) }

/-- The relations after a server is gone: a user without servers has no entry. -/
def dropServer (relations : Index ℕ) (id : ℕ) : Index ℕ :=
  let relations : Index ℕ := relations.mapValues fun _ s => s.erase id
  relations.delWhere fun userID => decide (relations.ids userID = ∅)

def delete (id : ℕ) : IndexedServers :=
  let r := match r.servers.get id with
    | none => r
    | some old => r.removeFromIndexes old
  { r with servers := r.servers.del id, userServers := dropServer r.userServers id }

def softDelete (now : Time) (id : ℕ) : IndexedServers :=
  r.modifyRow id fun s => { s with deletedAt := some now }

/-! ### Searches -/

/-- The ids of stored rows that may be returned. -/
def live (withDeleted : Bool) (ids : Finset ℕ) : Finset ℕ :=
  ids.filter fun id => ∃ s ∈ r.servers.get id, withDeleted = true ∨ s.deletedAt = none

/-- The first field that is set chooses the candidates. -/
def candidates (f : FindServer) : Finset ℕ :=
  r.live f.withDeleted
    (if f.ids ≠ [] then f.ids.toFinset
    else if f.uuids ≠ [] then r.uuidIndex.idsOf f.uuids
    else if f.userIDs ≠ [] then r.userServers.idsOf f.userIDs
    else if f.enabled ≠ none then r.enabledIndex.idsOf f.enabled.toList
    else if f.blocked ≠ none then r.blockedIndex.idsOf f.blocked.toList
    else if f.gameIDs ≠ [] then r.gameIDIndex.idsOf f.gameIDs
    else if f.dsIDs ≠ [] then r.dsidIndex.idsOf f.dsIDs
    else if f.gameModIDs ≠ [] then r.gameModIDIndex.idsOf f.gameModIDs
    else if f.names ≠ [] then r.nameIndex.idsOf f.names
    else r.servers.keys.toFinset)

/-- `getFilteredServerIDs` with a filter: the candidates, intersected with the later fields. -/
def filteredIDs (f : FindServer) : Finset ℕ :=
  let ids := r.candidates f
  let ids := if f.uuids ≠ [] ∧ f.ids ≠ [] then ids ∩ r.uuidIndex.idsOf f.uuids else ids
  let ids := if f.userIDs ≠ [] ∧ (f.ids ≠ [] ∨ f.uuids ≠ []) then
    ids ∩ r.userServers.idsOf f.userIDs else ids
  let ids := if f.enabled ≠ none ∧ (f.ids ≠ [] ∨ f.uuids ≠ [] ∨ f.userIDs ≠ []) then
    ids ∩ r.enabledIndex.idsOf f.enabled.toList else ids
  let ids := if f.blocked ≠ none ∧
      (f.ids ≠ [] ∨ f.uuids ≠ [] ∨ f.userIDs ≠ [] ∨ f.enabled ≠ none) then
    ids ∩ r.blockedIndex.idsOf f.blocked.toList else ids
  let ids := if f.gameIDs ≠ [] ∧
      (f.ids ≠ [] ∨ f.uuids ≠ [] ∨ f.userIDs ≠ [] ∨ f.enabled ≠ none ∨ f.blocked ≠ none) then
    ids ∩ r.gameIDIndex.idsOf f.gameIDs else ids
  let ids := if f.dsIDs ≠ [] ∧ (f.ids ≠ [] ∨ f.uuids ≠ [] ∨ f.userIDs ≠ [] ∨ f.enabled ≠ none ∨
      f.blocked ≠ none ∨ f.gameIDs ≠ []) then
    ids ∩ r.dsidIndex.idsOf f.dsIDs else ids
  if f.names ≠ [] ∧ (f.ids ≠ [] ∨ f.uuids ≠ [] ∨ f.userIDs ≠ [] ∨ f.enabled ≠ none ∨
      f.blocked ≠ none ∨ f.gameIDs ≠ [] ∨ f.dsIDs ≠ []) then
    ids ∩ r.nameIndex.idsOf f.names else ids

/-- No filter selects all rows that are not deleted. -/
def getFilteredServerIDs : Option FindServer → Finset ℕ
  | none => r.live false r.servers.keys.toFinset
  | some f => r.filteredIDs f

/-- `Find` without pagination. -/
def find (order : ServerOrder) (f : Option FindServer) : List ServerRecord :=
  order.sort ((ascending (r.getFilteredServerIDs (some (f.getD {})))).filterMap r.servers.get)

/-- `FindUserServers` without pagination. -/
def findUserServers (order : ServerOrder) (userID : ℕ) (f : Option FindServer) :
    List ServerRecord :=
  let servers := (ascending (r.userServers.ids userID)).filterMap r.servers.get
  order.sort (servers.filter fun s => s.id ∈ r.getFilteredServerIDs f)

/-! ### The rows after each write -/

theorem row_store (s : ServerRecord) : (r.store s).row = update r.row s.id (some s) :=
  Table.update_get_put ..

theorem row_modifyRow (f : ServerRecord → ServerRecord) (j : ℕ) :
    (r.modifyRow id f).row j = if j = id then (r.row id).map f else r.row j := by
  unfold modifyRow row
  cases hid : r.servers.get id with
  | none =>
    by_cases hj : j = id
    · subst hj
      simp [hid]
    · simp [hj]
  | some s =>
    rw [Table.get_put]
    rfl

theorem row_delete : (r.delete id).row = update r.row id none := by
  unfold delete
  cases r.servers.get id with
  | none | some => exact Table.update_get_del ..

/-! ### The representation invariant -/

/-- Rows are stored under their own id. -/
def Keyed : Prop := ∀ id s, r.row id = some s → s.id = id

/-- The rows are keyed and the indexes are exact. -/
structure Consistent : Prop where
  keyed : r.Keyed
  uuid : Tracks r.row (fun s => some s.uid) r.uuidIndex
  game : Tracks r.row (fun s => some s.gameID) r.gameIDIndex
  node : Tracks r.row (fun s => some s.dsID) r.dsidIndex
  mod : Tracks r.row (fun s => some s.gameModID) r.gameModIDIndex
  name : Tracks r.row (fun s => some s.name) r.nameIndex
  enabled : Tracks r.row (fun s => some s.enabled) r.enabledIndex
  blocked : Tracks r.row (fun s => some s.blocked) r.blockedIndex

theorem new_consistent : new.Consistent where
  keyed := by intro id s h; cases h
  uuid := tracks_empty
  game := tracks_empty
  node := tracks_empty
  mod := tracks_empty
  name := tracks_empty
  enabled := tracks_empty
  blocked := tracks_empty

variable {r}
variable {s : ServerRecord}

theorem Keyed.of_update (h : r.Keyed) {r' : IndexedServers}
    (hrow : r'.row = update r.row s.id (some s)) : r'.Keyed := by
  intro id u hu
  rw [hrow, update_apply] at hu
  split_ifs at hu with hid
  · cases hu
    exact hid.symm
  · exact h id u hu

theorem Consistent.insert (h : r.Consistent) (hfree : r.row s.id = none) :
    (r.store s).Consistent := by
  have hrow := r.row_store s
  exact ⟨h.keyed.of_update hrow, hrow ▸ h.uuid.insert hfree s, hrow ▸ h.game.insert hfree s,
    hrow ▸ h.node.insert hfree s, hrow ▸ h.mod.insert hfree s, hrow ▸ h.name.insert hfree s,
    hrow ▸ h.enabled.insert hfree s, hrow ▸ h.blocked.insert hfree s⟩

theorem Consistent.replace (h : r.Consistent) {old : ServerRecord} (hold : r.row s.id = some old) :
    ((r.removeFromIndexes old).store s).Consistent := by
  have hid : old.id = s.id := h.keyed _ _ hold
  have hrow : ((r.removeFromIndexes old).store s).row = update r.row s.id (some s) :=
    (r.removeFromIndexes old).row_store s
  exact ⟨h.keyed.of_update hrow, hrow ▸ h.uuid.replace hold hid s,
    hrow ▸ h.game.replace hold hid s, hrow ▸ h.node.replace hold hid s,
    hrow ▸ h.mod.replace hold hid s, hrow ▸ h.name.replace hold hid s,
    hrow ▸ h.enabled.replace hold hid s, hrow ▸ h.blocked.replace hold hid s⟩

/-- A server without an id needs a free one. -/
def FreeID (r : IndexedServers) (s : ServerRecord) : Prop := s.id = 0 → r.row r.freshID = none

instance (s : ServerRecord) : Decidable (r.FreeID s) := inferInstanceAs (Decidable (_ → _))

theorem Consistent.saveRow (h : r.Consistent) (hfree : r.FreeID s) : (r.saveRow s).Consistent := by
  unfold IndexedServers.saveRow
  split_ifs with h0
  · -- the counter itself is not part of the invariant
    have hcoun : ({ r with nextID := r.freshID } : IndexedServers).Consistent := { h with }
    exact hcoun.insert (s := { s with id := r.freshID }) (hfree h0)
  · cases hold : r.servers.get s.id with
    | none => exact h.insert hold
    | some old => exact h.replace hold

theorem Consistent.modifyRow (h : r.Consistent) (id : ℕ) {f : ServerRecord → ServerRecord}
    (hf : ∀ s, (f s).id = s.id ∧ (f s).uid = s.uid ∧ (f s).gameID = s.gameID ∧ (f s).dsID = s.dsID ∧
      (f s).gameModID = s.gameModID ∧ (f s).name = s.name ∧ (f s).enabled = s.enabled ∧
      (f s).blocked = s.blocked) : (r.modifyRow id f).Consistent := by
  cases hid : r.row id with
  | none =>
    have hsame : r.modifyRow id f = r := by
      unfold IndexedServers.modifyRow
      rw [show r.servers.get id = none from hid]
    rwa [hsame]
  | some s =>
    obtain ⟨hkey, huid, hgame, hnode, hmod, hname, henab, hbloc⟩ := hf s
    have hsome : r.modifyRow id f = { r with servers := r.servers.put id (f s) } := by
      unfold IndexedServers.modifyRow
      rw [show r.servers.get id = some s from hid]
    have hrow : (r.modifyRow id f).row = update r.row id (some (f s)) := by
      funext j
      rw [r.row_modifyRow, update_apply, hid]
      rfl
    have hsid : s.id = id := h.keyed id s hid
    rw [hsome] at hrow ⊢
    refine ⟨h.keyed.of_update (s := f s) ?_, hrow ▸ h.uuid.modify hid (congrArg some huid),
      hrow ▸ h.game.modify hid (congrArg some hgame), hrow ▸ h.node.modify hid (congrArg some hnode),
      hrow ▸ h.mod.modify hid (congrArg some hmod), hrow ▸ h.name.modify hid (congrArg some hname),
      hrow ▸ h.enabled.modify hid (congrArg some henab),
      hrow ▸ h.blocked.modify hid (congrArg some hbloc)⟩
    rw [hrow, hkey, hsid]

theorem Consistent.delete (h : r.Consistent) (id : ℕ) : (r.delete id).Consistent := by
  have hrow := r.row_delete id
  have hkeyed : (r.delete id).Keyed := by
    intro j s hs
    rw [hrow, update_apply] at hs
    split_ifs at hs
    exact h.keyed j s hs
  unfold IndexedServers.delete at hrow hkeyed ⊢
  cases hid : r.servers.get id with
  | none =>
    -- nothing is stored under the id
    have hsame : update r.row id none = r.row :=
      update_eq_self_iff.2 (show none = r.row id from hid.symm)
    rw [hsame] at hrow
    rw [hid] at hrow hkeyed
    exact ⟨hkeyed, hrow ▸ h.uuid, hrow ▸ h.game, hrow ▸ h.node, hrow ▸ h.mod, hrow ▸ h.name,
      hrow ▸ h.enabled, hrow ▸ h.blocked⟩
  | some old =>
    have hold : old.id = id := h.keyed id old hid
    rw [hid] at hrow hkeyed
    exact ⟨hkeyed, hrow ▸ h.uuid.delete hid hold, hrow ▸ h.game.delete hid hold,
      hrow ▸ h.node.delete hid hold, hrow ▸ h.mod.delete hid hold, hrow ▸ h.name.delete hid hold,
      hrow ▸ h.enabled.delete hid hold, hrow ▸ h.blocked.delete hid hold⟩

/-! ### What a search selects -/

end IndexedServers

namespace FindServer

/-- A field before `GameModIDs` is set. -/
def leads (f : FindServer) : Prop :=
  f.ids ≠ [] ∨ f.uuids ≠ [] ∨ f.userIDs ≠ [] ∨ f.enabled ≠ none ∨ f.blocked ≠ none ∨ f.gameIDs ≠ [] ∨
    f.dsIDs ≠ []

instance (f : FindServer) : Decidable f.leads := inferInstanceAs (Decidable (_ ∨ _))

/-- The filter that a search really applies. -/
def effective (f : FindServer) : FindServer :=
  { f with
    gameModIDs := if f.leads then [] else f.gameModIDs
    names := if ¬ f.leads ∧ f.gameModIDs ≠ [] then [] else f.names }

/-- `GameModIDs` is not set, or no other field is. -/
def Covered (f : FindServer) : Prop := f.gameModIDs = [] ∨ ¬ f.leads ∧ f.names = []

instance (f : FindServer) : Decidable f.Covered := inferInstanceAs (Decidable (_ ∨ _))

theorem effective_of_covered {f : FindServer} (h : f.Covered) : f.effective = f := by
  obtain ⟨ids, uuids, userIDs, enabled, blocked, gameIDs, dsIDs, gameModIDs, names, withDeleted⟩ := f
  rcases h with hmods | ⟨hleads, hnames⟩
  · cases hmods
    simp [effective]
  · cases hnames
    simp [effective, hleads]

end FindServer

namespace IndexedServers

variable {r : IndexedServers}

/-- The row satisfies every field before `GameModIDs` that is set. -/
structure LeadingMatch (r : IndexedServers) (f : FindServer) (s : ServerRecord) : Prop where
  id : f.ids ≠ [] → s.id ∈ f.ids
  uuid : f.uuids ≠ [] → s.uid ∈ f.uuids
  user : f.userIDs ≠ [] → ∃ userID ∈ f.userIDs, s.id ∈ r.userServers.ids userID
  enabled : f.enabled ≠ none → s.enabled ∈ f.enabled
  blocked : f.blocked ≠ none → s.blocked ∈ f.blocked
  game : f.gameIDs ≠ [] → s.gameID ∈ f.gameIDs
  node : f.dsIDs ≠ [] → s.dsID ∈ f.dsIDs

/-- The row satisfies every field that is set, and is not deleted unless deleted rows are asked
for. -/
structure Matches (r : IndexedServers) (f : FindServer) (s : ServerRecord) : Prop
    extends LeadingMatch r f s where
  mod : f.gameModIDs ≠ [] → s.gameModID ∈ f.gameModIDs
  name : f.names ≠ [] → s.name ∈ f.names
  live : f.withDeleted = true ∨ s.deletedAt = none

variable {s : ServerRecord}

theorem mem_idsOf_row {κ : Type} [DecidableEq κ] {x : Index κ} {key : ServerRecord → κ}
    (h : Tracks r.row (fun s => some (key s)) x) {id : ℕ} (hs : r.row id = some s)
    (ks : List κ) : id ∈ x.idsOf ks ↔ key s ∈ ks := by
  rw [h.mem_idsOf, hs]
  simp

section

variable (r : IndexedServers) (f : FindServer)

/-- The fields before `GameModIDs`, in the order of the search. -/
def leadingFields : List (Criterion ℕ) :=
  [⟨decide (f.ids ≠ []), f.ids.toFinset⟩,
    ⟨decide (f.uuids ≠ []), r.uuidIndex.idsOf f.uuids⟩,
    ⟨decide (f.userIDs ≠ []), r.userServers.idsOf f.userIDs⟩,
    ⟨decide (f.enabled ≠ none), r.enabledIndex.idsOf f.enabled.toList⟩,
    ⟨decide (f.blocked ≠ none), r.blockedIndex.idsOf f.blocked.toList⟩,
    ⟨decide (f.gameIDs ≠ []), r.gameIDIndex.idsOf f.gameIDs⟩,
    ⟨decide (f.dsIDs ≠ []), r.dsidIndex.idsOf f.dsIDs⟩]

/-- The search by mods. -/
def modField : Criterion ℕ :=
  ⟨decide (f.gameModIDs ≠ []), r.gameModIDIndex.idsOf f.gameModIDs⟩

/-- The search by names. -/
def nameField : Criterion ℕ :=
  ⟨decide (f.names ≠ []), r.nameIndex.idsOf f.names⟩

theorem any_leadingFields : (r.leadingFields f).any Criterion.set = true ↔ f.leads := by
  simp [leadingFields, FindServer.leads]

/-- The search takes the first field of all, but narrows down by the fields without `GameModIDs`. -/
theorem filteredIDs_eq : r.filteredIDs f = Selection.narrow false (r.live f.withDeleted
      (Selection.candidates r.servers.keys.toFinset
        (r.leadingFields f ++ [r.modField f, r.nameField f]))) (r.leadingFields f ++ [r.nameField f]) := by
  simp only [filteredIDs, candidates, leadingFields, modField, nameField, Selection.narrow,
    Selection.candidates, List.cons_append, List.nil_append, Bool.false_or, Bool.and_false,
    Bool.false_eq_true, if_false, Bool.and_eq_true, Bool.or_eq_true, decide_eq_true_eq, or_assoc]

end

theorem Consistent.forall_leadingFields (h : r.Consistent)
    (hrow : r.row s.id = some s) (f : FindServer) :
    (∀ e ∈ r.leadingFields f, e.set = true → s.id ∈ e.ids) ↔ r.LeadingMatch f s := by
  simp only [leadingFields, List.forall_mem_cons, decide_eq_true_eq, List.mem_toFinset,
    mem_idsOf_row h.uuid hrow, mem_idsOf_row h.enabled hrow, mem_idsOf_row h.blocked hrow,
    mem_idsOf_row h.game hrow, mem_idsOf_row h.node hrow, Index.mem_idsOf, Option.mem_toList]
  constructor
  · rintro ⟨h1, h2, h3, h4, h5, h6, h7, -⟩
    exact ⟨h1, h2, h3, h4, h5, h6, h7⟩
  · rintro ⟨h1, h2, h3, h4, h5, h6, h7⟩
    exact ⟨h1, h2, h3, h4, h5, h6, h7, fun e he => absurd he List.not_mem_nil⟩

theorem matches_effective_of_leads {f : FindServer} (hlead : f.leads) (s : ServerRecord) :
    r.Matches f.effective s ↔ (f.withDeleted = true ∨ s.deletedAt = none) ∧ r.LeadingMatch f s ∧
      (f.names ≠ [] → s.name ∈ f.names) := by
  have heff : f.effective = { f with gameModIDs := [] } := by simp [FindServer.effective, hlead]
  rw [heff]
  constructor
  · intro m
    exact ⟨m.live, ⟨m.id, m.uuid, m.user, m.enabled, m.blocked, m.game, m.node⟩, m.name⟩
  · rintro ⟨hlive, m, hname⟩
    exact ⟨⟨m.id, m.uuid, m.user, m.enabled, m.blocked, m.game, m.node⟩, fun hmod => absurd rfl hmod,
      hname, hlive⟩

theorem matches_effective_of_not_leads {f : FindServer} (hlead : ¬ f.leads) (s : ServerRecord) :
    r.Matches f.effective s ↔ (f.withDeleted = true ∨ s.deletedAt = none) ∧
      if f.gameModIDs ≠ [] then s.gameModID ∈ f.gameModIDs
      else f.names ≠ [] → s.name ∈ f.names := by
  have hleadi (f' : FindServer) (h : ¬ f'.leads) : r.LeadingMatch f' s := by
    simp only [FindServer.leads, not_or] at h
    obtain ⟨h1, h2, h3, h4, h5, h6, h7⟩ := h
    exact ⟨fun h => absurd h h1, fun h => absurd h h2, fun h => absurd h h3, fun h => absurd h h4,
      fun h => absurd h h5, fun h => absurd h h6, fun h => absurd h h7⟩
  split_ifs with hmod
  · have heff : f.effective = { f with names := [] } := by simp [FindServer.effective, hlead, hmod]
    rw [heff]
    exact ⟨fun m => ⟨m.live, m.mod hmod⟩,
      fun h => ⟨hleadi _ hlead, fun _ => h.2, fun hname => absurd rfl hname, h.1⟩⟩
  · rw [FindServer.effective_of_covered (.inl (not_not.1 hmod))]
    exact ⟨fun m => ⟨m.live, m.name⟩, fun h => ⟨hleadi f hlead, fun hm => absurd hm hmod, h.2, h.1⟩⟩

/-- **The indexed search is a filter of the rows**, with the effective fields. -/
theorem Consistent.mem_filteredIDs (h : r.Consistent) (f : FindServer) (id : ℕ) :
    id ∈ r.filteredIDs f ↔ ∃ s, r.row id = some s ∧ r.Matches f.effective s := by
  rw [filteredIDs_eq, live, mem_narrow_filter]
  change (∃ s, r.row id = some s ∧ (f.withDeleted = true ∨ s.deletedAt = none)) ∧ _ ↔ _
  cases hrow : r.row id with
  | none => simp
  | some s =>
    obtain rfl : s.id = id := h.keyed id s hrow
    simp only [Option.some.injEq, exists_eq_left']
    by_cases hlead : f.leads
    · have hany := (r.any_leadingFields f).2 hlead
      rw [matches_effective_of_leads hlead, narrow_append, hany, Bool.or_true, mem_narrow_true,
        mem_narrow_candidates hany, h.forall_leadingFields hrow]
      simp [nameField, mem_idsOf_row h.name hrow]
    · have hany := Bool.eq_false_iff.2 (mt (r.any_leadingFields f).1 hlead)
      rw [matches_effective_of_not_leads hlead, narrow_append, hany, narrow_of_none hany,
        candidates_of_none hany]
      refine and_congr_right fun _ => ?_
      by_cases hmod : f.gameModIDs = []
      · by_cases hname : f.names = []
        · simp [narrow, Selection.candidates, modField, nameField, hmod, hname,
            Table.mem_keys_iff.2 ⟨s, hrow⟩]
        · simp [narrow, Selection.candidates, modField, nameField, hmod, hname,
            mem_idsOf_row h.name hrow]
      · simp [narrow, Selection.candidates, modField, nameField, hmod, mem_idsOf_row h.mod hrow]

theorem Consistent.mem_getFilteredServerIDs (h : r.Consistent) (f : Option FindServer) (id : ℕ) :
    id ∈ r.getFilteredServerIDs f ↔ ∃ s, r.row id = some s ∧ r.Matches (f.getD {}).effective s := by
  cases f with
  | some f => exact h.mem_filteredIDs f id
  | none =>
    have hnone : r.getFilteredServerIDs none = r.filteredIDs {} := by
      simp [getFilteredServerIDs, filteredIDs, candidates]
    exact h.mem_filteredIDs {} id

/-! ### Histories -/

inductive Write
  | save (now : Time) (server : ServerRecord)
  | saveBulk (servers : List ServerRecord)
  | delete (id : ℕ)
  | softDelete (now : Time) (id : ℕ)
  | setUserServers (userID : ℕ) (serverIDs : List ℕ)
  | attachUserServer (userID serverID : ℕ)
  | detachUserServer (userID serverID : ℕ)

def step (r : IndexedServers) : Write → Option IndexedServers
  | .save now server => some (r.save now server)
  | .saveBulk servers => some (r.saveBulk servers)
  | .delete id => some (r.delete id)
  | .softDelete now id => some (r.softDelete now id)
  | .setUserServers userID serverIDs => some (r.setUserServers userID serverIDs)
  | .attachUserServer userID serverID => some (r.attachUserServer userID serverID)
  | .detachUserServer userID serverID => some (r.detachUserServer userID serverID)

/-- Each server of a bulk finds a free id in its turn. -/
def FreeIDs (r : IndexedServers) : List ServerRecord → Prop
  | [] => True
  | s :: servers => r.FreeID s ∧ (r.saveRow s).FreeIDs servers

/-- The ids that the write takes from the counter are free. -/
def Fresh (r : IndexedServers) : Write → Prop
  | .save _ server => r.FreeID server
  | .saveBulk servers => r.FreeIDs servers
  | _ => True

theorem Consistent.saveBulk (h : r.Consistent) {servers : List ServerRecord}
    (hfree : r.FreeIDs servers) : (r.saveBulk servers).Consistent := by
  induction servers generalizing r with
  | nil => exact h
  | cons s servers ih => exact ih (h.saveRow hfree.1) hfree.2

theorem consistent_step (r : IndexedServers) (w : Write) (r' : IndexedServers) (h : r.Consistent)
    (hfresh : r.Fresh w) (hstep : r.step w = some r') : r'.Consistent := by
  cases w with
  | save now server =>
    cases hstep
    exact h.saveRow (s := stamp now server) hfresh
  | saveBulk servers => cases hstep; exact h.saveBulk hfresh
  | delete id => cases hstep; exact h.delete id
  | softDelete now id =>
    cases hstep
    exact h.modifyRow id fun s => ⟨rfl, rfl, rfl, rfl, rfl, rfl, rfl, rfl⟩
  -- the relations of the users are not part of the invariant
  | setUserServers userID serverIDs | attachUserServer userID serverID
  | detachUserServer userID serverID =>
    cases hstep
    exact { h with }

theorem Keyed.rows_nodup (h : r.Keyed) (ids : Finset ℕ) :
    ((ascending ids).filterMap r.servers.get).Nodup := by
  refine (nodup_ascending ids).filterMap fun a a' s hs hs' => ?_
  rw [← h a s hs, ← h a' s hs']

theorem Keyed.mem_rows (h : r.Keyed) {ids : Finset ℕ} :
    s ∈ (ascending ids).filterMap r.servers.get ↔ s.id ∈ ids ∧ r.row s.id = some s := by
  simp only [List.mem_filterMap, mem_ascending]
  constructor
  · rintro ⟨id, hid, hs⟩
    obtain rfl := h id s hs
    exact ⟨hid, hs⟩
  · rintro ⟨hid, hs⟩
    exact ⟨s.id, hid, hs⟩

/-- **Searches**: a search returns exactly the stored servers that satisfy all the fields of its
filter, each once, and `FindUserServers` those of them that are assigned to the user, if
`GameModIDs` is not set or is the only field. -/
theorem find_exact {ws : List Write} {r : IndexedServers} (hfresh : Along step Fresh new ws)
    (hrun : run step new ws = some r) (order : ServerOrder) {f : Option FindServer}
    (hf : (f.getD {}).Covered) :
    (r.find order f).Nodup ∧
    (∀ s, s ∈ r.find order f ↔ r.row s.id = some s ∧ r.Matches (f.getD {}) s) ∧
    ∀ userID, (r.findUserServers order userID f).Nodup ∧ ∀ s, s ∈ r.findUserServers order userID f ↔
        s ∈ r.find order f ∧ s.id ∈ r.userServers.ids userID := by
  have h : r.Consistent := run_inv Consistent consistent_step new_consistent hfresh hrun
  have hsel (g : Option FindServer) (hg : g.getD {} = f.getD {}) (s : ServerRecord)
      (hs : r.row s.id = some s) :
      s.id ∈ r.getFilteredServerIDs g ↔ r.Matches (f.getD {}) s := by
    rw [h.mem_getFilteredServerIDs, hg, FindServer.effective_of_covered hf, hs]
    simp
  have hfind (s : ServerRecord) :
      s ∈ r.find order f ↔ r.row s.id = some s ∧ r.Matches (f.getD {}) s := by
    rw [find, (order.perm _).mem_iff, h.keyed.mem_rows, and_comm]
    exact and_congr_right fun hs => hsel (some (f.getD {})) rfl s hs
  refine ⟨(order.perm _).nodup_iff.2 (h.keyed.rows_nodup _), hfind, fun userID => ⟨?_, fun s => ?_⟩⟩
  · exact (order.perm _).nodup_iff.2 ((h.keyed.rows_nodup _).filter _)
  · rw [findUserServers, (order.perm _).mem_iff, List.mem_filter, h.keyed.mem_rows, hfind,
      decide_eq_true_eq, and_right_comm, and_comm, and_assoc]
    refine and_congr_right fun hs => ?_
    rw [hsel f rfl s hs, and_comm]

def plainServer : ServerRecord :=
  { id := 0, installed := .installed, dsID := 1, gameModID := 1, uid := Vector.replicate 16 0 }

def asFound : ServerOrder := ⟨id, fun _ => .refl _⟩

/-- Two servers on two nodes. -/
theorem find_exact_saved :
    let r := (new.save 1 plainServer).save 2 { plainServer with dsID := 2, uid := Vector.replicate 16 1 }
    (r.find asFound (some { dsIDs := [1] })).length = 1 ∧
      ∀ s, s ∈ r.find asFound (some { dsIDs := [1] }) ↔
        r.row s.id = some s ∧ r.Matches { dsIDs := [1] } s :=
  ⟨by decide +kernel, (@find_exact
    [.save 1 plainServer, .save 2 { plainServer with dsID := 2, uid := Vector.replicate 16 1 }] _
    ⟨fun _ => rfl, fun _ => rfl, trivial⟩ rfl asFound (some { dsIDs := [1] }) (.inl rfl)).2.1⟩

/-- A search by node and mod returns a server with another mod; and a new server that gets an id in
use is found by the name of the old one. -/
theorem find_returns_others :
    (∃ s ∈ (new.save 1 plainServer).find asFound (some { dsIDs := [1], gameModIDs := [2] }),
      s.gameModID = 1) ∧
    ∃ s ∈ ((new.save 1 { plainServer with id := 1, name := "old" }).save 2 plainServer).find asFound
      (some { names := ["old"] }), s.name = "" := by
  decide +kernel

end IndexedServers

end GameAP
