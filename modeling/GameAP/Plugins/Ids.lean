import GameAP.Lib.Base32
import GameAP.Lib.Decimal
import GameAP.Lib.Tables

/-!
# The ids of plugins

A plugin is known by a number in the database and by a text in its manifest.  `parsePluginID` makes
a number of any text: a decimal number is taken as it is, then base 32 is tried, and what is neither
is hashed.  `compactPluginID` writes a number in base 32, whose alphabet has the digits from 2 to 7.
The manager keeps its plugins under `normalizePluginID` of their texts.

A compact id of digits only is read back as a decimal number, and so as the id of another plugin:
`compactPluginID 215` is `24`.  `HasLetter` is the condition under which a compact id is read back,
and `compact_id_addresses_iff` says that it decides everything that depends on it.
-/

namespace GameAP

open Tables Base32 List

/-- `strconv.ParseUint` in base 10 with 64 bits; `none` is an error. -/
def parseUint64 (s : String) : Option ℕ :=
  if s.toList ≠ [] ∧ s.toList.all Char.isDigit = true ∧ Nat.ofDigitChars 10 s.toList 0 < 2 ^ 64 then
    some (Nat.ofDigitChars 10 s.toList 0)
  else none

/-- FNV-1a with 64 bits. -/
def fnv64a (s : String) : UInt64 :=
  s.toUTF8.toList.foldl (fun h b => (h ^^^ b.toUInt64) * 1099511628211) 14695981039346656037

/-- The number of any text. -/
def parsePluginID (idStr : String) : UInt64 :=
  match parseUint64 idStr with
  | some id => UInt64.ofNat id
  | none =>
    match decode idStr with
    | some decoded =>
      if decoded.length ≤ 8 then UInt64.ofNat (value 256 decoded) else fnv64a idStr
    | none => fnv64a idStr

/-- Leading zeros are left out, up to the last byte. -/
def trimZeros : List ℕ → List ℕ
  | 0 :: b :: bs => trimZeros (b :: bs)
  | bs => bs

/-- The bytes of the id, the most significant one first, without leading zeros. -/
def idBytes (id : UInt64) : List ℕ := trimZeros (digits 256 8 id.toNat)

/-- The number in base 32. -/
def compactPluginID (id : UInt64) : String := encode (idBytes id)

/-- The key of a plugin. -/
def normalizePluginID (pluginID : String) : String := compactPluginID (parsePluginID pluginID)

/-- One of the groups of five bits of the id is written as a letter. -/
def HasLetter (id : UInt64) : Prop := ∃ d ∈ groups (idBytes id), d < 26

instance (id : UInt64) : Decidable (HasLetter id) :=
  inferInstanceAs (Decidable (∃ d ∈ groups (idBytes id), d < 26))

/-! ### The bytes of an id -/

theorem value_trimZeros (bs : List ℕ) : value 256 (trimZeros bs) = value 256 bs := by
  fun_induction trimZeros bs with
  | case1 b bs ih => rw [ih, value_cons 256 0 (b :: bs), Nat.mul_zero, Nat.add_zero]
  | case2 bs _ => rfl

theorem trimZeros_sublist (bs : List ℕ) : (trimZeros bs).Sublist bs := by
  fun_induction trimZeros bs with
  | case1 b bs ih => exact ih.cons _
  | case2 bs _ => exact List.Sublist.refl _

theorem trimZeros_ne_nil {bs : List ℕ} (h : bs ≠ []) : trimZeros bs ≠ [] := by
  fun_induction trimZeros bs with
  | case1 b bs ih => exact ih (cons_ne_nil _ _)
  | case2 bs _ => exact h

variable (id : UInt64)

theorem toNat_lt : id.toNat < 256 ^ 8 := id.toNat_lt

theorem lt_of_mem_idBytes : ∀ b ∈ idBytes id, b < 256 := fun _ hb =>
  lt_of_mem_digits (by decide) ((trimZeros_sublist _).subset hb)

theorem value_idBytes : value 256 (idBytes id) = id.toNat := by
  rw [idBytes, value_trimZeros, value_digits (by decide) (toNat_lt id)]

theorem length_idBytes : 1 ≤ (idBytes id).length ∧ (idBytes id).length ≤ 8 := by
  have hlen : (digits 256 8 id.toNat).length = 8 := length_digits (by decide) (toNat_lt id)
  constructor
  · refine length_pos_of_ne_nil (trimZeros_ne_nil fun hnil => ?_)
    rw [hnil] at hlen
    cases hlen
  · rw [← hlen]
    exact (trimZeros_sublist _).length_le

theorem decode_compactPluginID : decode (compactPluginID id) = some (idBytes id) :=
  decode_encode (lt_of_mem_idBytes id)

theorem compactPluginID_injective : Function.Injective compactPluginID := by
  intro a b h
  have hbytes : idBytes a = idBytes b := by
    have hdecode := decode_compactPluginID a
    rw [h, decode_compactPluginID b] at hdecode
    exact (Option.some.inj hdecode).symm
  have hvalue : a.toNat = b.toNat := by rw [← value_idBytes a, hbytes, value_idBytes b]
  exact UInt64.toNat_inj.1 hvalue

/-! ### Reading a compact id back -/

theorem parsePluginID_of_letter (h : HasLetter id) : parsePluginID (compactPluginID id) = id := by
  obtain ⟨d, hd, hlt⟩ := h
  have hdec : parseUint64 (compactPluginID id) = none := by
    rw [parseUint64, if_neg]
    rintro ⟨-, hall, -⟩
    have hmem : char d ∈ (compactPluginID id).toList := by
      rw [compactPluginID, toList_encode]
      exact mem_map_of_mem hd
    have hdigit := all_eq_true.1 hall _ hmem
    rw [isDigit_char (lt_of_mem_groups hd)] at hdigit
    exact absurd (of_decide_eq_true hdigit) (Nat.not_le.2 hlt)
  rw [parsePluginID, hdec]
  rw [decode_compactPluginID]
  dsimp only
  rw [if_pos (length_idBytes id).2, value_idBytes, UInt64.ofNat_toNat]

variable {id}

theorem isDigit_of_not_letter (h : ¬ HasLetter id) : ∀ c ∈ (compactPluginID id).toList,
    c.isDigit = true := by
  intro c hc
  rw [compactPluginID, toList_encode] at hc
  obtain ⟨d, hd, rfl⟩ := mem_map.1 hc
  rw [isDigit_char (lt_of_mem_groups hd), decide_eq_true_iff]
  exact Nat.le_of_not_lt fun hlt => h ⟨d, hd, hlt⟩

theorem length_compactPluginID (id : UInt64) :
    (compactPluginID id).toList.length = encodedLen (idBytes id).length := by
  rw [compactPluginID, toList_encode, length_map,
    length_groups (lt_of_mem_idBytes id)]

theorem le_shifted_of_not_letter (h : ¬ HasLetter id) :
    26 * 32 ^ (encodedLen (idBytes id).length - 1) ≤
      id.toNat * 2 ^ (5 * encodedLen (idBytes id).length - 8 * (idBytes id).length) := by
  have hbytes := lt_of_mem_idBytes id
  rw [← value_idBytes id, ← value_groups hbytes]
  have hlen := length_groups hbytes
  cases hgroups : groups (idBytes id) with
  | nil =>
    have hpos := (length_idBytes id).1
    rw [hgroups, length_nil, encodedLen] at hlen
    omega
  | cons d ds =>
    have hd : 26 ≤ d := Nat.le_of_not_lt fun hlt => h ⟨d, hgroups ▸ mem_cons_self .., hlt⟩
    rw [hgroups, length_cons] at hlen
    rw [value_cons, ← hlen, Nat.add_sub_cancel, Nat.mul_comm 26]
    exact (Nat.mul_le_mul_left _ hd).trans (Nat.le_add_left _ _)

theorem ofDigitChars_lt_of_not_letter (h : ¬ HasLetter id) :
    Nat.ofDigitChars 10 (compactPluginID id).toList 0 < id.toNat := by
  have hlt := Decimal.ofDigitChars_lt (isDigit_of_not_letter h)
  have hle := le_shifted_of_not_letter h
  rw [length_compactPluginID] at hlt
  obtain ⟨hpos, hmax⟩ := length_idBytes id
  generalize (idBytes id).length = n at hlt hle hpos hmax
  interval_cases n <;> simp [encodedLen] at hlt hle <;> omega

theorem parsePluginID_of_not_letter (h : ¬ HasLetter id) :
    parsePluginID (compactPluginID id) ≠ id := by
  have hlt := ofDigitChars_lt_of_not_letter h
  have hmax : id.toNat < 2 ^ 64 := id.toNat_lt
  have hnil : (compactPluginID id).toList ≠ [] := by
    intro hnil
    have hlen := length_compactPluginID id
    have hpos := (length_idBytes id).1
    rw [hnil, length_nil, encodedLen] at hlen
    omega
  have hdec : parseUint64 (compactPluginID id) =
      some (Nat.ofDigitChars 10 (compactPluginID id).toList 0) := by
    rw [parseUint64, if_pos ⟨hnil, all_eq_true.2 (isDigit_of_not_letter h), hlt.trans hmax⟩]
  intro heq
  rw [parsePluginID, hdec] at heq
  have hnat := congrArg UInt64.toNat heq
  rw [UInt64.toNat_ofNat_of_lt' (hlt.trans hmax)] at hnat
  omega

theorem parsePluginID_compact_iff : parsePluginID (compactPluginID id) = id ↔ HasLetter id := by
  constructor
  · intro heq
    by_contra h
    exact parsePluginID_of_not_letter h heq
  · exact parsePluginID_of_letter id

/-! ### The manager -/

/-- `LoadedPlugin`, with the text of its manifest. -/
structure LoadedPlugin where
  infoID : String
  deriving DecidableEq

/-- The number under which a plugin is installed: the handlers make it of the text of the
manifest. -/
def LoadedPlugin.dbID (p : LoadedPlugin) : UInt64 := parsePluginID p.infoID

/-- The errors of the manager, with the text that it was given; `close` is that of the runtime. -/
inductive ManagerError
  | pluginAlreadyLoaded (pluginID : String)
  | pluginNotFound (pluginID : String)
  | close
  deriving DecidableEq

/-- Every plugin is kept under the normal form of its text. -/
structure Manager where
  plugins : Table String LoadedPlugin
  keyed : ∀ key p, plugins.get key = some p → key = normalizePluginID p.infoID

namespace Manager

/-- `NewManager`. -/
def empty : Manager where
  plugins := ∅
  keyed _ _ h := by cases h

variable (m : Manager)

/-- `Load`, after the runtime was built. -/
def load (p : LoadedPlugin) : Except ManagerError Manager :=
  match m.plugins.get (normalizePluginID p.infoID) with
  | some _ => .error (.pluginAlreadyLoaded p.infoID)
  | none => .ok
    { plugins := m.plugins.put (normalizePluginID p.infoID) p
      keyed := fun key q h => by
        rw [Table.get_put] at h
        split_ifs at h with hkey
        · cases h
          exact hkey
        · exact m.keyed key q h }

/-- The manager without what it keeps under the key. -/
def remove (key : String) : Manager where
  plugins := m.plugins.del key
  keyed k q h := by
    rw [Table.get_del] at h
    split_ifs at h
    exact m.keyed k q h

/-- `closed` is whether the runtime could be closed. -/
def unload (pluginID : String) (closed : Bool) : Except ManagerError Manager :=
  match m.plugins.get (normalizePluginID pluginID) with
  | none => .error (.pluginNotFound pluginID)
  | some _ => if closed then .ok (m.remove (normalizePluginID pluginID)) else .error .close

def getPlugin (pluginID : String) : Option LoadedPlugin := m.plugins.get (normalizePluginID pluginID)

/-- The plugin is in the manager. -/
def Loaded (p : LoadedPlugin) : Prop := ∃ key, m.plugins.get key = some p

variable {m} {p q : LoadedPlugin}

theorem Loaded.get (h : m.Loaded p) : m.plugins.get (normalizePluginID p.infoID) = some p := by
  obtain ⟨key, hkey⟩ := h
  rw [← m.keyed key p hkey, hkey]

theorem loaded_iff : m.Loaded p ↔ m.plugins.get (normalizePluginID p.infoID) = some p :=
  ⟨Loaded.get, fun h => ⟨_, h⟩⟩

theorem key_eq (p : LoadedPlugin) : normalizePluginID p.infoID = compactPluginID p.dbID := rfl

theorem getPlugin_compact_iff (hp : m.Loaded p) :
    m.getPlugin (compactPluginID p.dbID) = some p ↔ HasLetter p.dbID := by
  constructor
  · intro hget
    have hkey := m.keyed _ p hget
    exact parsePluginID_compact_iff.1 (compactPluginID_injective hkey)
  · intro hletter
    rw [getPlugin, normalizePluginID, parsePluginID_of_letter _ hletter, ← key_eq]
    exact hp.get

theorem loaded_remove {key : String} :
    (m.remove key).Loaded p ↔ m.Loaded p ∧ normalizePluginID p.infoID ≠ key := by
  rw [loaded_iff, loaded_iff, remove, Table.get_del]
  split_ifs with hkey
  · simp [hkey]
  · simp [hkey]

theorem unload_compact_iff (hp : m.Loaded p) :
    (∃ m', m.unload (compactPluginID p.dbID) true = .ok m' ∧
      ∀ q, m'.Loaded q ↔ m.Loaded q ∧ q.dbID ≠ p.dbID) ↔ HasLetter p.dbID := by
  constructor
  · rintro ⟨m', hunload, hload⟩
    have hgone : ¬ m'.Loaded p := fun h => ((hload p).1 h).2 rfl
    rw [unload] at hunload
    cases hget : m.plugins.get (normalizePluginID (compactPluginID p.dbID)) with
    | none => rw [hget] at hunload; cases hunload
    | some q =>
      rw [hget] at hunload
      cases hunload
      rw [loaded_remove] at hgone
      have hkey : normalizePluginID p.infoID = normalizePluginID (compactPluginID p.dbID) := by
        by_contra hne
        exact hgone ⟨hp, hne⟩
      exact parsePluginID_compact_iff.1 (compactPluginID_injective hkey).symm
  · intro hletter
    have hkey : normalizePluginID (compactPluginID p.dbID) = normalizePluginID p.infoID := by
      rw [normalizePluginID, parsePluginID_of_letter _ hletter, key_eq]
    refine ⟨m.remove (normalizePluginID p.infoID), ?_, fun q => ?_⟩
    · rw [unload, hkey, hp.get]
      rfl
    · rw [loaded_remove, key_eq, key_eq, compactPluginID_injective.ne_iff]

end Manager

/-- An id is read back from its compact form, and a lookup or an unload by it addresses its plugin
and no other, if and only if the compact form has a letter.  Two ids never share a key. -/
theorem compact_id_addresses_iff (id : UInt64) :
    (parsePluginID (compactPluginID id) = id ↔ HasLetter id) ∧
    (∀ s, parsePluginID s = id →
      (normalizePluginID (normalizePluginID s) = normalizePluginID s ↔ HasLetter id)) ∧
    (∀ p q : LoadedPlugin, p.dbID = id → q.dbID ≠ id →
      normalizePluginID p.infoID ≠ normalizePluginID q.infoID) ∧
    ∀ (m : Manager) (p : LoadedPlugin), m.Loaded p → p.dbID = id →
      (m.getPlugin (compactPluginID id) = some p ↔ HasLetter id) ∧
      ((∃ m', m.unload (compactPluginID id) true = .ok m' ∧
        ∀ q, m'.Loaded q ↔ m.Loaded q ∧ q.dbID ≠ id) ↔ HasLetter id) := by
  refine ⟨parsePluginID_compact_iff, ?_, ?_, ?_⟩
  · rintro s rfl
    rw [← parsePluginID_compact_iff]
    exact compactPluginID_injective.eq_iff
  · rintro p q rfl hq
    exact fun heq => hq.symm (compactPluginID_injective heq)
  · rintro m p hp rfl
    exact ⟨Manager.getPlugin_compact_iff hp, Manager.unload_compact_iff hp⟩

def twoPlugins : Except ManagerError Manager :=
  (Manager.empty.load ⟨"24"⟩).bind fun m => m.load ⟨"215"⟩

/-- The compact id of 215 is read as 24: it is not read back, normalising its text again changes it,
and a lookup finds the other plugin. -/
theorem compact_id_of_digits :
    compactPluginID 215 = "24" ∧ parsePluginID (compactPluginID 215) = 24 ∧
    normalizePluginID "215" = "24" ∧ normalizePluginID (normalizePluginID "215") = "da" ∧
    (match twoPlugins with
      | .ok m => m.getPlugin (compactPluginID 215)
      | .error _ => none) = some ⟨"24"⟩ := by
  refine ⟨by decide, by decide, by decide, by decide, by decide⟩

end GameAP
