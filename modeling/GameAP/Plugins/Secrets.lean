import GameAP.Domain
import GameAP.Lib.Tables

/-!
# The secrets of a plugin

A cipher marks what it has sealed with `enc:`, and a value without the mark is taken for plain text.
A plain text may have the mark too: `Encrypt` never seals such a text, and a disabled cipher seals
nothing, so that it cannot be read back.
-/

namespace GameAP

open Tables

/-- `cipher.AEAD` with the base64 encoding: what was sealed and encoded can be decoded and opened,
and neither decoding nor opening makes a text longer. -/
structure AEAD where
  nonceSize : ℕ
  sealValue (nonce plaintext aad : Bytes) : Bytes
  openValue (nonce ciphertext aad : Bytes) : Option Bytes
  encode : Bytes → Bytes
  decode : Bytes → Option Bytes
  open_seal : ∀ nonce plaintext aad,
    openValue nonce (sealValue nonce plaintext aad) aad = some plaintext
  decode_encode : ∀ b, decode (encode b) = some b
  length_open : ∀ nonce ciphertext aad plaintext,
    openValue nonce ciphertext aad = some plaintext → plaintext.length ≤ ciphertext.length
  length_decode : ∀ b raw, decode b = some raw → raw.length ≤ b.length

/-- Without a key there is no AEAD, and the cipher is disabled. -/
structure Cipher where
  aead : Option AEAD

/-- What `rand.Reader` reads into a buffer. -/
abbrev Rand := (n : ℕ) → Vector UInt8 n

/-- `"enc:"`. -/
def encPrefix : Bytes := [101, 110, 99, 58]

namespace Cipher

variable (c : Cipher)

/-- There is a key. -/
def enabled : Bool := c.aead.isSome

def sealValue (rand : Rand) (plaintext aad : Bytes) : Bytes :=
  match c.aead with
  | none => plaintext
  | some g =>
    let nonce := (rand g.nonceSize).toList
    encPrefix ++ g.encode (nonce ++ g.sealValue nonce plaintext aad)

def openValue (stored aad : Bytes) : Except String Bytes :=
  if ¬ encPrefix <+: stored then .ok stored
  else match c.aead with
    | none => .error "value is encrypted but ENCRYPTION_KEY is not configured"
    | some g =>
      match g.decode (stored.drop encPrefix.length) with
      | none => .error "failed to decode encrypted value"
      | some raw =>
        if raw.length < g.nonceSize then .error "encrypted value is too short"
        else match g.openValue (raw.take g.nonceSize) (raw.drop g.nonceSize) aad with
          | none => .error "failed to decrypt value"
          | some plaintext => .ok plaintext

def encrypt (rand : Rand) (plaintext : Bytes) : Bytes :=
  if plaintext = [] ∨ encPrefix <+: plaintext then plaintext else c.sealValue rand plaintext []

def encryptWithAAD (rand : Rand) (plaintext aad : Bytes) : Bytes :=
  if plaintext = [] then plaintext else c.sealValue rand plaintext aad

def decrypt (stored : Bytes) : Except String Bytes := c.openValue stored []

def decryptWithAAD (stored aad : Bytes) : Except String Bytes := c.openValue stored aad

/-- The text is not taken for a sealed one. -/
def Distinct (plaintext : Bytes) : Prop := c.aead ≠ none ∨ ¬ encPrefix <+: plaintext

end Cipher

/-! ### The service -/

/-- `SecretsServiceImpl`, without its repository. -/
structure SecretsService where
  pluginID : ℕ
  cipher : Cipher
  maxKeysPerPlugin : ℕ
  maxValueBytes : ℕ
  requireEncryption : Bool

/-- What the guard says in a call, and which operations of the repository succeed. -/
structure SecretsEnv where
  denied : Option String := none
  rand : Rand := fun n => Vector.replicate n 0
  find : Bool := true
  count : Bool := true
  write : Bool := true

/-- The values by plugin and key. -/
abbrev SecretRows := Table (ℕ × Bytes) Bytes

def secretAAD (pluginID : ℕ) (key : Bytes) : Bytes :=
  ("plugin-secret:" ++ toString pluginID ++ ":").toUTF8.toList ++ key

/-- A letter or a digit. -/
def isKeyByte (b : UInt8) : Bool :=
  97 ≤ b && b ≤ 122 || 65 ≤ b && b ≤ 90 || 48 ≤ b && b ≤ 57

/-- `^[a-zA-Z0-9][a-zA-Z0-9_.-]\x7b0,63\x7d$`. -/
def secretKeyRegex : Bytes → Bool
  | [] => false
  | b :: bs => isKeyByte b && bs.length ≤ 63 && bs.all fun b => isKeyByte b || b ∈ [95, 46, 45]

namespace SecretsService

variable (s : SecretsService) (e : SecretsEnv) (rows : SecretRows) (key : Bytes)

/-- `GetSecret`. -/
def get : Except String (Option Bytes) :=
  match e.denied with
  | some msg => .error msg
  | none =>
    if !e.find then .error "failed to read secret"
    else match rows.get (s.pluginID, key) with
      | none => .ok none
      | some stored =>
        match s.cipher.decryptWithAAD stored (secretAAD s.pluginID key) with
        | .error _ => .error "failed to decrypt secret"
        | .ok value => .ok (some value)

/-- The rows afterwards, and the error of the response. -/
def set (value : Bytes) : SecretRows × Option String :=
  match e.denied with
  | some msg => (rows, some msg)
  | none =>
    if !secretKeyRegex key then
      (rows, some "secret key must match ^[a-zA-Z0-9][a-zA-Z0-9_.-]\x7b0,63\x7d$")
    else if s.maxValueBytes < value.length then
      (rows, some ("secret value exceeds " ++ toString s.maxValueBytes ++ " bytes"))
    else if s.requireEncryption && !s.cipher.enabled then
      (rows, some "gameap-secrets requires ENCRYPTION_KEY to be configured")
    else if !e.find then (rows, some "failed to read secret")
    else if rows.get (s.pluginID, key) = none ∧ e.count = false then
      (rows, some "failed to read secret")
    else if rows.get (s.pluginID, key) = none ∧
        s.maxKeysPerPlugin ≤ rows.keys.countP (·.1 = s.pluginID) then
      (rows, some ("at most " ++ toString s.maxKeysPerPlugin ++ " secrets per plugin"))
    else if !e.write then (rows, some "failed to store secret")
    else (rows.put (s.pluginID, key)
      (s.cipher.encryptWithAAD e.rand value (secretAAD s.pluginID key)), none)

/-- `DeleteSecret`. -/
def delete : SecretRows × Option String :=
  match e.denied with
  | some msg => (rows, some msg)
  | none =>
    if e.write then (rows.del (s.pluginID, key), none) else (rows, some "failed to delete secret")

end SecretsService

/-- A call that can change a row: the value is that of a `Set`. -/
structure SecretCall where
  service : SecretsService
  env : SecretsEnv
  key : Bytes
  value : Option Bytes

/-- A call on the rows. -/
def SecretCall.run (rows : SecretRows) (c : SecretCall) : SecretRows :=
  match c.value with
  | some value => (c.service.set c.env rows c.key value).1
  | none => (c.service.delete c.env rows c.key).1

/-! ### Round trips -/

namespace Cipher

variable {c : Cipher} {rand : Rand} {plaintext aad : Bytes}

theorem open_of_plain (h : ¬ encPrefix <+: plaintext) : c.openValue plaintext aad = .ok plaintext :=
  if_pos h

theorem open_seal (h : c.Distinct plaintext) :
    c.openValue (c.sealValue rand plaintext aad) aad = .ok plaintext := by
  unfold sealValue
  cases haead : c.aead with
  | none => exact open_of_plain (h.resolve_left fun hne => hne haead)
  | some g =>
    have hlen : (rand g.nonceSize).toList.length = g.nonceSize := Vector.length_toList
    simp [openValue, haead, g.decode_encode, hlen, g.open_seal]

/-- What is taken for a sealed text is never opened to itself: the mark is lost. -/
theorem open_ne_of_marked (h : encPrefix <+: plaintext) :
    c.openValue plaintext aad ≠ .ok plaintext := by
  intro heq
  rw [openValue, if_neg (not_not.2 h)] at heq
  cases haead : c.aead with
  | none => rw [haead] at heq; cases heq
  | some g =>
    rw [haead] at heq
    dsimp only at heq
    split at heq
    · cases heq
    next raw hraw =>
    split_ifs at heq
    split at heq
    · cases heq
    next opened hopened =>
    cases heq
    -- the lengths shrink: mark, decoding, nonce, opening
    have hdecoded := g.length_decode _ _ hraw
    have hlen := g.length_open _ _ _ _ hopened
    have hmark := h.length_le
    simp only [List.length_drop, encPrefix, List.length_cons, List.length_nil] at hdecoded hlen hmark
    omega

theorem decryptWithAAD_encryptWithAAD :
    c.decryptWithAAD (c.encryptWithAAD rand plaintext aad) aad = .ok plaintext ↔
      c.Distinct plaintext := by
  unfold encryptWithAAD
  split_ifs with hnil
  · subst hnil
    exact iff_of_true (open_of_plain (by decide)) (.inr (by decide))
  · refine ⟨fun h => or_iff_not_imp_left.2 fun haead hmark => ?_, open_seal⟩
    rw [decryptWithAAD, sealValue, not_not.1 haead] at h
    exact open_ne_of_marked hmark h

theorem decrypt_encrypt :
    c.decrypt (c.encrypt rand plaintext) = .ok plaintext ↔ ¬ encPrefix <+: plaintext := by
  refine ⟨fun h hmark => ?_, fun h => ?_⟩
  · rw [encrypt, if_pos (.inr hmark)] at h
    exact open_ne_of_marked hmark h
  · unfold encrypt
    split_ifs
    · exact open_of_plain h
    · exact open_seal (.inr h)

end Cipher

namespace SecretsService

variable {s : SecretsService} {e : SecretsEnv} {rows : SecretRows} {key value : Bytes}

theorem set_cases (s : SecretsService) (e : SecretsEnv) (rows : SecretRows) (key value : Bytes) :
    (∃ msg, s.set e rows key value = (rows, some msg)) ∨ s.set e rows key value =
      (rows.put (s.pluginID, key)
        (s.cipher.encryptWithAAD e.rand value (secretAAD s.pluginID key)), none) := by
  unfold set
  split
  · exact .inl ⟨_, rfl⟩
  · split_ifs
    all_goals first | exact .inl ⟨_, rfl⟩ | exact .inr rfl

theorem get_run {c : SecretCall} {k : ℕ × Bytes} (h : (c.service.pluginID, c.key) ≠ k) :
    (c.run rows).get k = rows.get k := by
  unfold SecretCall.run
  split
  · next value _ =>
    rcases set_cases c.service c.env rows c.key value with ⟨msg, heq⟩ | heq
    · rw [heq]
    · rw [heq, Table.get_put, if_neg h.symm]
  · unfold delete
    split
    · rfl
    · split_ifs
      · rw [Table.get_del, if_neg h.symm]
      · rfl

theorem get_foldl_run {cs : List SecretCall} {k : ℕ × Bytes}
    (h : ∀ c ∈ cs, (c.service.pluginID, c.key) ≠ k) :
    (cs.foldl SecretCall.run rows).get k = rows.get k := by
  induction cs generalizing rows with
  | nil => rfl
  | cons c cs ih =>
    obtain ⟨hc, hcs⟩ := List.forall_mem_cons.1 h
    rw [List.foldl_cons, ih hcs, get_run hc]

/-- **Round trips**: `Encrypt` loses the texts with the mark, `EncryptWithAAD` loses them if the
cipher is disabled, and a secret is read back unless the cipher takes it for a sealed one. -/
theorem secret_read_back (s : SecretsService) (e e' : SecretsEnv) (rows : SecretRows)
    (key value aad : Bytes) (cs : List SecretCall)
    (hcs : ∀ c ∈ cs, (c.service.pluginID, c.key) ≠ (s.pluginID, key)) (hallowed : e'.denied = none)
    (hfind : e'.find = true) :
    (s.cipher.decrypt (s.cipher.encrypt e.rand value) = .ok value ↔ ¬ encPrefix <+: value) ∧
    (s.cipher.decryptWithAAD (s.cipher.encryptWithAAD e.rand value aad) aad = .ok value ↔
      s.cipher.Distinct value) ∧
    ((s.set e rows key value).2 = none →
      (s.get e' (cs.foldl SecretCall.run (s.set e rows key value).1) key = .ok (some value) ↔
        s.cipher.Distinct value)) := by
  refine ⟨Cipher.decrypt_encrypt, Cipher.decryptWithAAD_encryptWithAAD, fun hset => ?_⟩
  rcases set_cases s e rows key value with ⟨msg, heq⟩ | heq
  · rw [heq] at hset
    cases hset
  · rw [← @Cipher.decryptWithAAD_encryptWithAAD s.cipher e.rand value (secretAAD s.pluginID key)]
    cases hopen : s.cipher.decryptWithAAD
      (s.cipher.encryptWithAAD e.rand value (secretAAD s.pluginID key)) (secretAAD s.pluginID key)
    all_goals simp [get, hallowed, hfind, get_foldl_run hcs, heq, hopen]

def plain : SecretsService := ⟨1, ⟨none⟩, 64, 8192, false⟩

theorem secret_read_back_plain : plain.get {} ([⟨plain, {}, [98], some [2]⟩].foldl SecretCall.run
    (plain.set {} ∅ [97] [1]).1) [97] = .ok (some [1]) :=
  ((secret_read_back plain {} {} ∅ [97] [1] [] _ (by decide) rfl rfl).2.2 (by decide)).2
    (.inr (by decide))

/-- `"enc:"` is stored as it is, and then taken for a sealed value. -/
theorem marked_secret_lost : (plain.set {} ∅ [97] encPrefix).2 = none ∧
    plain.get {} (plain.set {} ∅ [97] encPrefix).1 [97] = .error "failed to decrypt secret" :=
  ⟨by decide, rfl⟩

/-- The stored keys are valid ones, and no plugin has more than `n` of them. -/
structure Bounded (n : ℕ) (rows : SecretRows) : Prop where
  valid : ∀ k ∈ rows.keys, secretKeyRegex k.2 = true
  quota : ∀ pluginID, rows.keys.countP (·.1 = pluginID) ≤ n

section

variable {n : ℕ} (h : Bounded n rows)

include h

theorem Bounded.set (hn : s.maxKeysPerPlugin ≤ n) : Bounded n (s.set e rows key value).1 := by
  unfold SecretsService.set
  split
  · exact h
  split_ifs with hkey hsize henc hfind hcount hquota hwrite
  -- every early return leaves the rows as they are
  all_goals try exact h
  have hkeys (v) := rows.keys_put (s.pluginID, key) v
  refine ⟨fun k hk => ?_, fun pluginID => ?_⟩
  · have hmem := (hkeys _).mem_iff.1 hk
    split_ifs at hmem
    · rcases List.mem_cons.1 hmem with rfl | hmem
      · simpa using hkey
      · exact h.valid k hmem
    · exact h.valid k hmem
  · rw [(hkeys _).countP_eq]
    split_ifs with hnone
    · have hlt := Nat.lt_of_not_ge fun hle => hquota ⟨hnone, hle⟩
      rw [List.countP_cons]
      split_ifs with hid
      · rw [← of_decide_eq_true hid]
        exact hlt.trans_le hn
      · exact h.quota pluginID
    · exact h.quota pluginID

theorem Bounded.run {c : SecretCall} (hn : c.service.maxKeysPerPlugin ≤ n) :
    Bounded n (c.run rows) := by
  unfold SecretCall.run
  split
  · exact h.set hn
  · unfold delete
    split
    · exact h
    · split_ifs
      · have hsub := rows.keys_del_sublist (c.service.pluginID, c.key)
        exact ⟨fun k hk => h.valid k (hsub.subset hk), fun p => hsub.countP_le.trans (h.quota p)⟩
      · exact h

end

/-- After any calls, one after the other, every stored key is a valid one, and no plugin has more
of them than the services allow. -/
theorem secrets_bounded (n : ℕ) (cs : List SecretCall)
    (hn : ∀ c ∈ cs, c.service.maxKeysPerPlugin ≤ n) : Bounded n (cs.foldl SecretCall.run ∅) :=
  List.foldlRecOn cs _ ⟨nofun, fun _ => Nat.zero_le n⟩ fun _ h c hc => h.run (hn c hc)

/-- Two keys are set, and one of them is deleted. -/
theorem secrets_bounded_plain : Bounded 64 (([⟨plain, {}, [97], some [1]⟩, ⟨plain, {}, [98], some [2]⟩,
    ⟨plain, {}, [97], none⟩] : List SecretCall).foldl SecretCall.run ∅) :=
  secrets_bounded 64 _ (by decide)

end SecretsService

end GameAP
