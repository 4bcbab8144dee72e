import Mathlib.Data.List.Sort
import GameAP.Domain
import GameAP.Lib.Json
import GameAP.Lib.Redaction

/-!
# Masking the RCON password in the console stream

The console of a game server comes in chunks, and each chunk is a frame to the client of the
WebSocket.  The outbound filter decodes a frame, replaces the password in the chunk by six stars,
encodes the frame again (`maskFrame`), and replaces the password in the encoded frame as well.  The
client shows the chunks one after the other (`viewed`).

Frames and payloads are JSON texts.  A password that is in the text of a frame by accident, in a
key, an escape sequence or the base64 form of a block, makes the filter damage the frame:
`frame_masked` says when the text is left alone, and `stream_masked` is for frames without such an
accident (`Clear`).  There the password can be seen only if an occurrence of it has been cut.
-/

namespace GameAP

open Replace List

/-- The bytes of a text. -/
def utf8 (s : List Char) : Bytes := s.flatMap String.utf8EncodeChar

/-! ### The masker -/

/-- `secretmask.Placeholder`. -/
def maskPlaceholder : List Char := "******".toList

structure Masker where
  secrets : List (List Char)
  ne_nil : ∀ secret ∈ secrets, secret ≠ []

namespace Masker

/-- The body of the loop in `New`: empty values and duplicates are dropped. -/
def addSecret (filtered : List (List Char)) (secret : List Char) : List (List Char) :=
  if secret = [] then filtered
  else if filtered.any (· == secret) then filtered
  else filtered ++ [secret]

variable {filtered : List (List Char)} (secrets : List (List Char))

theorem mem_addSecret {secret s : List Char} :
    s ∈ addSecret filtered secret ↔ s ∈ filtered ∨ s = secret ∧ s ≠ [] := by
  unfold addSecret
  split_ifs with hempty hmem
  · simp [hempty]
  · have hmem : secret ∈ filtered := by simpa using hmem
    exact ⟨.inl, fun h => h.elim id fun h => h.1 ▸ hmem⟩
  · rw [mem_append, mem_singleton]
    exact or_congr_right ⟨fun h => ⟨h, h ▸ hempty⟩, And.left⟩

theorem mem_foldl_addSecret
    {s : List Char} : s ∈ secrets.foldl addSecret filtered ↔ s ∈ filtered ∨ s ∈ secrets ∧ s ≠ [] := by
  induction secrets generalizing filtered with
  | nil => simp
  | cons secret secrets ih =>
    rw [foldl_cons, ih, mem_addSecret, mem_cons, or_assoc, ← or_and_right]

/-- The longest secret first. -/
def new (secrets : List (List Char)) : Masker where
  secrets := (secrets.foldl addSecret []).insertionSort fun a b => (utf8 b).length ≤ (utf8 a).length
  ne_nil _ hs := ((mem_foldl_addSecret secrets).1 ((List.mem_insertionSort _).1 hs)).elim
    (fun h => absurd h List.not_mem_nil) And.right

variable (m : Masker)

def empty : Bool := m.secrets.isEmpty

/-- The loop of `String` and `Bytes`, over the secrets as texts of either kind. -/
def replaceSecrets {α : Type} [DecidableEq α] (secrets : List (List α)) (placeholder s : List α) :
    List α :=
  secrets.foldl (fun s secret => if secret <:+: s then replaceAll secret placeholder s else s) s

def string (s : List Char) : List Char :=
  if m.empty || s.isEmpty then s else replaceSecrets m.secrets maskPlaceholder s

def bytes (b : Bytes) : Bytes :=
  if m.empty || b.isEmpty then b
  else replaceSecrets (m.secrets.map utf8) (utf8 maskPlaceholder) b

end Masker

/-! ### Frames -/

/-- The envelope of a frame.  The payload is not decoded; it is empty if the frame has none. -/
structure OutboundFrame where
  type : List Char := []
  payload : List Char := []
  id : List Char := []
  timestamp : Int64 := 0
  error : List Char := []
  deriving DecidableEq

/-- A chunk of the console. -/
structure ConsoleOutputPayload where
  serverID : UInt64 := 0
  commandID : List Char := []
  chunk : List Char := []
  deriving DecidableEq

/-- A block of an attached console. -/
structure AttachOutputPayload where
  sessionID : List Char := []
  data : Bytes := []
  deriving DecidableEq

/-- The payload of an error. -/
structure ErrorPayload where
  message : List Char := []
  deriving DecidableEq

/-! ### `encoding/json` for these types -/

open Json (Field Codec)

/-- `json.Marshal` would also write a payload without white space; here it is always a text that
`json.Marshal` has written. -/
def frameCodec : Codec OutboundFrame where
  zero := {}
  fields := [.of .string "type" (·.type) fun f type => { f with type },
    .omitEmpty (·.payload.isEmpty) (.raw "payload" (·.payload) fun f payload => { f with payload }),
    .omitEmpty (·.id.isEmpty) (.of .string "id" (·.id) fun f id => { f with id }),
    .of .int64 "ts" (·.timestamp) fun f timestamp => { f with timestamp },
    .omitEmpty (·.error.isEmpty) (.of .string "error" (·.error) fun f error => { f with error })]
  keys := by decide
  copy_eq f := by
    obtain ⟨type, payload, id, timestamp, error⟩ := f
    cases payload <;> cases id <;> cases error <;> simp

/-- The JSON form of a chunk. -/
def consoleOutputCodec : Codec ConsoleOutputPayload where
  zero := {}
  fields := [.of .uint64 "server_id" (·.serverID) fun p serverID => { p with serverID },
    .omitEmpty (·.commandID.isEmpty)
      (.of .string "command_id" (·.commandID) fun p commandID => { p with commandID }),
    .of .string "chunk" (·.chunk) fun p chunk => { p with chunk }]
  keys := by decide
  copy_eq p := by
    obtain ⟨serverID, commandID, chunk⟩ := p
    cases commandID <;> simp

/-- The JSON form of a block, in base64. -/
def attachOutputCodec : Codec AttachOutputPayload where
  zero := {}
  fields := [.of .string "session_id" (·.sessionID) fun p sessionID => { p with sessionID },
    .of .bytes "data" (·.data) fun p data => { p with data }]
  keys := by decide
  copy_eq p := by simp

/-- The JSON form of an error. -/
def errorCodec : Codec ErrorPayload where
  zero := {}
  fields := [.of .string "message" (·.message) fun p message => { p with message }]
  keys := by decide
  copy_eq p := by simp

/-- A payload type with a text that is masked. -/
structure MaskedField (β α : Type) where
  get : β → List α
  set : β → List α → β
  get_set : ∀ p text, get (set p text) = text
  set_get : ∀ p, set p (get p) = p

/-- The field that `maskAttachOutput` masks. -/
def attachData : MaskedField AttachOutputPayload UInt8 :=
  ⟨(·.data), fun p data => { p with data }, fun _ _ => rfl, fun _ => rfl⟩

/-- The field that `maskConsoleOutput` masks. -/
def consoleChunk : MaskedField ConsoleOutputPayload Char :=
  ⟨(·.chunk), fun p chunk => { p with chunk }, fun _ _ => rfl, fun _ => rfl⟩

/-- The field that `maskErrorMessage` masks. -/
def errorMessage : MaskedField ErrorPayload Char :=
  ⟨(·.message), fun p message => { p with message }, fun _ _ => rfl, fun _ => rfl⟩

/-- The bytes as a text, if they are one.  A frame is one, before the filter and after it. -/
def text? (b : Bytes) : Option (List Char) := b.toByteArray.utf8Decode?.map Array.toList

theorem text?_utf8 (s : List Char) : text? (utf8 s) = some s :=
  congrArg (Option.map Array.toList) List.utf8Decode?_utf8Encode

theorem utf8_injective : Function.Injective utf8 := fun a b h =>
  Option.some.inj ((text?_utf8 a).symm.trans ((congrArg text? h).trans (text?_utf8 b)))

namespace MaskFilter

section Filter

variable {β α : Type} [DecidableEq α]

/-- What `maskAttachOutput`, `maskConsoleOutput` and `maskErrorMessage` do. -/
def maskPayload (codec : Codec β) (field : MaskedField β α) (mask : List α → List α)
    (rawPayload : List Char) : Option (List Char) :=
  match codec.unmarshal rawPayload with
  | none => none
  | some payload =>
    if mask (field.get payload) = field.get payload then none
    else some (codec.marshal (field.set payload (mask (field.get payload))))

variable (m : Masker)

/-- Masks the bytes of a block. -/
def maskAttachOutput : List Char → Option (List Char) :=
  maskPayload attachOutputCodec attachData m.bytes

/-- Masks the text of a chunk. -/
def maskConsoleOutput : List Char → Option (List Char) :=
  maskPayload consoleOutputCodec consoleChunk m.string

/-- Masks the message of an error. -/
def maskErrorMessage : List Char → Option (List Char) := maskPayload errorCodec errorMessage m.string

/-- `messages.TypeAttachOutput`. -/
def typeAttachOutput : List Char := "attach.output".toList

/-- `messages.TypeConsoleOutput`. -/
def typeConsoleOutput : List Char := "console.output".toList

/-- `ws.TypeError`. -/
def typeError : List Char := "error".toList

/-- The `switch` of `maskFrame`. -/
def encodedPayload (decoded : OutboundFrame) : Option (List Char) :=
  if decoded.type = typeAttachOutput then maskAttachOutput m decoded.payload
  else if decoded.type = typeConsoleOutput then maskConsoleOutput m decoded.payload
  else if decoded.type = typeError then maskErrorMessage m decoded.payload
  else none

/-- `json.Unmarshal` of a frame. -/
def decodeFrame (frame : Bytes) : Option OutboundFrame := (text? frame).bind frameCodec.unmarshal

/-- The frame with its payload and error masked. -/
def maskFrame (frame : Bytes) : Bytes :=
  match decodeFrame frame with
  | none => frame
  | some decoded =>
    if encodedPayload m decoded = none ∧ m.string decoded.error = decoded.error then frame
    else utf8 (frameCodec.marshal { decoded with
      payload := (encodedPayload m decoded).getD decoded.payload
      error := m.string decoded.error })

/-- No filter is installed if there is nothing to mask. -/
def newOutboundMaskFilter : Option (Bytes → Bytes) :=
  if m.empty then none else some fun frame => m.bytes (maskFrame m frame)

/-- What `Client.Send` puts into the buffer. -/
def send (filter : Option (Bytes → Bytes)) (msg : Bytes) : Bytes :=
  match filter with
  | none => msg
  | some filter => filter msg

/-! ### One frame -/

variable {m : Masker} {codec : Codec β} {field : MaskedField β α}

/-- A frame of the panel with its payload. -/
def encode (codec : Codec β) (f : OutboundFrame) (p : β) : List Char :=
  frameCodec.marshal { f with payload := codec.marshal p }

/-- What the client takes from a frame of the given type. -/
def decode (codec : Codec β) (field : MaskedField β α) (type : List Char) (frame : Bytes) :
    Option (List α) :=
  match decodeFrame frame with
  | none => none
  | some f => if f.type = type then (codec.unmarshal f.payload).map field.get else none

/-- The members of the payloads are no objects. -/
def Flat (codec : Codec β) : Prop := ∀ depth p, codec.Writes (depth + 1) p

theorem flat_attachOutput : Flat attachOutputCodec := by
  intro depth p
  simp only [Codec.Writes, attachOutputCodec, forall_mem_cons]
  exact ⟨Field.writes_of, Field.writes_of, forall_mem_nil _⟩

theorem flat_consoleOutput : Flat consoleOutputCodec := by
  intro depth p
  simp only [Codec.Writes, consoleOutputCodec, forall_mem_cons]
  exact ⟨Field.writes_of, Field.writes_of.omitEmpty, Field.writes_of, forall_mem_nil _⟩

theorem flat_error : Flat errorCodec := by
  intro depth p
  simp only [Codec.Writes, errorCodec, forall_mem_cons]
  exact ⟨Field.writes_of, forall_mem_nil _⟩

theorem decodeFrame_encode (h : Flat codec) (f : OutboundFrame) (p : β) :
    decodeFrame (utf8 (encode codec f p)) = some { f with payload := codec.marshal p } := by
  rw [decodeFrame, text?_utf8, Option.bind_some, encode]
  refine Codec.unmarshal_marshal ?_
  simp only [Codec.Writes, frameCodec, forall_mem_cons]
  refine ⟨Field.writes_of, Field.Writes.omitEmpty ?_, Field.writes_of.omitEmpty, Field.writes_of,
    Field.writes_of.omitEmpty, forall_mem_nil _⟩
  rintro t ⟨⟩
  exact Codec.value_marshal (h _ p)

theorem unmarshal_payload (h : Flat codec) (p : β) : codec.unmarshal (codec.marshal p) = some p :=
  Codec.unmarshal_marshal (h _ p)

omit [DecidableEq α] in
theorem decode_encode (h : Flat codec) (f : OutboundFrame) (p : β) :
    decode codec field f.type (utf8 (encode codec f p)) = some (field.get p) := by
  unfold decode
  rw [decodeFrame_encode h]
  simp only [if_true, unmarshal_payload h, Option.map_some]

/-- The frame with the secrets replaced in its error. -/
def maskedFrame (m : Masker) (f : OutboundFrame) : OutboundFrame :=
  { f with error := m.string f.error }

/-- The text of the frame with the secrets replaced in its error and in the field of its payload. -/
def maskedText (m : Masker) (codec : Codec β) (field : MaskedField β α) (mask : List α → List α)
    (f : OutboundFrame) (p : β) : List Char :=
  encode codec (maskedFrame m f) (field.set p (mask (field.get p)))

variable {mask : List α → List α} {f : OutboundFrame}

theorem maskFrame_encode (h : Flat codec)
    (hcase : ∀ raw, encodedPayload m { f with payload := raw } = maskPayload codec field mask raw)
    (p : β) : maskFrame m (utf8 (encode codec f p)) = utf8 (maskedText m codec field mask f p) := by
  unfold maskFrame
  rw [decodeFrame_encode h]
  simp only [hcase, maskPayload, unmarshal_payload h]
  by_cases hfield : mask (field.get p) = field.get p
  · have hset : field.set p (mask (field.get p)) = p := by rw [hfield, field.set_get]
    rw [if_pos hfield, maskedText, hset]
    by_cases herror : m.string f.error = f.error
    · have hsame : maskedFrame m f = f := by
        unfold maskedFrame
        rw [herror]
      rw [if_pos ⟨rfl, herror⟩, hsame]
    · rw [if_neg fun hboth => herror hboth.2]
      rfl
  · rw [if_neg hfield, if_neg fun hboth => Option.some_ne_none _ hboth.1]
    rfl

/-! ### The stream -/

/-- What the client shows of the frames that were sent to it. -/
def viewed (m : Masker) (codec : Codec β) (field : MaskedField β α) (type : List Char)
    (outputs : List (OutboundFrame × β)) : List α :=
  (outputs.filterMap fun o =>
    decode codec field type (send (newOutboundMaskFilter m) (utf8 (encode codec o.1 o.2)))).flatten

/-- The text of the masked frames does not have the password. -/
def Clear (m : Masker) (codec : Codec β) (field : MaskedField β α) (mask : List α → List α)
    (password : List Char) (outputs : List (OutboundFrame × β)) : Prop :=
  ∀ o ∈ outputs, ¬ password <:+: maskedText m codec field mask o.1 o.2

end Filter

end MaskFilter

/-! ### The password -/

namespace Masker

variable {password : List Char} (m : Masker)

theorem secrets_new (h : password ≠ []) : (new [password]).secrets = [password] := by
  simp [new, addSecret, h]

section

variable {α : Type} [DecidableEq α] {secrets : List (List α)} {secret placeholder s : List α}

theorem replaceSecrets_cons (h : secret ≠ []) (secrets : List (List α)) (placeholder s : List α) :
    replaceSecrets (secret :: secrets) placeholder s =
      replaceSecrets secrets placeholder (replaceAll secret placeholder s) := by
  unfold replaceSecrets
  rw [foldl_cons]
  split_ifs with hocc
  · rfl
  · rw [replaceAll_of_absent h hocc]

theorem replaceSecrets_of_absent (h : ∀ secret ∈ secrets, ¬ secret <:+: s) :
    replaceSecrets secrets placeholder s = s := by
  induction secrets with
  | nil => rfl
  | cons secret secrets ih =>
    obtain ⟨hnot, hrest⟩ := forall_mem_cons.1 h
    unfold replaceSecrets
    rw [foldl_cons, if_neg hnot]
    exact ih hrest

variable (hne : ∀ secret ∈ secrets, secret ≠ [])
include hne

theorem replaceSecrets_shortcut :
    (if secrets.isEmpty || s.isEmpty then s else replaceSecrets secrets placeholder s) =
      replaceSecrets secrets placeholder s := by
  split_ifs with h
  · refine (replaceSecrets_of_absent fun secret hmem hocc => ?_).symm
    rw [Bool.or_eq_true, List.isEmpty_iff, List.isEmpty_iff] at h
    rcases h with rfl | rfl
    · cases hmem
    · exact hne secret hmem (infix_nil.1 hocc)
  · rfl

theorem infix_of_infix_replaceSecrets (hplac : placeholder ≠ []) (hsecret : secret ≠ [])
    (hstar : placeholder.Disjoint secret) (h : secret <:+: replaceSecrets secrets placeholder s) :
    secret <:+: s := by
  induction secrets generalizing s with
  | nil => exact h
  | cons first secrets ih =>
    obtain ⟨hfirst, hne⟩ := forall_mem_cons.1 hne
    rw [replaceSecrets_cons hfirst] at h
    exact infix_of_infix_replaceAll hfirst hplac hstar hsecret (ih hne h)

theorem not_infix_replaceSecrets (hplac : placeholder ≠ [])
    (hstar : ∀ secret ∈ secrets, placeholder.Disjoint secret) :
    ∀ secret ∈ secrets, ¬ secret <:+: replaceSecrets secrets placeholder s := by
  induction secrets generalizing s with
  | nil => exact forall_mem_nil _
  | cons first secrets ih =>
    obtain ⟨hfirst, hne⟩ := forall_mem_cons.1 hne
    obtain ⟨hstar₁, hstar⟩ := forall_mem_cons.1 hstar
    rw [replaceSecrets_cons hfirst, forall_mem_cons]
    refine ⟨fun h => ?_, ih hne hstar⟩
    exact not_infix_replaceAll hfirst hplac hstar₁ s
      (infix_of_infix_replaceSecrets hne hplac hfirst hstar₁ h)

end

theorem string_eq (s : List Char) : m.string s = replaceSecrets m.secrets maskPlaceholder s :=
  replaceSecrets_shortcut m.ne_nil

theorem utf8_ne_nil (h : password ≠ []) : utf8 password ≠ [] := by
  cases password with
  | nil => exact absurd rfl h
  | cons c s => exact append_ne_nil_of_left_ne_nil String.utf8EncodeChar_ne_nil _

theorem utf8_secrets_ne_nil : ∀ secret ∈ m.secrets.map utf8, secret ≠ [] :=
  forall_mem_map.2 fun secret h => utf8_ne_nil (m.ne_nil secret h)

theorem bytes_eq (b : Bytes) :
    m.bytes b = replaceSecrets (m.secrets.map utf8) (utf8 maskPlaceholder) b := by
  rw [← replaceSecrets_shortcut m.utf8_secrets_ne_nil, isEmpty_map]
  rfl

theorem string_new (h : password ≠ []) (s : List Char) :
    (new [password]).string s = replaceAll password maskPlaceholder s := by
  rw [string_eq, secrets_new h]
  exact replaceSecrets_cons h [] maskPlaceholder s

theorem bytes_new (h : password ≠ []) (b : Bytes) :
    (new [password]).bytes b = replaceAll (utf8 password) (utf8 maskPlaceholder) b := by
  rw [bytes_eq, secrets_new h]
  exact replaceSecrets_cons (utf8_ne_nil h) [] (utf8 maskPlaceholder) b

theorem eq_star_of_ofNat {n : ℕ} (hn : n < 256) (h : (42 : UInt8) = UInt8.ofNat n) : n = 42 := by
  have hnat := congrArg UInt8.toNat h
  rw [UInt8.toNat_ofNat', Nat.mod_eq_of_lt hn] at hnat
  exact hnat.symm

theorem star_notMem_utf8EncodeChar {c : Char} (h : c ≠ '*') :
    (42 : UInt8) ∉ String.utf8EncodeChar c := by
  intro hmem
  have hne : c.val.toNat ≠ 42 := fun heq => h (Char.toNat_inj.1 heq)
  unfold String.utf8EncodeChar at hmem
  simp only at hmem
  split_ifs at hmem <;> simp only [mem_cons, not_mem_nil, or_false] at hmem
  · exact hne (eq_star_of_ofNat (by omega) hmem)
  · rcases hmem with hmem | hmem
    all_goals
      have heq := eq_star_of_ofNat (by omega) hmem
      omega
  · rcases hmem with hmem | hmem | hmem
    all_goals
      have heq := eq_star_of_ofNat (by omega) hmem
      omega
  · rcases hmem with hmem | hmem | hmem | hmem
    all_goals
      have heq := eq_star_of_ofNat (by omega) hmem
      omega

theorem disjoint_placeholder (h : '*' ∉ password) : maskPlaceholder.Disjoint password := by
  have hstars : maskPlaceholder.all (· == '*') = true := by decide
  intro c hc hmem
  exact h (beq_iff_eq.1 (all_eq_true.1 hstars c hc) ▸ hmem)

theorem disjoint_utf8_placeholder (h : '*' ∉ password) :
    (utf8 maskPlaceholder).Disjoint (utf8 password) := by
  have hstars : (utf8 maskPlaceholder).all (· == 42) = true := by decide
  intro b hb hmem
  obtain ⟨c, hc, hbc⟩ := mem_flatMap.1 hmem
  rw [beq_iff_eq.1 (all_eq_true.1 hstars b hb)] at hbc
  exact star_notMem_utf8EncodeChar (fun heq => h (heq ▸ hc)) hbc

/-! ### Several secrets -/

theorem utf8_append (s t : List Char) : utf8 (s ++ t) = utf8 s ++ utf8 t := flatMap_append

theorem utf8EncodeChar_eq (c : Char) : ∃ b rest, String.utf8EncodeChar c = b :: rest ∧
    b.IsUTF8FirstByte ∧ ∀ y ∈ rest, ¬ y.IsUTF8FirstByte := by
  have hfirst := fun (i : ℕ) hi => @UInt8.isUTF8FirstByte_getElem_utf8EncodeChar c i hi
  cases hcode : String.utf8EncodeChar c with
  | nil => exact absurd hcode String.utf8EncodeChar_ne_nil
  | cons b rest =>
    simp only [hcode] at hfirst
    refine ⟨b, rest, rfl, (hfirst 0 (Nat.zero_lt_succ _)).2 rfl, fun y hy hbegin => ?_⟩
    obtain ⟨i, hi, rfl⟩ := mem_iff_getElem.1 hy
    exact Nat.succ_ne_zero i ((hfirst (i + 1) (Nat.succ_lt_succ hi)).1 hbegin)

theorem isPrefix_of_utf8 {p s : List Char} (h : utf8 p <+: utf8 s) : p <+: s := by
  induction p generalizing s with
  | nil => exact List.nil_prefix
  | cons c p ih =>
    cases s with
    | nil => exact absurd (prefix_nil.1 h) (utf8_ne_nil (cons_ne_nil c p))
    | cons d s =>
      have hchar : c = d := by
        obtain ⟨t, ht⟩ := h
        have hbytes := congrArg (fun b => b.toByteArray.utf8DecodeChar? 0) ht
        simp only [utf8, flatMap_cons, append_assoc, toByteArray_append,
          ByteArray.utf8DecodeChar?_utf8EncodeChar_append] at hbytes
        exact Option.some.inj hbytes
      subst hchar
      rw [cons_prefix_cons]
      exact ⟨rfl, ih ((prefix_append_right_inj _).1 h)⟩

/-- A text is searched for a secret in the same way over its characters and over its bytes. -/
theorem replaceAll_utf8 {p : List Char} (hp : p ≠ []) (v s : List Char) :
    replaceAll (utf8 p) (utf8 v) (utf8 s) = utf8 (replaceAll p v s) := by
  induction s using Replace.rec hp with
  | nil => rfl
  | occurrence t ih =>
    rw [utf8_append, replaceAll_append (utf8_ne_nil hp), ih, replaceAll_append hp, utf8_append]
  | other x s hpre ih =>
    obtain ⟨b, rest, hcode, -, hrest⟩ := utf8EncodeChar_eq x
    have hbytes (t : List Char) : utf8 (x :: t) = b :: (rest ++ utf8 t) := by
      rw [← cons_append, ← hcode]
      rfl
    have hnot : ¬ utf8 p <+: b :: (rest ++ utf8 s) := by
      rw [← hbytes]
      exact fun h => hpre (isPrefix_of_utf8 h)
    rw [replaceAll_cons hpre, hbytes, hbytes, replaceAll_cons hnot, ← ih]
    obtain ⟨c, p, rfl⟩ := exists_cons_of_ne_nil hp
    obtain ⟨b', rest', hcode', hbegin, -⟩ := utf8EncodeChar_eq c
    have hutf8 : utf8 (c :: p) = b' :: (rest' ++ utf8 p) := by
      rw [← cons_append, ← hcode']
      rfl
    rw [hutf8, replaceAll_append_of_notMem fun hmem => hrest b' hmem hbegin]

theorem replaceSecrets_utf8 {secrets : List (List Char)} (hne : ∀ secret ∈ secrets, secret ≠ [])
    (v s : List Char) :
    replaceSecrets (secrets.map utf8) (utf8 v) (utf8 s) = utf8 (replaceSecrets secrets v s) := by
  induction secrets generalizing s with
  | nil => rfl
  | cons secret secrets ih =>
    obtain ⟨hsecret, hne⟩ := forall_mem_cons.1 hne
    rw [map_cons, replaceSecrets_cons (utf8_ne_nil hsecret), replaceAll_utf8 hsecret, ih hne,
      replaceSecrets_cons hsecret]

theorem mem_secrets_new {secrets : List (List Char)} {secret : List Char} :
    secret ∈ (new secrets).secrets ↔ secret ∈ secrets ∧ secret ≠ [] := by
  refine (mem_insertionSort _).trans ((mem_foldl_addSecret secrets).trans ?_)
  exact or_iff_right not_mem_nil

/-- **No secret is seen in a masked text**, as characters or as bytes, whether the secrets overlap,
repeat or contain one another.  Masking again changes nothing. -/
theorem secrets_masked (secrets : List (List Char)) (hstar : ∀ secret ∈ secrets, '*' ∉ secret)
    (s : List Char) (b : Bytes) :
    (∀ secret ∈ secrets, secret ≠ [] →
      ¬ secret <:+: (new secrets).string s ∧ ¬ utf8 secret <:+: (new secrets).bytes b) ∧
    (new secrets).string ((new secrets).string s) = (new secrets).string s ∧
    (new secrets).bytes ((new secrets).bytes b) = (new secrets).bytes b ∧
    (new secrets).bytes (utf8 s) = utf8 ((new secrets).string s) := by
  have hmem : ∀ secret ∈ (new secrets).secrets, '*' ∉ secret := fun secret h =>
    hstar secret (mem_secrets_new.1 h).1
  have hstring := @not_infix_replaceSecrets _ _ _ _ s (new secrets).ne_nil (by decide)
    fun secret h => disjoint_placeholder (hmem secret h)
  have hbytes := @not_infix_replaceSecrets _ _ _ _ b (new secrets).utf8_secrets_ne_nil (by decide)
    (List.forall_mem_map.2 fun secret h => disjoint_utf8_placeholder (hmem secret h))
  simp only [string_eq, bytes_eq]
  refine ⟨fun secret hsecret hne => ?_, replaceSecrets_of_absent hstring,
    replaceSecrets_of_absent hbytes, replaceSecrets_utf8 (new secrets).ne_nil _ s⟩
  have hnew := mem_secrets_new.2 ⟨hsecret, hne⟩
  exact ⟨hstring secret hnew, hbytes _ (List.mem_map_of_mem hnew)⟩

/-- `"abc"` with the secrets `"b"`, `"bc"` and `"ab"`. -/
theorem secrets_masked_overlapping :
    ¬ ['b', 'c'] <:+: (new [['b'], ['b', 'c'], ['a', 'b']]).string ['a', 'b', 'c'] :=
  ((secrets_masked [['b'], ['b', 'c'], ['a', 'b']] (by decide) ['a', 'b', 'c'] []).1
    ['b', 'c'] (by decide) (by decide)).1

end Masker

namespace MaskFilter

open Masker

section Stream

variable {β α : Type} [DecidableEq α] {codec : Codec β} {field : MaskedField β α}
  {password : List Char} {p : β}

/-- The password is replaced in the text of the frame once more. -/
theorem send_encode (hpass : password ≠ []) (h : Flat codec)
    (hcase : ∀ raw, encodedPayload (.new [password]) { f with payload := raw } =
      maskPayload codec field mask raw) (p : β) :
    send (newOutboundMaskFilter (.new [password])) (utf8 (encode codec f p)) = utf8
      (replaceAll password maskPlaceholder (maskedText (.new [password]) codec field mask f p)) := by
  have hfilt : newOutboundMaskFilter (.new [password]) =
      some fun frame => (new [password]).bytes (maskFrame (.new [password]) frame) := by
    simp [newOutboundMaskFilter, empty, secrets_new hpass]
  rw [hfilt]
  show (new [password]).bytes _ = _
  rw [maskFrame_encode h hcase, bytes_new hpass, replaceAll_utf8 hpass]

theorem viewed_eq (hpass : password ≠ []) (h : Flat codec) {type : List Char}
    (hcase : ∀ (f : OutboundFrame) raw, f.type = type →
      encodedPayload (.new [password]) { f with payload := raw } = maskPayload codec field mask raw)
    {outputs : List (OutboundFrame × β)} (htype : ∀ o ∈ outputs, o.1.type = type)
    (hclear : Clear (.new [password]) codec field mask password outputs) :
    viewed (.new [password]) codec field type outputs =
      ((outputs.map fun o => field.get o.2).map mask).flatten := by
  have hone : ∀ o ∈ outputs, decode codec field type
      (send (newOutboundMaskFilter (.new [password])) (utf8 (encode codec o.1 o.2))) =
      some (mask (field.get o.2)) := by
    intro o ho
    have htype' : (maskedFrame (.new [password]) o.1).type = type := htype o ho
    rw [send_encode hpass h fun raw => hcase o.1 raw (htype o ho),
      replaceAll_of_absent hpass (hclear o ho), maskedText, ← htype', decode_encode h, field.get_set]
  unfold viewed
  rw [filterMap_congr hone, map_map]
  rw [filterMap_eq_map']
  rfl

/-- In every stream of frames of the type, the secret is not seen if no occurrence of it is cut, and
a cut occurrence is seen if occurrences cannot overlap. -/
def SeenIfCut (password : List Char) (codec : Codec β) (field : MaskedField β α)
    (mask : List α → List α) (type : List Char) (secret : List α) : Prop :=
  ∀ outputs : List (OutboundFrame × β), (∀ o ∈ outputs, o.1.type = type) →
    Clear (.new [password]) codec field mask password outputs →
    (¬ Cut secret (outputs.map fun o => field.get o.2) →
      ¬ secret <:+: viewed (.new [password]) codec field type outputs) ∧
    (Borderless secret → Cut secret (outputs.map fun o => field.get o.2) →
      secret <:+: viewed (.new [password]) codec field type outputs)

theorem seenIfCut (hpass : password ≠ []) (h : Flat codec) {type : List Char}
    (hcase : ∀ (f : OutboundFrame) raw, f.type = type →
      encodedPayload (.new [password]) { f with payload := raw } = maskPayload codec field mask raw)
    {secret placeholder : List α} (hmask : mask = replaceAll secret placeholder)
    (hsecret : secret ≠ []) (hplac : placeholder ≠ []) (hstar : placeholder.Disjoint secret) :
    SeenIfCut password codec field mask type secret := by
  intro outputs htype hclear
  rw [viewed_eq hpass h hcase htype hclear, hmask]
  refine ⟨fun hcut hseen => hcut ?_, fun hbord hcut => hbord.infix_of_cut hcut⟩
  exact cut_of_infix hsecret hplac hstar hseen

/-- The client decodes the frame, and finds in it the payload with its field masked. -/
def Intact (m : Masker) (codec : Codec β) (field : MaskedField β α) (mask : List α → List α)
    (f : OutboundFrame) (p : β) : Prop :=
  ∃ g, decodeFrame (send (newOutboundMaskFilter m) (utf8 (encode codec f p))) = some g ∧
    g.type = f.type ∧ g.id = f.id ∧ g.timestamp = f.timestamp ∧
    codec.unmarshal g.payload = some (field.set p (mask (field.get p)))

/-- The password is not in the text of the masked frame, or it is the placeholder itself. -/
def Harmless (password : List Char) (codec : Codec β) (field : MaskedField β α)
    (mask : List α → List α) (f : OutboundFrame) (p : β) : Prop :=
  ¬ password <:+: maskedText (.new [password]) codec field mask f p ∨ password = maskPlaceholder

/-- The filter sends the masked frame as it is exactly if the password is harmless to it, and then
the client can use it. -/
def MasksOnly (password : List Char) (codec : Codec β) (field : MaskedField β α)
    (mask : List α → List α) (f : OutboundFrame) (p : β) : Prop :=
  (send (newOutboundMaskFilter (.new [password])) (utf8 (encode codec f p)) =
    utf8 (maskedText (.new [password]) codec field mask f p) ↔
      Harmless password codec field mask f p) ∧
  (Harmless password codec field mask f p → Intact (.new [password]) codec field mask f p)

theorem masksOnly (hpass : password ≠ []) (h : Flat codec)
    (hcase : ∀ raw, encodedPayload (.new [password]) { f with payload := raw } =
      maskPayload codec field mask raw) (p : β) : MasksOnly password codec field mask f p := by
  have hsend : send (newOutboundMaskFilter (.new [password])) (utf8 (encode codec f p)) =
      utf8 (maskedText (.new [password]) codec field mask f p) ↔
      Harmless password codec field mask f p := by
    rw [send_encode hpass h hcase, utf8_injective.eq_iff, replaceAll_eq_self_iff hpass]
    rfl
  refine ⟨hsend, fun hharm => ?_⟩
  rw [Intact, hsend.2 hharm, maskedText, decodeFrame_encode h]
  exact ⟨_, rfl, rfl, rfl, rfl, unmarshal_payload h _⟩

end Stream

variable {password : List Char} (f : OutboundFrame) (raw : List Char)

theorem encodedPayload_console (h : f.type = typeConsoleOutput)
    (m : Masker) : encodedPayload m { f with payload := raw } =
      maskPayload consoleOutputCodec consoleChunk m.string raw := by
  unfold encodedPayload
  rw [h, if_neg (by decide), if_pos rfl]
  rfl

theorem encodedPayload_attach (h : f.type = typeAttachOutput)
    (m : Masker) : encodedPayload m { f with payload := raw } =
      maskPayload attachOutputCodec attachData m.bytes raw := by
  unfold encodedPayload
  rw [h, if_pos rfl]
  rfl

theorem encodedPayload_error (h : f.type = typeError)
    (m : Masker) : encodedPayload m { f with payload := raw } =
      maskPayload errorCodec errorMessage m.string raw := by
  unfold encodedPayload
  rw [h, if_neg (by decide), if_neg (by decide), if_pos rfl]
  rfl

/-- **What the client sees of the password**, in the strings of `console.output` and in the bytes of
`attach.output`. -/
theorem stream_masked (password : List Char) (hpassword : password ≠ []) (hstar : '*' ∉ password) :
    SeenIfCut password consoleOutputCodec consoleChunk (Masker.new [password]).string
      typeConsoleOutput password ∧
    SeenIfCut password attachOutputCodec attachData (Masker.new [password]).bytes
      typeAttachOutput (utf8 password) :=
  ⟨seenIfCut hpassword flat_consoleOutput (fun f raw h => encodedPayload_console f raw h _)
      (funext (string_new hpassword)) hpassword (by decide) (disjoint_placeholder hstar),
    seenIfCut hpassword flat_attachOutput (fun f raw h => encodedPayload_attach f raw h _)
      (funext (bytes_new hpassword)) (utf8_ne_nil hpassword) (by decide)
      (disjoint_utf8_placeholder hstar)⟩

/-- A frame with a chunk. -/
def chunkFrame (chunk : List Char) : OutboundFrame × ConsoleOutputPayload :=
  ({ type := typeConsoleOutput, timestamp := 1700000000 }, { serverID := 1, chunk })

theorem stream_masked_whole :
    ¬ ['a', 'b'] <:+: viewed (.new [['a', 'b']]) consoleOutputCodec consoleChunk typeConsoleOutput
      [chunkFrame ['x', 'a', 'b'], chunkFrame ['c']] := by
  have hcut : ¬ Cut ['a', 'b'] [['x', 'a', 'b'], ['c']] := by
    rintro ⟨i, n, hpos, hlt, htake, -⟩
    obtain rfl : i = 1 := Nat.le_antisymm (Nat.le_of_lt_succ hlt) hpos
    rcases n with - | - | n
    · exact absurd htake (by decide)
    · exact absurd htake (by decide)
    · exact absurd htake (by simp)
  have hclear : Clear (.new [['a', 'b']]) consoleOutputCodec consoleChunk
      (Masker.new [['a', 'b']]).string ['a', 'b'] [chunkFrame ['x', 'a', 'b'], chunkFrame ['c']] := by
    unfold Clear
    decide +kernel
  exact ((stream_masked ['a', 'b'] (by decide) (by decide)).1 _ (by decide) hclear).1 hcut

/-- **A frame stays a frame**, with the secrets replaced in its field, if the password is not in the
text of that frame. -/
theorem frame_masked (password : List Char) (hpassword : password ≠ []) (f : OutboundFrame) :
    let m := Masker.new [password]
    (f.type = typeAttachOutput → ∀ p, MasksOnly password attachOutputCodec attachData m.bytes f p) ∧
    (f.type = typeConsoleOutput →
      ∀ p, MasksOnly password consoleOutputCodec consoleChunk m.string f p) ∧
    (f.type = typeError → ∀ p, MasksOnly password errorCodec errorMessage m.string f p) :=
  ⟨fun htype => masksOnly hpassword flat_attachOutput fun raw => encodedPayload_attach f raw htype _,
    fun htype => masksOnly hpassword flat_consoleOutput
      fun raw => encodedPayload_console f raw htype _,
    fun htype => masksOnly hpassword flat_error fun raw => encodedPayload_error f raw htype _⟩

theorem frame_masked_chunk :
    Intact (.new [['a', 'b']]) consoleOutputCodec consoleChunk (Masker.new [['a', 'b']]).string
      (chunkFrame ['x', 'a', 'b']).1 (chunkFrame ['x', 'a', 'b']).2 ∧
    Intact (.new [maskPlaceholder]) errorCodec errorMessage (Masker.new [maskPlaceholder]).string
      { type := typeError } ⟨maskPlaceholder⟩ :=
  ⟨((frame_masked ['a', 'b'] (by decide) _).2.1 rfl _).2 (.inl (by decide +kernel)),
    ((frame_masked maskPlaceholder (by decide) _).2.2 rfl _).2 (.inr rfl)⟩

/-- A frame of an error. -/
def errorFrame : OutboundFrame where
  type := typeError
  timestamp := 1

/-- The password `1` is in the number of the time. -/
theorem frame_damaged :
    encode errorCodec errorFrame ⟨['x']⟩ =
      "\x7b\"type\":\"error\",\"payload\":\x7b\"message\":\"x\"\x7d,\"ts\":1\x7d".toList ∧
    send (newOutboundMaskFilter (.new [['1']])) (utf8 (encode errorCodec errorFrame ⟨['x']⟩)) =
      utf8 "\x7b\"type\":\"error\",\"payload\":\x7b\"message\":\"x\"\x7d,\"ts\":******\x7d".toList ∧
    decodeFrame (send (newOutboundMaskFilter (.new [['1']]))
      (utf8 (encode errorCodec errorFrame ⟨['x']⟩))) = none := by
  have hsend : send (newOutboundMaskFilter (.new [['1']]))
      (utf8 (encode errorCodec errorFrame ⟨['x']⟩)) = utf8
      "\x7b\"type\":\"error\",\"payload\":\x7b\"message\":\"x\"\x7d,\"ts\":******\x7d".toList := by
    rw [send_encode (by decide) flat_error fun raw => encodedPayload_error errorFrame raw rfl _]
    decide
  rw [hsend, decodeFrame, text?_utf8]
  decide

/-- The password comes in two chunks. -/
theorem cut_password_seen :
    viewed (.new [['a', 'b']]) consoleOutputCodec consoleChunk typeConsoleOutput
      [chunkFrame ['a'], chunkFrame ['b']] = ['a', 'b'] := by
  rw [viewed_eq (by decide) flat_consoleOutput (fun f raw h => encodedPayload_console f raw h _)
    (by decide) (by unfold Clear; decide +kernel)]
  decide

end MaskFilter

end GameAP
