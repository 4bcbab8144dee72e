import Mathlib.Data.List.Basic

/-!
# Addresses that a plugin may not dial

`BlockReason` judges an address by the host at which a dial to it ends: `effectiveAddr` first takes
the IPv4 address out of the IPv6 forms that carry one.
-/

namespace GameAP.Netutil

/-- `netip.Addr`. -/
inductive Addr
  | invalid
  | v4 (a b c d : UInt8)
  | v6 (bytes : Vector UInt8 16) (zone : String)
  deriving DecidableEq

/-- Why a dial is refused. -/
inductive BlockReason
  | loopback | unspecified | linkLocal | privateRange | multicast | cloudMetadata | cgnat
  | reservedV4

/-- `64:ff9b::/96`. -/
@[simp] def nat64WellKnownPrefix : List UInt8 := [0, 0x64, 0xff, 0x9b, 0, 0, 0, 0, 0, 0, 0, 0]

/-- `2002::/16`. -/
@[simp] def sixToFourPrefix : List UInt8 := [0x20, 2]

/-- `2001::/32`. -/
@[simp] def teredoPrefix : List UInt8 := [0x20, 1, 0, 0]

/-- `::ffff:0:0:0/96`. -/
@[simp] def ipv4TranslatedPrefix : List UInt8 := [0, 0, 0, 0, 0, 0, 0, 0, 0xff, 0xff, 0, 0]

/-- `::/96`. -/
@[simp] def ipv4CompatiblePrefix : List UInt8 := [0, 0, 0, 0, 0, 0, 0, 0, 0, 0, 0, 0]

/-- `64:ff9b:1::/48`. -/
@[simp] def nat64LocalUsePrefix : List UInt8 := [0, 0x64, 0xff, 0x9b, 0, 1]

/-- `64:ff9b:1::/96`. -/
@[simp] def nat64LocalUse96Prefix : List UInt8 := [0, 0x64, 0xff, 0x9b, 0, 1, 0, 0, 0, 0, 0, 0]

def cloudMetadataAddrs : List Addr := [
  .v4 169 254 169 254,
  .v6 #v[0xfd, 0, 0x0e, 0xc2, 0, 0, 0, 0, 0, 0, 0, 0, 0, 0, 2, 0x54] "",
  .v4 169 254 170 2,
  .v4 169 254 170 23,
  .v6 #v[0xfd, 0, 0x0e, 0xc2, 0, 0, 0, 0, 0, 0, 0, 0, 0, 0, 0, 0x23] "",
  .v6 #v[0xfd, 0x20, 0, 0xce, 0, 0, 0, 0, 0, 0, 0, 0, 0, 0, 2, 0x54] "",
  .v6 #v[0xfd, 0, 0, 0xc1, 0, 0, 0, 0, 0, 0, 0, 0, 0xa9, 0xfe, 0xa9, 0xfe] "",
  .v6 #v[0xfe, 0x80, 0, 0, 0, 0, 0, 0, 0, 0, 0, 0, 0xa9, 0xfe, 0xa9, 0xfe] "",
  .v4 168 63 129 16,
  .v4 100 100 100 200,
  .v4 169 254 0 23,
  .v4 169 254 42 42,
  .v6 #v[0xfd, 0, 0, 0x42, 0, 0, 0, 0, 0, 0, 0, 0, 0, 0, 0, 0x42] ""]

/-- `Prefix.Contains` of an IPv6 prefix of whole bytes. -/
def contains (pre : List UInt8) : Addr → Bool
  | .v6 x zone => zone == "" && pre.isPrefixOf x.toList
  | _ => false

def isLoopback : Addr → Bool
  | .v4 a _ _ _ => a == 127
  | .v6 x _ => x == #v[0, 0, 0, 0, 0, 0, 0, 0, 0, 0, 0, 0, 0, 0, 0, 1]
  | .invalid => false

def isUnspecified (ip : Addr) : Bool :=
  ip == .v4 0 0 0 0 || ip == .v6 #v[0, 0, 0, 0, 0, 0, 0, 0, 0, 0, 0, 0, 0, 0, 0, 0] ""

def isLinkLocalUnicast : Addr → Bool
  | .v4 a b _ _ => a == 169 && b == 254
  | .v6 x _ => x[0] == 0xfe && x[1] &&& 0xc0 == 0x80
  | .invalid => false

def isLinkLocalMulticast : Addr → Bool
  | .v4 a b c _ => a == 224 && b == 0 && c == 0
  | .v6 x _ => x[0] == 0xff && x[1] &&& 0x0f == 2
  | .invalid => false

def isMulticast : Addr → Bool
  | .v4 a _ _ _ => a &&& 0xf0 == 0xe0
  | .v6 x _ => x[0] == 0xff
  | .invalid => false

def isPrivate : Addr → Bool
  | .v4 a b _ _ => a == 10 || a == 172 && b &&& 0xf0 == 16 || a == 192 && b == 168
  | .v6 x _ => x[0] &&& 0xfe == 0xfc
  | .invalid => false

/-- `100.64.0.0/10`. -/
def isCGNAT : Addr → Bool
  | .v4 a b _ _ => a == 100 && 64 ≤ b && b ≤ 127
  | _ => false

def isReservedV4 : Addr → Bool
  | .v4 a _ _ _ => a == 0 || 240 ≤ a
  | _ => false

/-- `WithZone("")` and `Unmap`, then the prefixes in the order of the switch. -/
def effectiveAddr : Addr → Addr
  | .v6 x _ =>
    let ip := Addr.v6 x ""
    if contains [0, 0, 0, 0, 0, 0, 0, 0, 0, 0, 0xff, 0xff] ip then .v4 x[12] x[13] x[14] x[15]
    else if contains nat64WellKnownPrefix ip || contains nat64LocalUse96Prefix ip ||
      contains ipv4TranslatedPrefix ip then .v4 x[12] x[13] x[14] x[15]
    else if contains sixToFourPrefix ip then .v4 x[2] x[3] x[4] x[5]
    else if contains teredoPrefix ip then .v4 (~~~x[12]) (~~~x[13]) (~~~x[14]) (~~~x[15])
    else if contains ipv4CompatiblePrefix ip && !isLoopback ip && !isUnspecified ip then
      .v4 x[12] x[13] x[14] x[15]
    else ip
  | ip => ip

def isCloudMetadata (ip : Addr) : Bool :=
  cloudMetadataAddrs.contains ip || match ip with
  | .v6 x _ => contains nat64LocalUsePrefix ip && [Addr.v4 x[6] x[7] x[9] x[10],
      .v4 x[7] x[9] x[10] x[11], .v4 x[9] x[10] x[11] x[12], .v4 x[12] x[13] x[14] x[15]].any
        cloudMetadataAddrs.contains
  | _ => false

/-- `IsCloudMetadata`. -/
def isCloudMetadataIP (ip : Addr) : Bool :=
  ip != .invalid && isCloudMetadata (effectiveAddr ip)

def blockReason (ip : Addr) : Option BlockReason :=
  if ip == .invalid then some .reservedV4 else
  let ip := effectiveAddr ip
  if isCloudMetadata ip then some .cloudMetadata
  else if isLoopback ip then some .loopback
  else if isUnspecified ip then some .unspecified
  else if isLinkLocalUnicast ip || isLinkLocalMulticast ip then some .linkLocal
  else if isMulticast ip then some .multicast
  else if isPrivate ip || contains nat64LocalUsePrefix ip then some .privateRange
  else if isCGNAT ip then some .cgnat
  else if isReservedV4 ip then some .reservedV4
  else none

def dialBlockReason (ip : Addr) (blockPrivate allowlisted : Bool) : Option BlockReason :=
  if ip == .invalid then some .reservedV4
  else if isCloudMetadataIP ip then some .cloudMetadata
  else if !blockPrivate || allowlisted then none
  else blockReason ip

/-- The second address is a form of the first: with another zone, or an IPv6 spelling of an IPv4
address. -/
inductive Spells : Addr → Addr → Prop
  | refl ip : Spells ip ip
  | zone x z z' : Spells (.v6 x z) (.v6 x z')
  | mapped a b c d z :
    Spells (.v4 a b c d) (.v6 #v[0, 0, 0, 0, 0, 0, 0, 0, 0, 0, 0xff, 0xff, a, b, c, d] z)
  | nat64 a b c d z :
    Spells (.v4 a b c d) (.v6 #v[0, 0x64, 0xff, 0x9b, 0, 0, 0, 0, 0, 0, 0, 0, a, b, c, d] z)
  | localUse a b c d z :
    Spells (.v4 a b c d) (.v6 #v[0, 0x64, 0xff, 0x9b, 0, 1, 0, 0, 0, 0, 0, 0, a, b, c, d] z)
  | sixToFour a b c d e f g h i j k l m n z :
    Spells (.v4 a b c d) (.v6 #v[0x20, 2, a, b, c, d, e, f, g, h, i, j, k, l, m, n] z)
  | teredo a b c d e f g h i j k l z :
    Spells (.v4 a b c d) (.v6 #v[0x20, 1, 0, 0, e, f, g, h, i, j, k, l, ~~~a, ~~~b, ~~~c, ~~~d] z)
  | translated a b c d z :
    Spells (.v4 a b c d) (.v6 #v[0, 0, 0, 0, 0, 0, 0, 0, 0xff, 0xff, 0, 0, a, b, c, d] z)
  | compatible a b c d z (h : ¬ (a = 0 ∧ b = 0 ∧ c = 0 ∧ (d = 0 ∨ d = 1))) :
    Spells (.v4 a b c d) (.v6 #v[0, 0, 0, 0, 0, 0, 0, 0, 0, 0, 0, 0, a, b, c, d] z)

variable {ip form : Addr} {blockPrivate allowlisted : Bool}

theorem effectiveAddr_spells (h : Spells ip form) : effectiveAddr form = effectiveAddr ip := by
  cases h with
  | refl | zone => rfl
  | compatible a b c d z h =>
    simp [effectiveAddr, contains, isLoopback, isUnspecified]
    grind
  | _ => simp [effectiveAddr, contains]

theorem Spells.invalid (h : Spells ip form) : (form == .invalid) = (ip == .invalid) := by
  cases h <;> rfl

theorem blockReason_spells (h : Spells ip form) : blockReason form = blockReason ip := by
  rw [blockReason, blockReason, h.invalid, effectiveAddr_spells h]

/-- An address of the local-use prefix that carries metadata in some layout; octet 8 is in none. -/
theorem isCloudMetadata_localUse {b c d e f g h i j k : UInt8} {zone : String}
    (hip : ip ∈ cloudMetadataAddrs) (hlayout : ip ∈ [.v4 0 1 b c, .v4 1 b c e, .v4 b c e f,
      .v4 c e f g, .v4 e f g h, .v4 h i j k]) : isCloudMetadata (effectiveAddr
        (.v6 #v[0, 0x64, 0xff, 0x9b, 0, 1, b, c, d, e, f, g, h, i, j, k] zone)) := by
  have hfirst : ∀ b c d, .v4 0 b c d ∉ cloudMetadataAddrs ∧ .v4 1 b c d ∉ cloudMetadataAddrs := by
    simp [cloudMetadataAddrs]
  by_cases hzero : b = 0 ∧ c = 0 ∧ d = 0 ∧ e = 0 ∧ f = 0 ∧ g = 0
  · obtain ⟨rfl, rfl, rfl, rfl, rfl, rfl⟩ := hzero
    rw [effectiveAddr_spells (.localUse h i j k zone)]
    simp only [effectiveAddr, isCloudMetadata]
    grind
  · have hsame : effectiveAddr (.v6 #v[0, 0x64, 0xff, 0x9b, 0, 1, b, c, d, e, f, g, h, i, j, k]
        zone) = .v6 #v[0, 0x64, 0xff, 0x9b, 0, 1, b, c, d, e, f, g, h, i, j, k] "" := by
      simp [effectiveAddr, contains]
      grind
    simp [hsame, isCloudMetadata, contains]
    grind

/-- A form of an address is judged as the address, metadata is refused under every policy in every
form, and to relax the policy refuses nothing. -/
theorem dials_judged :
    (∀ ip form, Spells ip form → blockReason form = blockReason ip) ∧
    (∀ ip ∈ cloudMetadataAddrs, ∀ form, Spells ip form → ∀ blockPrivate allowlisted,
      dialBlockReason form blockPrivate allowlisted ≠ none) ∧
    (∀ ip ∈ cloudMetadataAddrs, ∀ b c d e f g h i j k zone, ip ∈ [.v4 0 1 b c, .v4 1 b c e,
      .v4 b c e f, .v4 c e f g, .v4 e f g h, .v4 h i j k] → ∀ blockPrivate allowlisted,
      dialBlockReason (.v6 #v[0, 0x64, 0xff, 0x9b, 0, 1, b, c, d, e, f, g, h, i, j, k] zone)
        blockPrivate allowlisted ≠ none) ∧
    ∀ ip (blockPrivate allowlisted blockPrivate' allowlisted' : Bool),
      (blockPrivate' → blockPrivate) → (allowlisted → allowlisted') →
      dialBlockReason ip blockPrivate allowlisted = none →
      dialBlockReason ip blockPrivate' allowlisted' = none := by
  have hall : ∀ ip ∈ cloudMetadataAddrs, ∀ blockPrivate allowlisted,
      dialBlockReason ip blockPrivate allowlisted ≠ none := by decide
  refine ⟨fun _ _ => blockReason_spells, fun ip hip form h _ _ => ?_,
    fun ip hip b c d e f g h i j k zone hlayout _ _ => ?_, fun ip bp al bp' al' hbp hal h => ?_⟩
  · rw [dialBlockReason, isCloudMetadataIP, bne, h.invalid, effectiveAddr_spells h,
      blockReason_spells h]
    exact hall ip hip _ _
  · simp [dialBlockReason, isCloudMetadataIP, isCloudMetadata_localUse hip hlayout]
  · grind [dialBlockReason]

end GameAP.Netutil
