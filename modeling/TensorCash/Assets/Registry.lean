import TensorCash.Assets.Tlv

/-! `assets/registry.h` with the pure rules over its entries, from `assets/kyc_delegation.cpp` and
`assets/asset.cpp`. -/

namespace TensorCash

def MAX_ROOT_HISTORY : Nat := 32
def MAX_ROTATION_HISTORY : Nat := 100

def MINT_ALLOWED : UInt32 := 0x0001
def BURN_ALLOWED : UInt32 := 0x0002
def BURN_REQUIRE_ICU : UInt32 := 0x0004
def BURN_JOINT_REQUIRED : UInt32 := 0x0008
def KYC_REQUIRED : UInt32 := 0x0010
def TFR_ANCHOR_REQUIRED : UInt32 := 0x0020
def COLLATERAL_SAFE : UInt32 := 0x0040

def POLICY_BITS_IMMUTABLE_MASK : UInt32 :=
  MINT_ALLOWED ||| BURN_ALLOWED ||| BURN_REQUIRE_ICU ||| BURN_JOINT_REQUIRED ||| KYC_REQUIRED ||| TFR_ANCHOR_REQUIRED

def WRAP_REQUIRED : UInt32 := 0x0001
def ICU_COMPRESSED : UInt32 := 0x0002

def SPK_P2PKH : UInt16 := 1
def SPK_P2SH : UInt16 := 2
def SPK_P2WPKH : UInt16 := 4
def SPK_P2WSH : UInt16 := 8
def SPK_P2TR : UInt16 := 16
def SPK_P2TR_V2 : UInt16 := 32
def SPK_HOLDER_ONLY : UInt16 := SPK_P2PKH ||| SPK_P2WPKH
def SPK_DEFAULT_ALLOWED : UInt16 := SPK_P2WPKH ||| SPK_P2WSH ||| SPK_P2TR

def hasBits (value mask : UInt32) : Bool := value &&& mask ≠ 0

def kycPqFamilyConflict (reg : IssuerReg) (resolved_families : UInt16) : Bool :=
  reg.kyc_flags ≠ 0 && resolved_families &&& SPK_P2TR_V2 ≠ 0

structure ComplianceRootHistory where
  root_commit : Uint256
  activation_height : Nat
  txid : Uint256
deriving DecidableEq

structure IssuerRegSnapshot where
  icu_ctxt_commit : Uint256
  icu_plain_commit : Uint256
  policy_quorum_bps : UInt16
  issuance_cap_units : UInt64
  policy_epoch : UInt8
  block_height : Nat
  rotation_txid : Uint256
  timestamp : UInt32
deriving DecidableEq

structure ScalarRecord where
  scalar : Uint256
  publication_height : Nat
  scalar_format_id : UInt16
deriving DecidableEq

structure AssetRegistryEntry where
  policy_bits : UInt32 := 0
  allowed_spk_families : UInt16 := 0
  icu_outpoint : COutPoint := ⟨0, COutPoint.NULL_INDEX⟩
  unlock_fees_sats : UInt64 := 0xFFFFFFFFFFFFFFFF
  fees_accum_sats : UInt64 := 0
  rotation_min_sats : UInt64 := 0
  ticker : Bytes := []
  decimals : UInt8 := 255
  has_kyc : Bool := false
  zk_vk_commitment : Uint256 := 0
  max_root_age : UInt32 := 0
  tfr_flags : UInt32 := 0
  compliance_root_commit : Uint256 := 0
  compliance_root_history : List ComplianceRootHistory := []
  rotation_history : List IssuerRegSnapshot := []
  issued_total : UInt64 := 0
  burned_total : UInt64 := 0
  icu_flags : UInt32 := 0
  icu_visibility : UInt8 := 0
  icu_version : UInt8 := 0
  policy_quorum_bps : UInt16 := 0
  issuance_cap_units : UInt64 := 0
  unlock_fees_base : UInt64 := 0
  icu_ctxt_commit : Uint256 := 0
  icu_plain_commit : Uint256 := 0
  kdf_salt : Bytes := List.replicate 16 0
  core_policy_commit : Uint256 := 0
  policy_epoch : UInt8 := 0
  compliance_delegate_asset_id : Uint256 := 0
  active_root_activation_height : Nat := 0
  compliance_root_history_vk : List Uint256 := []
deriving DecidableEq

def AssetRegistryEntry.isUnlocked (e : AssetRegistryEntry) : Bool := e.unlock_fees_sats ≤ e.fees_accum_sats

def Crypto.taggedHash (c : Crypto) (tag data : Bytes) : Uint256 :=
  c.sha256 ((c.sha256 tag).bytes ++ (c.sha256 tag).bytes ++ data)

def CORE_POLICY_TAG : Bytes := [65, 83, 83, 69, 84, 47, 86, 50, 95, 67, 79, 82, 69]

def computeCorePolicyCommit (c : Crypto) (allowed_spk_families : UInt16)
    (policy_bits kyc_flags tfr_flags : UInt32) : Uint256 :=
  c.taggedHash CORE_POLICY_TAG
    (Codec.leBytes 2 allowed_spk_families.toNat ++
      serUInt32 (policy_bits &&& POLICY_BITS_IMMUTABLE_MASK) ++ serUInt32 kyc_flags ++ serUInt32 tfr_flags ++ [0, 0])

def isCollateralSafeRotationRejected (prev_policy_bits new_policy_bits prev_icu_flags
    new_icu_flags : UInt32) (height scalar_cfd_height : Nat) : Bool :=
  if height < scalar_cfd_height then false
  else
    let was_safe := hasBits prev_policy_bits COLLATERAL_SAFE
    let now_safe := hasBits new_policy_bits COLLATERAL_SAFE
    was_safe ≠ now_safe || (was_safe && new_icu_flags ≠ prev_icu_flags)

def isCanonicalVk (vk_hash : Uint256) : Bool :=
  vk_hash = 0xd818e84e52a863309dd9e2ba5240924fcafd585b7e21d12b0c2e5631a013e245

def validateDelegateRegistration (asset_id : Uint256) (reg : IssuerReg)
    (prev : Option AssetRegistryEntry) (source : Option AssetRegistryEntry) : Option String :=
  if prev.any fun p => p.compliance_root_history.length < p.compliance_root_history_vk.length then
    some "asset-registry-malformed"
  else if reg.format_version < ISSUER_REG_FORMAT_V2 then none
  else if reg.kyc_flags = 0 then some "kyc-delegate-requires-kyc"
  else if reg.compliance_delegate_asset_id = asset_id then
    if !isCanonicalVk reg.zk_vk_commitment then some "kyc-optout-own-vk-noncanonical"
    else if reg.compliance_root_commit = 0 then some "kyc-optout-no-root"
    else none
  else match source with
    | none => some "kyc-delegate-source-missing"
    | some source =>
      if !source.has_kyc then some "kyc-delegate-source-no-kyc"
      else if source.compliance_delegate_asset_id ≠ 0 then some "kyc-delegate-multi-hop"
      else if source.compliance_root_commit = 0 then some "kyc-delegate-source-no-root"
      else if !isCanonicalVk source.zk_vk_commitment then some "kyc-delegate-source-noncanonical"
      else if !isCanonicalVk reg.zk_vk_commitment then some "kyc-delegate-own-vk-noncanonical"
      else none

def resolveRegDelegate (reg : IssuerReg) (asset_id prev_delegate : Uint256) : Uint256 :=
  if reg.format_version < ISSUER_REG_FORMAT_V2 then prev_delegate
  else if reg.compliance_delegate_asset_id = asset_id then 0
  else reg.compliance_delegate_asset_id

def deriveActiveRootActivationHeight (e : AssetRegistryEntry) : Nat :=
  if e.active_root_activation_height ≠ 0 then e.active_root_activation_height
  else if e.compliance_root_commit = 0 then 0
  else match e.compliance_root_history.reverse.find?
      fun h => h.root_commit = e.compliance_root_commit with
    | some h => h.activation_height
    | none => 0

def alignVkHistory (vks : List Uint256) (length : Nat) (pad : Uint256) : List Uint256 :=
  (List.replicate (length - vks.length) pad ++ vks).drop (vks.length - length)

def applyComplianceRootUpdate (now : AssetRegistryEntry) (prev : Option AssetRegistryEntry)
    (new_root active_vk : Uint256) (height : Nat) (txid : Uint256) : AssetRegistryEntry :=
  if new_root = 0 then
    let cleared := prev.any fun p => p.compliance_root_commit ≠ 0
    { now with
      compliance_root_commit := 0
      active_root_activation_height := 0
      compliance_root_history := if cleared then [] else now.compliance_root_history
      compliance_root_history_vk := if cleared then [] else now.compliance_root_history_vk }
  else
    let roots := (prev.map AssetRegistryEntry.compliance_root_history).getD
      now.compliance_root_history
    let vks := (prev.map AssetRegistryEntry.compliance_root_history_vk).getD
      now.compliance_root_history_vk
    let vks := alignVkHistory vks roots.length ((prev.map AssetRegistryEntry.zk_vk_commitment).getD 0)
    if prev.all fun p => p.compliance_root_commit ≠ new_root then
      -- A first or changed root is appended, and both histories lose their oldest entries alike.
      let excess := roots.length + 1 - MAX_ROOT_HISTORY
      { now with
        compliance_root_history := (roots ++ [ComplianceRootHistory.mk new_root height txid]).drop excess
        compliance_root_history_vk := (vks ++ [active_vk]).drop excess
        active_root_activation_height := height
        compliance_root_commit := new_root }
    else
      { now with
        compliance_root_history := roots
        compliance_root_history_vk := vks
        active_root_activation_height := (prev.map deriveActiveRootActivationHeight).getD 0
        compliance_root_commit := new_root }

def effectiveMaxRootAge (source_age follower_age : UInt32) : UInt32 :=
  if source_age = 0 then follower_age
  else if follower_age = 0 then source_age
  else min source_age follower_age

/-- Whose identity material a spend of an asset is checked against. -/
structure EffectiveKycPolicy where
  required : Bool
  delegated : Bool := false
  vk_commitment : Uint256 := 0
  compliance_root_commit : Uint256 := 0
  compliance_root_history : List ComplianceRootHistory := []
  compliance_root_history_vk : List Uint256 := []
  max_root_age : UInt32 := 0
  active_root_activation_height : Nat := 0
  tfr_flags : UInt32
deriving DecidableEq

def resolveEffectiveKycPolicy (spending_asset_id : Uint256) (B : AssetRegistryEntry)
    (source : Option AssetRegistryEntry) : Except String EffectiveKycPolicy :=
  if B.compliance_delegate_asset_id = 0 then
    .ok {
      required := B.has_kyc
      vk_commitment := B.zk_vk_commitment
      compliance_root_commit := B.compliance_root_commit
      compliance_root_history := B.compliance_root_history
      compliance_root_history_vk := B.compliance_root_history_vk
      max_root_age := B.max_root_age
      active_root_activation_height := deriveActiveRootActivationHeight B
      tfr_flags := B.tfr_flags }
  else if B.compliance_delegate_asset_id = spending_asset_id then .error "kyc-delegate-self"
  else match source with
    | none => .error "kyc-delegate-source-missing"
    | some source =>
      if !source.has_kyc then .error "kyc-delegate-source-no-kyc"
      else if source.compliance_delegate_asset_id ≠ 0 then .error "kyc-delegate-multi-hop"
      else if source.compliance_root_commit = 0 then .error "kyc-delegate-source-no-root"
      else if !isCanonicalVk source.zk_vk_commitment then
        .error "kyc-delegate-source-noncanonical"
      else .ok {
        required := B.has_kyc
        delegated := true
        vk_commitment := source.zk_vk_commitment
        compliance_root_commit := source.compliance_root_commit
        compliance_root_history := source.compliance_root_history
        compliance_root_history_vk := source.compliance_root_history_vk
        max_root_age := effectiveMaxRootAge source.max_root_age B.max_root_age
        active_root_activation_height := deriveActiveRootActivationHeight source
        tfr_flags := B.tfr_flags }

def decodeScalarValue (scalar_format_id : UInt16) (raw : Uint256) : Option Nat :=
  let little := Codec.leNat raw.bytes
  let fits (bits value : Nat) : Option Nat := if value < 2 ^ bits then some value else none
  if scalar_format_id = 0x0001 then some little
  else if scalar_format_id = 0x0002 then some raw.val
  else if scalar_format_id = 0x0010 then fits 64 little
  else if scalar_format_id = 0x0011 then fits 64 raw.val
  else if scalar_format_id = 0x0012 then fits 128 little
  else if scalar_format_id = 0x0013 then fits 128 raw.val
  else none

def isKnownScalarFormat (scalar_format_id : UInt16) : Bool :=
  scalar_format_id ∈ [(0x0001 : UInt16), 0x0002, 0x0010, 0x0011, 0x0012, 0x0013]

def checkScalarPublication (scalar_format_id : UInt16) (scalar : Uint256) (scalar_epoch : UInt64)
    (carrier_unspendable underlying_registered icu_authenticated : Bool)
    (head_last_epoch : Option UInt64) (epoch_exists : Bool) : Option String :=
  if !isKnownScalarFormat scalar_format_id then some "scalar-bad-format"
  else if (decodeScalarValue scalar_format_id scalar).isNone then some "scalar-noncanonical"
  else if !carrier_unspendable then some "scalar-carrier-spendable"
  else if !underlying_registered then some "scalar-unknown-asset"
  else if !icu_authenticated then some "scalar-no-icu-auth"
  else if scalar_epoch = 0 then some "scalar-zero-epoch"
  else if head_last_epoch = some 0xFFFFFFFFFFFFFFFF then some "scalar-epoch-overflow"
  else if scalar_epoch ≠ (head_last_epoch.map (· + 1)).getD 1 then some "scalar-nonmonotonic"
  else if epoch_exists then some "scalar-duplicate-epoch"
  else none

end TensorCash
