import TensorCash.Assets.Registry

/-! `BuildIssuerRegV1` of `wallet/asset_registration.cpp` and the asset tag of
`wallet/rpc/assets.cpp`. -/

namespace TensorCash

open Codec

def buildTlv (type : UInt8) (payload : Bytes) : Bytes := type :: serBytes payload

def buildIssuerRegV1 (reg : IssuerReg) : Bytes :=
  buildTlv ISSUER_REG
    (reg.asset_id.bytes ++ serUInt32 reg.policy_bits ++ leBytes 2 reg.allowed_spk_families.toNat ++
      [if reg.compliance_delegate_asset_id = 0 then ISSUER_REG_FORMAT_V1 else ISSUER_REG_FORMAT_V2] ++
      UInt8.ofNat reg.ticker.length :: reg.ticker ++ [reg.decimals] ++
      serUInt64 reg.unlock_fees_sats ++ serUInt32 reg.kyc_flags ++ reg.zk_vk_commitment.bytes ++
      serUInt32 reg.max_root_age ++ serUInt32 reg.tfr_flags ++ reg.compliance_root_commit.bytes ++
      serUInt32 reg.icu_flags ++ serUInt64 reg.issuance_cap_units ++ reg.icu_ctxt_commit.bytes ++
      reg.icu_plain_commit.bytes ++ reg.kdf_salt ++ [reg.icu_version, reg.icu_visibility] ++
      reg.core_policy_commit.bytes ++ [reg.policy_epoch] ++ leBytes 2 reg.policy_quorum_bps.toNat ++
      -- Only the second format has a delegate behind the quorum.
      if reg.compliance_delegate_asset_id = 0 then [] else reg.compliance_delegate_asset_id.bytes)

def buildAssetTag (id : Uint256) (amount : UInt64) : Bytes :=
  buildTlv ASSET_TAG (id.bytes ++ serUInt64 amount ++ serUInt32 0)

end TensorCash
