import TensorCash.Coins.View
import TensorCash.Consensus.CheckBlock
import Mathlib.Data.List.Dedup
import Mathlib.Data.List.Sort

/-! `Consensus::CheckTxInputs` and the scan of `assets/sighash_utils.h`. The 128-bit sums are
integers. -/

namespace TensorCash

open Checked

def COINBASE_MATURITY : Nat := 100
def MAX_TFR_LOCATOR_SIZE : Nat := 128
def ROTATION_TX_FLAG : UInt32 := 0x40000000
def SIGHASH_DEFAULT : UInt8 := 0
def SIGHASH_ALL : UInt8 := 1
def SIGHASH_NONE : UInt8 := 2
def SIGHASH_SINGLE : UInt8 := 3
def SIGHASH_ANYONECANPAY : UInt8 := 0x80

inductive VerifyError where
  | OK
  | InvalidProofFormat
  | InvalidVerifyingKey
  | InvalidPublicInputs
  | RootTooOld
  | AnchorMismatch
  | OutputKeyMismatch
  | PairingFailed
deriving DecidableEq

structure ChainEnv extends NodeEnv where
  /-- `CheckSignatureEncoding` under `SCRIPT_VERIFY_STRICTENC`. -/
  signatureEncoding : Bytes → Bool
  /-- `VerifyGroth16WithPolicy`: proof, public inputs, key, root age, height and anchor. -/
  groth16 : Bytes → Bytes → Bytes → UInt32 → Nat → Option Uint256 → VerifyError
  /-- `ParseCanonicalIcuPayload`: compression, encryption mode and witness hash. -/
  canonicalIcu : Bytes → Option (UInt8 × UInt8 × Uint256)
  /-- `CheckInputScripts` in a block, with the reason of a failure. -/
  inputScripts : Uint256 → CTransaction → List Coin → Option String
  /-- `SequenceLocks` in a block, for the heights of the spent coins. -/
  sequenceLocks : Uint256 → CTransaction → List Nat → Bool
  sigOpCost : CTransaction → List Coin → Nat
  /-- The asset pass notes a failure and still runs the supply and the leftover checks, which may
  note another one in its place: what is reported for a block's transactions after a first
  failure. -/
  reportedFailure : List (CTransaction × List Coin) → Failure → Failure

def tagsOf (outs : List CTxOut) : List AssetTag := outs.filterMap fun o => parseAssetTag o.vExt

def regsOf (outs : List CTxOut) : List IssuerReg := outs.filterMap fun o => parseIssuerReg o.vExt

def unitsOf (id : Uint256) (tags : List AssetTag) : Nat :=
  ((tags.filter fun t => t.id = id).map fun t => t.amount.toNat).sum

def assetDelta (spent vout : List CTxOut) (id : Uint256) : Int :=
  unitsOf id (tagsOf vout) - unitsOf id (tagsOf spent)

def sortedIds (ids : List Uint256) : List Uint256 := ids.dedup.insertionSort (· ≤ ·)

theorem mem_sortedIds {id : Uint256} {ids : List Uint256} : id ∈ sortedIds ids ↔ id ∈ ids := by
  unfold sortedIds
  rw [List.mem_insertionSort, List.mem_dedup]

theorem nodup_sortedIds (ids : List Uint256) : (sortedIds ids).Nodup :=
  (List.perm_insertionSort _ _).nodup_iff.mpr (List.nodup_dedup ids)

theorem unitsOf_eq_zero {id : Uint256} {tags : List AssetTag} (absent : id ∉ tags.map AssetTag.id) :
    unitsOf id tags = 0 := by
  -- No tag passes the filter, so the sum is empty.
  have none : tags.filter (fun t => t.id = id) = [] := by
    rw [List.filter_eq_nil_iff]
    intro tag member
    simp only [decide_eq_true_eq]
    rintro rfl
    exact absent (List.mem_map_of_mem member)
  rw [unitsOf, none]
  rfl

theorem assetDelta_eq_zero {id : Uint256} {spent vout : List CTxOut}
    (absent : id ∉ (tagsOf spent ++ tagsOf vout).map AssetTag.id) : assetDelta spent vout id = 0 := by
  rw [List.map_append, List.mem_append, not_or] at absent
  rw [assetDelta, unitsOf_eq_zero absent.1, unitsOf_eq_zero absent.2]
  rfl

def spkFamily : TxoutType → UInt16
  | .PUBKEYHASH => SPK_P2PKH
  | .SCRIPTHASH => SPK_P2SH
  | .WITNESS_V0_KEYHASH => SPK_P2WPKH
  | .WITNESS_V0_SCRIPTHASH => SPK_P2WSH
  | .WITNESS_V1_TAPROOT => SPK_P2TR
  | .WITNESS_V2_TAPROOT => SPK_P2TR_V2
  | _ => 0

def outputFamilies (vout : List CTxOut) (id : Uint256) : UInt16 :=
  vout.foldl (fun mask o =>
    if (parseAssetTag o.vExt).any fun t => t.id = id then mask ||| spkFamily (solver o.scriptPubKey)
    else mask) 0

def isKnownExtension (params : Params) (nHeight : Nat) (vExt : Bytes) : Bool :=
  (parseAssetTag vExt).isSome || (parseIssuerReg vExt).isSome ||
    (parseZkParamsChunk vExt).isSome || (parseIcuTextChunk vExt).isSome ||
    (parseTfrAnchor vExt).isSome || (parseZkProofPayload vExt).isSome ||
    (parseIcuKeywrap vExt).isSome || (parseIcuAcceptanceTLV vExt).isSome ||
    (params.ScalarCfdHeight ≤ nHeight && (parseIssuerScalar vExt).isSome)

def extractSignatureSighash (env : ChainEnv) (element : Bytes) (is_witness : Bool) : Option UInt8 :=
  let last := element.getLast?.getD 0
  if 9 ≤ element.length ∧ element.length ≤ 73 ∧ env.signatureEncoding element then some last
  else if is_witness ∧ element.length = 65 ∧
      last &&& 0x1f ∈ [SIGHASH_ALL, SIGHASH_NONE, SIGHASH_SINGLE, SIGHASH_DEFAULT] ∧
      element.dropLast.any (· ≠ 0) then some last
  else if is_witness ∧ element.length = 64 ∧ element.any (· ≠ 0) then some SIGHASH_DEFAULT
  else none

def isOutputBindingSighash (sighash : UInt8) : Bool :=
  sighash &&& SIGHASH_ANYONECANPAY = 0 && (sighash &&& 0x1f = SIGHASH_ALL || sighash &&& 0x1f = SIGHASH_DEFAULT)

def isBallotSighash (sighash : UInt8) : Bool :=
  isOutputBindingSighash sighash || (sighash &&& 0x1f = SIGHASH_SINGLE && sighash &&& SIGHASH_ANYONECANPAY ≠ 0)

/-- The sighash bytes of all that looks like a signature in an input. -/
def inputSighashes (env : ChainEnv) (txin : CTxIn) : List UInt8 :=
  let stack :=
    match txin.scriptWitness with
    | (0x50 :: _) :: second :: rest => second :: rest
    | stack => stack
  ((scriptPushes txin.scriptSig.length txin.scriptSig).filterMap fun e =>
      extractSignatureSighash env e false) ++ stack.filterMap fun e => extractSignatureSighash env e true

def computeRotationProposalHash (c : Crypto) (tx : CTransaction) : Uint256 :=
  match tx.vin, tx.vout with
  | i :: _, o :: _ =>
    -- ROTATION/PROPOSAL, seventeen characters.
    c.sha256 ([17, 82, 79, 84, 65, 84, 73, 79, 78, 47, 80, 82, 79, 80, 79, 83, 65, 76] ++ i.prevout.serialize ++ o.vExt)
  | _, _ => 0

def isRotationTx (tx : CTransaction) : Bool := tx.version &&& ROTATION_TX_FLAG ≠ 0

def sumInputs (nSpendHeight : Nat) : Int → List Coin → Except String Int
  | nValueIn, [] => .ok nValueIn
  | nValueIn, coin :: rest => do
    require (¬ (coin.fCoinBase ∧ nSpendHeight - coin.nHeight < COINBASE_MATURITY))
      "bad-txns-premature-spend-of-coinbase"
    require (MoneyRange coin.out.nValue.toInt ∧ MoneyRange (nValueIn + coin.out.nValue.toInt))
      "bad-txns-inputvalues-outofrange"
    sumInputs nSpendHeight (nValueIn + coin.out.nValue.toInt) rest

def getValueOut (tx : CTransaction) : Int := (tx.vout.map fun o => o.nValue.toInt).sum

def checkOutputExtension (params : Params) (nHeight : Nat) (out : CTxOut) : Except String Unit := do
  require (out.vExt = [] ∨ isKnownExtension params nHeight out.vExt) "outext"
  match parseAssetTag out.vExt with
  | some tag => do
    require (tag.amount ≠ 0) "asset-amount-zero"
    require (tag.flags = 0) "asset-unknown-flag"
    require (solver out.scriptPubKey ≠ .WITNESS_UNKNOWN) "asset-spk-unknown-family"
  | none => .ok ⟨⟩
  require ((parseIssuerReg out.vExt).isSome → solver out.scriptPubKey ≠ .WITNESS_V2_TAPROOT ∧
    solver out.scriptPubKey ≠ .WITNESS_UNKNOWN) "icu-spk-unsupported"
  require ((parseTfrAnchor out.vExt).all fun a => a.locator.length ≤ MAX_TFR_LOCATOR_SIZE)
    "tfr-anchor-size"
  match parseZkProofPayload out.vExt with
  | some payload => do
    require (payload.proof.length = GROTH16_PROOF_SIZE) "zk-proof-size"
    require (GROTH16_MIN_PUBLIC_INPUTS * GROTH16_FR_SIZE ≤ payload.public_inputs.length ∧
      payload.public_inputs.length ≤ GROTH16_MAX_PUBLIC_INPUTS_SIZE ∧
      payload.public_inputs.length % GROTH16_FR_SIZE = 0) "zk-public-inputs-size"
  | none => .ok ⟨⟩

def checkIcuInputs (env : ChainEnv) (inputs : List (CTxIn × Coin)) : Except String Unit :=
  let regs := inputs.filterMap fun (i, coin) => (parseIssuerReg coin.out.vExt).map fun r => (i, r)
  (sortedIds (regs.map fun p => p.2.asset_id)).forM fun id =>
    (regs.filter fun p => p.2.asset_id = id).forM fun (i, _) => do
      require (inputSighashes env i ≠ []) "icu-missing-signature"
      require ((inputSighashes env i).all isOutputBindingSighash) "icu-invalid-sighash"

def checkBurnFlip (inputRegs : List IssuerReg) (reg : IssuerReg) : Except String Unit :=
  require ((inputRegs.find? fun r => r.asset_id = reg.asset_id).all fun r =>
      hasBits r.policy_bits BURN_ALLOWED || !hasBits reg.policy_bits BURN_ALLOWED)
    "asset-policy-burn-flip"

def resolveFamilies (allowed_spk_families : UInt16) (policy_bits : UInt32) : UInt16 :=
  if allowed_spk_families ≠ 0 then allowed_spk_families
  else if hasBits policy_bits BURN_JOINT_REQUIRED then SPK_HOLDER_ONLY
  else SPK_DEFAULT_ALLOWED

def delegateSource (view : CCoinsView) (id delegate : Uint256) : Option AssetRegistryEntry :=
  if delegate ≠ 0 ∧ delegate ≠ id then view.policies.get? delegate else none

def inFlightEntry (view : CCoinsView) (id : Uint256) (reg : IssuerReg) : AssetRegistryEntry where
  has_kyc := true
  zk_vk_commitment := reg.zk_vk_commitment
  max_root_age := reg.max_root_age
  tfr_flags := reg.tfr_flags
  compliance_root_commit := reg.compliance_root_commit
  compliance_delegate_asset_id := resolveRegDelegate reg id
    (((view.policies.get? id).map AssetRegistryEntry.compliance_delegate_asset_id).getD 0)

structure TxAssetPolicy where
  policy_bits : UInt32 := 0xFFFFFFFF
  allowed_mask : UInt16 := SPK_DEFAULT_ALLOWED
  kyc : Option EffectiveKycPolicy := none

def resolveKyc (view : CCoinsView) (id : Uint256) (entry : AssetRegistryEntry) :
    Except String (Option EffectiveKycPolicy) :=
  (resolveEffectiveKycPolicy id entry
    (delegateSource view id entry.compliance_delegate_asset_id)).map some

def resolveTxPolicy (view : CCoinsView) (outputRegs inputRegs : List IssuerReg) (id : Uint256) :
    Except String TxAssetPolicy := do
  let source := (outputRegs.reverse.find? fun r => r.asset_id = id) <|>
    (inputRegs.find? fun r => r.asset_id = id)
  match source, view.policies.get? id with
  | some reg, _ => do
    let kyc ← if hasBits reg.kyc_flags KYC_REQUIRED then resolveKyc view id (inFlightEntry view id reg)
      else .ok none
    .ok { policy_bits := reg.policy_bits
          allowed_mask := resolveFamilies reg.allowed_spk_families reg.policy_bits, kyc }
  | none, some e => do
    let kyc ← if e.has_kyc then resolveKyc view id e else .ok none
    .ok { policy_bits := e.policy_bits
          allowed_mask := resolveFamilies e.allowed_spk_families e.policy_bits, kyc }
  | none, none => .ok {}

def checkAssetDelta (policy : TxAssetPolicy) (issuer_auth : Bool) (families : UInt16) (d : Int) :
    Except String Unit :=
  let known := policy.policy_bits ≠ 0xFFFFFFFF
  let mask :=
    if known ∧ hasBits policy.policy_bits BURN_JOINT_REQUIRED then
      policy.allowed_mask &&& SPK_HOLDER_ONLY
    else policy.allowed_mask
  if d = 0 then .ok ⟨⟩
  else if 0 < d then do
    require issuer_auth "asset-mint-unauthorized"
    require (known → hasBits policy.policy_bits MINT_ALLOWED) "asset-mint-disallowed"
    require (families &&& mask = families) "asset-spk-not-allowed"
  else do
    require issuer_auth "asset-burn-needs-icu"
    require (known → hasBits policy.policy_bits BURN_ALLOWED) "asset-burn-disallowed"
    require (families &&& mask = families) "asset-spk-not-allowed"

def isRotationOf (tx : CTransaction) (id : Uint256) : Bool :=
  isRotationTx tx && 1 < tx.vin.length &&
    (tx.vout.head?.bind fun o => parseIssuerReg o.vExt).any fun r => r.asset_id = id

def isBallotInput (c : Crypto) (tx : CTransaction) (id : Uint256) (index : Nat) (coin : Coin) : Bool :=
  isRotationOf tx id && 0 < index &&
    match parseAssetTag coin.out.vExt, tx.vout[index]?.bind fun o => parseAssetTag o.vExt with
    | some in_tag, some out_tag =>
      in_tag.id = id && out_tag.id = id && in_tag.amount = out_tag.amount &&
        out_tag.proposal_hash = some (computeRotationProposalHash c tx)
    | _, _ => false

def assetInputs (inputs : List (CTxIn × Coin)) (id : Uint256) : List (Nat × CTxIn × Coin) :=
  inputs.zipIdx.filterMap fun ((i, coin), index) =>
    if (parseAssetTag coin.out.vExt).any fun t => t.id = id then some (index, i, coin) else none

def isWitnessScriptType (script : CScript) : Bool :=
  solver script ∈ [.WITNESS_V0_KEYHASH, .WITNESS_V0_SCRIPTHASH, .WITNESS_V1_TAPROOT]

def anchorsOf (tx : CTransaction) (id : Uint256) : List TfrAnchor :=
  (tx.vout.filterMap fun o => parseTfrAnchor o.vExt).filter fun a => a.asset_id = id

def proofsOf (tx : CTransaction) (id : Uint256) : List ZkProofPayload :=
  (tx.vout.filterMap fun o => parseZkProofPayload o.vExt).filter fun p => p.asset_id = id

def checkKycLayout (env : ChainEnv) (tx : CTransaction) (inputs : List (CTxIn × Coin))
    (id : Uint256) (policy : EffectiveKycPolicy) : Except String Unit := do
  require (policy.vk_commitment ≠ 0) "zkchunk-missing"
  if hasBits policy.tfr_flags TFR_ANCHOR_REQUIRED then do
    require (anchorsOf tx id ≠ []) "tfr-anchor-missing"
    require ((anchorsOf tx id).length = ((tagsOf tx.vout).filter fun t => t.id = id).length)
      "tfr-anchor-count-mismatch"
  else .ok ⟨⟩
  if assetInputs inputs id = [] then .ok ⟨⟩
  else do
    (assetInputs inputs id).forM fun (index, i, coin) =>
      require ((inputSighashes env i).all
        (if isBallotInput env.crypto tx id index coin then isBallotSighash
          else isOutputBindingSighash)) "zk-invalid-sighash"
    (assetInputs inputs id).forM fun (_, i, coin) => do
      require (isWitnessScriptType coin.out.scriptPubKey) "kyc-spend-nonsegwit"
      require (i.scriptWitness ≠ []) "zk-witness-empty"
    require (proofsOf tx id ≠ []) "zk-proof-missing"
    require ((proofsOf tx id).length ≤ 1) "zk-proof-duplicate"

def publicInput (public_inputs : Bytes) (index : Nat) : Bytes :=
  (public_inputs.drop (index * GROTH16_FR_SIZE)).take GROTH16_FR_SIZE

def uint256ToBytesBE (value : Uint256) : Bytes := value.bytes.reverse

def computeChainSeparator (env : ChainEnv) : Uint256 :=
  -- TensorCash/ZKChainSeparator
  env.crypto.hash (env.params.hashGenesisBlock.bytes ++
    [84, 101, 110, 115, 111, 114, 67, 97, 115, 104, 47, 90, 75, 67, 104, 97, 105, 110, 83, 101, 112,
      97, 114, 97, 116, 111, 114])

/-- `static_cast<int>` of an unsigned word: the upper half is negative. -/
def castInt (x : UInt32) : Int := x.toBitVec.toInt

/-- The active key, or its own for a fresh root of the history. -/
def matchRoot (policy : EffectiveKycPolicy) (nSpendHeight : Nat) (root_elem : Bytes) : Option Uint256 :=
  if root_elem = uint256ToBytesBE policy.compliance_root_commit then some policy.vk_commitment
  else
    (policy.compliance_root_history.zipIdx.find? fun (hist, _) =>
      root_elem = uint256ToBytesBE hist.root_commit && hist.activation_height ≤ nSpendHeight &&
        (nSpendHeight : Int) - hist.activation_height ≤ castInt policy.max_root_age).map fun (_, i) =>
      match policy.compliance_root_history_vk[i]? with
      | some vk => if vk = 0 then policy.vk_commitment else vk
      | none => policy.vk_commitment

def checkOutputKey (public_inputs : Bytes) (spk : CScript) : Except String Unit := do
  require (34 ≤ spk.length ∧ spk.take 2 = [0x51, 0x20]) "kyc-proof-output-not-taproot"
  require (publicInput public_inputs 4 = List.replicate 16 0 ++ (spk.drop 2).take 16 ∧
      publicInput public_inputs 5 = List.replicate 16 0 ++ (spk.drop 18).take 16)
    "kyc-proof-output-mismatch"

def VerifyError.reason : VerifyError → Option String
  | .OK => none
  | .InvalidProofFormat => some "zk-proof-bad"
  | .InvalidVerifyingKey => some "zk-vk-invalid"
  | .InvalidPublicInputs => some "zk-public-inputs"
  | .RootTooOld => some "zk-epoch-stale"
  | .AnchorMismatch => some "tfr-anchor-mismatch"
  | .OutputKeyMismatch => some "kyc-proof-output-mismatch"
  | .PairingFailed => some "zk-proof-bad"

/-- The heartbeat of the identity source, then the match. -/
def rootStep (policy : EffectiveKycPolicy) (nSpendHeight : Nat) (root_elem : Bytes) :
    Except String Uint256 := do
  require (¬ (policy.delegated ∧ 0 < policy.max_root_age ∧
    0 < policy.active_root_activation_height ∧ castInt policy.max_root_age <
      (nSpendHeight : Int) - policy.active_root_activation_height)) "kyc-delegate-source-stale"
  demand (matchRoot policy nSpendHeight root_elem) "zk-root-mismatch"

def checkKycProof (env : ChainEnv) (view : CCoinsView) (nSpendHeight : Nat) (tx : CTransaction)
    (inputs : List (CTxIn × Coin)) (id : Uint256) (policy : EffectiveKycPolicy) : Except String Unit :=
  if assetInputs inputs id = [] then .ok ⟨⟩
  else do
    let payload ← demand (proofsOf tx id).head? "zk-proof-missing"
    let pub := payload.public_inputs
    require (GROTH16_HDV1_PUBLIC_INPUTS ≤ pub.length / GROTH16_FR_SIZE) "kyc-proof-not-hdv1"
    require (publicInput pub 0 = uint256ToBytesBE (computeChainSeparator env)) "zk-chain-mismatch"
    require (publicInput pub 1 = uint256ToBytesBE id) "zk-asset-mismatch"
    require (policy.compliance_root_commit ≠ 0) "zk-root-not-set"
    require (policy.compliance_root_history_vk = [] ∨ policy.compliance_root_history_vk.length =
      policy.compliance_root_history.length) "asset-registry-malformed"
    let verify_vk ← rootStep policy nSpendHeight (publicInput pub 2)
    let vk ← demand (view.vks.get? verify_vk) "zk-vk-missing"
    let anchor := (anchorsOf tx id).head?.map TfrAnchor.tfr_commit
    require (publicInput pub 3 = uint256ToBytesBE (anchor.getD 0)) "zk-anchor-mismatch"
    (assetInputs inputs id).forM fun (_, _, coin) => checkOutputKey pub coin.out.scriptPubKey
    let bound := if hasBits policy.tfr_flags TFR_ANCHOR_REQUIRED then anchor else none
    match (env.groth16 payload.proof pub vk policy.max_root_age nSpendHeight bound).reason with
    | none => .ok ⟨⟩
    | some reason => .error reason

def checkTxAsset (view : CCoinsView) (spent vout : List CTxOut) (id : Uint256) :
    Except String (Uint256 × Option EffectiveKycPolicy) := do
  let policy ← resolveTxPolicy view (regsOf vout) (regsOf spent) id
  let issuer_auth := (regsOf spent).any fun r => r.asset_id = id
  checkAssetDelta policy issuer_auth (outputFamilies vout id) (assetDelta spent vout id)
  .ok (id, policy.kyc)

def checkTxAssets (env : ChainEnv) (view : CCoinsView) (nSpendHeight : Nat) (tx : CTransaction)
    (coins : List Coin) : Except String Unit := do
  let spent := coins.map Coin.out
  let inputs := tx.vin.zip coins
  checkIcuInputs env inputs
  tx.vout.forM (checkOutputExtension env.params nSpendHeight)
  let moved := sortedIds ((tagsOf spent ++ tagsOf tx.vout).map AssetTag.id)
  require (tx.isCoinBase → ∀ id ∈ moved, assetDelta spent tx.vout id = 0)
    "asset-coinbase-forbidden"
  (regsOf tx.vout).forM (checkBurnFlip (regsOf spent))
  let policies ← moved.mapM (checkTxAsset view spent tx.vout)
  let regulated := policies.filterMap fun (id, kyc) =>
    (kyc.filter EffectiveKycPolicy.required).map fun policy => (id, policy)
  regulated.forM fun (id, policy) => checkKycLayout env tx inputs id policy
  regulated.forM fun (id, policy) => checkKycProof env view nSpendHeight tx inputs id policy
  require ((regulated.filter fun (id, _) => assetInputs inputs id ≠ []).length ≤ MAX_ZK_PROOFS_PER_TX) "zk-proof-cap"

/-- `Consensus::CheckTxInputs`: the spent coins and the fee. -/
def checkTxInputs (env : ChainEnv) (view : CCoinsView) (nSpendHeight : Nat) (tx : CTransaction) :
    Except String (List Coin × Int) := do
  require (nSpendHeight < env.params.AssetsHeight → tx.vout.all fun o => o.vExt = []) "outext"
  let coins ← demand (inputCoins view.coins tx) "bad-txns-inputs-missingorspent"
  let nValueIn ← sumInputs nSpendHeight 0 coins
  require (getValueOut tx ≤ nValueIn) "bad-txns-in-belowout"
  require (MoneyRange (nValueIn - getValueOut tx)) "bad-txns-fee-outofrange"
  checkTxAssets env view nSpendHeight tx coins
  .ok (coins, nValueIn - getValueOut tx)

theorem checkTxInputs_eq_ok {env : ChainEnv} {view : CCoinsView} {nSpendHeight : Nat}
    {tx : CTransaction} {coins : List Coin} {fee : Int}
    (accepted : checkTxInputs env view nSpendHeight tx = .ok (coins, fee)) :
    inputCoins view.coins tx = some coins ∧ checkTxAssets env view nSpendHeight tx coins = .ok ⟨⟩ := by
  simp only [checkTxInputs, bind_eq_ok, require_eq_ok, demand_eq_ok] at accepted
  obtain ⟨_, _, found, there, _, _, _, _, _, _, _, checked, made⟩ := accepted
  obtain ⟨rfl, _⟩ := Prod.mk.inj (Except.ok.inj made)
  exact ⟨there, checked⟩

end TensorCash
