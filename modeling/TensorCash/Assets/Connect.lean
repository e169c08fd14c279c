import TensorCash.Consensus.TxInputs

/-! The registry part of `Chainstate::ConnectBlock`, staged transaction by transaction. -/

namespace TensorCash

open Checked

def DUST_THRESHOLD : Int := 546

/-- The pieces of a verifying key that a block has shown so far. -/
structure VkChunkAccumulator where
  expected : Nat
  parts : OrdMap Nat Bytes
deriving DecidableEq

def VkChunkAccumulator.complete (acc : VkChunkAccumulator) : Bool :=
  acc.expected ≠ 0 && (List.range acc.expected).all acc.parts.contains

def VkChunkAccumulator.payload (acc : VkChunkAccumulator) : Bytes := acc.parts.entries.flatMap Prod.snd

/-- The staged registry, the way back, and the records that still wait. -/
structure RegistryPass where
  view : CCoinsView
  undo : CBlockUndo
  vk_chunks : OrdMap (Lex (Uint256 × Uint256)) VkChunkAccumulator := ∅
  icu_payloads : OrdMap Uint256 Bytes := ∅
  icu_payload_metadata : OrdMap Uint256 IcuChunkMetadata := ∅
  zk_vk_installs : Nat := 0

structure BlockContext where
  env : ChainEnv
  nHeight : Nat
  nTime : UInt32
  blockHash : Uint256

def collectChunk (regs : List IssuerReg) (pass : RegistryPass) (chunk : ZkParamsChunk) :
    Except Failure RegistryPass := do
  require (regs.any fun r => r.asset_id = chunk.asset_id) (.consensus "zkchunk-association")
  let key := toLex (chunk.asset_id, chunk.vk_hash)
  let acc := (pass.vk_chunks.get? key).getD ⟨chunk.chunk_count.toNat, ∅⟩
  require (acc.expected = chunk.chunk_count.toNat) (.consensus "zkchunk-count-mismatch")
  require (!acc.parts.contains chunk.chunk_index.toNat) (.consensus "zkchunk-duplicate")
  let parts := acc.parts.insert chunk.chunk_index.toNat chunk.data
  require ((parts.entries.flatMap Prod.snd).length ≤ MAX_VK_PAYLOAD_SIZE)
    (.consensus "zkchunk-oversize")
  .ok { pass with vk_chunks := pass.vk_chunks.insert key { acc with parts } }

def collectText (c : Crypto) (regs : List IssuerReg) (pass : RegistryPass) (chunk : IcuTextChunk) :
    Except Failure RegistryPass := do
  require (regs ≠ []) (.consensus "icutext-orphan")
  require (chunk.payload.length ≤ MAX_ICU_PAYLOAD_BYTES) (.consensus "icutext-oversize")
  let commit := c.sha256 chunk.payload
  require ((pass.icu_payloads.get? commit).all fun p => p = chunk.payload)
    (.consensus "icutext-hash-collision")
  require (∀ new ∈ chunk.metadata, ∀ existing ∈ pass.icu_payload_metadata.get? commit,
    existing = new) (.consensus "icutext-meta-mismatch")
  .ok { pass with
    icu_payloads := pass.icu_payloads.insert commit chunk.payload
    icu_payload_metadata :=
      match chunk.metadata with
      | some metadata => pass.icu_payload_metadata.insert commit metadata
      | none => pass.icu_payload_metadata }

def collectExtension (c : Crypto) (tx : CTransaction) (pass : RegistryPass) (out : CTxOut) :
    Except Failure RegistryPass :=
  match parseZkParamsChunk out.vExt, parseTfrAnchor out.vExt, parseIcuTextChunk out.vExt with
  | some chunk, _, _ => collectChunk (regsOf tx.vout) pass chunk
  | none, some anchor, _ => do
    require (anchor.locator.length ≤ MAX_TFR_LOCATOR_SIZE) (.consensus "tfr-anchor-size")
    require (((regsOf tx.vout).any fun r => r.asset_id = anchor.asset_id) ∨
        (tagsOf tx.vout).any fun t => t.id = anchor.asset_id) (.consensus "tfr-anchor-mismatch")
    .ok pass
  | none, none, some text => collectText c (regsOf tx.vout) pass text
  | none, none, none => .ok pass

/-- A tag of an asset that wants its text's key wrapped for every holder. -/
def checkKeywrap (c : Crypto) (view : CCoinsView) (out : CTxOut) : Except Failure Unit :=
  match parseAssetTag out.vExt with
  | none => .ok ⟨⟩
  | some tag =>
    match view.policies.get? tag.id with
    | none => .ok ⟨⟩
    | some policy =>
      if hasBits policy.icu_flags WRAP_REQUIRED then do
        let keywrap ← demand tag.keywrap (.consensus "icu-wrap-missing")
        require (keywrap.asset_id = tag.id) (.consensus "icu-wrap-asset-mismatch")
        require (keywrap.ctxt_hash = policy.icu_ctxt_commit) (.consensus "icu-wrap-commit-mismatch")
        -- TapMatch, then the script that the key is wrapped for.
        require (keywrap.spk_hash32 = c.sha256 ([84, 97, 112, 77, 97, 116, 99, 104] ++ out.scriptPubKey))
          (.consensus "icu-wrap-spk-mismatch")
      else .ok ⟨⟩

/-- The assets whose current credential is spent, with the bond on it. -/
def icuSpent (view : CCoinsView) (inputs : List (CTxIn × Coin)) : List (Uint256 × Int) :=
  inputs.filterMap fun (i, coin) =>
    (parseIssuerReg coin.out.vExt).bind fun reg =>
      if (view.policies.get? reg.asset_id).any fun cur => cur.icu_outpoint = i.prevout then
        some (reg.asset_id, coin.out.nValue.toInt)
      else none

def spentBond (spent : List (Uint256 × Int)) (id : Uint256) : Option Int :=
  (spent.find? fun p => p.1 = id).map Prod.snd

def publishScalar (ctx : BlockContext) (spent : List (Uint256 × Int)) (pass : RegistryPass)
    (out : CTxOut) : Except Failure RegistryPass :=
  match parseIssuerScalar out.vExt with
  | none => .ok pass
  | some pub =>
    let feed : FeedKey := ⟨pub.underlying_asset_id, pub.feed_id⟩
    let key : ScalarKey := ⟨feed, pub.scalar_epoch⟩
    let head := pass.view.scalarHeads.get? feed
    match checkScalarPublication pub.scalar_format_id pub.scalar pub.scalar_epoch
        (isUnspendable out.scriptPubKey) (pass.view.policies.contains pub.underlying_asset_id)
        (spentBond spent pub.underlying_asset_id).isSome head (pass.view.scalars.contains key) with
    | some reason => .error (.consensus reason)
    | none =>
      .ok { pass with
        view := { pass.view with
          scalars := pass.view.scalars.insert key
            ⟨pub.scalar, ctx.nHeight, pub.scalar_format_id⟩
          scalarHeads := pass.view.scalarHeads.insert feed pub.scalar_epoch }
        undo := { pass.undo with
          scalar_undo := pass.undo.scalar_undo ++ [ScalarUndoEntry.mk key head] } }

structure PendingIssuerReg where
  index : Nat
  out : CTxOut
  reg : IssuerReg

def pendingRegs (tx : CTransaction) : List PendingIssuerReg :=
  tx.vout.zipIdx.filterMap fun (out, index) => (parseIssuerReg out.vExt).map fun reg => ⟨index, out, reg⟩

def pendingOf (pending : List PendingIssuerReg) (id : Uint256) : List PendingIssuerReg :=
  pending.filter fun p => p.reg.asset_id = id

def checkReregistration (view : CCoinsView) (tx : CTransaction) (id : Uint256) : Except Failure Unit :=
  require ((view.policies.get? id).all fun cur =>
    tx.vin.any fun i => i.prevout = cur.icu_outpoint) (.consensus "asset-duplicate-registration")

def checkBond (view : CCoinsView) (pending : List PendingIssuerReg) (entry : Uint256 × Int) :
    Except Failure Unit :=
  let (id, bond) := entry
  match view.policies.get? id with
  | none => .ok ⟨⟩
  | some cur =>
    match pendingOf pending id with
    | [new] =>
      let new_bond := new.out.nValue.toInt
      if cur.isUnlocked then
        require (DUST_THRESHOLD ≤ new_bond) (.consensus "asset-bond-dust")
      else
        require ((if cur.rotation_min_sats ≠ 0 then cur.rotation_min_sats.toBitVec.toInt
          else bond) ≤ new_bond) (.consensus "asset-bond-decrease")
    | _ => .error (.consensus "asset-bond-rotation")

def requiredUnits (entry : AssetRegistryEntry) : UInt64 :=
  (entry.policy_quorum_bps.toUInt64 * (entry.issued_total - entry.burned_total) + 9999) / 10000

def checkRotation (c : Crypto) (view : CCoinsView) (tx : CTransaction) : Except Failure Unit :=
  if isRotationTx tx ∧ 1 < tx.vin.length then do
    let expected_hash := computeRotationProposalHash c tx
    let reg ← demand (tx.vout.head?.bind fun o => parseIssuerReg o.vExt)
      (.consensus "rotation-invalid-issuer-reg")
    let ballots := (tagsOf tx.vout.tail).filter fun t => t.id = reg.asset_id
    ballots.forM fun ballot => do
      require ballot.proposal_hash.isSome (.consensus "rotation-ballot-missing-hash")
      require (ballot.proposal_hash = some expected_hash) (.consensus "rotation-ballot-mismatch")
    require ((view.policies.get? reg.asset_id).all fun prev =>
        prev.policy_quorum_bps = 0 || requiredUnits prev ≤ (ballots.map AssetTag.amount).sum)
      (.consensus "rotation-insufficient-quorum")
  else .ok ⟨⟩

def isReservedTicker (t : Bytes) : Bool := t = [84, 83, 67] || t = [88, 84, 67] || t = [84, 65, 75]

def resolveTicker (params : Params) (view : CCoinsView) (spent : List (Uint256 × Int))
    (id : Uint256) (prev : Option AssetRegistryEntry) (ticker : Bytes) : Except Failure (Bytes × Bool) :=
  let old := (prev.map AssetRegistryEntry.ticker).getD []
  if old ≠ [] then do
    require (ticker = [] ∨ ticker = old) (.consensus "asset-ticker-change")
    .ok (old, false)
  else if ticker = [] then .ok ([], false)
  else do
    let sponsored ← match parseChildTicker ticker with
      | some child => do
        require (!isReservedTicker child.root) (.consensus "asset-ticker-reserved")
        let parent_id ← demand (view.tickers.get? ⟨child.root⟩) (.consensus "asset-child-no-parent")
        let bond ← demand (spentBond spent parent_id) (.consensus "asset-child-parent-not-spent")
        require (params.AssetMinIcuBond ≤ bond) (.consensus "asset-child-parent-underbond")
        .ok true
      | none => do
        require (!isReservedTicker ticker) (.consensus "asset-ticker-reserved")
        .ok false
    require ((view.tickers.get? ⟨ticker⟩).all fun bound => bound = id)
      (.consensus "asset-ticker-duplicate")
    .ok (ticker, sponsored)

def resolveDecimals (prev : Option AssetRegistryEntry) (decimals : UInt8) : Except Failure UInt8 :=
  let old := (prev.map AssetRegistryEntry.decimals).getD 255
  if old ≠ 255 then do
    require (decimals = 255 ∨ decimals = old) (.consensus "asset-decimals-change")
    .ok old
  else do
    require (decimals = 255 ∨ decimals ≤ 18) (.consensus "asset-decimals-change")
    .ok decimals

def installVk (c : Crypto) (pass : RegistryPass) (id vk_hash : Uint256) : Except Failure RegistryPass := do
  require (vk_hash ≠ 0) (.consensus "zkchunk-missing")
  let key := toLex (id, vk_hash)
  match pass.view.vks.get? vk_hash, pass.vk_chunks.get? key with
  | some _, none => .ok pass
  | some _, some acc => do
    require acc.complete (.consensus "zkchunk-missing")
    require (c.hash acc.payload = vk_hash) (.consensus "zkchunk-badhash")
    .ok { pass with vk_chunks := pass.vk_chunks.erase key }
  | none, none => .error (.consensus "zkchunk-missing")
  | none, some acc => do
    require acc.complete (.consensus "zkchunk-missing")
    require (c.hash acc.payload = vk_hash) (.consensus "zkchunk-badhash")
    require (pass.zk_vk_installs + 1 ≤ MAX_ZK_PROOFS_PER_BLOCK) (.consensus "zkchunk-block-cap")
    .ok { pass with
      view := { pass.view with vks := pass.view.vks.insert vk_hash acc.payload }
      undo := { pass.undo with
        vk_undo := pass.undo.vk_undo ++ [VkUndoEntry.mk vk_hash (pass.view.vks.get? vk_hash)] }
      vk_chunks := pass.vk_chunks.erase key
      zk_vk_installs := pass.zk_vk_installs + 1 }

/-- The packing: from the trailer, else from a public payload, else from the flags. -/
def icuPacking (env : ChainEnv) (reg : IssuerReg) (payload : Bytes)
    (metadata : Option IcuChunkMetadata) : UInt8 × UInt8 × Uint256 :=
  match metadata with
  | some m => (m.compression, m.encryption_mode, m.witness_hash.getD 0)
  | none =>
    if reg.icu_visibility = 0 then (env.canonicalIcu payload).getD (0, 0, 0)
    else (if hasBits reg.icu_flags ICU_COMPRESSED then 1 else 0, 1, 0)

def installIcu (env : ChainEnv) (pass : RegistryPass) (id : Uint256) (reg : IssuerReg) :
    Except Failure RegistryPass := do
  let commit := reg.icu_ctxt_commit
  let payload ← demand (pass.icu_payloads.get? commit) (.consensus "icutext-missing")
  let (compression, encryption_mode, witness_hash) := icuPacking env reg payload (pass.icu_payload_metadata.get? commit)
  let key : IcuKey := ⟨id, commit⟩
  .ok { pass with
    view := { pass.view with
      icus := pass.view.icus.insert key
        { icu_cipher := payload, compression, encryption_mode, witness_hash
          visibility := reg.icu_visibility
          canonical_hash := reg.icu_plain_commit } }
    undo := { pass.undo with
      icu_undo := pass.undo.icu_undo ++ [IcuUndoEntry.mk key (pass.view.icus.get? key)] }
    icu_payloads := pass.icu_payloads.erase commit
    icu_payload_metadata := pass.icu_payload_metadata.erase commit }

def ballotUnits (tx : CTransaction) (coins : List Coin) (id : Uint256) : UInt64 :=
  ((coins.zip tx.vout).filterMap fun (coin, out) =>
    match parseAssetTag coin.out.vExt, parseAssetTag out.vExt with
    | some tag_in, some tag_out =>
      if tag_in.id = id ∧ tag_out.id = id ∧ tag_in.amount = tag_out.amount then
        some tag_in.amount
      else none
    | _, _ => none).sum

def governanceChanged (prev : AssetRegistryEntry) (reg : IssuerReg) : Bool :=
  reg.icu_ctxt_commit ≠ prev.icu_ctxt_commit || reg.icu_visibility ≠ prev.icu_visibility ||
    reg.policy_quorum_bps ≠ prev.policy_quorum_bps || reg.issuance_cap_units ≠ prev.issuance_cap_units

def checkRegUpdate (ctx : BlockContext) (tx : CTransaction) (coins : List Coin) (id : Uint256)
    (prev : AssetRegistryEntry) (reg : IssuerReg) : Except Failure Unit := do
  require (0 < prev.issued_total → computeCorePolicyCommit ctx.env.crypto reg.allowed_spk_families
      reg.policy_bits reg.kyc_flags reg.tfr_flags = prev.core_policy_commit)
    (.consensus "policy-core-changed")
  require (!isCollateralSafeRotationRejected prev.policy_bits reg.policy_bits prev.icu_flags
      reg.icu_flags ctx.nHeight ctx.env.params.ScalarCfdHeight)
    (.consensus "collateral-safe-immutable")
  require (reg.icu_ctxt_commit = prev.icu_ctxt_commit ∧ reg.icu_visibility = prev.icu_visibility ∨
      prev.unlock_fees_base + UNLOCK_BUMP_MIN_DEFAULT ≤ reg.unlock_fees_sats)
    (.consensus "icu-text-unlock-too-low")
  if governanceChanged prev reg then do
    -- The change of supply is taken in 64 bits here.
    require (Int64.ofInt (assetDelta (coins.map Coin.out) tx.vout id) = 0)
      (.consensus "icu-rotate-asset-delta")
    require (prev.policy_quorum_bps ≠ 0) (.consensus "icu-immutable-rotation")
    require (requiredUnits prev ≤ ballotUnits tx coins id)
      (.consensus "icu-policy-quorum-shortfall")
  else .ok ⟨⟩

def rotationHistory (ctx : BlockContext) (txid : Uint256) (prev : AssetRegistryEntry)
    (reg : IssuerReg) : List IssuerRegSnapshot :=
  if prev.policy_epoch < reg.policy_epoch then
    let filed := prev.rotation_history ++ [{
      icu_ctxt_commit := prev.icu_ctxt_commit
      icu_plain_commit := prev.icu_plain_commit
      policy_quorum_bps := prev.policy_quorum_bps
      issuance_cap_units := prev.issuance_cap_units
      policy_epoch := prev.policy_epoch
      block_height := ctx.nHeight
      rotation_txid := txid
      timestamp := ctx.nTime }]
    filed.drop (filed.length - MAX_ROTATION_HISTORY)
  else prev.rotation_history

def registeredEntry (ctx : BlockContext) (txid : Uint256) (p : PendingIssuerReg)
    (prev : Option AssetRegistryEntry) (ticker : Bytes) (decimals : UInt8) : AssetRegistryEntry :=
  let reg := p.reg
  let fees_accum_sats := (prev.map AssetRegistryEntry.fees_accum_sats).getD 0
  { policy_bits := reg.policy_bits
    allowed_spk_families := resolveFamilies reg.allowed_spk_families reg.policy_bits
    icu_outpoint := ⟨txid, UInt32.ofNat p.index⟩
    unlock_fees_sats := reg.unlock_fees_sats
    fees_accum_sats
    rotation_min_sats :=
      match prev with
      | none => UInt64.ofInt (Int.tdiv (p.out.nValue.toInt * 95) 100)
      | some prev =>
        if reg.unlock_fees_sats ≤ fees_accum_sats then 546 else prev.rotation_min_sats
    ticker
    decimals
    issued_total := (prev.map AssetRegistryEntry.issued_total).getD 0
    burned_total := (prev.map AssetRegistryEntry.burned_total).getD 0
    icu_flags := reg.icu_flags
    icu_visibility := reg.icu_visibility
    icu_version := reg.icu_version
    policy_quorum_bps := reg.policy_quorum_bps
    issuance_cap_units := reg.issuance_cap_units
    unlock_fees_base := reg.unlock_fees_sats
    icu_ctxt_commit := reg.icu_ctxt_commit
    icu_plain_commit := reg.icu_plain_commit
    kdf_salt := reg.kdf_salt
    core_policy_commit :=
      match prev with
      | none => computeCorePolicyCommit ctx.env.crypto reg.allowed_spk_families reg.policy_bits
          reg.kyc_flags reg.tfr_flags
      | some prev => prev.core_policy_commit
    policy_epoch := reg.policy_epoch
    rotation_history := (prev.map fun prev => rotationHistory ctx txid prev reg).getD []
    compliance_delegate_asset_id := resolveRegDelegate reg reg.asset_id
      ((prev.map AssetRegistryEntry.compliance_delegate_asset_id).getD 0) }

def withCompliance (ctx : BlockContext) (txid : Uint256) (reg : IssuerReg)
    (prev : Option AssetRegistryEntry) (now : AssetRegistryEntry) : AssetRegistryEntry :=
  if reg.kyc_flags = 0 then now
  else
    applyComplianceRootUpdate
      { now with
        has_kyc := true
        zk_vk_commitment := reg.zk_vk_commitment
        max_root_age := reg.max_root_age
        tfr_flags := reg.tfr_flags }
      prev reg.compliance_root_commit reg.zk_vk_commitment ctx.nHeight txid

def checkRegTerms (reg : IssuerReg) (bond : Int64) : Except Failure Unit := do
  require (reg.unlock_fees_sats = 0xFFFFFFFFFFFFFFFF ∨ bond.toUInt64 ≤ reg.unlock_fees_sats)
    (.consensus "asset-unlock-below-bond")
  let mask := resolveFamilies reg.allowed_spk_families reg.policy_bits
  require (hasBits reg.policy_bits BURN_JOINT_REQUIRED → mask &&& ~~~ SPK_HOLDER_ONLY = 0)
    (.consensus "asset-reg-families")
  require (!kycPqFamilyConflict reg mask) (.consensus "asset-reg-kyc-pq")

def bringsIcuText (prev : Option AssetRegistryEntry) (reg : IssuerReg) : Bool :=
  match prev with
  | none => reg.icu_ctxt_commit ≠ 0
  | some prev => reg.icu_ctxt_commit ≠ prev.icu_ctxt_commit

def regDelegateSource (view : CCoinsView) (id : Uint256) (reg : IssuerReg) : Option AssetRegistryEntry :=
  if ISSUER_REG_FORMAT_V2 ≤ reg.format_version ∧ reg.compliance_delegate_asset_id ≠ 0 ∧
      reg.compliance_delegate_asset_id ≠ id then
    view.policies.get? reg.compliance_delegate_asset_id
  else none

def bindTicker (prev : Option AssetRegistryEntry) (reg : IssuerReg) (view : CCoinsView) : CCoinsView :=
  if (prev.map AssetRegistryEntry.ticker).getD [] = [] ∧ reg.ticker ≠ [] then
    { view with tickers := view.tickers.insert ⟨reg.ticker⟩ reg.asset_id }
  else view

def installRegVk (c : Crypto) (pass : RegistryPass) (reg : IssuerReg) : Except Failure RegistryPass :=
  if reg.kyc_flags ≠ 0 then installVk c pass reg.asset_id reg.zk_vk_commitment else .ok pass

def checkRegDelegate (view : CCoinsView) (prev : Option AssetRegistryEntry) (reg : IssuerReg) :
    Except Failure Unit :=
  match validateDelegateRegistration reg.asset_id reg prev
      (regDelegateSource view reg.asset_id reg) with
  | some reason => .error (.consensus reason)
  | none => .ok ⟨⟩

def installRegIcu (env : ChainEnv) (pass : RegistryPass) (prev : Option AssetRegistryEntry)
    (reg : IssuerReg) : Except Failure RegistryPass :=
  if bringsIcuText prev reg then installIcu env pass reg.asset_id reg else .ok pass

def checkRegHistory (ctx : BlockContext) (tx : CTransaction) (coins : List Coin)
    (prev : Option AssetRegistryEntry) (reg : IssuerReg) : Except Failure Unit :=
  match prev with
  | some prev => checkRegUpdate ctx tx coins reg.asset_id prev reg
  | none => .ok ⟨⟩

def newEntry (ctx : BlockContext) (tx : CTransaction) (p : PendingIssuerReg)
    (prev : Option AssetRegistryEntry) (ticker : Bytes) (decimals : UInt8) : AssetRegistryEntry :=
  let txid := tx.txid ctx.env.crypto
  withCompliance ctx txid p.reg prev (registeredEntry ctx txid p prev ticker decimals)

def registerAsset (ctx : BlockContext) (tx : CTransaction) (coins : List Coin)
    (spent : List (Uint256 × Int)) (pass : RegistryPass) (p : PendingIssuerReg) :
    Except Failure RegistryPass := do
  let reg := p.reg
  let prev := pass.view.policies.get? reg.asset_id
  checkRegTerms reg p.out.nValue
  let (ticker, sponsored) ←
    resolveTicker ctx.env.params pass.view spent reg.asset_id prev reg.ticker
  let decimals ← resolveDecimals prev reg.decimals
  let min_bond :=
    if sponsored then ctx.env.params.SponsoredChildMinIcuBond else ctx.env.params.AssetMinIcuBond
  require (prev.isSome ∨ min_bond ≤ 0 ∨ min_bond ≤ p.out.nValue.toInt)
    (.consensus "asset-bond-minimum")
  let pass ← installRegVk ctx.env.crypto
    { pass with
      undo := { pass.undo with
        reg_undo := pass.undo.reg_undo ++ [RegUndoEntry.mk reg.asset_id prev] }
      view := bindTicker prev reg pass.view } reg
  checkRegDelegate pass.view prev reg
  let pass ← installRegIcu ctx.env pass prev reg
  checkRegHistory ctx tx coins prev reg
  .ok { pass with view := { pass.view with
    policies := pass.view.policies.insert reg.asset_id
      (newEntry ctx tx p prev ticker decimals) } }

def publishScalars (ctx : BlockContext) (spent : List (Uint256 × Int)) (pass : RegistryPass)
    (vout : List CTxOut) : Except Failure RegistryPass :=
  if ctx.env.params.ScalarCfdHeight ≤ ctx.nHeight then vout.foldlM (publishScalar ctx spent) pass
  else .ok pass

def connectAssetTx (ctx : BlockContext) (pass : RegistryPass) (entry : CTransaction × List Coin) :
    Except Failure RegistryPass := do
  let (tx, coins) := entry
  let pass ← tx.vout.foldlM (collectExtension ctx.env.crypto tx) pass
  tx.vout.forM (checkKeywrap ctx.env.crypto pass.view)
  let spent := icuSpent pass.view (tx.vin.zip coins)
  let pass ← publishScalars ctx spent pass tx.vout
  let pending := pendingRegs tx
  let ids := sortedIds (pending.map fun p => p.reg.asset_id)
  ids.forM (checkReregistration pass.view tx)
  (spent.insertionSort fun a b => a.1 ≤ b.1).forM (checkBond pass.view pending)
  checkRotation ctx.env.crypto pass.view tx
  -- The last registration of an asset is the one that counts.
  (ids.filterMap fun id => (pendingOf pending id).getLast?).foldlM
    (registerAsset ctx tx coins spent) pass

def supplyDelta (txs : List (CTransaction × List Coin)) (id : Uint256) : Int64 :=
  Int64.ofInt ((txs.map fun (tx, coins) => assetDelta (coins.map Coin.out) tx.vout id).sum)

def movedAssets (txs : List (CTransaction × List Coin)) : List Uint256 :=
  sortedIds (txs.flatMap fun (tx, coins) => (tagsOf (coins.map Coin.out) ++ tagsOf tx.vout).map AssetTag.id)

def settleSupply (txs : List (CTransaction × List Coin)) (pass : RegistryPass) (id : Uint256) :
    Except Failure RegistryPass :=
  match pass.view.policies.get? id with
  | none => .ok pass
  | some e => do
    let delta := supplyDelta txs id
    require (¬ (0 < e.issuance_cap_units ∧ 0 < delta ∧
        e.issuance_cap_units < e.issued_total + delta.toUInt64)) (.consensus "asset-cap-exceeded")
    let settled :=
      if 0 < delta then { e with issued_total := e.issued_total + delta.toUInt64 }
      else if delta < 0 then { e with burned_total := e.burned_total + (-delta).toUInt64 }
      else e
    .ok { pass with
      view := { pass.view with policies := pass.view.policies.insert id settled }
      undo :=
        if pass.undo.reg_undo.any fun u => u.asset_id = id then pass.undo
        else { pass.undo with
          reg_undo := pass.undo.reg_undo ++ [RegUndoEntry.mk id (some e)] } }

def feeAdd (fees : List FeeUndoEntry) (id : Uint256) : UInt64 :=
  ((fees.filter fun f => f.asset_id = id).map FeeUndoEntry.delta).sum

def creditFees (fees : List FeeUndoEntry) (view : CCoinsView) : CCoinsView :=
  { view with
    policies := (sortedIds (fees.map FeeUndoEntry.asset_id)).foldl (fun policies id =>
      match policies.get? id with
      | some e => policies.insert id { e with fees_accum_sats := e.fees_accum_sats + feeAdd fees id }
      | none => policies) view.policies }

/-- The asset pass up to its first failure. -/
def connectRegistry (ctx : BlockContext) (txs : List (CTransaction × List Coin)) (view : CCoinsView)
    (undo : CBlockUndo) : Except Failure (CCoinsView × CBlockUndo) := do
  let pass : RegistryPass := { view := creditFees undo.fee_undo view, undo }
  let pass ← txs.foldlM (connectAssetTx ctx) pass
  let pass ← (movedAssets txs).foldlM (settleSupply txs) pass
  require (pass.vk_chunks = ∅) (.consensus "zkchunk-unbound")
  .ok (pass.view, pass.undo)

/-- The asset pass of `ConnectBlock`: a block that fails is refused, for a reason that a later check
may have noted. -/
def connectAssets (ctx : BlockContext) (txs : List (CTransaction × List Coin)) (view : CCoinsView)
    (undo : CBlockUndo) : Except Failure (CCoinsView × CBlockUndo) :=
  (connectRegistry ctx txs view undo).mapError (ctx.env.reportedFailure txs)

end TensorCash
