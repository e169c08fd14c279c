import TensorCash.Assets.Build
import TensorCash.Models.Run
import TensorCash.Validation.AssetChain
import TensorCash.Validation.Txids

/-! `CTensorRegParams` of `kernel/chainparams.cpp`, with an evaluable hash in the place of
SHA-256. -/

namespace TensorCash

def tensorRegParams (hashGenesisBlock : Uint256) : Params where
  hashGenesisBlock
  nSubsidyHalvingInterval := 150
  ScalarCfdHeight := 0
  DefaultModelName := ascii ['t', 'e', 's', 't', 'M', 'o', 'd', 'e', 'l']
  DefaultModelCommit := ascii ['t', 'e', 's', 't', 'M', 'o', 'd', 'e', 'l', 'C', 'o', 'm', 'm', 'i', 't']
  DefaultModelCID := []

namespace RegChain

/-- A polynomial in the bytes; its last byte is zero, so every block meets the easy target. -/
def crypto : Crypto where
  sha256 bytes := Fin.ofNat _ (256 * bytes.foldl (fun acc x => acc * 257 + x.toNat + 1) 0)
  hash160 bytes := bytes.take 20
  isFullyValid bytes := bytes.length = 33

def coinbase (nHeight : Nat) (version : UInt32) (vout : List CTxOut) : CTransaction where
  version
  vin := [{
    prevout := ⟨0, COutPoint.NULL_INDEX⟩
    scriptSig := scriptPushHeight nHeight ++ [0]
    nSequence := SEQUENCE_FINAL
    scriptWitness := [] }]
  vout
  nLockTime := 0

def payAnyone (nValue : Int64) : CTxOut := ⟨nValue, [OP_1], []⟩

def pow : CProofBlob where
  tick := 10
  model_identifier := (tensorRegParams 0).DefaultModelName ++ ascii ['@'] ++ (tensorRegParams 0).DefaultModelCommit

def assemble (hashPrevBlock : Uint256) (cumulative_tick : UInt64) (vtx : List CTransaction) : CBlock :=
  let body : CBlock := { vtx, pow, cumulative_tick }
  { body with
    hashPrevBlock
    hashMerkleRoot := blockMerkleRoot crypto body
    nBits := 0x207fffff
    nAdjBits := 0x207fffff
    hashPoW := pow.getCommitment crypto true }

def genesis : CBlock := assemble 0 10 [coinbase 0 1 [payAnyone 5000000000]]

def env : TipEnv where
  crypto := crypto
  params := tensorRegParams (genesis.getHash crypto)
  validationApi := false
  quickVerdict _ := none
  vdfVerify _ _ _ := true
  reuseEntropy _ _ _ := true
  legacySigOpCount _ := 0
  signatureEncoding _ := false
  groth16 _ _ _ _ _ _ := .PairingFailed
  canonicalIcu _ := none
  inputScripts _ _ _ := none
  sequenceLocks _ _ _ := true
  sigOpCost _ _ := 0
  reportedFailure _ first := first
  bodyOnDisk _ := true

def mine (st : ChainState) (coinbaseVersion : UInt32) (vout : List CTxOut) (vtx : List CTransaction) : CBlock :=
  assemble ((st.tip.map fun b => b.getHash crypto).getD 0)
    ((st.tip.map CBlock.cumulative_tick).getD 0 + pow.tick)
    (coinbase st.chain.length coinbaseVersion vout :: vtx)

def start : ChainState := genesisState env genesis

theorem genesis_hash : genesis.getHash env.crypto = env.params.hashGenesisBlock := by
  simp only [env, tensorRegParams]

structure Node where
  blocks : List CBlock
  state : ChainState
  chain : Chain env start blocks state

def Node.fresh : Node := ⟨[], start, .nil start⟩

def Node.extend (node : Node) (block : CBlock) : Option Node :=
  match accepted : tryConnect env node.state 0 block with
  | some next => some ⟨node.blocks ++ [block], next, .snoc node.chain (connects_of_tryConnect accepted)⟩
  | none => none

def Node.idle : Nat → Node → Option Node
  | 0, node => some node
  | count + 1, node => (node.extend (mine node.state 1 [payAnyone 100] [])).bind (Node.idle count)

variable {base node : Node} {next paid again gone registered : Node} {tx : CTransaction}
  {spent : List CTxOut}

theorem Node.extend_eq_some {block : CBlock} (extended : node.extend block = some next) :
    next.blocks = node.blocks ++ [block] ∧ Connects env node.state block next.state := by
  unfold Node.extend at extended
  split at extended
  · next accepted =>
    cases extended
    exact ⟨rfl, connects_of_tryConnect accepted⟩
  · cases extended

theorem Node.idle_eq_some {count : Nat} {last : Node} (idle : node.idle count = some last) :
    ∃ more, more.length = count ∧ last.blocks = node.blocks ++ more ∧
      Chain env node.state more last.state ∧ ∀ block ∈ more, ∀ tx ∈ block.vtx, tx.version = 1 := by
  induction count generalizing node with
  | zero =>
    cases idle
    exact ⟨[], rfl, by simp, .nil _, by simp⟩
  | succ count ih =>
    obtain ⟨next, extended, idle⟩ := Option.bind_eq_some_iff.mp idle
    obtain ⟨blocks, connects⟩ := Node.extend_eq_some extended
    obtain ⟨more, length, rest, chain, plain⟩ := ih idle
    refine ⟨mine node.state 1 [payAnyone 100] [] :: more, by simp [length], by simp [rest, blocks],
      .cons connects chain, ?_⟩
    · rintro block (_ | ⟨_, member⟩) tx inside
      · obtain rfl : tx = coinbase node.state.chain.length 1 [payAnyone 100] := by
          simpa [mine, assemble] using inside
        rfl
      · exact plain block member tx inside

theorem Node.assumptions (short : node.blocks.length < 2 ^ 31)
    (distinct : ((transactions node.blocks).map (CTransaction.txid crypto)).Nodup)
    (nonzero : ∀ t ∈ transactions node.blocks, t.txid crypto ≠ 0)
    (real : ∀ t ∈ transactions node.blocks, ∀ payload,
      parseModelDepositTx crypto env.params t = some payload →
        payload.model_hash ≠ CHALLENGE_BURN_SENTINEL) :
    ChainAssumptions env genesis node.blocks where
  genesis_hash := genesis_hash
  heights := short
  injective t member u member' same := by rw [List.inj_on_of_nodup_map distinct member member' same]
  nonzero := nonzero
  real
  default_real := by decide +kernel

/-! ## A day on the chain

The first block accuses the default model and the second one deposits a bond for another, which
nobody verifies. Nothing else happens until the block of the verdict. -/

def pushData (data : Bytes) : CScript := UInt8.ofNat data.length :: data

def accusationOutputs : List CTxOut :=
  [payAnyone 500000000,
    ⟨0, OP_RETURN :: (pushData MODELREG_CHALLENGE_TAG ++ pushData (genesis.getHash crypto).bytes), []⟩]

def spend (version : UInt32) (prevout : COutPoint) (vout : List CTxOut) : CTransaction where
  version
  vin := [{ prevout, scriptSig := [], nSequence := SEQUENCE_FINAL, scriptWitness := [] }]
  vout
  nLockTime := 0

def defaultModel : Uint256 := pow.getModelHash crypto

def firstMint : CTransaction :=
  coinbase 1 MODEL_ACCUSATION_TX_VERSION (accusationOutputs ++ [payAnyone 2000000000])

def firstBlock : CBlock :=
  mine start MODEL_ACCUSATION_TX_VERSION (accusationOutputs ++ [payAnyone 2000000000]) []

def hardModel : ModelMetadata where
  model_name := ascii ['n']
  model_commit := ascii ['c']
  difficulty := 2 ^ 40

def ownerKey : Bytes := List.replicate 33 2

def tagged (tag data : Bytes) : CTxOut := ⟨0, OP_RETURN :: (pushData tag ++ pushData data), []⟩

def depositOutputs : List CTxOut :=
  [⟨500000000, [OP_DUP, OP_HASH160, 20] ++ ownerKey.take 20 ++ [OP_EQUALVERIFY, OP_CHECKSIG], []⟩,
    tagged MODELREG_NAME_TAG hardModel.model_name, tagged MODELREG_COMMIT_TAG hardModel.model_commit,
    tagged MODELREG_DIFFICULTY_TAG (Codec.leBytes 8 (2 ^ 40)),
    tagged MODELREG_DEPOSIT_TAG (hardModel.hash crypto).bytes, tagged MODELREG_OWNER_TAG ownerKey]

def bondMint : CTransaction := coinbase 2 MODEL_REGISTER_DEPOSIT_TX_VERSION depositOutputs

def bondBlock (st : ChainState) : CBlock := mine st MODEL_REGISTER_DEPOSIT_TX_VERSION depositOutputs []

def eve : Option Node :=
  ((Node.fresh.extend firstBlock).bind fun node => node.extend (bondBlock node.state)).bind (Node.idle 98)

def payment : CTransaction := spend 1 ⟨firstMint.txid crypto, 2⟩ [payAnyone 1000000000]

def nextAccusation : CTransaction :=
  spend MODEL_ACCUSATION_TX_VERSION ⟨firstMint.txid crypto, 2⟩ accusationOutputs

def withdrawal : CTransaction := spend 1 ⟨nextAccusation.txid crypto, 0⟩ [payAnyone 400000000]

/-- The bond of the model that was never verified, sent to an output nobody can spend. -/
def burn : CTransaction :=
  spend MODEL_REGISTER_BURN_TX_VERSION ⟨bondMint.txid crypto, 0⟩ [⟨0, [OP_RETURN], []⟩]

def Node.mined (node : Node) (tx : CTransaction) : CBlock := mine node.state 1 [payAnyone 100] [tx]

def Node.tidy (node : Node) : Bool :=
  decide ((transactions node.blocks).map (CTransaction.txid crypto)).Nodup && (transactions node.blocks).all fun t =>
      decide (t.txid crypto ≠ 0) && (parseModelDepositTx crypto env.params t).all fun payload =>
        decide (payload.model_hash ≠ CHALLENGE_BURN_SENTINEL)

def Node.Unfiled (base : Node) : Prop :=
  base.state.modelDb.challengeDeposits.get? ⟨firstMint.txid crypto, 2⟩ = none ∧
    base.state.modelDb.challengeDeposits.get? ⟨0, COutPoint.NULL_INDEX⟩ = none

def Node.Overlapped (again : Node) : Prop :=
  again.state.modelDb.challengeDeposits.get? ⟨firstMint.txid crypto, 0⟩ = some defaultModel ∧
    (again.state.modelDb.challenges.get? ⟨201, defaultModel⟩).map
      (fun v => (v.state, v.deposit_outpoint)) = some (0, ⟨nextAccusation.txid crypto, 0⟩)

instance (base : Node) : Decidable base.Unfiled := inferInstanceAs (Decidable (_ ∧ _))

instance (again : Node) : Decidable again.Overlapped := inferInstanceAs (Decidable (_ ∧ _))

/-- The bond is locked, and not filed for a challenge. -/
def Node.Forfeits (gone : Node) : Prop :=
  (gone.state.modelDb.models.get? (hardModel.hash crypto)).map (fun r => (r.status, r.deposit_outpoint)) =
      some (.Locked, ⟨bondMint.txid crypto, 0⟩) ∧
    gone.state.modelDb.challengeDeposits.get? ⟨bondMint.txid crypto, 0⟩ = none ∧
    gone.state.modelDb.challengeDeposits.get? ⟨0, COutPoint.NULL_INDEX⟩ = none

instance (gone : Node) : Decidable gone.Forfeits := inferInstanceAs (Decidable (_ ∧ _))

def Node.bond (node : Node) : Option (Bool × Nat) :=
  (node.state.modelDb.models.get? (hardModel.hash crypto)).map fun r => (r.forfeited, r.deposit_block_height)

/-! ## Assets on the chain

Credentials are bought on the eve of the verdict: one way renews and then votes; another changes the
core policy while nothing is issued. -/

def signedSpend (prevouts : List COutPoint) (vout : List CTxOut) : CTransaction where
  version := 1
  vin := prevouts.map fun prevout =>
    { prevout, scriptSig := [], nSequence := SEQUENCE_FINAL, scriptWitness := [List.replicate 64 1] }
  vout
  nLockTime := 0

def Node.signed (node : Node) (tx : CTransaction) : CBlock :=
  let nonce : Bytes := List.replicate 32 0
  let root := blockWitnessMerkleRoot crypto { vtx := [coinbase 0 1 [], tx] }
  let commitment := (crypto.hash (root.bytes ++ nonce)).bytes
  let mint := coinbase node.state.chain.length 1
    [payAnyone 100, ⟨0, [OP_RETURN, 0x24, 0xaa, 0x21, 0xa9, 0xed] ++ commitment, []⟩]
  assemble ((node.state.tip.map fun b => b.getHash crypto).getD 0)
    ((node.state.tip.map CBlock.cumulative_tick).getD 0 + pow.tick)
    [{ mint with vin := mint.vin.map fun i => { i with scriptWitness := [nonce] } }, tx]

/-- An asset with a bond of a hundred coins' fees, whose terms need every holder's vote. -/
def firstReg : IssuerReg where
  asset_id := 7
  policy_bits := MINT_ALLOWED ||| BURN_ALLOWED
  allowed_spk_families := 0
  format_version := ISSUER_REG_FORMAT_V1
  ticker := []
  decimals := 255
  unlock_fees_sats := 10000000000
  kyc_flags := 0
  zk_vk_commitment := 0
  max_root_age := 0
  tfr_flags := 0
  compliance_root_commit := 0
  icu_flags := 0
  issuance_cap_units := 0
  icu_ctxt_commit := 0
  icu_plain_commit := 0
  kdf_salt := List.replicate 16 0
  icu_version := 0
  icu_visibility := 0
  core_policy_commit := 0
  policy_epoch := 0
  policy_quorum_bps := 10000
  compliance_delegate_asset_id := 0

def changedReg : IssuerReg :=
  { firstReg with allowed_spk_families := SPK_P2TR, unlock_fees_sats := 500000000 }

def reversedReg : IssuerReg := { firstReg with policy_quorum_bps := 0 }

def vkPayload : Bytes := [1]

def kycReg : IssuerReg :=
  { firstReg with kyc_flags := 1, zk_vk_commitment := crypto.hash vkPayload, policy_quorum_bps := 0 }

def credential (reg : IssuerReg) : CTxOut := ⟨500000000, [OP_1], buildIssuerRegV1 reg⟩

def units (amount : UInt64) : CTxOut := ⟨1000, [OP_1], buildAssetTag 7 amount⟩

def vkChunk : CTxOut :=
  ⟨0, [OP_RETURN], buildTlv ZK_PARAMS_CHUNK
    ((7 : Uint256).bytes ++ (crypto.hash vkPayload).bytes ++ [0, 0, 1, 0] ++ vkPayload)⟩

def registration : CTransaction :=
  spend 1 ⟨firstMint.txid crypto, 2⟩ [credential firstReg, payAnyone 1400000000]

def onward (tx : CTransaction) (vout : List CTxOut) : CTransaction :=
  signedSpend [⟨tx.txid crypto, 0⟩, ⟨tx.txid crypto, 1⟩] vout

def renewal : CTransaction := onward registration [credential firstReg, units 100]

def vote : CTransaction := onward renewal [credential reversedReg, units 100]

def rotation : CTransaction := onward registration [credential changedReg, payAnyone 1000000000]

def issue : CTransaction := onward rotation [credential changedReg, units (2 ^ 62)]

def repetition : CTransaction := signedSpend [⟨issue.txid crypto, 0⟩] [credential changedReg]

def reversal : CTransaction := signedSpend [⟨issue.txid crypto, 0⟩] [credential reversedReg]

def Node.spends (node : Node) (tx : CTransaction) : List (CTransaction × List Coin) :=
  blockSpends crypto node.state.chain.length node.state.coinsTip.coins (node.signed tx).vtx

def Node.entry (node : Node) : Option AssetRegistryEntry := node.state.coinsTip.policies.get? 7

/-- A signed transaction takes a node further, and spends certain outputs. -/
structure Node.Takes (node : Node) (tx : CTransaction) (spent : List CTxOut) (next : Node) : Prop where
  extended : node.extend (node.signed tx) = some next
  spends : ∃ found, (tx, found) ∈ node.spends tx ∧ found.map Coin.out = spent

def Node.takes (node : Node) (tx : CTransaction) (spent : List CTxOut) (further : Node → Bool) : Bool :=
  ((node.spends tx).any fun (t, found) => decide (t = tx ∧ found.map Coin.out = spent)) &&
    (node.extend (node.signed tx)).any further

theorem Node.takes_eq_true
    {further : Node → Bool} (evaluated : node.takes tx spent further = true) :
    ∃ next, node.Takes tx spent next ∧ further next = true := by
  obtain ⟨spends, extends_⟩ := Bool.and_eq_true_iff.mp evaluated
  obtain ⟨next, extended, rest⟩ := (Option.any_eq_true _ _).mp extends_
  obtain ⟨⟨t, found⟩, member, same⟩ := List.any_eq_true.mp spends
  obtain ⟨rfl, outs⟩ := of_decide_eq_true same
  exact ⟨next, ⟨extended, found, member, outs⟩, rest⟩

structure EntryTerms where
  issued_total : UInt64
  burned_total : UInt64
  unlock_fees_sats : UInt64
  policy_quorum_bps : UInt16
  core_policy_commit : Uint256
  has_kyc : Bool
deriving DecidableEq

def termsOf (e : AssetRegistryEntry) : EntryTerms where
  issued_total := e.issued_total
  burned_total := e.burned_total
  unlock_fees_sats := e.unlock_fees_sats
  policy_quorum_bps := e.policy_quorum_bps
  core_policy_commit := e.core_policy_commit
  has_kyc := e.has_kyc

def termsUnder (first reg : IssuerReg) (issued burned : UInt64) : EntryTerms where
  issued_total := issued
  burned_total := burned
  unlock_fees_sats := reg.unlock_fees_sats
  policy_quorum_bps := reg.policy_quorum_bps
  core_policy_commit := computeCorePolicyCommit crypto first.allowed_spk_families first.policy_bits
    first.kyc_flags first.tfr_flags
  has_kyc := decide (reg.kyc_flags ≠ 0)

def Node.holds (node : Node) (terms : EntryTerms) : Bool :=
  node.entry.any fun e => decide (termsOf e = terms) && decide (e.fees_accum_sats < 10000000000)

def Node.assetDays (base : Node) : Bool :=
  (base.blocks.flatMap blockRegs).isEmpty && base.entry.isNone &&
  base.takes registration [payAnyone 2000000000] (fun registered =>
    registered.holds (termsUnder firstReg firstReg 0 0) &&
    registered.takes renewal [credential firstReg, payAnyone 1400000000] (fun renewed =>
      renewed.holds (termsUnder firstReg firstReg 100 0) &&
      renewed.takes vote [credential firstReg, units 100] fun voted =>
        voted.holds (termsUnder firstReg reversedReg 100 0)) &&
    registered.takes rotation [credential firstReg, payAnyone 1400000000] fun rotated =>
      rotated.holds (termsUnder firstReg changedReg 0 0) &&
      rotated.takes issue [credential changedReg, payAnyone 1000000000] fun issued =>
        issued.holds (termsUnder firstReg changedReg (2 ^ 62) 0) &&
        decide ((connectTip env issued.state (issued.signed repetition)).2 =
          .error (.consensus "policy-core-changed")) && issued.takes reversal [credential changedReg] fun _ => true)

/-! Further ways on: a cap on the issue is voted down, a child is sponsored, a root comes back under
another key, and an asset asks for compliance without the bit that counts. -/

def fund (vout : List CTxOut) : CTransaction := spend 1 ⟨firstMint.txid crypto, 2⟩ vout

def cappedReg : IssuerReg := { firstReg with issuance_cap_units := 1000 }

def loweredReg : IssuerReg := { firstReg with issuance_cap_units := 50, policy_quorum_bps := 0 }

def capRegistration : CTransaction := fund [credential cappedReg, payAnyone 1400000000]

/-- The value 42 for an epoch of the asset's first feed. -/
def publication (epoch : Nat) : CTxOut :=
  ⟨0, [OP_RETURN], buildTlv ISSUER_SCALAR ((7 : Uint256).bytes ++ Codec.leBytes 4 1 ++
    Codec.leBytes 8 epoch ++ Codec.leBytes 2 0x0010 ++ Codec.leBytes 32 42)⟩

def capIssue : CTransaction := onward capRegistration [credential cappedReg, units 100, publication 1]

def capVote : CTransaction := onward capIssue [credential loweredReg, units 100, publication 2]

def capRenewal : CTransaction := onward capVote [credential loweredReg, units 100]

def kycRegistration : CTransaction := fund [credential kycReg, payAnyone 1400000000, vkChunk]

def kycIssue : CTransaction := onward kycRegistration [credential kycReg, units 100]

def kycMove : CTransaction := onward kycIssue [credential kycReg, units 100]

def rootTicker : Bytes := [65, 67, 77, 69]

def childTicker : Bytes := rootTicker ++ [TICKER_DOT, 83, 85, 66]

def rootReg : IssuerReg := { firstReg with ticker := rootTicker, policy_quorum_bps := 0 }

def childReg : IssuerReg := { rootReg with asset_id := 8, ticker := childTicker }

def childCredential : CTxOut := ⟨50000000, [OP_1], buildIssuerRegV1 childReg⟩

def rootRegistration : CTransaction := fund [credential rootReg, payAnyone 1400000000]

def childRegistration : CTransaction :=
  onward rootRegistration [credential rootReg, childCredential, payAnyone 1000000000]

def keyReg (root : Uint256) (payload : Bytes) : IssuerReg :=
  { firstReg with
    kyc_flags := 1, zk_vk_commitment := crypto.hash payload, max_root_age := 100
    compliance_root_commit := root, policy_quorum_bps := 0 }

def keyChunk (payload : Bytes) : CTxOut :=
  ⟨0, [OP_RETURN], buildTlv ZK_PARAMS_CHUNK
    ((7 : Uint256).bytes ++ (crypto.hash payload).bytes ++ [0, 0, 1, 0] ++ payload)⟩

def keyRegistration : CTransaction := fund [credential (keyReg 1 [1]), payAnyone 1400000000, keyChunk [1]]

def keyRotation : CTransaction :=
  onward keyRegistration [credential (keyReg 2 [2]), payAnyone 1300000000, keyChunk [2]]

def keyReturn : CTransaction := onward keyRotation [credential (keyReg 1 [2]), payAnyone 1200000000]

def capTerms (e : AssetRegistryEntry) : UInt64 × UInt64 × UInt16 :=
  (e.issuance_cap_units, e.issued_total, e.policy_quorum_bps)

structure RootTerms where
  root : Uint256
  vk : Uint256
  roots : List Uint256
  heights : List Nat
  vks : List Uint256
  max_root_age : UInt32
  source : Uint256
deriving DecidableEq

def rootTerms (e : AssetRegistryEntry) : RootTerms where
  root := e.compliance_root_commit
  vk := e.zk_vk_commitment
  roots := e.compliance_root_history.map ComplianceRootHistory.root_commit
  heights := e.compliance_root_history.map ComplianceRootHistory.activation_height
  vks := e.compliance_root_history_vk
  max_root_age := e.max_root_age
  source := e.compliance_delegate_asset_id

def Node.cap (node : Node) : Option (UInt64 × UInt64 × UInt16) := node.entry.map capTerms

def Node.fees (node : Node) : Option UInt64 := node.entry.map AssetRegistryEntry.fees_accum_sats

def Node.roots (node : Node) : Option RootTerms := node.entry.map rootTerms

def keyTerms (history : List (Uint256 × Bytes × Nat)) (root : Uint256) (payload : Bytes) : RootTerms where
  root
  vk := crypto.hash payload
  roots := history.map fun h => h.1
  heights := history.map fun h => h.2.2
  vks := history.map fun h => crypto.hash h.2.1
  max_root_age := 100
  source := 0

def Node.holderDays (base : Node) : Bool :=
  base.takes capRegistration [payAnyone 2000000000] (fun registered =>
    registered.takes capIssue [credential cappedReg, payAnyone 1400000000] fun issued =>
      decide (issued.cap = some (1000, 100, 10000)) &&
      issued.takes capVote [credential cappedReg, units 100] fun voted =>
        decide (voted.cap = some (50, 100, 0)) &&
        decide (voted.state.coinsTip.scalarHeads.get? ⟨7, 1⟩ = some 2) &&
        voted.takes capRenewal [credential loweredReg, units 100] fun renewed =>
          decide (renewed.cap = some (50, 100, 0))) &&
  base.takes rootRegistration [payAnyone 2000000000] (fun registered =>
    registered.takes childRegistration [credential rootReg, payAnyone 1400000000] fun sponsored =>
      decide (sponsored.state.coinsTip.tickers.get? ⟨childTicker⟩ = some 8) &&
      decide (registered.fees = some 0 ∧ sponsored.fees = some 175000000))

def Node.keyDays (base : Node) : Bool :=
  base.takes keyRegistration [payAnyone 2000000000] (fun registered =>
    decide (registered.roots = some (keyTerms [(1, [1], 101)] 1 [1])) &&
    registered.takes keyRotation [credential (keyReg 1 [1]), payAnyone 1400000000] fun rotated =>
      decide (rotated.roots = some (keyTerms [(1, [1], 101), (2, [2], 102)] 2 [2])) &&
      rotated.takes keyReturn [credential (keyReg 2 [2]), payAnyone 1300000000] fun returned =>
        decide (returned.roots = some (keyTerms [(1, [1], 101), (2, [2], 102), (1, [2], 103)] 1 [2]))) &&
  base.takes kycRegistration [payAnyone 2000000000] fun registered =>
    registered.takes kycIssue [credential kycReg, payAnyone 1400000000] fun issued =>
      issued.holds (termsUnder kycReg kycReg 100 0) && issued.takes kycMove [credential kycReg, units 100] fun _ => true

structure Eve (base paid again gone : Node) : Prop where
  reached : eve = some base
  pays : base.extend (base.mined payment) = some paid
  accuses : base.extend (base.mined nextAccusation) = some again
  withdraws : again.extend (again.mined withdrawal) = some gone
  unfiled : base.Unfiled
  overlapped : again.Overlapped
  paid_tidy : paid.tidy = true
  forfeits : gone.Forfeits
  burns : ∃ burned, gone.extend (gone.mined burn) = some burned ∧ burned.tidy = true ∧
    burned.bond = some (true, 2)

def Node.accusesAgain (again : Node) : Bool :=
  decide again.Overlapped && (again.extend (again.mined withdrawal)).any fun gone =>
    decide gone.Forfeits && (gone.extend (gone.mined burn)).any fun burned =>
      burned.tidy && decide (burned.bond = some (true, 2))

def Node.firstDays (base : Node) : Bool :=
  (decide base.Unfiled && (base.extend (base.mined payment)).any Node.tidy) &&
    (base.extend (base.mined nextAccusation)).any Node.accusesAgain

-- The second evaluation runs in what the first one gives back: as one they hold too much.
theorem days_of_eve : (eve.any fun base => base.firstDays && base.assetDays) = true ∧
    (eve.any fun base => base.holderDays && base.keyDays) = true :=
  ⟨by decide +kernel, by decide +kernel⟩

theorem eve_exists : ∃ base paid again gone, Eve base paid again gone := by
  obtain ⟨base, reached, days⟩ := (Option.any_eq_true _ _).mp days_of_eve.1
  obtain ⟨first, second⟩ := Bool.and_eq_true_iff.mp (Bool.and_eq_true_iff.mp days).1
  obtain ⟨unfiled, pays⟩ := (Bool.and_eq_true_iff).mp first
  obtain ⟨paid, pays, paid_tidy⟩ := (Option.any_eq_true _ _).mp pays
  obtain ⟨again, accuses, further⟩ := (Option.any_eq_true _ _).mp second
  obtain ⟨overlapped, withdraws⟩ := (Bool.and_eq_true_iff).mp further
  obtain ⟨gone, withdraws, checked⟩ := (Option.any_eq_true _ _).mp withdraws
  simp only [Bool.and_eq_true, decide_eq_true_eq] at checked
  obtain ⟨forfeits, burns⟩ := checked
  obtain ⟨burned, burns, checked⟩ := (Option.any_eq_true _ _).mp burns
  simp only [Bool.and_eq_true, decide_eq_true_eq] at checked
  exact ⟨base, paid, again, gone, reached, pays, accuses, withdraws, of_decide_eq_true unfiled,
    of_decide_eq_true overlapped, paid_tidy, forfeits, burned, burns, checked⟩

structure VoteDay (base registered renewed voted : Node) : Prop where
  quiet : base.blocks.flatMap blockRegs = []
  unknown : base.entry = none
  registers : base.Takes registration [payAnyone 2000000000] registered
  registered_terms : registered.holds (termsUnder firstReg firstReg 0 0) = true
  renews : registered.Takes renewal [credential firstReg, payAnyone 1400000000] renewed
  renewed_terms : renewed.holds (termsUnder firstReg firstReg 100 0) = true
  votes : renewed.Takes vote [credential firstReg, units 100] voted
  voted_terms : voted.holds (termsUnder firstReg reversedReg 100 0) = true

structure ChangeDay (base registered rotated issued reversed : Node) : Prop where
  quiet : base.blocks.flatMap blockRegs = []
  registers : base.Takes registration [payAnyone 2000000000] registered
  registered_terms : registered.holds (termsUnder firstReg firstReg 0 0) = true
  rotates : registered.Takes rotation [credential firstReg, payAnyone 1400000000] rotated
  rotated_terms : rotated.holds (termsUnder firstReg changedReg 0 0) = true
  issues : rotated.Takes issue [credential changedReg, payAnyone 1000000000] issued
  issued_terms : issued.holds (termsUnder firstReg changedReg (2 ^ 62) 0) = true
  refuses : (connectTip env issued.state (issued.signed repetition)).2 = .error (.consensus "policy-core-changed")
  reverses : issued.Takes reversal [credential changedReg] reversed

theorem assetDays_exist : ∃ base registered : Node, (∃ renewed voted, VoteDay base registered renewed voted) ∧
      ∃ rotated issued reversed, ChangeDay base registered rotated issued reversed := by
  obtain ⟨base, reached, days⟩ := (Option.any_eq_true _ _).mp days_of_eve.1
  have ways := (Bool.and_eq_true_iff.mp days).2
  simp only [Node.assetDays, Bool.and_eq_true] at ways
  obtain ⟨⟨quiet, unknown⟩, plain⟩ := ways
  have quiet := List.isEmpty_iff.mp quiet
  obtain ⟨registered, registers, plain⟩ := Node.takes_eq_true plain
  simp only [Bool.and_eq_true] at plain
  obtain ⟨⟨registered_terms, votes⟩, changes⟩ := plain
  refine ⟨base, registered, ?_, ?_⟩
  · obtain ⟨renewed, renews, votes⟩ := Node.takes_eq_true votes
    simp only [Bool.and_eq_true] at votes
    obtain ⟨voted, voting, voted_terms⟩ := Node.takes_eq_true votes.2
    exact ⟨renewed, voted, quiet, Option.isNone_iff_eq_none.mp unknown, registers, registered_terms,
      renews, votes.1, voting, voted_terms⟩
  · obtain ⟨rotated, rotates, changes⟩ := Node.takes_eq_true changes
    simp only [Bool.and_eq_true] at changes
    obtain ⟨rotated_terms, issues⟩ := changes
    obtain ⟨issued, issues, rest⟩ := Node.takes_eq_true issues
    simp only [Bool.and_eq_true, decide_eq_true_eq] at rest
    obtain ⟨reversed, reverses, _⟩ := Node.takes_eq_true rest.2
    exact ⟨rotated, issued, reversed, quiet, registers, registered_terms, rotates,
      rotated_terms, issues, rest.1.1, rest.1.2, reverses⟩

structure CapDay (base registered issued voted renewed : Node) : Prop where
  registers : base.Takes capRegistration [payAnyone 2000000000] registered
  issues : registered.Takes capIssue [credential cappedReg, payAnyone 1400000000] issued
  issued_cap : issued.cap = some (1000, 100, 10000)
  votes : issued.Takes capVote [credential cappedReg, units 100] voted
  voted_cap : voted.cap = some (50, 100, 0)
  published : voted.state.coinsTip.scalarHeads.get? ⟨7, 1⟩ = some 2
  renews : voted.Takes capRenewal [credential loweredReg, units 100] renewed
  renewed_cap : renewed.cap = some (50, 100, 0)

structure ChildDay (base registered sponsored : Node) : Prop where
  registers : base.Takes rootRegistration [payAnyone 2000000000] registered
  sponsors : registered.Takes childRegistration [credential rootReg, payAnyone 1400000000] sponsored
  bound : sponsored.state.coinsTip.tickers.get? ⟨childTicker⟩ = some 8
  /-- The fee of the second registration is shared between parent and child. -/
  collects : registered.fees = some 0 ∧ sponsored.fees = some 175000000

/-- The way on which a root comes back under another key. -/
structure KeyDay (base registered rotated returned : Node) : Prop where
  registers : base.Takes keyRegistration [payAnyone 2000000000] registered
  registered_roots : registered.roots = some (keyTerms [(1, [1], 101)] 1 [1])
  rotates : registered.Takes keyRotation [credential (keyReg 1 [1]), payAnyone 1400000000] rotated
  rotated_roots : rotated.roots = some (keyTerms [(1, [1], 101), (2, [2], 102)] 2 [2])
  returns : rotated.Takes keyReturn [credential (keyReg 2 [2]), payAnyone 1300000000] returned
  returned_roots : returned.roots = some (keyTerms [(1, [1], 101), (2, [2], 102), (1, [2], 103)] 1 [2])

structure KycDay (base registered issued moved : Node) : Prop where
  registers : base.Takes kycRegistration [payAnyone 2000000000] registered
  issues : registered.Takes kycIssue [credential kycReg, payAnyone 1400000000] issued
  issued_terms : issued.holds (termsUnder kycReg kycReg 100 0) = true
  moves : issued.Takes kycMove [credential kycReg, units 100] moved

theorem laterDays_exist : ∃ base : Node, base.blocks.flatMap blockRegs = [] ∧
    (∃ registered issued voted renewed, CapDay base registered issued voted renewed) ∧
      (∃ registered sponsored, ChildDay base registered sponsored) ∧
      (∃ registered rotated returned, KeyDay base registered rotated returned) ∧
      ∃ registered issued moved, KycDay base registered issued moved := by
  obtain ⟨base, reached, days⟩ := (Option.any_eq_true _ _).mp days_of_eve.2
  have quiet : base.blocks.flatMap blockRegs = [] := by
    -- It is the node the first ways start from.
    obtain ⟨other, same, earlier⟩ := (Option.any_eq_true _ _).mp days_of_eve.1
    have assets := (Bool.and_eq_true_iff.mp earlier).2
    rw [← Option.mem_unique reached same] at assets
    simp only [Node.assetDays, Bool.and_eq_true] at assets
    exact List.isEmpty_iff.mp assets.1.1
  obtain ⟨holders, keys⟩ := Bool.and_eq_true_iff.mp days
  obtain ⟨cap, child⟩ := Bool.and_eq_true_iff.mp holders
  obtain ⟨key, kyc⟩ := Bool.and_eq_true_iff.mp keys
  refine ⟨base, quiet, ?_, ?_, ?_, ?_⟩
  · obtain ⟨registered, registers, cap⟩ := Node.takes_eq_true cap
    obtain ⟨issued, issues, cap⟩ := Node.takes_eq_true cap
    simp only [Bool.and_eq_true, decide_eq_true_eq] at cap
    obtain ⟨voted, votes, rest⟩ := Node.takes_eq_true cap.2
    simp only [Bool.and_eq_true, decide_eq_true_eq] at rest
    obtain ⟨renewed, renews, last⟩ := Node.takes_eq_true rest.2
    exact ⟨registered, issued, voted, renewed, registers, issues, cap.1, votes, rest.1.1, rest.1.2, renews,
      of_decide_eq_true last⟩
  · obtain ⟨registered, registers, child⟩ := Node.takes_eq_true child
    obtain ⟨sponsored, sponsors, checked⟩ := Node.takes_eq_true child
    simp only [Bool.and_eq_true, decide_eq_true_eq] at checked
    exact ⟨registered, sponsored, registers, sponsors, checked.1, checked.2⟩
  · obtain ⟨registered, registers, key⟩ := Node.takes_eq_true key
    simp only [Bool.and_eq_true, decide_eq_true_eq] at key
    obtain ⟨rotated, rotates, rest⟩ := Node.takes_eq_true key.2
    simp only [Bool.and_eq_true, decide_eq_true_eq] at rest
    obtain ⟨returned, returns, last⟩ := Node.takes_eq_true rest.2
    exact ⟨registered, rotated, returned, registers, key.1, rotates, rest.1, returns, of_decide_eq_true last⟩
  · obtain ⟨registered, registers, kyc⟩ := Node.takes_eq_true kyc
    obtain ⟨issued, issues, kyc⟩ := Node.takes_eq_true kyc
    simp only [Bool.and_eq_true] at kyc
    obtain ⟨moved, moves, _⟩ := Node.takes_eq_true kyc.2
    exact ⟨registered, issued, moved, registers, issues, kyc.1, moves⟩

theorem Node.assumptions_of_tidy (short : node.blocks.length < 2 ^ 31)
    (tidy : node.tidy = true) : ChainAssumptions env genesis node.blocks := by
  obtain ⟨distinct, each⟩ := Bool.and_eq_true_iff.mp tidy
  have checks := fun t member => Bool.and_eq_true_iff.mp (List.all_eq_true.mp each t member)
  exact Node.assumptions short (of_decide_eq_true distinct)
    (fun t member => of_decide_eq_true (checks t member).1)
    (fun t member payload parsed => by simpa [parsed] using (checks t member).2)

theorem Eve.split (day : Eve base paid again gone) :
    ∃ st idle, Connects env start firstBlock st ∧ Chain env st idle base.state ∧ idle.length = 99 ∧
      base.blocks = firstBlock :: idle ∧ ∀ block ∈ idle, ∀ tx ∈ block.vtx,
        tx.version = 1 ∨ tx.version = MODEL_REGISTER_DEPOSIT_TX_VERSION := by
  obtain ⟨bonded, first, rest⟩ := Option.bind_eq_some_iff.mp day.reached
  obtain ⟨node, first, second⟩ := Option.bind_eq_some_iff.mp first
  obtain ⟨blocks, connects⟩ := Node.extend_eq_some first
  obtain ⟨blocks', connects'⟩ := Node.extend_eq_some second
  obtain ⟨idle, length, all, chain, plain⟩ := Node.idle_eq_some rest
  refine ⟨node.state, bondBlock node.state :: idle, connects, .cons connects' chain, by simp [length], ?_, ?_⟩
  · rw [all, blocks', blocks, Node.fresh, List.nil_append, List.append_assoc, List.singleton_append,
      List.singleton_append]
  · rintro block (_ | ⟨_, member⟩) tx inside
    · obtain rfl : tx = coinbase node.state.chain.length MODEL_REGISTER_DEPOSIT_TX_VERSION depositOutputs := by
        simpa [bondBlock, mine, assemble] using inside
      exact .inr rfl
    · exact .inl (plain block member tx inside)

theorem Eve.lengths (day : Eve base paid again gone) :
    paid.blocks.length < 2 ^ 31 ∧ again.state.chain.length = 102 := by
  obtain ⟨_, idle, _, _, length, blocks, _⟩ := day.split
  have paid_blocks := (Node.extend_eq_some day.pays).1
  have again_blocks := (Node.extend_eq_some day.accuses).1
  have again_chain : again.state.chain = genesis :: again.blocks := again.chain.chain_eq
  constructor
  · simp [paid_blocks, blocks, length]
  · simp [again_chain, again_blocks, blocks, length]

theorem Eve.burned_length {burned : Node} (day : Eve base paid again gone)
    (burns : gone.extend (gone.mined burn) = some burned) : burned.blocks.length < 2 ^ 31 := by
  obtain ⟨_, idle, _, _, length, blocks, _⟩ := day.split
  simp [(Node.extend_eq_some burns).1, (Node.extend_eq_some day.withdraws).1,
    (Node.extend_eq_some day.accuses).1, blocks, length]

theorem Node.connectChain (node : Node) : ∃ steps, steps.map ChainStep.block = node.blocks ∧
    node.state.chain.length = 1 + steps.length ∧
      ConnectChain env.toChainEnv 1 { bestBlock := genesis.getHash crypto } steps
        node.state.coinsTip := by
  obtain ⟨blocks, state, chain⟩ := node
  dsimp only
  induction chain with
  | nil => exact ⟨[], rfl, rfl, .nil⟩
  | @snoc mid next blocks block earlier connects ih =>
    obtain ⟨steps, same, height, before⟩ := ih
    obtain ⟨⟨undo, connected, _⟩, _, longer⟩ := connects.parts
    -- The height is the length of the chain, genesis included.
    have here : connectBlock (contextAt env.toChainEnv (1 + steps.length) block) mid.modelDb
        mid.coinsTip block = .ok (next.coinsTip, undo) := by
      rw [← height]
      exact connected
    refine ⟨steps ++ [⟨mid.coinsTip, block⟩], by simp [same], ?_,
      .snoc before (connects.above_genesis earlier genesis_hash) here⟩
    rw [longer, List.length_append, List.length_append, height]
    rfl

theorem Node.Takes.connected {node : Node}
    (takes : node.Takes tx spent next) : (node.signed tx).getHash crypto ≠ env.params.hashGenesisBlock ∧ ∃ undo,
      connectBlock (contextAt env.toChainEnv node.state.chain.length (node.signed tx))
        node.state.modelDb node.state.coinsTip (node.signed tx) = .ok (next.state.coinsTip, undo) := by
  obtain ⟨_, connects⟩ := Node.extend_eq_some takes.extended
  obtain ⟨⟨undo, connected, _⟩, _⟩ := connects.parts
  exact ⟨connects.above_genesis node.chain genesis_hash, undo, connected⟩

theorem Node.Takes.length
    (takes : node.Takes tx spent next) : next.state.chain.length = node.state.chain.length + 1 := by
  obtain ⟨_, connects⟩ := Node.extend_eq_some takes.extended
  rw [connects.parts.2.2, List.length_append, List.length_singleton]

def Node.step (node : Node) (tx : CTransaction) : ChainStep := ⟨node.state.coinsTip, node.signed tx⟩

theorem Node.Takes.step {node : Node} {steps : List ChainStep} (takes : node.Takes tx spent next)
    (length : node.state.chain.length = 1 + steps.length)
    (chain :
       ConnectChain env.toChainEnv 1 { bestBlock := genesis.getHash crypto } steps
         node.state.coinsTip) :
    next.state.chain.length = 1 + (steps ++ [node.step tx]).length ∧
    ConnectChain env.toChainEnv 1 { bestBlock := genesis.getHash crypto } (steps ++ [node.step tx])
      next.state.coinsTip := by
  obtain ⟨above, undo, connected⟩ := takes.connected
  rw [length] at connected
  refine ⟨?_, .snoc chain above connected⟩
  rw [takes.length, length, List.length_append, List.length_singleton, Nat.add_assoc]

theorem Node.holds_eq_true {terms : EntryTerms} (evaluated : node.holds terms = true) :
    ∃ e, node.state.coinsTip.policies.get? 7 = some e ∧ termsOf e = terms ∧
      e.fees_accum_sats < 10000000000 := by
  obtain ⟨e, known, checked⟩ := (Option.any_eq_true _ _).mp evaluated
  simp only [Bool.and_eq_true, decide_eq_true_eq] at checked
  exact ⟨e, known, checked⟩

/-- What the transactions of the days register. -/
theorem regsOf_days : ∀ day ∈ [(registration, firstReg), (renewal, firstReg), (vote, reversedReg),
    (issue, changedReg), (repetition, changedReg), (reversal, reversedReg)],
    regsOf day.1.vout = [day.2] := by
  decide +kernel

theorem regsOf_registration : regsOf registration.vout = [firstReg] := regsOf_days (registration, firstReg) (by simp)

theorem regsOf_renewal : regsOf renewal.vout = [firstReg] := regsOf_days (renewal, firstReg) (by simp)

theorem regsOf_vote : regsOf vote.vout = [reversedReg] := regsOf_days (vote, reversedReg) (by simp)

theorem regsOf_issue : regsOf issue.vout = [changedReg] := regsOf_days (issue, changedReg) (by simp)

theorem regsOf_repetition : regsOf repetition.vout = [changedReg] := regsOf_days (repetition, changedReg) (by simp)

theorem regsOf_reversal : regsOf reversal.vout = [reversedReg] := regsOf_days (reversal, reversedReg) (by simp)

theorem blockRegs_signed (node : Node) (tx : CTransaction) : blockRegs (node.signed tx) = regsOf tx.vout := by
  have silent : parseIssuerReg [] = none := by decide
  simp [blockRegs, Node.signed, assemble, regsOf, coinbase, payAnyone, silent]

theorem Node.quiet_chain (quiet : base.blocks.flatMap blockRegs = []) :
    ∃ steps, (∀ s ∈ steps, blockRegs s.block = []) ∧ base.state.chain.length = 1 + steps.length ∧
      ConnectChain env.toChainEnv 1 { bestBlock := genesis.getHash crypto } steps
        base.state.coinsTip := by
  obtain ⟨steps, same, height, chain⟩ := base.connectChain
  refine ⟨steps, fun s member => ?_, height, chain⟩
  rw [← same] at quiet
  exact List.flatMap_eq_nil_iff.mp quiet s.block (List.mem_map_of_mem member)

theorem VoteDay.chain {base renewed voted : Node} (day : VoteDay base registered renewed voted) :
    ∃ steps, (∀ s ∈ steps, blockRegs s.block = []) ∧ base.state.chain.length = 1 + steps.length ∧
      ConnectChain env.toChainEnv 1 { bestBlock := genesis.getHash crypto }
        (steps ++ [base.step registration] ++ [registered.step renewal] ++ [renewed.step vote])
        voted.state.coinsTip := by
  obtain ⟨steps, silent, height, chain⟩ := Node.quiet_chain day.quiet
  obtain ⟨height₁, chain⟩ := day.registers.step height chain
  obtain ⟨height₂, chain⟩ := day.renews.step height₁ chain
  obtain ⟨_, chain⟩ := day.votes.step height₂ chain
  exact ⟨steps, silent, height, chain⟩

/-- On the day of the vote every registration of a known asset meets the terms stored before it. -/
theorem VoteDay.regs_meet {base renewed voted : Node} {steps : List ChainStep}
    {rule : IssuerReg → AssetRegistryEntry → Prop} (day : VoteDay base registered renewed voted)
    (silent : ∀ s ∈ steps, blockRegs s.block = [])
    (renews : ∀ e, termsOf e = termsUnder firstReg firstReg 0 0 → rule firstReg e)
    (votes : ∀ e, termsOf e = termsUnder firstReg firstReg 100 0 → rule reversedReg e) :
    ∀ s ∈ steps ++ [base.step registration] ++ [registered.step renewal] ++ [renewed.step vote],
      ∀ reg ∈ blockRegs s.block, ∀ e, s.view.policies.get? reg.asset_id = some e → rule reg e := by
  obtain ⟨e₁, known₁, terms₁, _⟩ := Node.holds_eq_true day.registered_terms
  obtain ⟨e₂, known₂, terms₂, _⟩ := Node.holds_eq_true day.renewed_terms
  simp only [List.mem_append, List.mem_singleton]
  rintro s (((idle | rfl) | rfl) | rfl) reg member e known
  · rw [silent s idle] at member
    cases member
  all_goals
    rw [show blockRegs (Node.step _ _).block = _ from blockRegs_signed _ _] at member
  · rw [regsOf_registration, List.mem_singleton] at member
    subst member
    exact absurd (day.unknown.symm.trans known) (by simp)
  · rw [regsOf_renewal, List.mem_singleton] at member
    subst member
    obtain rfl := Option.mem_unique known₁ known
    exact renews e₁ terms₁
  · rw [regsOf_vote, List.mem_singleton] at member
    subst member
    obtain rfl := Option.mem_unique known₂ known
    exact votes e₂ terms₂

theorem ChangeDay.chain {base rotated issued reversed : Node}
    (day : ChangeDay base registered rotated issued reversed) : ∃ steps, (∀ s ∈ steps, blockRegs s.block = []) ∧
      issued.state.chain.length = 1 + (steps ++ [base.step registration] ++
        [registered.step rotation] ++ [rotated.step issue]).length ∧
      ConnectChain env.toChainEnv 1 { bestBlock := genesis.getHash crypto }
        (steps ++ [base.step registration] ++ [registered.step rotation] ++ [rotated.step issue])
        issued.state.coinsTip := by
  obtain ⟨steps, silent, height, chain⟩ := Node.quiet_chain day.quiet
  obtain ⟨height₁, chain⟩ := day.registers.step height chain
  obtain ⟨height₂, chain⟩ := day.rotates.step height₁ chain
  obtain ⟨height₃, chain⟩ := day.issues.step height₂ chain
  exact ⟨steps, silent, height₃, chain⟩

end RegChain

end TensorCash
