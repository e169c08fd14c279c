import TensorCash.Assets.Tlv
import TensorCash.Lib.Checked
import TensorCash.Models.Records
import TensorCash.Primitives.ProofBlob

/-! `CheckTransaction`, `CheckBlock` and `ContextualCheckBlock`. Verifiers and the count of legacy
signature operations are the node's environment. -/

namespace TensorCash

open Checked

def MAX_BLOCK_WEIGHT : Nat := 5000000
def MAX_POW_BLOB_SIZE : Nat := 1000000
def MAX_BLOCK_SIGOPS_COST : Nat := 80000
def WITNESS_SCALE_FACTOR : Nat := 4
def LOCKTIME_THRESHOLD : Nat := 500000000
def SEQUENCE_FINAL : UInt32 := 0xFFFFFFFF
def MINIMUM_WITNESS_COMMITMENT : Nat := 38
def REUSE_GATE_VERSION : UInt8 := 2
def V3_PROOF_VERSION : UInt8 := 3

/-- The node's parameters and the outside code that its block checks call. -/
structure NodeEnv where
  crypto : Crypto
  params : Params
  /-- Whether a validation service is attached (`g_ValidationApi`). -/
  validationApi : Bool
  /-- The service's quick verdict on a block hash, if it has one. -/
  quickVerdict : Uint256 → Option Bool
  /-- `vdf::VerifyAgainstPrevHash`. -/
  vdfVerify : Uint256 → Bytes → UInt64 → Bool
  /-- `QuickVerifier::VerifyReuseEntropy`, at a height and for a model difficulty. -/
  reuseEntropy : CProofBlob → Nat → Int → Bool
  legacySigOpCount : CTransaction → Nat

def setCompact (nCompact : UInt32) : Nat × Bool × Bool :=
  let nSize := nCompact.toNat / 2 ^ 24
  let word := nCompact.toNat % 2 ^ 23
  let nWord := if nSize ≤ 3 then word / 2 ^ (8 * (3 - nSize)) else word
  let value := if nSize ≤ 3 then nWord else nWord * 2 ^ (8 * (nSize - 3)) % 2 ^ 256
  (value, nWord ≠ 0 && nCompact &&& 0x00800000 ≠ 0,
    nWord ≠ 0 && (34 < nSize || (0xff < nWord && 33 < nSize) || (0xffff < nWord && 32 < nSize)))

def getCompact (target : Nat) : UInt32 :=
  let nSize := ((if target = 0 then 0 else Nat.log2 target + 1) + 7) / 8
  let nCompact := if nSize ≤ 3 then target * 2 ^ (8 * (3 - nSize)) else target / 2 ^ (8 * (nSize - 3))
  -- The top bit of the mantissa is a sign, so a mantissa that has it moves down one byte.
  if nCompact / 2 ^ 23 % 2 = 1 then UInt32.ofNat (nCompact / 2 ^ 8 + (nSize + 1) * 2 ^ 24)
  else UInt32.ofNat (nCompact + nSize * 2 ^ 24)

def deriveTarget (nBits : UInt32) (pow_limit : Nat) : Option Nat :=
  let (target, negative, overflow) := setCompact nBits
  if negative || target = 0 || overflow || pow_limit < target then none else some target

def uintToArith256 (h : Uint256) : Nat := Codec.leNat h.bytes

def checkProofOfWork (hash : Uint256) (nBits : UInt32) (params : Params) : Bool :=
  (deriveTarget nBits params.powLimit).any fun target => uintToArith256 hash ≤ target

/-- The asset that an output's own reader sees, without nested records. -/
def CTxOut.assetID (out : CTxOut) : Option Uint256 := do
  let value ← parseTyped ASSET_TAG out.vExt
  let (id, rest) ← takeUint256 value
  let _ ← takeUInt64 rest
  if id = 0 then none else some id

def checkOutputValues : Int → List CTxOut → Except String Unit
  | _, [] => .ok ⟨⟩
  | total, out :: rest => do
    require (0 ≤ out.nValue.toInt) "bad-txns-vout-negative"
    require (out.nValue.toInt ≤ MAX_MONEY) "bad-txns-vout-toolarge"
    require (MoneyRange (total + out.nValue.toInt)) "bad-txns-txouttotal-toolarge"
    require (out.assetID ≠ some 0) "asset-id-zero-forbidden"
    checkOutputValues (total + out.nValue.toInt) rest

def checkTransaction (tx : CTransaction) : Except String Unit := do
  require (tx.vin ≠ []) "bad-txns-vin-empty"
  require (tx.vout ≠ []) "bad-txns-vout-empty"
  require (tx.getSerializeSize false * WITNESS_SCALE_FACTOR ≤ MAX_BLOCK_WEIGHT)
    "bad-txns-oversize"
  checkOutputValues 0 tx.vout
  require ((tx.vin.map CTxIn.prevout).Nodup) "bad-txns-inputs-duplicate"
  if tx.isCoinBase then
    require (tx.vin.all fun i => 2 ≤ i.scriptSig.length && i.scriptSig.length ≤ 100)
      "bad-cb-length"
  else
    require (tx.vin.all fun i => !i.prevout.isNull) "bad-txns-prevout-null"

theorem checkOutputValues_range {total : Int} {outs : List CTxOut}
    (checked : checkOutputValues total outs = .ok ⟨⟩) :
    ∀ out ∈ outs, 0 ≤ out.nValue.toInt ∧ out.nValue.toInt ≤ MAX_MONEY := by
  induction outs generalizing total with
  | nil => simp
  | cons first rest ih =>
    simp only [checkOutputValues, require_bind_eq_ok] at checked
    obtain ⟨positive, bounded, _, _, later⟩ := checked
    intro out member
    rcases List.mem_cons.mp member with rfl | inside
    · exact ⟨positive, bounded⟩
    · exact ih later out inside

variable {tx : CTransaction} {env : NodeEnv} {block : CBlock}

theorem checkTransaction_values (checked : checkTransaction tx = .ok ⟨⟩) :
    ∀ out ∈ tx.vout, 0 ≤ out.nValue.toInt ∧ out.nValue.toInt ≤ MAX_MONEY := by
  simp only [checkTransaction, bind_eq_ok] at checked
  obtain ⟨_, _, _, _, _, _, _, values, _⟩ := checked
  exact checkOutputValues_range values

def isFinalTx (tx : CTransaction) (nBlockHeight nBlockTime : Nat) : Bool :=
  tx.nLockTime = 0 || tx.nLockTime.toNat <
      (if tx.nLockTime.toNat < LOCKTIME_THRESHOLD then nBlockHeight else nBlockTime) ||
    tx.vin.all fun i => i.nSequence = SEQUENCE_FINAL

def checkBlockHeader (env : NodeEnv) (fCheckPOW : Bool) (h : CBlockHeader) : Except Failure Unit :=
  require (fCheckPOW → checkProofOfWork (h.getShortHash env.crypto) h.nAdjBits env.params)
    (.invalid .BLOCK_INVALID_HEADER "high-hash")

def checkBlobTarget (block : CBlock) : Except Failure Unit := do
  let (target, negative, overflow) := setCompact block.nAdjBits
  require (¬ (negative ∨ overflow)) (.consensus "bad-adjbits")
  require (block.pow.target.length = 32) (.consensus "bad-pow-target-size")
  require (Codec.leNat block.pow.target.reverse = target) (.consensus "pow-target-mismatch")

/-- Either commitment format will do here; no answer yet counts as a pass. -/
def checkPOWFast (env : NodeEnv) (block : CBlock) : Bool :=
  (block.pow.getHash env.crypto = block.hashPoW || block.pow.getMerkleRoot env.crypto = block.hashPoW) &&
    env.validationApi && (env.quickVerdict (block.getHash env.crypto)).getD true

def checkMerkleRoot (c : Crypto) (block : CBlock) : Except Failure Unit := do
  require (block.hashMerkleRoot = blockMerkleRoot c block)
    (.invalid .BLOCK_MUTATED "bad-txnmrklroot")
  require (blockMutated c block = false) (.invalid .BLOCK_MUTATED "bad-txns-duplicate")

def checkBlockTransaction (tx : CTransaction) : Except Failure Unit :=
  (checkTransaction tx).mapError Failure.consensus

def checkPOWTarget (fCheckPOW : Bool) (block : CBlock) : Except Failure Unit :=
  if fCheckPOW ∧ block.pow.target ≠ [] then checkBlobTarget block else .ok ⟨⟩

def checkRoot (c : Crypto) (fCheckMerkleRoot : Bool) (block : CBlock) : Except Failure Unit :=
  if fCheckMerkleRoot then checkMerkleRoot c block else .ok ⟨⟩

def checkBlock (env : NodeEnv) (fCheckApi fCheckPOW fCheckMerkleRoot : Bool) (block : CBlock) :
    Except Failure Unit := do
  checkBlockHeader env fCheckPOW block.toCBlockHeader
  checkPOWTarget fCheckPOW block
  require (env.params.external_api → fCheckPOW → fCheckApi → checkPOWFast env block)
    (.consensus "bad-fast-pow")
  checkRoot env.crypto fCheckMerkleRoot block
  require (block.vtx ≠ [] ∧ block.vtx.length * WITNESS_SCALE_FACTOR ≤ MAX_BLOCK_WEIGHT ∧
      block.getSerializeSize false * WITNESS_SCALE_FACTOR ≤ MAX_BLOCK_WEIGHT)
    (.consensus "bad-blk-length")
  require (block.pow.serialize.length ≤ MAX_POW_BLOB_SIZE) (.consensus "bad-pow-blob-size")
  require (block.vtx.head?.any CTransaction.isCoinBase) (.consensus "bad-cb-missing")
  require (block.vtx.tail.all fun tx => !tx.isCoinBase) (.consensus "bad-cb-multiple")
  block.vtx.forM checkBlockTransaction
  require ((block.vtx.map env.legacySigOpCount).sum * WITNESS_SCALE_FACTOR ≤ MAX_BLOCK_SIGOPS_COST)
    (.consensus "bad-blk-sigops")

theorem checkBlock_transactions {api pow root : Bool}
    (checked : checkBlock env api pow root block = .ok ⟨⟩) :
    ∃ mint rest, block.vtx = mint :: rest ∧ mint.isCoinBase = true ∧ (∀ tx ∈ rest, tx.isCoinBase = false) ∧
      ∀ tx ∈ block.vtx, checkTransaction tx = .ok ⟨⟩ := by
  simp only [checkBlock, bind_eq_ok, require_eq_ok, forM_eq_ok] at checked
  obtain ⟨_, _, _, _, _, _, _, _, _, ⟨nonempty, _⟩, _, _, _, first, _, others, _, each, _⟩ := checked
  obtain ⟨mint, rest, vtx⟩ := List.exists_cons_of_ne_nil nonempty
  refine ⟨mint, rest, vtx, ?_, ?_, ?_⟩
  · simpa [vtx] using first
  · simpa [vtx] using others
  · exact fun tx member => mapError_eq_ok.mp (each tx member)

theorem checkTransaction_inputs (checked : checkTransaction tx = .ok ⟨⟩) : tx.vin ≠ [] ∧
      (serializeTransaction false tx).length * WITNESS_SCALE_FACTOR ≤ MAX_BLOCK_WEIGHT := by
  simp only [checkTransaction, require_bind_eq_ok] at checked
  exact ⟨checked.1, serializeTransaction_length false tx ▸ checked.2.2.1⟩

/-- What is read of the parent: position, median time, and body if there is one. -/
structure PrevIndex where
  nHeight : Nat
  medianTimePast : Nat
  body : Option CBlock

def scriptNumBytes : Nat → Nat → Bytes
  | 0, _ => []
  | _, 0 => []
  | fuel + 1, n => UInt8.ofNat n :: scriptNumBytes fuel (n / 256)

/-- `CScriptNum::serialize` of a positive number: a zero byte keeps the sign bit clear. -/
def scriptNumSerialize (n : Nat) : Bytes :=
  let bytes := scriptNumBytes 8 n
  if bytes.getLast?.any fun b => b &&& 0x80 ≠ 0 then bytes ++ [0] else bytes

def scriptPushHeight (n : Nat) : CScript :=
  if n = 0 then [0]
  else if n ≤ 16 then [UInt8.ofNat (0x50 + n)]
  else UInt8.ofNat (scriptNumSerialize n).length :: scriptNumSerialize n

def coinbaseHeightOk (block : CBlock) (nHeight : Nat) : Bool :=
  match block.vtx with
  | { vin := i :: _, .. } :: _ => (scriptPushHeight nHeight).isPrefixOf i.scriptSig
  | _ => false

def witnessCommitment (block : CBlock) : Option Bytes :=
  (block.vtx.head?.map fun tx => tx.vout.filter fun out =>
    MINIMUM_WITNESS_COMMITMENT ≤ out.scriptPubKey.length &&
      out.scriptPubKey.take 6 = [OP_RETURN, 0x24, 0xaa, 0x21, 0xa9, 0xed]).bind
    fun outs => outs.getLast?.map fun out => (out.scriptPubKey.drop 6).take 32

def coinbaseWitness (block : CBlock) : List Bytes :=
  ((block.vtx.head?.bind fun tx => tx.vin.head?).map CTxIn.scriptWitness).getD []

def checkNoWitness (block : CBlock) : Except Failure Unit :=
  require (block.vtx.all fun tx => !tx.hasWitness) (.invalid .BLOCK_MUTATED "unexpected-witness")

def checkWitnessMalleation (c : Crypto) (expect_witness_commitment : Bool) (block : CBlock) :
    Except Failure Unit :=
  match witnessCommitment block with
  | some commitment =>
    if expect_witness_commitment then
      match coinbaseWitness block with
      | [nonce] => do
        require (nonce.length = 32) (.invalid .BLOCK_MUTATED "bad-witness-nonce-size")
        require ((c.hash ((blockWitnessMerkleRoot c block).bytes ++ nonce)).bytes = commitment)
          (.invalid .BLOCK_MUTATED "bad-witness-merkle-match")
      | _ => .error (.invalid .BLOCK_MUTATED "bad-witness-nonce-size")
    else checkNoWitness block
  | none => checkNoWitness block

def CProofBlob.hasQuickFields (pb : CProofBlob) : Bool :=
  pb.chosen_tokens ≠ [] && pb.topk_logits.length = pb.chosen_tokens.length &&
    pb.topk_indices.length = pb.chosen_tokens.length && pb.header_prefix.length = 76 &&
    pb.hash ≠ [] && pb.target.length = 32

def checkProofVersion (env : NodeEnv) (db : ModelDb) (nHeight : Nat) (pb : CProofBlob) : Except Failure Unit :=
  if pb.hasQuickFields then do
    let difficulty : Int :=
      if V3_PROOF_VERSION ≤ pb.version ∧ pb.model_identifier ≠ [] then
        ((db.models.get? (pb.getModelHash env.crypto)).map fun r => r.metadata.difficulty).getD 0
      else 0
    require (env.reuseEntropy pb nHeight difficulty) (.consensus "bad-reuse-entropy")
    require (¬ (env.params.reuse_entropy_height ≤ nHeight ∧ pb.version < REUSE_GATE_VERSION))
      (.consensus "bad-proof-version")
    require (¬ (env.params.V3ActivationHeight ≤ nHeight ∧ pb.version < V3_PROOF_VERSION))
      (.consensus "bad-proof-version-v3")
  else .ok ⟨⟩

/-- The computation of `CreateNewBlock` and `ContextualCheckBlock`, in `arith_uint256`. -/
def adjustedTarget (pow_limit norm base diff : Nat) : Nat :=
  let q := base / diff
  -- The multiplication takes a factor of 32 bits.
  let whole := if norm ≠ 0 ∧ pow_limit / norm < q then pow_limit else q * (norm % 2 ^ 32) % 2 ^ 256
  let rem := (base + 2 ^ 256 - q * diff % 2 ^ 256) % 2 ^ 256
  let r64 := rem % 2 ^ 64
  let extra := if diff ≠ 0 then r64 * norm % 2 ^ 128 / diff else 0
  if 0 < extra then
    if (pow_limit + 2 ^ 256 - extra % 2 ^ 64) % 2 ^ 256 < whole then pow_limit
    else (whole + extra % 2 ^ 64) % 2 ^ 256
  else whole

def maxAdjustedTarget (params : Params) (base difficulty : Nat) : Nat :=
  let norm := params.ModelDifficultyNormalizer
  adjustedTarget params.powLimit (if norm = 0 then 1 else norm) base difficulty

def checkAdjustedBits (env : NodeEnv) (db : ModelDb) (block : CBlock) : Except Failure Unit := do
  let base ← demand (deriveTarget block.nBits env.params.powLimit)
    (.invalid .BLOCK_INVALID_HEADER "bad-diff-target")
  let adjusted ← demand (deriveTarget block.nAdjBits env.params.powLimit)
    (.invalid .BLOCK_INVALID_HEADER "bad-diff-target")
  if block.pow.model_identifier = [] then .ok ⟨⟩
  else match db.models.get? (block.pow.getModelHash env.crypto) with
    | none => .ok ⟨⟩
    | some record => do
      require (0 < record.metadata.difficulty) (.consensus "bad-model-diff")
      require (adjusted ≤ maxAdjustedTarget env.params base record.metadata.difficulty.toNat)
        (.consensus "bad-adjusted-bits")

def cumulativeTickOk (prev : PrevIndex) (block : CBlock) : Bool :=
  match prev.body with
  | none => true
  | some parent => block.cumulative_tick = parent.cumulative_tick + block.pow.tick

def getBlockWeight (block : CBlock) : Nat :=
  block.getSerializeSize false * (WITNESS_SCALE_FACTOR - 1) + block.getSerializeSize true

def contextualCheckBlock (env : NodeEnv) (db : ModelDb) (prev : PrevIndex) (block : CBlock) :
    Except Failure Unit := do
  let nHeight := prev.nHeight + 1
  let nLockTimeCutoff :=
    if env.params.CSVHeight ≤ nHeight then prev.medianTimePast else block.nTime.toNat
  require (block.vtx.all fun tx => isFinalTx tx nHeight nLockTimeCutoff)
    (.consensus "bad-txns-nonfinal")
  require (env.params.BIP34Height ≤ nHeight → coinbaseHeightOk block nHeight)
    (.consensus "bad-cb-height")
  require (block.hashPoW = block.pow.getCommitment env.crypto (env.params.vdf_spv_commitment_height ≤ nHeight))
    (.consensus "bad-pow-commitment")
  require (env.params.vdf_spv_vdfverify_height ≤ nHeight →
      env.vdfVerify block.hashPrevBlock block.pow.vdf block.pow.tick) (.consensus "bad-vdf-proof")
  checkProofVersion env db nHeight block.pow
  checkWitnessMalleation env.crypto (env.params.SegwitHeight ≤ nHeight) block
  require (getBlockWeight block ≤ MAX_BLOCK_WEIGHT) (.consensus "bad-blk-weight")
  checkAdjustedBits env db block
  require (cumulativeTickOk prev block) (.consensus "bad-cumulative-tick")

theorem contextualCheckBlock_height {db : ModelDb} {prev : PrevIndex}
    (checked : contextualCheckBlock env db prev block = .ok ⟨⟩)
    (active : env.params.BIP34Height ≤ prev.nHeight + 1) :
    coinbaseHeightOk block (prev.nHeight + 1) = true := by
  obtain ⟨_, _, checked⟩ := bind_eq_ok.mp checked
  obtain ⟨_, height, _⟩ := bind_eq_ok.mp checked
  exact require_eq_ok.mp height active

end TensorCash
