import TensorCash.Assets.Tlv
import TensorCash.Models.Records

/-! `wallet/rpc/api_model_registration.cpp` and `consensus/model_verification.cpp`. -/

namespace TensorCash

def ascii (letters : List Char) : Bytes := letters.map fun c => UInt8.ofNat c.toNat

def MODELREG_NAME_TAG : Bytes := ascii ['M', 'R', 'E', 'G', '_', 'N', 'A', 'M', 'E']
def MODELREG_COMMIT_TAG : Bytes := ascii ['M', 'R', 'E', 'G', '_', 'C', 'O', 'M', 'M', 'I', 'T']
def MODELREG_DIFFICULTY_TAG : Bytes := ascii ['M', 'R', 'E', 'G', '_', 'D', 'I', 'F', 'F']
def MODELREG_CID_TAG : Bytes := ascii ['M', 'R', 'E', 'G', '_', 'C', 'I', 'D']
def MODELREG_OPTIONAL_TAG : Bytes := ascii ['M', 'R', 'E', 'G', '_', 'O', 'P', 'T']
def MODELREG_DEPOSIT_TAG : Bytes := ascii ['M', 'R', 'E', 'G', '_', 'D', 'E', 'P', 'O', 'S', 'I', 'T']
def MODELREG_OWNER_TAG : Bytes := ascii ['M', 'R', 'E', 'G', '_', 'O', 'W', 'N', 'E', 'R']
def MODELREG_VERDICT_SUCCESS_TAG : Bytes :=
  ascii ['M', 'R', 'E', 'G', '_', 'V', 'E', 'R', 'D', 'I', 'C', 'T', '_', 'O', 'K']
def MODELREG_VERDICT_FAIL_TAG : Bytes :=
  ascii ['M', 'R', 'E', 'G', '_', 'V', 'E', 'R', 'D', 'I', 'C', 'T', '_', 'F', 'A', 'I', 'L']
def MODELREG_CHALLENGE_TAG : Bytes :=
  ascii ['M', 'R', 'E', 'G', '_', 'C', 'H', 'A', 'L', 'L', 'E', 'N', 'G', 'E']
def MODELREG_CHALLENGE_COMMIT_TAG : Bytes :=
  ascii ['M', 'R', 'E', 'G', '_', 'C', 'H', 'A', 'L', 'L', 'E', 'N', 'G', 'E', '_', 'C', 'O', 'M', 'M', 'I', 'T']

structure ModelDepositPayload where
  model_hash : Uint256
  metadata : ModelMetadata
  owner_pubkey : Bytes
  owner_key_hash : Bytes
  deposit_amount : Int
  deposit_vout : UInt32
deriving DecidableEq

structure ModelCommitPayload where
  success : Bool
  model_hash : Uint256
  metadata : ModelMetadata
  failure_reason : Nat
deriving DecidableEq

structure ModelChallengePayload where
  block_hash : Uint256
  deposit_vout : UInt32
deriving DecidableEq

structure ModelChallengeCommitPayload where
  model_hash : Uint256
deriving DecidableEq

def hashSHA256 (c : Crypto) (model_name model_commit : Bytes) : Uint256 :=
  c.sha256 (model_name ++ ascii ['@'] ++ model_commit)

def ModelMetadata.hash (c : Crypto) (metadata : ModelMetadata) : Uint256 :=
  hashSHA256 c metadata.model_name metadata.model_commit

def readTag (script : CScript) : Option (Bytes × CScript) := do
  let (opcode, _, rest) ← getScriptOp script
  if opcode ≠ OP_RETURN then none
  let (_, tag, rest) ← getScriptOp rest
  some (tag, rest)

/-- The tag and the data of an `OP_RETURN <tag> <data>` script. -/
def readTagged (script : CScript) : Option (Bytes × Bytes) := do
  let (tag, rest) ← readTag script
  let (_, data, _) ← getScriptOp rest
  some (tag, data)

def opReturns (tx : CTransaction) : List CScript :=
  (tx.vout.filter fun out => isUnspendable out.scriptPubKey).map CTxOut.scriptPubKey

def readInt64 (data : Bytes) : Int := (Int64.ofNat (Codec.leNat data)).toInt

structure ParsedMetadata where
  metadata : ModelMetadata := {}
  has_name : Bool := false
  has_commit : Bool := false
  has_difficulty : Bool := false

def ParsedMetadata.absorb (parsed : ParsedMetadata) (script : CScript) : Option ParsedMetadata :=
  match readTagged script with
  | none => some parsed
  | some (tag, data) =>
    if tag = MODELREG_NAME_TAG then
      some { parsed with
        metadata := { parsed.metadata with model_name := data }, has_name := true }
    else if tag = MODELREG_COMMIT_TAG then
      some { parsed with
        metadata := { parsed.metadata with model_commit := data }, has_commit := true }
    else if tag = MODELREG_DIFFICULTY_TAG then
      if data.length ≠ 8 then none
      else some { parsed with
        metadata := { parsed.metadata with difficulty := readInt64 data }, has_difficulty := true }
    else if tag = MODELREG_CID_TAG then
      some { parsed with metadata := { parsed.metadata with cid := data } }
    else if tag = MODELREG_OPTIONAL_TAG then
      some { parsed with metadata := { parsed.metadata with extra := data } }
    else some parsed

def extractMetadataFromScripts (scripts : List CScript) : Option ModelMetadata :=
  (scripts.foldlM ParsedMetadata.absorb {}).bind fun parsed =>
    if parsed.has_name && parsed.has_commit && parsed.has_difficulty then some parsed.metadata
    else none

def firstTagged (tag : Bytes) (scripts : List CScript) : Option Bytes :=
  ((scripts.filterMap readTagged).find? fun p => p.1 = tag).map Prod.snd

def extractOwnerPubKey (scripts : List CScript) : Option Bytes := firstTagged MODELREG_OWNER_TAG scripts

def extractModelHashFromDeposit (scripts : List CScript) : Option Uint256 :=
  (firstTagged MODELREG_DEPOSIT_TAG scripts).bind fun data =>
    if data.length = 32 then some (uint256OfBytes data) else none

def extractFailurePayload (scripts : List CScript) : Option (Uint256 × Nat) :=
  (firstTagged MODELREG_VERDICT_FAIL_TAG scripts).bind fun data =>
    if data.length < 36 then none
    else some (uint256OfBytes (data.take 32), Codec.leNat ((data.drop 32).take 4))

def indexedOutputs (tx : CTransaction) : List (CTxOut × Nat) := tx.vout.zipIdx

def findDepositOutput (params : Params) (keyId : Bytes) (tx : CTransaction) : Option (Int × UInt32) :=
  let paying := (indexedOutputs tx).filter fun p => matchPayToPubkeyHash p.1.scriptPubKey = some keyId
  if paying.any fun p => p.1.nValue.toInt < params.ModelRegistrationDeposit then none
  else match paying with
    | [(out, idx)] => some (out.nValue.toInt, UInt32.ofNat idx)
    | _ => none

def parseModelDepositTx (c : Crypto) (params : Params) (tx : CTransaction) : Option ModelDepositPayload :=
  if tx.version ≠ MODEL_REGISTER_DEPOSIT_TX_VERSION then none
  else do
    let metadata ← extractMetadataFromScripts (opReturns tx)
    let model_hash ← extractModelHashFromDeposit (opReturns tx)
    let owner_pubkey ← extractOwnerPubKey (opReturns tx)
    if c.isFullyValid owner_pubkey ∧ metadata.hash c = model_hash then
      let (deposit_amount, deposit_vout) ← findDepositOutput params (c.hash160 owner_pubkey) tx
      some {
        model_hash, metadata, owner_pubkey
        owner_key_hash := c.hash160 owner_pubkey
        deposit_amount, deposit_vout }
    else none

def parseModelCommitTx (c : Crypto) (tx : CTransaction) : Option ModelCommitPayload :=
  if tx.version ≠ MODEL_REGISTER_COMMIT_TX_VERSION then none
  else if (opReturns tx).any fun script => (readTag script).any fun p => p.1 = MODELREG_VERDICT_SUCCESS_TAG then
    (extractMetadataFromScripts (opReturns tx)).map fun metadata =>
      { success := true, model_hash := metadata.hash c, metadata, failure_reason := 0 }
  else
    (extractFailurePayload (opReturns tx)).map fun (model_hash, failure_reason) =>
      { success := false, model_hash, metadata := {}, failure_reason }

def onlyTaggedHash (tag : Bytes) (scripts : List CScript) : Option Uint256 :=
  match (scripts.filterMap readTagged).filter fun p => p.1 = tag with
  | [(_, data)] => if data.length = 32 then some (uint256OfBytes data) else none
  | _ => none

def parseModelChallengeTx (params : Params) (tx : CTransaction) : Option ModelChallengePayload :=
  if tx.version ≠ MODEL_ACCUSATION_TX_VERSION then none
  else match tx.vout with
    | [] => none
    | out :: _ =>
      if isUnspendable out.scriptPubKey ∨ out.nValue.toInt < params.ModelChallengeDeposit then none
      else (onlyTaggedHash MODELREG_CHALLENGE_TAG (opReturns tx)).map fun block_hash =>
        { block_hash, deposit_vout := 0 }

def parseModelChallengeCommitTx (tx : CTransaction) : Option ModelChallengeCommitPayload :=
  if tx.version ≠ MODEL_CHALLENGE_COMMIT_TX_VERSION then none
  else (onlyTaggedHash MODELREG_CHALLENGE_COMMIT_TAG (opReturns tx)).map fun model_hash =>
    { model_hash }

/-! The deterministic check of a model's metadata. -/

def VERIFICATION_OK : Nat := 0
def VERIFICATION_ERR_EMPTY_NAME : Nat := 1
def VERIFICATION_ERR_EMPTY_COMMIT : Nat := 2
def VERIFICATION_ERR_NONPOSITIVE_DIFFICULTY : Nat := 3
def VERIFICATION_ERR_METADATA_TOO_LARGE : Nat := 4

structure VerificationResult where
  passed : Bool
  reason_code : Nat
  details : String
deriving DecidableEq

def hasPrintableAscii (value : Bytes) : Bool := value.all fun ch => ch = 10 || (32 ≤ ch && ch ≤ 126)

def verifyModel (metadata : ModelMetadata) : VerificationResult :=
  if metadata.model_name.isEmpty then
    ⟨false, VERIFICATION_ERR_EMPTY_NAME, "model_name is empty"⟩
  else if metadata.model_name.length > 80 then
    ⟨false, VERIFICATION_ERR_EMPTY_NAME, "model_name exceeds limit"⟩
  else if !hasPrintableAscii metadata.model_name then
    ⟨false, VERIFICATION_ERR_METADATA_TOO_LARGE, "model_name contains non-printable characters"⟩
  else if metadata.model_commit.isEmpty then
    ⟨false, VERIFICATION_ERR_EMPTY_COMMIT, "model_commit is empty"⟩
  else if metadata.model_commit.length > 80 then
    ⟨false, VERIFICATION_ERR_EMPTY_COMMIT, "model_commit exceeds limit"⟩
  else if !hasPrintableAscii metadata.model_commit then
    ⟨false, VERIFICATION_ERR_METADATA_TOO_LARGE, "model_commit contains non-printable characters"⟩
  else if metadata.difficulty ≤ 0 then
    ⟨false, VERIFICATION_ERR_NONPOSITIVE_DIFFICULTY, "difficulty must be positive"⟩
  else if metadata.cid.length > 80 || metadata.extra.length > 80 then
    ⟨false, VERIFICATION_ERR_METADATA_TOO_LARGE, "metadata fields exceed size limits"⟩
  else if !hasPrintableAscii metadata.cid || !hasPrintableAscii metadata.extra then
    ⟨false, VERIFICATION_ERR_METADATA_TOO_LARGE, "metadata fields contain non-printable characters"⟩
  else ⟨true, VERIFICATION_OK, ""⟩

end TensorCash
