import TensorCash.Primitives.Serialize

/-! The consensus parameters that block validation and the model registry read. -/

namespace TensorCash

def COIN : Int := 100000000

def MAX_MONEY : Int := 21000000 * COIN

def MoneyRange (value : Int) : Bool := 0 ≤ value && value ≤ MAX_MONEY

def INT_MAX : Nat := 2147483647

def MODEL_REGISTER_DEPOSIT_TX_VERSION : UInt32 := 5
def MODEL_REGISTER_COMMIT_TX_VERSION : UInt32 := 6
def MODEL_REGISTER_BURN_TX_VERSION : UInt32 := 7
def MODEL_ACCUSATION_TX_VERSION : UInt32 := 8
def MODEL_CHALLENGE_COMMIT_TX_VERSION : UInt32 := 9

def CHALLENGE_COMMIT_THRESHOLD : Nat := 50

/-- The consensus parameters of a chain with a model registry. Heights stand in the coinbase from
the first block on, and the counts of a schedule are positive. -/
structure Params where
  hashGenesisBlock : Uint256
  nSubsidyHalvingInterval : Nat := 210000
  BIP34Height : Nat := 1
  CSVHeight : Nat := 1
  SegwitHeight : Nat := 0
  /-- The easiest target, as a number. -/
  powLimit : Nat := 2 ^ 255 - 1
  external_api : Bool := false
  tensor_subsidy : Bool := true
  AssetsHeight : Nat := 0
  AssetsDelegationHeight : Nat := 0
  ScalarCfdHeight : Nat := INT_MAX
  AssetMinIcuBond : Int := 5 * COIN
  SponsoredChildMinIcuBond : Int := 10000
  vdf_spv_commitment_height : Nat := 0
  vdf_spv_vdfverify_height : Nat := 0
  reuse_entropy_height : Nat := INT_MAX
  V3ActivationHeight : Nat := INT_MAX
  DefaultModelName : Bytes
  DefaultModelCommit : Bytes
  DefaultModelCID : Bytes
  ModelDifficultyNormalizer : Nat := 1000000
  ModelRegistrationDeposit : Int := 5 * COIN
  ModelCommitRefundDelay : Nat := 10000
  ModelVerificationBlockCount : Nat := 100
  ModelSuccessfulCommitsThreshold : Nat := 50
  ModelChallengeDeposit : Int := 5 * COIN
  ModelChallengeVerdictBlockCount : Nat := 100
  bip34_first : BIP34Height ≤ 1 := by decide
  verification_pos : 0 < ModelVerificationBlockCount := by decide
  verdict_pos : 0 < ModelChallengeVerdictBlockCount := by decide

inductive BlockValidationResult where
  | BLOCK_CONSENSUS
  | BLOCK_CACHED_INVALID
  | BLOCK_INVALID_HEADER
  | BLOCK_MUTATED
  | BLOCK_MISSING_PREV
  | BLOCK_INVALID_PREV
  | BLOCK_TIME_FUTURE
  | BLOCK_HEADER_LOW_WORK
  | BLOCK_API
  | BLOCK_REORG_GATING
deriving DecidableEq

/-- A validation fails: the block breaks a rule, or the node itself fails. -/
inductive Failure where
  | invalid (result : BlockValidationResult) (reason : String)
  | error (reason : String)
deriving DecidableEq

abbrev Failure.consensus (reason : String) : Failure := .invalid .BLOCK_CONSENSUS reason

end TensorCash
