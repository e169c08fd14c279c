import TensorCash.Lib.Checked
import TensorCash.Models.Parse
import TensorCash.Primitives.Block

/-! The part of `Chainstate::ConnectTip` behind the coins flush. -/

namespace TensorCash

open Checked

structure TipContext where
  crypto : Crypto
  params : Params
  validationApi : Bool
  bodyOnDisk : Uint256 → Bool
  chain : List CBlock
  nHeight : Nat
  blockHash : Uint256

structure Stage where
  db : ModelDb
  block_deposits : OrdMap COutPoint (ModelDepositPayload × ModelRecord) := ∅
  block_model_records : OrdMap Uint256 ModelRecord := ∅
  block_burn_outputs : OrdMap COutPoint Uint256 := ∅
  block_commit_models : List Uint256 := []
  block_challenge_models : List Uint256 := []
  block_challenge_commit_models : List Uint256 := []

def isModelDepositSpendAllowed (record : ModelRecord) (spend_height : Nat) (params : Params) : Bool :=
  0 < record.deposit_block_height && record.status = .Registered &&
    record.deposit_block_height + params.ModelCommitRefundDelay ≤ spend_height

def getModelBurnAllowedHeight (record : ModelRecord) (params : Params) : Option Nat :=
  if record.status = .Locked then some record.commit_block_height
  else if record.status = .Banned then
    some (if 0 < record.burn_block_height then record.burn_block_height
      else record.commit_block_height)
  else if record.commit_block_height = 0 then none
  else some (record.commit_block_height + params.ModelCommitRefundDelay)

def Stage.lookupDeposit (s : Stage) (outpoint : COutPoint) : Option Uint256 :=
  match s.block_deposits.get? outpoint with
  | some (payload, _) => some payload.model_hash
  | none => s.db.deposits.get? outpoint

/-- The model (or the challenge sentinel) behind a forfeited output. -/
def Stage.lookupBurn (s : Stage) (outpoint : COutPoint) : Option Uint256 :=
  match s.block_burn_outputs.get? outpoint with
  | some model_hash => some model_hash
  | none => s.db.burns.get? outpoint

def Stage.lookupRecord (s : Stage) (model_hash : Uint256) : Option ModelRecord :=
  match s.block_model_records.get? model_hash with
  | some record => some record
  | none => s.db.models.get? model_hash

def checkModelSpend (ctx : TipContext) (s : Stage) (txin : CTxIn) : Except Failure Unit :=
  match s.lookupDeposit txin.prevout with
  | some model_hash =>
    require ((s.db.models.get? model_hash).any fun record =>
      isModelDepositSpendAllowed record ctx.nHeight ctx.params) (.consensus "model-deposit-locked")
  | none => require ((s.lookupBurn txin.prevout).isNone) (.consensus "bad-model-deposit-spend")

def depositRecord (ctx : TipContext) (tx : CTransaction) (payload : ModelDepositPayload) : ModelRecord where
  metadata := payload.metadata
  status := .PendingDeposit
  deposit_txid := tx.computeHash ctx.crypto.hash
  deposit_vout := payload.deposit_vout
  deposit_amount := payload.deposit_amount
  owner_key_hash := payload.owner_key_hash
  deposit_block_hash := ctx.blockHash
  deposit_block_height := ctx.nHeight
  verification_event_height :=
    if ctx.params.ModelVerificationBlockCount = 0 then 0
    else ctx.nHeight + ctx.params.ModelVerificationBlockCount

def ModelDb.put (db : ModelDb) (model_hash : Uint256) (record : ModelRecord) : ModelDb :=
  { db with models := db.models.insert model_hash record }

def ModelDb.openDeposit (db : ModelDb) (ctx : TipContext) (tx : CTransaction)
    (payload : ModelDepositPayload) : ModelDb :=
  let record := depositRecord ctx tx payload
  { db with
    models := db.models.insert payload.model_hash record
    deposits := db.deposits.insert record.deposit_outpoint payload.model_hash
    verifications :=
      if ctx.nHeight < record.verification_event_height then
        db.verifications.insert ⟨record.verification_event_height, payload.model_hash⟩ {}
      else db.verifications }

def connectDeposit (ctx : TipContext) (s : Stage) (tx : CTransaction) : Except Failure Stage := do
  let payload ← demand (parseModelDepositTx ctx.crypto ctx.params tx)
    (.consensus "bad-model-deposit")
  let record := depositRecord ctx tx payload
  require (!s.block_deposits.contains record.deposit_outpoint &&
    !s.db.models.contains payload.model_hash) (.consensus "duplicate-model-deposit")
  .ok { s with
    db := s.db.openDeposit ctx tx payload
    block_deposits := s.block_deposits.insert record.deposit_outpoint (payload, record)
    block_model_records := s.block_model_records.insert payload.model_hash record }

def allowCommitStatus (success : Bool) (record : ModelRecord) : Bool :=
  record.status = .PendingDeposit || record.status = .PendingVerification ||
    (!success && record.status = .Locked && record.burn_txid = 0)

def checkCommitVerdict (ctx : TipContext) (payload : ModelCommitPayload) (record : ModelRecord) :
    Except Failure Unit :=
  if payload.success then do
    require (payload.metadata = record.metadata) (.consensus "bad-commit-metadata")
    require (payload.failure_reason = 0) (.consensus "bad-commit-reason")
    require ctx.validationApi (.invalid .BLOCK_API "inaccessible-api")
    require (record.deposit_block_height = 0 ∨
        ctx.nHeight ≤ record.deposit_block_height + ctx.params.ModelVerificationBlockCount)
      (.consensus "commit-window-expired")
  else do
    require (payload.failure_reason ≠ 0) (.consensus "bad-commit-reason")
    require (payload.failure_reason = (verifyModel record.metadata).reason_code)
      (.consensus "bad-commit-reason")
    require (payload.model_hash = record.metadata.hash ctx.crypto)
      (.consensus "bad-commit-metadata")

def commitRecord (ctx : TipContext) (tx : CTransaction) (success : Bool) (record : ModelRecord) : ModelRecord :=
  { record with
    commit_txid := tx.computeHash ctx.crypto.hash
    commit_block_hash := ctx.blockHash
    commit_block_height := ctx.nHeight
    burn_txid := 0
    burn_vout := 0
    burn_block_height := 0
    verification_code := (verifyModel record.metadata).reason_code
    verification_details := (verifyModel record.metadata).details
    status := if success then .PendingVerification else .Locked
    successful_commit_count :=
      if success then saturatingSucc record.successful_commit_count
      else record.successful_commit_count }

def connectCommit (ctx : TipContext) (s : Stage) (tx : CTransaction) : Except Failure Stage := do
  let payload ← demand (parseModelCommitTx ctx.crypto tx) (.consensus "bad-model-commit")
  let found ← demand (s.lookupRecord payload.model_hash) (.consensus "unknown-model-deposit")
  require (allowCommitStatus payload.success found) (.consensus "bad-commit-status")
  let deposit_outpoint := found.deposit_outpoint
  let local_deposit := s.block_deposits.get? deposit_outpoint
  let record := (local_deposit.map Prod.snd).getD found
  require (∀ txin ∈ tx.vin, txin.prevout = deposit_outpoint ∨
      ∀ other ∈ s.db.deposits.get? txin.prevout, other = payload.model_hash)
    (.consensus "bad-commit-inputs")
  let deposit_input_count := tx.vin.countP fun txin => txin.prevout = deposit_outpoint
  require (deposit_input_count ≤ 1) (.consensus "bad-commit-inputs")
  require (payload.model_hash ∉ s.block_commit_models) (.consensus "duplicate-model-commit")
  require ((verifyModel record.metadata).passed = payload.success)
    (.consensus "bad-commit-verdict")
  require (deposit_input_count = 0) (.consensus "commit-spends-deposit")
  checkCommitVerdict ctx payload record
  let updated := commitRecord ctx tx payload.success record
  .ok { s with
    db := s.db.put payload.model_hash updated
    block_deposits :=
      match local_deposit with
      | some (deposit, _) => s.block_deposits.insert deposit_outpoint (deposit, updated)
      | none => s.block_deposits
    block_model_records := s.block_model_records.insert payload.model_hash updated
    block_commit_models := payload.model_hash :: s.block_commit_models }

def ModelRecord.ban (record : ModelRecord) (height : Nat) (blockHash : Uint256) : ModelRecord :=
  { record with
    status := .Banned
    commit_block_height := height
    commit_block_hash := blockHash
    burn_txid := record.deposit_txid
    burn_vout := record.deposit_vout }

def ModelDb.forfeitDeposit (db : ModelDb) (outpoint : COutPoint) (model_hash : Uint256) : ModelDb :=
  { db with
    deposits := db.deposits.erase outpoint
    burns := db.burns.insert outpoint model_hash }

/-- `std::map::emplace`: an entry that is there already stays. -/
def emplace {K V : Type} [LinearOrder K] (m : OrdMap K V) (k : K) (v : V) : OrdMap K V :=
  if m.contains k then m else m.insert k v

def countedRecord (ctx : TipContext) (record : ModelRecord) : ModelRecord :=
  let counted :=
    { record with challenge_commit_count := saturatingSucc record.challenge_commit_count }
  if CHALLENGE_COMMIT_THRESHOLD ≤ counted.challenge_commit_count then
    counted.ban ctx.nHeight ctx.blockHash
  else counted

def ModelRecord.nextConvicts (record : ModelRecord) : Bool :=
  CHALLENGE_COMMIT_THRESHOLD ≤ saturatingSucc record.challenge_commit_count

def ModelDb.countChallenge (db : ModelDb) (ctx : TipContext) (model_hash : Uint256)
    (record : ModelRecord) : ModelDb :=
  (if record.nextConvicts then db.forfeitDeposit record.deposit_outpoint model_hash else db).put
    model_hash (countedRecord ctx record)

def connectChallengeCommit (ctx : TipContext) (s : Stage) (tx : CTransaction) : Except Failure Stage := do
  let payload ← demand (parseModelChallengeCommitTx tx) (.consensus "bad-challenge-commit")
  let model_hash := payload.model_hash
  let record ← demand (s.lookupRecord model_hash) (.consensus "challenge-model-missing")
  require (record.challenge_verdict_height ≠ 0 ∧ ctx.nHeight ≤ record.challenge_verdict_height)
    (.consensus "challenge-expired")
  require (record.status = .Registered) (.consensus "challenge-status")
  require (model_hash ∉ s.block_challenge_commit_models) (.consensus "duplicate-challenge-commit")
  require (∀ txin ∈ tx.vin, txin.prevout ≠ record.challenge_outpoint)
    (.consensus "challenge-spends-deposit")
  .ok { s with
    db := s.db.countChallenge ctx model_hash record
    block_burn_outputs :=
      if record.nextConvicts then emplace s.block_burn_outputs record.deposit_outpoint model_hash
      else s.block_burn_outputs
    block_model_records := s.block_model_records.insert model_hash (countedRecord ctx record)
    block_challenge_commit_models := model_hash :: s.block_challenge_commit_models }

def TipContext.lookupBlockIndex (ctx : TipContext) (hash : Uint256) : Option (CBlock × Nat) :=
  ctx.chain.zipIdx.find? fun p => p.1.getHash ctx.crypto = hash

def accusedRecord (ctx : TipContext) (tx : CTransaction) (payload : ModelChallengePayload)
    (record : ModelRecord) : ModelRecord :=
  { record with
    challenge_block_hash := payload.block_hash
    challenge_deposit_txid := tx.computeHash ctx.crypto.hash
    challenge_deposit_vout := payload.deposit_vout
    challenge_deposit_height := ctx.nHeight
    challenge_commit_count := 0
    challenge_verdict_height := ctx.nHeight + ctx.params.ModelChallengeVerdictBlockCount }

def ModelDb.accuse (db : ModelDb) (ctx : TipContext) (tx : CTransaction)
    (payload : ModelChallengePayload) (model_hash : Uint256) (record : ModelRecord) : ModelDb :=
  let accused := accusedRecord ctx tx payload record
  { db with
    models := db.models.insert model_hash accused
    challengeDeposits := db.challengeDeposits.insert accused.challenge_outpoint model_hash
    challenges :=
      if ctx.nHeight < accused.challenge_verdict_height then
        db.challenges.insert ⟨accused.challenge_verdict_height, model_hash⟩
          { deposit_outpoint := accused.challenge_outpoint, snapshot := some record }
      else db.challenges }

def connectAccusation (ctx : TipContext) (s : Stage) (tx : CTransaction) : Except Failure Stage := do
  let payload ← demand (parseModelChallengeTx ctx.params tx) (.consensus "bad-model-challenge")
  let (challenged_block, challenged_height) ← demand (ctx.lookupBlockIndex payload.block_hash)
    (.consensus "unknown-challenge-block")
  require (challenged_height < ctx.nHeight) (.consensus "challenge-block-future")
  require (ctx.bodyOnDisk payload.block_hash) (.consensus "challenge-block-unreadable")
  let model_hash := challenged_block.pow.getModelHash ctx.crypto
  let record ← demand (s.db.models.get? model_hash) (.consensus "challenge-unknown-model")
  require (record.status = .Registered) (.consensus "challenge-status")
  -- The source repeats this test under a second condition, which can then never fail.
  require (¬ (0 < record.challenge_verdict_height ∧
      ctx.nHeight < record.challenge_verdict_height)) (.consensus "challenge-duplicate")
  require (model_hash ∉ s.block_challenge_models) (.consensus "challenge-duplicate-block")
  .ok { s with
    db := s.db.accuse ctx tx payload model_hash record
    block_model_records := s.block_model_records.insert model_hash (accusedRecord ctx tx payload record)
    block_challenge_models := model_hash :: s.block_challenge_models }

def burnsAllOutputs (tx : CTransaction) : Bool := tx.vout.all fun out => isUnspendable out.scriptPubKey

def connectBurn (ctx : TipContext) (s : Stage) (tx : CTransaction) : Except Failure Stage := do
  let burn_prevout ← demand (match tx.vin with | [txin] => some txin.prevout | _ => none)
    (.consensus "burn-bad-inputs")
  let model_hash ← demand (s.lookupBurn burn_prevout) (.consensus "unknown-model-burn")
  if model_hash = CHALLENGE_BURN_SENTINEL then do
    require (burnsAllOutputs tx) (.consensus "burn-spendable-output")
    .ok { s with
      db := { s.db with burns := s.db.burns.erase burn_prevout }
      block_burn_outputs := s.block_burn_outputs.erase burn_prevout }
  else do
    let record ← demand (s.db.models.get? model_hash) (.consensus "modeldb-read-failed")
    require (record.status = .Locked ∨ record.status = .Banned) (.consensus "bad-burn-status")
    require (record.burn_txid ≠ 0 ∧ record.burn_txid = burn_prevout.hash ∧
      record.burn_vout = burn_prevout.n) (.consensus "bad-burn-reference")
    require (record.burn_block_height = 0) (.consensus "duplicate-model-burn")
    require (record.commit_block_height ≠ 0) (.consensus "burn-missing-commit")
    require ((getModelBurnAllowedHeight record ctx.params).any fun allowed =>
      allowed ≤ ctx.nHeight) (.consensus "burn-too-early")
    require (burnsAllOutputs tx) (.consensus "burn-spendable-output")
    .ok { s with
      db := s.db.put model_hash { record with burn_block_height := ctx.nHeight }
      block_burn_outputs := s.block_burn_outputs.erase burn_prevout }

def checkModelSpends (ctx : TipContext) (s : Stage) (tx : CTransaction) : Except Failure Unit :=
  if tx.version ≠ MODEL_REGISTER_COMMIT_TX_VERSION ∧ tx.version ≠ MODEL_REGISTER_BURN_TX_VERSION ∧
      tx.isCoinBase = false then
    tx.vin.forM (checkModelSpend ctx s)
  else .ok ⟨⟩

def connectModelPayload (ctx : TipContext) (s : Stage) (tx : CTransaction) : Except Failure Stage :=
  if tx.version = MODEL_REGISTER_DEPOSIT_TX_VERSION then connectDeposit ctx s tx
  else if tx.version = MODEL_REGISTER_COMMIT_TX_VERSION then connectCommit ctx s tx
  else if tx.version = MODEL_CHALLENGE_COMMIT_TX_VERSION then connectChallengeCommit ctx s tx
  else if tx.version = MODEL_ACCUSATION_TX_VERSION then connectAccusation ctx s tx
  else if tx.version = MODEL_REGISTER_BURN_TX_VERSION then connectBurn ctx s tx
  else .ok s

def connectModelTx (ctx : TipContext) (s : Stage) (tx : CTransaction) : Except Failure Stage := do
  checkModelSpends ctx s tx
  connectModelPayload ctx s tx

def ModelRecord.lock (record : ModelRecord) (height : Nat) (blockHash : Uint256) : ModelRecord :=
  { record with
    status := .Locked
    commit_block_height := height
    commit_block_hash := blockHash
    commit_txid := 0
    burn_txid := record.deposit_txid
    burn_vout := record.deposit_vout
    burn_block_height := 0 }

def ModelRecord.meetsThreshold (record : ModelRecord) (params : Params) : Bool :=
  params.ModelSuccessfulCommitsThreshold ≤ record.successful_commit_count

def verifiedRecord (ctx : TipContext) (record : ModelRecord) : ModelRecord :=
  { if record.meetsThreshold ctx.params then { record with status := .Registered }
    else record.lock ctx.nHeight ctx.blockHash with
    verification_event_height := 0 }

def ModelDb.settleVerification (db : ModelDb) (ctx : TipContext) (model_hash : Uint256)
    (record : ModelRecord) : ModelDb :=
  let db := (if record.meetsThreshold ctx.params then db
    else db.forfeitDeposit record.deposit_outpoint model_hash).put model_hash
      (verifiedRecord ctx record)
  { db with
    verifications := db.verifications.insert ⟨ctx.nHeight, model_hash⟩
      { state := 1, snapshot := some record } }

def decideVerification (ctx : TipContext) (s : Stage) (entry : Uint256 × VerificationValue) : Stage :=
  let (model_hash, sched_value) := entry
  if sched_value.state ≠ 0 then s
  else match s.db.models.get? model_hash with
    | none =>
      { s with db := { s.db with
          verifications := s.db.verifications.erase ⟨ctx.nHeight, model_hash⟩ } }
    | some record =>
      if record.verification_event_height ≠ ctx.nHeight then s
      else
        { s with
          db := s.db.settleVerification ctx model_hash record
          block_burn_outputs :=
            if record.meetsThreshold ctx.params then s.block_burn_outputs
            else s.block_burn_outputs.insert record.deposit_outpoint model_hash
          block_model_records := s.block_model_records.insert model_hash (verifiedRecord ctx record) }

def ModelRecord.convicted (record : ModelRecord) : Bool :=
  CHALLENGE_COMMIT_THRESHOLD ≤ record.challenge_commit_count

def ModelRecord.bannedByVerdict (record : ModelRecord) : Bool := record.convicted && record.status ≠ .Banned

def judgedRecord (ctx : TipContext) (record : ModelRecord) : ModelRecord :=
  (if record.bannedByVerdict then record.ban ctx.nHeight ctx.blockHash else record).clearChallenge

def ModelDb.settleChallenge (db : ModelDb) (ctx : TipContext) (model_hash : Uint256)
    (record : ModelRecord) (sched_value : ChallengeValue) : ModelDb :=
  let db := (if record.bannedByVerdict then db.forfeitDeposit record.deposit_outpoint model_hash
    else db).put model_hash (judgedRecord ctx record)
  { db with
    challengeDeposits := db.challengeDeposits.erase sched_value.deposit_outpoint
    burns :=
      if record.convicted then db.burns
      else db.burns.insert sched_value.deposit_outpoint CHALLENGE_BURN_SENTINEL
    challenges := db.challenges.insert ⟨ctx.nHeight, model_hash⟩
      { sched_value with state := 1, verdict_snapshot := some record } }

def decideChallenge (ctx : TipContext) (s : Stage) (entry : Uint256 × ChallengeValue) : Stage :=
  let (model_hash, sched_value) := entry
  match s.db.models.get? model_hash with
  | none =>
    { s with db := { s.db with
        challenges := s.db.challenges.erase ⟨ctx.nHeight, model_hash⟩ } }
  | some record =>
    if record.challenge_verdict_height ≠ ctx.nHeight then s
    else
      { s with
        db := s.db.settleChallenge ctx model_hash record sched_value
        block_burn_outputs :=
          if record.convicted then
            if record.bannedByVerdict then
              emplace s.block_burn_outputs record.deposit_outpoint model_hash
            else s.block_burn_outputs
          else s.block_burn_outputs.insert sched_value.deposit_outpoint CHALLENGE_BURN_SENTINEL
        block_model_records := s.block_model_records.insert model_hash (judgedRecord ctx record) }

def checkBannedModel (ctx : TipContext) (s : Stage) (block : CBlock) : Except Failure Unit :=
  let model_hash := block.pow.getModelHash ctx.crypto
  require (model_hash = 0 ∨ ∀ record ∈ s.db.models.get? model_hash,
      record.status = .Banned → record.challenge_verdict_height = 0 →
        0 < record.commit_block_height ∧ ctx.nHeight ≤ record.commit_block_height)
    (.consensus "model-banned-block")

def ModelRecord.verificationOverdue (record : ModelRecord) (height : Nat) : Bool :=
  (record.status = .PendingDeposit || record.status = .PendingVerification) &&
    0 < record.verification_event_height && record.verification_event_height ≤ height

def ModelRecord.verdictOverdue (record : ModelRecord) (height : Nat) : Bool :=
  0 < record.challenge_verdict_height && record.challenge_verdict_height ≤ height

def TipContext.heightHash (ctx : TipContext) (height : Nat) : Uint256 :=
  if height = 0 then 0
  else if height = ctx.nHeight then ctx.blockHash
  else match ctx.chain[height]? with
    | some block => block.getHash ctx.crypto
    | none => 0

def catchUpVerification (ctx : TipContext) (s : Stage) (model_hash : Uint256)
    (record : ModelRecord) : Stage × ModelRecord :=
  if record.verificationOverdue ctx.nHeight then
    let event_height := record.verification_event_height
    let meets := ctx.params.ModelSuccessfulCommitsThreshold ≤ record.successful_commit_count
    let decided :=
      if meets then { record with status := .Registered }
      else record.lock event_height (ctx.heightHash event_height)
    let updated := { decided with verification_event_height := 0 }
    let db := if meets then s.db else s.db.forfeitDeposit record.deposit_outpoint model_hash
    ({ s with
      db := { db with
        models := db.models.insert model_hash updated
        verifications := db.verifications.erase ⟨event_height, model_hash⟩ }
      block_burn_outputs :=
        if meets then s.block_burn_outputs
        else s.block_burn_outputs.insert record.deposit_outpoint model_hash
      block_model_records := s.block_model_records.insert model_hash updated }, updated)
  else (s, record)

def catchUpChallenge (ctx : TipContext) (s : Stage) (model_hash : Uint256) (record : ModelRecord) : Stage :=
  if record.verdictOverdue ctx.nHeight then
    let verdict_height := record.challenge_verdict_height
    let outpoint := record.challenge_outpoint
    let success := CHALLENGE_COMMIT_THRESHOLD ≤ record.challenge_commit_count
    let ban := success ∧ record.status ≠ .Banned
    let judged :=
      if ban then record.ban verdict_height (ctx.heightHash verdict_height) else record
    let updated := judged.clearChallenge
    let db := if ban then s.db.forfeitDeposit record.deposit_outpoint model_hash else s.db
    let completed := (s.db.challenges.get? ⟨verdict_height, model_hash⟩).getD {}
    { s with
      db := { db with
        models := db.models.insert model_hash updated
        challengeDeposits := db.challengeDeposits.erase outpoint
        burns :=
          if success then db.burns else db.burns.insert outpoint CHALLENGE_BURN_SENTINEL
        challenges :=
          (db.challenges.erase ⟨verdict_height, model_hash⟩).insert ⟨ctx.nHeight, model_hash⟩
            { state := 1
              deposit_outpoint := outpoint
              snapshot := some (completed.snapshot.getD record)
              verdict_snapshot := some record } }
      block_burn_outputs :=
        if success then
          if ban then s.block_burn_outputs.insert record.deposit_outpoint model_hash
          else s.block_burn_outputs
        else s.block_burn_outputs.insert outpoint CHALLENGE_BURN_SENTINEL
      block_model_records := s.block_model_records.insert model_hash updated }
  else s

def catchUpModel (ctx : TipContext) (s : Stage) (model_hash : Uint256) : Stage :=
  match s.db.models.get? model_hash with
  | none => s
  | some record =>
    let (s, record) := catchUpVerification ctx s model_hash record
    catchUpChallenge ctx s model_hash record

def overdueModels (ctx : TipContext) (committed : ModelDb) : List Uint256 :=
  (committed.models.entries.filter fun p =>
    p.2.verificationOverdue ctx.nHeight || p.2.verdictOverdue ctx.nHeight).map Prod.fst

def connectModels (ctx : TipContext) (committed : ModelDb) (block : CBlock) : Except Failure ModelDb := do
  let s ← block.vtx.foldlM (connectModelTx ctx) { db := committed }
  let s := (scheduledAt committed.verifications ctx.nHeight).foldl (decideVerification ctx) s
  let s := (scheduledAt committed.challenges ctx.nHeight).foldl (decideChallenge ctx) s
  checkBannedModel ctx s block
  .ok ((overdueModels ctx committed).foldl (catchUpModel ctx) s).db

def initialModelDb (c : Crypto) (params : Params) : ModelDb where
  models := (∅ : OrdMap Uint256 ModelRecord).insert
    (hashSHA256 c params.DefaultModelName params.DefaultModelCommit)
    { metadata := {
        model_name := params.DefaultModelName
        model_commit := params.DefaultModelCommit
        difficulty := params.ModelDifficultyNormalizer
        cid := params.DefaultModelCID }
      status := .Registered
      deposit_block_hash := params.hashGenesisBlock
      commit_block_hash := params.hashGenesisBlock }

end TensorCash
