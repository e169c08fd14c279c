import TensorCash.Models.Connect

/-! The registry part of `Chainstate::DisconnectBlock`. -/

namespace TensorCash

def revertBurn (db : ModelDb) (tx : CTransaction) : ModelDb :=
  match tx.vin with
  | [] => db
  | txin :: _ =>
    match db.burns.get? txin.prevout with
    | none => db
    | some model_hash =>
      match db.models.get? model_hash with
      | none => db
      | some record =>
        if record.burn_txid = txin.prevout.hash ∧ record.burn_vout = txin.prevout.n then
          { db with models := db.models.insert model_hash { record with burn_block_height := 0 } }
        else db

/-- The record before the commit that convicted the model. -/
def unbannedRecord (db : ModelDb) (model_hash : Uint256) (record : ModelRecord) : ModelRecord :=
  let restored :=
    if 0 < record.challenge_verdict_height then
      match db.challenges.get? ⟨record.challenge_verdict_height, model_hash⟩ with
      | some { snapshot := some snapshot, .. } =>
        { snapshot with
          challenge_block_hash := record.challenge_block_hash
          challenge_deposit_txid := record.challenge_deposit_txid
          challenge_deposit_vout := record.challenge_deposit_vout
          challenge_deposit_height := record.challenge_deposit_height
          challenge_verdict_height := record.challenge_verdict_height }
      | _ => record
    else record
  { restored with
    status := .Registered
    challenge_commit_count := record.challenge_commit_count - 1 }

def revertChallengeCommit (ctx : TipContext) (db : ModelDb) (tx : CTransaction) : ModelDb :=
  match parseModelChallengeCommitTx tx with
  | none => db
  | some payload =>
    match db.models.get? payload.model_hash with
    | none => db
    | some record =>
      if record.status = .Banned ∧ record.commit_block_hash = ctx.blockHash ∧
          record.commit_block_height = ctx.nHeight ∧ CHALLENGE_COMMIT_THRESHOLD ≤ record.challenge_commit_count then
        { db with
          burns := db.burns.erase record.deposit_outpoint
          deposits := db.deposits.insert record.deposit_outpoint payload.model_hash
          models := db.models.insert payload.model_hash
            (unbannedRecord db payload.model_hash record) }
      else if 0 < record.challenge_commit_count then
        { db with
          models := db.models.insert payload.model_hash
            { record with challenge_commit_count := record.challenge_commit_count - 1 } }
      else db

def unaccusedRecord (db : ModelDb) (model_hash : Uint256) (record : ModelRecord) : ModelRecord :=
  if 0 < record.challenge_verdict_height then
    match db.challenges.get? ⟨record.challenge_verdict_height, model_hash⟩ with
    | some { snapshot := some snapshot, .. } => snapshot
    | _ => record.clearChallenge
  else record

def eraseSentinels (burns : OrdMap COutPoint Uint256) (txid : Uint256) (count : Nat) :
    OrdMap COutPoint Uint256 :=
  (List.range count).foldl (fun burns idx =>
    let outpoint : COutPoint := ⟨txid, UInt32.ofNat idx⟩
    if burns.get? outpoint = some CHALLENGE_BURN_SENTINEL then burns.erase outpoint
    else burns) burns

def revertAccusation (ctx : TipContext) (db : ModelDb) (tx : CTransaction) : ModelDb :=
  match parseModelChallengeTx ctx.params tx with
  | none => db
  | some payload =>
    let txid := tx.computeHash ctx.crypto.hash
    let outpoint : COutPoint := ⟨txid, payload.deposit_vout⟩
    let accused := (db.challengeDeposits.get? outpoint).bind fun model_hash =>
      (db.models.get? model_hash).map fun record => (model_hash, record)
    let db := match accused with
      | none => db
      | some (model_hash, record) =>
        let restored := unaccusedRecord db model_hash record
        { db with
          models := db.models.insert model_hash restored
          -- The key is built from the record just restored, not from the accused one.
          challenges :=
            if 0 < restored.challenge_verdict_height then
              db.challenges.erase ⟨restored.challenge_verdict_height, model_hash⟩
            else db.challenges }
    { db with
      challengeDeposits := db.challengeDeposits.erase outpoint
      burns := eraseSentinels db.burns txid tx.vout.length }

/-- The record that a reverted commit leaves, as if none had been made. -/
def uncommittedRecord (params : Params) (success : Bool) (record : ModelRecord) : ModelRecord :=
  { record with
    successful_commit_count :=
      if success then record.successful_commit_count - 1 else record.successful_commit_count
    status := .PendingDeposit
    commit_txid := 0
    commit_block_hash := 0
    commit_block_height := 0
    burn_txid := 0
    burn_vout := 0
    burn_block_height := 0
    verification_code := 0
    verification_details := ""
    verification_event_height :=
      if 0 < record.deposit_block_height then
        record.deposit_block_height + params.ModelVerificationBlockCount
      else 0 }

def revertCommit (ctx : TipContext) (db : ModelDb) (tx : CTransaction) : ModelDb :=
  match parseModelCommitTx ctx.crypto tx with
  | none => db
  | some payload =>
    if tx.vin = [] then db
    else match db.models.get? payload.model_hash with
      | none => db
      | some record =>
        if record.commit_txid ≠ tx.computeHash ctx.crypto.hash then db
        else
          let restored := uncommittedRecord ctx.params payload.success record
          { db with
            models := db.models.insert payload.model_hash restored
            deposits := db.deposits.insert record.deposit_outpoint payload.model_hash
            burns :=
              if record.burn_txid ≠ 0 then db.burns.erase ⟨record.burn_txid, record.burn_vout⟩
              else db.burns
            verifications :=
              if 0 < restored.verification_event_height then
                db.verifications.insert ⟨restored.verification_event_height, payload.model_hash⟩ {}
              else db.verifications }

def revertModelTx (ctx : TipContext) (db : ModelDb) (tx : CTransaction) : ModelDb :=
  if tx.version = MODEL_REGISTER_BURN_TX_VERSION ∧ tx.vin ≠ [] then revertBurn db tx
  else if tx.version = MODEL_CHALLENGE_COMMIT_TX_VERSION then revertChallengeCommit ctx db tx
  else if tx.version = MODEL_ACCUSATION_TX_VERSION then revertAccusation ctx db tx
  else revertCommit ctx db tx

def revertDeposit (ctx : TipContext) (db : ModelDb) (tx : CTransaction) : ModelDb :=
  match parseModelDepositTx ctx.crypto ctx.params tx with
  | none => db
  | some payload =>
    let txid := tx.computeHash ctx.crypto.hash
    let db := match db.models.get? payload.model_hash with
      | none => db
      | some record =>
        if record.deposit_txid = txid then
          { db with
            models := db.models.erase payload.model_hash
            verifications :=
              if 0 < record.verification_event_height then
                db.verifications.erase ⟨record.verification_event_height, payload.model_hash⟩
              else db.verifications }
        else db
    { db with deposits := db.deposits.erase ⟨txid, payload.deposit_vout⟩ }

def revertVerification (ctx : TipContext) (db : ModelDb) (entry : Uint256 × VerificationValue) : ModelDb :=
  match entry with
  | (model_hash, { state := 1, snapshot := some snapshot }) =>
    let lockedNow := (db.models.get? model_hash).any fun current =>
      current.status = .Locked && current.burn_txid = current.deposit_txid && current.burn_vout = current.deposit_vout
    { db with
      burns := if lockedNow then db.burns.erase snapshot.deposit_outpoint else db.burns
      deposits :=
        if snapshot.status = .PendingDeposit ∨ snapshot.status = .PendingVerification then
          db.deposits.insert snapshot.deposit_outpoint model_hash
        else db.deposits
      models := db.models.insert model_hash snapshot
      -- The reset entry stands under the same key, so the erasure takes it away again.
      verifications :=
        (if 0 < snapshot.verification_event_height then
          db.verifications.insert ⟨snapshot.verification_event_height, model_hash⟩ {}
        else db.verifications).erase ⟨ctx.nHeight, model_hash⟩ }
  | _ => db

def revertVerdict (ctx : TipContext) (db : ModelDb) (entry : Uint256 × ChallengeValue) : ModelDb :=
  match entry with
  | (model_hash, { state := 1, deposit_outpoint, snapshot := some snapshot, verdict_snapshot }) =>
    let restore_record := verdict_snapshot.getD snapshot
    let caused_ban := (db.models.get? model_hash).any fun current =>
      current.status = .Banned && verdict_snapshot.any fun before => before.status ≠ .Banned
    let db := match caused_ban, db.models.get? model_hash with
      | true, some current =>
        { db with
          burns := db.burns.erase current.deposit_outpoint
          deposits := db.deposits.insert current.deposit_outpoint model_hash }
      | _, _ => db
    let challenges := db.challenges.erase ⟨ctx.nHeight, model_hash⟩
    { db with
      burns :=
        if db.burns.get? deposit_outpoint = some CHALLENGE_BURN_SENTINEL then
          db.burns.erase deposit_outpoint
        else db.burns
      challengeDeposits := db.challengeDeposits.insert deposit_outpoint model_hash
      models := db.models.insert model_hash restore_record
      challenges :=
        if 0 < restore_record.challenge_verdict_height then
          challenges.insert ⟨restore_record.challenge_verdict_height, model_hash⟩
            { deposit_outpoint, snapshot := some snapshot }
        else challenges }
  | _ => db

def disconnectModels (ctx : TipContext) (committed : ModelDb) (block : CBlock) : ModelDb :=
  let db := block.vtx.reverse.foldl (revertModelTx ctx) committed
  let db := block.vtx.foldl (revertDeposit ctx) db
  let db := (scheduledAt committed.verifications ctx.nHeight).foldl (revertVerification ctx) db
  (scheduledAt committed.challenges ctx.nHeight).foldl (revertVerdict ctx) db

end TensorCash
