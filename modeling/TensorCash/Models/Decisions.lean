import TensorCash.Models.Steps

/-! Verifications and verdicts keep the invariant, and none of a height is left pending. -/

namespace TensorCash

section Keeps

variable {known : Set Uint256} {n m : Nat} {params : Params} {db : ModelDb} {model : Uint256}
  {r : ModelRecord}

theorem RecordOk.unchallenged_of_verifying (ok : RecordOk known n params db model r)
    (event : r.verification_event_height ≠ 0) : r.challenge_verdict_height = 0 := by
  -- A challenge stands against a registered model or a convicted one, and both are out of the window.
  by_contra pending
  obtain ⟨_, _, _, _, unregistered, kept⟩ := ok.verifying event
  obtain ⟨_, _, inside⟩ := ok.challenged pending
  rcases inside.standing with ⟨status, -, -⟩ | ⟨status, -⟩
  · exact unregistered status
  · simp [ModelRecord.forfeited, status] at kept

variable {ctx : TipContext} {db' : ModelDb}

theorem RecordOk.verified
    (ok : RecordOk known n params db model r) (event : r.verification_event_height ≠ 0)
    (burns : db'.burns.get? r.deposit_outpoint =
      if r.meetsThreshold ctx.params then db.burns.get? r.deposit_outpoint else some model)
    (deposits : db'.deposits.get? r.deposit_outpoint =
      if r.meetsThreshold ctx.params then db.deposits.get? r.deposit_outpoint else none) :
    RecordOk known n params db' model (verifiedRecord ctx r) := by
  obtain ⟨_, height, _, _, _, kept⟩ := ok.verifying event
  have unchallenged := ok.unchallenged_of_verifying event
  have fields := ModelRecord.clearChallenge_eq_self_iff.mp (ok.unchallenged unchallenged)
  have deposit : r.deposit_txid ≠ 0 := by
    rcases ok.origin with ⟨zero, _⟩ | ⟨_, nonzero, _⟩
    · exact absurd zero height
    · exact nonzero
  cases meets : r.meetsThreshold ctx.params with
  | true =>
    have same : verifiedRecord ctx r = { r with status := .Registered, verification_event_height := 0 } := by
      simp [verifiedRecord, meets]
    rw [same]
    simp only [meets, if_true] at burns deposits
    constructor
    case origin => exact ok.origin
    case commit_known => exact ok.commit_known
    case live =>
      intro _
      rw [show ({ r with status := .Registered, verification_event_height := 0 } :
        ModelRecord).deposit_outpoint = r.deposit_outpoint from rfl, burns, deposits]
      exact ok.live kept
    case lost =>
      intro gone
      simp [ModelRecord.forfeited] at gone
    case uncommitted => simp
    case awaiting => simp
    case verifying => exact fun pending => absurd rfl pending
    case unchallenged => exact fun _ => ModelRecord.clearChallenge_eq_self_iff.mpr fields
    case challenged => exact fun pending => absurd unchallenged pending
  | false =>
    have same : verifiedRecord ctx r = { r.lock ctx.nHeight ctx.blockHash with verification_event_height := 0 } := by
      simp [verifiedRecord, meets]
    rw [same]
    simp only [meets, Bool.false_eq_true, if_false] at burns deposits
    constructor
    case origin => exact ok.origin
    case commit_known => exact .inl rfl
    case live =>
      intro open_
      simp [ModelRecord.forfeited, ModelRecord.lock, deposit] at open_
    case lost => exact fun _ => ⟨burns, deposits, rfl, rfl⟩
    case uncommitted => simp [ModelRecord.lock]
    case awaiting => simp [ModelRecord.lock]
    case verifying => exact fun pending => absurd rfl pending
    case unchallenged => exact fun _ => ModelRecord.clearChallenge_eq_self_iff.mpr fields
    case challenged => exact fun pending => absurd unchallenged pending

theorem RegInv.settleVerification
    (inv : RegInv known ctx.nHeight (ctx.nHeight + 1) params db) (found : db.models.get? model = some r)
    (due : r.verification_event_height = ctx.nHeight) (above : 0 < ctx.nHeight) :
    RegInv known ctx.nHeight (ctx.nHeight + 1) params
      (db.settleVerification ctx model r) := by
  have ok := inv.records model r found
  have event : r.verification_event_height ≠ 0 := by omega
  have unchallenged := ok.unchallenged_of_verifying event
  have burns : ∀ o, (db.settleVerification ctx model r).burns.get? o =
      if o = r.deposit_outpoint ∧ r.meetsThreshold ctx.params = false then some model
      else db.burns.get? o := by
    intro o
    cases meets : r.meetsThreshold ctx.params <;>
      simp [ModelDb.settleVerification, ModelDb.put, ModelDb.forfeitDeposit, meets, OrdMap.get?_insert]
  have deposits : ∀ o, (db.settleVerification ctx model r).deposits.get? o =
      if o = r.deposit_outpoint ∧ r.meetsThreshold ctx.params = false then none
      else db.deposits.get? o := by
    intro o
    cases meets : r.meetsThreshold ctx.params <;>
      simp [ModelDb.settleVerification, ModelDb.put, ModelDb.forfeitDeposit, meets, OrdMap.get?_erase]
  have upd : UpdatesOnly db (db.settleVerification ctx model r) model (verifiedRecord ctx r)
      r.deposit_outpoint r.deposit_outpoint := by
    constructor
    · simp only [ModelDb.settleVerification, ModelDb.put, ModelDb.forfeitDeposit]
      split_ifs <;> rfl
    · intro o differ
      simp [deposits, differ]
    · intro o differ _
      simp [burns, differ]
    · intro o _
      simp only [ModelDb.settleVerification, ModelDb.put, ModelDb.forfeitDeposit]
      split_ifs <;> rfl
    · intro h other differ
      have key : (⟨h, other⟩ : ScheduleKey) ≠ ⟨ctx.nHeight, model⟩ := by
        intro same
        exact differ (congrArg ScheduleKey.hash same)
      simp only [ModelDb.settleVerification, ModelDb.put, ModelDb.forfeitDeposit]
      rw [OrdMap.get?_insert_of_ne _ _ _ key]
      split_ifs <;> rfl
    · intro h other _
      simp only [ModelDb.settleVerification, ModelDb.put, ModelDb.forfeitDeposit]
      split_ifs <;> rfl
  have same_deposit : (verifiedRecord ctx r).deposit_outpoint = r.deposit_outpoint := by
    simp only [verifiedRecord]
    split_ifs <;> rfl
  refine inv.update subset_rfl le_rfl found upd same_deposit (inv.deposit_apart found) ?_
    (ok.verified event ?_ ?_) ?_ ?_ (fun differ => absurd rfl differ) ?_ ?_ ?_
  · intro pending
    refine absurd ?_ pending
    simp only [verifiedRecord]
    split_ifs <;> exact unchallenged
  · rw [burns]
    cases r.meetsThreshold ctx.params <;> simp
  · rw [deposits]
    cases r.meetsThreshold ctx.params <;> simp
  · intro x stored
    rw [deposits] at stored
    split_ifs at stored
    exact inv.deposit_owner found stored
  · intro x stored
    rw [burns] at stored
    split_ifs at stored
    · exact (Option.some.inj stored).symm
    · exact inv.burn_owner found stored
  · intro x stored
    refine .inl ?_
    simp only [ModelDb.settleVerification, ModelDb.put, ModelDb.forfeitDeposit] at stored
    split_ifs at stored <;> exact stored
  · -- An entry above this height would be the record's own, whose event is now.
    intro h v stored later
    have key : (⟨h, model⟩ : ScheduleKey) ≠ ⟨ctx.nHeight, model⟩ := by
      intro same
      have := congrArg ScheduleKey.height same
      simp only at this
      omega
    have old : db.verifications.get? ⟨h, model⟩ = some v := by
      simp only [ModelDb.settleVerification, ModelDb.put, ModelDb.forfeitDeposit] at stored
      rw [OrdMap.get?_insert_of_ne _ _ _ key] at stored
      split_ifs at stored <;> exact stored
    obtain ⟨s, inside, scheduled⟩ := inv.verifications h model v old
    obtain rfl : r = s := Option.mem_unique found inside
    have := (scheduled later).2
    omega
  · intro h v stored
    have same_verdict : (verifiedRecord ctx r).challenge_verdict_height =
        r.challenge_verdict_height := by
      simp only [verifiedRecord]
      split_ifs <;> rfl
    rw [same_verdict]
    refine inv.challenge_entry found ?_
    simp only [ModelDb.settleVerification, ModelDb.put, ModelDb.forfeitDeposit] at stored
    split_ifs at stored <;> exact stored

theorem PendingChallenge.bannedByVerdict_eq_false {snapshot : ModelRecord}
    (pending : PendingChallenge known db model r snapshot) : r.bannedByVerdict = false := by
  rcases pending.standing with ⟨-, below, -⟩ | ⟨banned, -⟩
  · simp [ModelRecord.bannedByVerdict, below]
  · simp [ModelRecord.bannedByVerdict, banned]

theorem RecordOk.judged (ok : RecordOk known n params db model r)
    (pending : r.challenge_verdict_height ≠ 0)
    (burns : db'.burns.get? r.deposit_outpoint = db.burns.get? r.deposit_outpoint)
    (deposits : db'.deposits = db.deposits) : RecordOk known n params db' model r.clearChallenge := by
  have idle : r.verification_event_height = 0 := by
    by_contra event
    exact pending (ok.unchallenged_of_verifying event)
  obtain ⟨_, _, inside⟩ := ok.challenged pending
  have settled : r.status ≠ .PendingDeposit ∧ r.status ≠ .PendingVerification := by
    rcases inside.standing with ⟨status, -, -⟩ | ⟨status, -⟩ <;> simp [status]
  constructor
  case origin => exact ok.origin
  case commit_known => exact ok.commit_known
  case live =>
    intro kept
    rw [show r.clearChallenge.deposit_outpoint = r.deposit_outpoint from rfl, burns, deposits]
    exact ok.live kept
  case lost =>
    intro gone
    rw [show r.clearChallenge.deposit_outpoint = r.deposit_outpoint from rfl, burns, deposits]
    exact ok.lost gone
  case uncommitted => exact fun status => absurd status settled.1
  case awaiting => exact fun status => absurd status (not_or.mpr settled)
  case verifying => exact fun event => absurd idle event
  case unchallenged => exact fun _ => rfl
  case challenged => exact fun again => absurd rfl again

theorem RegInv.settleChallenge {sched_value : ChallengeValue}
    (inv : RegInv known ctx.nHeight (ctx.nHeight + 1) params db) (found : db.models.get? model = some r)
    (due : r.challenge_verdict_height = ctx.nHeight) (above : 0 < ctx.nHeight)
    (scheduled : db.challenges.get? ⟨ctx.nHeight, model⟩ = some sched_value) :
    RegInv known ctx.nHeight (ctx.nHeight + 1) params
      (db.settleChallenge ctx model r sched_value) := by
  have ok := inv.records model r found
  have pending : r.challenge_verdict_height ≠ 0 := by omega
  obtain ⟨_, snapshot, inside⟩ := ok.challenged pending
  have unbanned := inside.bannedByVerdict_eq_false
  -- The entry of the height is the one that the accusation wrote.
  have outpoint : sched_value.deposit_outpoint = r.challenge_outpoint := by
    have same := inside.scheduled
    rw [due, scheduled] at same
    rw [Option.some.inj same]
  have judged : judgedRecord ctx r = r.clearChallenge := by simp [judgedRecord, unbanned]
  have apart := inv.challenge_outpoint_ne found pending
  have burns : ∀ o, (db.settleChallenge ctx model r sched_value).burns.get? o =
      if o = r.challenge_outpoint ∧ r.convicted = false then some CHALLENGE_BURN_SENTINEL
      else db.burns.get? o := by
    intro o
    cases fate : r.convicted <;>
      simp [ModelDb.settleChallenge, ModelDb.put, unbanned, fate, outpoint, OrdMap.get?_insert]
  have upd : UpdatesOnly db (db.settleChallenge ctx model r sched_value) model r.clearChallenge
      r.deposit_outpoint r.challenge_outpoint := by
    constructor
    · simp [ModelDb.settleChallenge, ModelDb.put, unbanned, judged]
    · intro o _
      simp [ModelDb.settleChallenge, ModelDb.put, unbanned]
    · intro o _ differ
      simp [burns, differ]
    · intro o differ
      simp [ModelDb.settleChallenge, ModelDb.put, unbanned, outpoint, OrdMap.get?_erase, differ]
    · intro h other _
      simp [ModelDb.settleChallenge, ModelDb.put, unbanned]
    · intro h other differ
      simp [ModelDb.settleChallenge, ModelDb.put, unbanned, OrdMap.get?_insert, differ]
  have same_deposits : (db.settleChallenge ctx model r sched_value).deposits = db.deposits := by
    simp [ModelDb.settleChallenge, ModelDb.put, unbanned]
  refine inv.update subset_rfl le_rfl found upd rfl ?_ (fun again => absurd rfl again)
    (ok.judged pending ?_ same_deposits) ?_ ?_ ?_ ?_ ?_ ?_
  · intro other s differ stored
    obtain ⟨deposit, challenge⟩ := inv.pending_apart found pending other s stored
    exact ⟨deposit, challenge differ⟩
  · simp [burns, apart.symm]
  · intro x stored
    rw [same_deposits] at stored
    exact inv.deposit_owner found stored
  · intro x stored
    simp only [burns, apart.symm, false_and, if_false] at stored
    exact inv.burn_owner found stored
  · intro _ x stored
    rw [burns] at stored
    split_ifs at stored
    · exact .inr ⟨(Option.some.inj stored).symm, inside.txid_known⟩
    · exact .inl stored
  · exact fun x _ => .inr inside.txid_known
  · intro h v stored later
    have old : db.verifications.get? ⟨h, model⟩ = some v := by
      simpa [ModelDb.settleChallenge, ModelDb.put, unbanned] using stored
    obtain ⟨s, here, entry⟩ := inv.verifications h model v old
    obtain rfl : r = s := Option.mem_unique found here
    exact entry later
  · intro h v stored
    by_cases here : h = ctx.nHeight
    · exact ⟨fun _ => by omega, fun _ => by omega⟩
    · have key : (⟨h, model⟩ : ScheduleKey) ≠ ⟨ctx.nHeight, model⟩ := by
        intro same
        exact here (congrArg ScheduleKey.height same)
      have old : db.challenges.get? ⟨h, model⟩ = some v := by
        simpa [ModelDb.settleChallenge, ModelDb.put, unbanned, OrdMap.get?_insert_of_ne _ _ _ key]
          using stored
      -- The record's only challenge is the one judged now, so nothing stands above this height.
      obtain ⟨state, verdict⟩ := inv.challenge_entry found old
      refine ⟨state, fun later => ?_⟩
      have := verdict later
      omega

end Keeps

end TensorCash
