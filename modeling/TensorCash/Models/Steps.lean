import TensorCash.Models.Invariant

/-! The seven ways in which a transaction changes the database keep the invariant. -/

namespace TensorCash

variable {tx : CTransaction} {ctx : TipContext}

section Keeps

variable {known : Set Uint256} {n m : Nat} {params : Params} {db : ModelDb} {model : Uint256}
  {r : ModelRecord} {txid : Uint256}

theorem RegInv.deposit_txid_ne (inv : RegInv known n m params db) (fresh : txid ∉ known)
    (nonzero : txid ≠ 0) (found : db.models.get? model = some r) : r.deposit_txid ≠ txid := by
  -- A deposit is null or has been met.
  rintro rfl
  rcases (inv.records model r found).origin with ⟨_, null⟩ | ⟨_, _, member⟩
  · exact nonzero null
  · exact fresh member

theorem RegInv.challenge_txid_ne (inv : RegInv known n m params db) (fresh : txid ∉ known)
    (found : db.models.get? model = some r) (pending : r.challenge_verdict_height ≠ 0) :
    r.challenge_deposit_txid ≠ txid := by
  -- The deposit of a pending challenge has been met.
  rintro rfl
  obtain ⟨_, _, inside⟩ := (inv.records model r found).challenged pending
  exact fresh inside.txid_known

variable {x : Uint256} {known' : Set Uint256} {success : Bool}

theorem RegInv.deposit_owner (inv : RegInv known n m params db) (found : db.models.get? model = some r)
    (stored : db.deposits.get? r.deposit_outpoint = some x) : x = model := by
  -- The filed model has the same deposit.
  obtain ⟨s, inside, same⟩ := inv.deposits _ x stored
  exact inv.deposit_inj x model s r inside found (congrArg COutPoint.hash same)

theorem RegInv.burn_owner (inv : RegInv known n m params db) (found : db.models.get? model = some r)
    (stored : db.burns.get? r.deposit_outpoint = some x) : x = model := by
  -- A live deposit is not in the burn index, and a forfeited one stands there under its model.
  have ok := inv.records model r found
  cases gone : r.forfeited with
  | false => rw [(ok.live gone).1] at stored; cases stored
  | true => rw [(ok.lost gone).1] at stored; exact (Option.some.inj stored).symm

theorem RegInv.deposit_apart (inv : RegInv known n m params db)
    (found : db.models.get? model = some r) (other : Uint256) (s : ModelRecord)
    (differ : other ≠ model) (stored : db.models.get? other = some s) :
    s.deposit_txid ≠ r.deposit_outpoint.hash ∧ (s.challenge_verdict_height ≠ 0 →
      s.challenge_deposit_txid ≠ r.deposit_outpoint.hash) := by
  refine ⟨fun same => differ (inv.deposit_inj other model s r stored found same), ?_⟩
  intro pending same
  exact (inv.challenge_apart other model s r stored found pending).1 same.symm

theorem RegInv.pending_apart (inv : RegInv known n m params db)
    (found : db.models.get? model = some r) (pending : r.challenge_verdict_height ≠ 0)
    (other : Uint256) (s : ModelRecord) (stored : db.models.get? other = some s) :
    s.deposit_txid ≠ r.challenge_deposit_txid ∧ (other ≠ model →
      s.challenge_verdict_height ≠ 0 → s.challenge_deposit_txid ≠ r.challenge_deposit_txid) := by
  obtain ⟨deposit, unique⟩ := inv.challenge_apart model other r s found stored pending
  exact ⟨deposit, fun differ pending' same => differ (unique pending' same)⟩

theorem RegInv.challenge_entry (inv : RegInv known n m params db)
    (found : db.models.get? model = some r) {h : Nat} {v : ChallengeValue}
    (stored : db.challenges.get? ⟨h, model⟩ = some v) :
    (m ≤ h → v.state = 0) ∧ (n < h → r.challenge_verdict_height = h) := by
  obtain ⟨s, inside, entry⟩ := inv.challenges h model v stored
  obtain rfl : r = s := Option.mem_unique found inside
  exact entry

theorem UpdatesOnly.put (db : ModelDb) (model : Uint256) (r' : ModelRecord) (deposit challenge : COutPoint) :
    UpdatesOnly db (db.put model r') model r' deposit challenge where
  models := rfl
  deposits _ _ := rfl
  burns _ _ _ := rfl
  filings _ _ := rfl
  verifications _ _ _ := rfl
  challenges _ _ _ := rfl

theorem RegInv.put {r' : ModelRecord} (inv : RegInv known n m params db) (grows : known ⊆ known')
    (found : db.models.get? model = some r)
    (same_deposit : r'.deposit_outpoint = r.deposit_outpoint)
    (same_event : r'.verification_event_height = r.verification_event_height)
    (same_verdict : r'.challenge_verdict_height = r.challenge_verdict_height)
    (same_challenge : r'.challenge_deposit_txid = r.challenge_deposit_txid)
    (self : RecordOk known' n params (db.put model r') model r') :
    RegInv known' n m params (db.put model r') := by
  refine inv.update grows le_rfl found (.put db model r' _ r.deposit_outpoint) same_deposit
    (inv.deposit_apart found) ?_ self (fun _ => inv.deposit_owner found)
    (fun _ => inv.burn_owner found) (fun differ => absurd rfl differ) (fun _ => .inl) ?_ ?_
  · intro pending other s stored
    rw [same_challenge]
    exact inv.pending_apart found (same_verdict ▸ pending) other s stored
  · intro h v stored above
    obtain ⟨s, inside, scheduled⟩ := inv.verifications h model v stored
    obtain rfl : r = s := Option.mem_unique found inside
    exact same_event ▸ scheduled above
  · intro h v stored
    rw [same_verdict]
    exact inv.challenge_entry found stored

theorem ModelRecord.clearChallenge_eq_self_iff {r : ModelRecord} :
    r.clearChallenge = r ↔ r.challenge_block_hash = 0 ∧ r.challenge_deposit_txid = 0 ∧
      r.challenge_deposit_vout = 0 ∧ r.challenge_deposit_height = 0 ∧
      r.challenge_commit_count = 0 ∧ r.challenge_verdict_height = 0 := by
  -- The six fields are compared one by one.
  cases r
  simp only [ModelRecord.clearChallenge, ModelRecord.mk.injEq, true_and]
  constructor
  · rintro ⟨a, b, c, d, e, f⟩
    exact ⟨a.symm, b.symm, c.symm, d.symm, e.symm, f.symm⟩
  · rintro ⟨a, b, c, d, e, f⟩
    exact ⟨a.symm, b.symm, c.symm, d.symm, e.symm, f.symm⟩

theorem RecordOk.of_allowCommit (ok : RecordOk known n params db model r)
    (allowed : allowCommitStatus success r) : r.forfeited = false ∧ r.challenge_verdict_height = 0 ∧
      (success = true → r.verification_event_height ≠ 0) := by
  simp only [allowCommitStatus, Bool.or_eq_true, Bool.and_eq_true, decide_eq_true_eq, Bool.not_eq_true'] at allowed
  refine ⟨?_, ?_, ?_⟩
  · rcases allowed with (status | status) | ⟨⟨_, status⟩, unburned⟩ <;> simp_all [ModelRecord.forfeited]
  · -- A pending challenge stands against a registered or a banned model only.
    by_contra pending
    obtain ⟨_, _, inside⟩ := ok.challenged pending
    rcases inside.standing with ⟨status, -, -⟩ | ⟨status, -⟩ <;> simp [status] at allowed
  · intro won
    refine ok.awaiting ?_
    rcases allowed with status | ⟨⟨lost, _⟩, _⟩
    · exact status
    · rw [lost] at won
      cases won

theorem RegInv.commit {ctx : TipContext} {tx : CTransaction}
    (inv : RegInv known n m params db) (found : db.models.get? model = some r)
    (allowed : allowCommitStatus success r) : RegInv (insert (tx.computeHash ctx.crypto.hash) known) n m params
      (db.put model (commitRecord ctx tx success r)) := by
  have ok := inv.records model r found
  obtain ⟨kept, unchallenged, awaiting⟩ := ok.of_allowCommit allowed
  refine inv.put (Set.subset_insert _ _) found rfl rfl rfl rfl ?_
  -- The new record waits for its verification or is locked without a burn.
  have kept' : (commitRecord ctx tx success r).forfeited = false := by
    cases success <;> simp [commitRecord, ModelRecord.forfeited]
  constructor
  case origin => exact ok.origin.imp id fun ⟨height, txid, member⟩ => ⟨height, txid, .inr member⟩
  case commit_known => exact .inr (.inl rfl)
  case live => exact fun _ => ok.live kept
  case lost =>
    intro gone
    rw [kept'] at gone
    cases gone
  case uncommitted =>
    intro status
    cases success <;> simp [commitRecord] at status
  case awaiting =>
    intro status
    refine awaiting ?_
    cases success
    · simp [commitRecord] at status
    · rfl
  case verifying =>
    intro pending
    obtain ⟨later, height, event, scheduled, _, _⟩ := ok.verifying pending
    refine ⟨later, height, event, scheduled, ?_, kept'⟩
    cases success <;> simp [commitRecord]
  case unchallenged =>
    intro none
    have fields := ModelRecord.clearChallenge_eq_self_iff.mp (ok.unchallenged unchallenged)
    exact ModelRecord.clearChallenge_eq_self_iff.mpr fields
  case challenged =>
    intro pending
    exact absurd unchallenged pending

theorem RegInv.burn {height : Nat} (inv : RegInv known n m params db)
    (found : db.models.get? model = some r) (gone : r.forfeited = true) :
    RegInv known n m params (db.put model { r with burn_block_height := height }) := by
  have ok := inv.records model r found
  refine inv.put subset_rfl found rfl rfl rfl rfl ?_
  constructor
  case origin => exact ok.origin
  case commit_known => exact ok.commit_known
  case live => exact fun kept => ok.live kept
  case lost => exact fun gone => ok.lost gone
  case uncommitted =>
    intro status
    simp only [ModelRecord.forfeited] at gone
    simp_all
  case awaiting => exact ok.awaiting
  case verifying => exact ok.verifying
  case unchallenged =>
    intro none
    have fields := ModelRecord.clearChallenge_eq_self_iff.mp (ok.unchallenged none)
    exact ModelRecord.clearChallenge_eq_self_iff.mpr fields
  case challenged =>
    intro pending
    obtain ⟨later, snapshot, inside⟩ := ok.challenged pending
    refine ⟨later, snapshot, inside.scheduled, inside.filed, inside.unburned, inside.txid_known, ?_⟩
    -- A forfeited model under challenge has been convicted already.
    rcases inside.standing with ⟨status, -, -⟩ | convicted
    · simp [ModelRecord.forfeited, status] at gone
    · exact .inr convicted

theorem RegInv.challenge_outpoint_ne (inv : RegInv known n m params db)
    (found : db.models.get? model = some r) (pending : r.challenge_verdict_height ≠ 0) :
    r.challenge_outpoint ≠ r.deposit_outpoint :=
  COutPoint.ne_of_hash fun same => (inv.challenge_apart model model r r found found pending).1 same.symm

theorem RecordOk.of_registered (ok : RecordOk known n params db model r)
    (registered : r.status = .Registered) : r.forfeited = false ∧ r.verification_event_height = 0 := by
  refine ⟨by simp [ModelRecord.forfeited, registered], ?_⟩
  by_contra pending
  exact (ok.verifying pending).2.2.2.2.1 registered

theorem RegInv.count {ctx : TipContext} (inv : RegInv known n m params db)
    (found : db.models.get? model = some r) (registered : r.status = .Registered)
    (pending : r.challenge_verdict_height ≠ 0) (below : r.nextConvicts = false) :
    RegInv known n m params (db.put model (countedRecord ctx r)) := by
  have ok := inv.records model r found
  obtain ⟨kept, idle⟩ := ok.of_registered registered
  have counted : countedRecord ctx r =
      { r with challenge_commit_count := saturatingSucc r.challenge_commit_count } := by
    simp only [ModelRecord.nextConvicts, decide_eq_false_iff_not] at below
    simp [countedRecord, below]
  rw [counted]
  refine inv.put subset_rfl found rfl rfl rfl rfl ?_
  constructor
  case origin => exact ok.origin
  case commit_known => exact ok.commit_known
  case live => exact fun _ => ok.live kept
  case lost =>
    intro gone
    exact ok.lost gone
  case uncommitted =>
    intro status
    simp [registered] at status
  case awaiting => exact ok.awaiting
  case verifying => exact fun event => absurd idle event
  case unchallenged => exact fun none => absurd none pending
  case challenged =>
    intro _
    obtain ⟨later, snapshot, inside⟩ := ok.challenged pending
    refine ⟨later, snapshot, inside.scheduled, inside.filed, inside.unburned, inside.txid_known, ?_⟩
    -- The counter is one of the challenge's own fields, so the snapshot still explains the record.
    rcases inside.standing with ⟨_, _, same⟩ | ⟨banned, _⟩
    · refine .inl ⟨registered, by simpa [ModelRecord.convicted, ModelRecord.nextConvicts] using below, ?_⟩
      conv_lhs => rw [same]
      rfl
    · rw [registered] at banned
      cases banned

theorem RegInv.convict (inv : RegInv known n m params db)
    (found : db.models.get? model = some r) (registered : r.status = .Registered)
    (pending : r.challenge_verdict_height ≠ 0) (reached : r.nextConvicts = true) : RegInv known n m params
      ((db.forfeitDeposit r.deposit_outpoint model).put model (countedRecord ctx r)) := by
  have ok := inv.records model r found
  obtain ⟨kept, idle⟩ := ok.of_registered registered
  have apart := inv.challenge_outpoint_ne found pending
  have counted : countedRecord ctx r = ModelRecord.ban
      { r with challenge_commit_count := saturatingSucc r.challenge_commit_count }
      ctx.nHeight ctx.blockHash := by
    simp only [ModelRecord.nextConvicts, decide_eq_true_eq] at reached
    simp [countedRecord, reached]
  -- Only the deposit moves, from one index to the other.
  have upd : UpdatesOnly db
      ((db.forfeitDeposit r.deposit_outpoint model).put model (countedRecord ctx r)) model
      (countedRecord ctx r) r.deposit_outpoint r.deposit_outpoint := by
    constructor
    · rfl
    · intro o differ
      exact OrdMap.get?_erase_of_ne _ _ differ
    · intro o differ _
      exact OrdMap.get?_insert_of_ne _ _ _ differ
    · exact fun _ _ => rfl
    · exact fun _ _ _ => rfl
    · exact fun _ _ _ => rfl
  have apart_pending := inv.pending_apart found pending
  rw [counted] at upd ⊢
  refine inv.update subset_rfl le_rfl found upd rfl (inv.deposit_apart found)
    (fun _ => apart_pending) ?_ ?_ ?_ (fun differ => absurd rfl differ)
    (fun _ => .inl) ?_ (fun h v stored => inv.challenge_entry found stored)
  · constructor
    case origin => exact ok.origin
    case commit_known => exact ok.commit_known
    case live =>
      intro kept
      simp [ModelRecord.forfeited, ModelRecord.ban] at kept
    case lost => exact fun _ => ⟨OrdMap.get?_insert_self _ _ _, OrdMap.get?_erase_self _ _, rfl, rfl⟩
    case uncommitted =>
      intro status
      simp [ModelRecord.ban] at status
    case awaiting =>
      intro status
      simp [ModelRecord.ban] at status
    case verifying => exact fun event => absurd idle event
    case unchallenged => exact fun none => absurd none pending
    case challenged =>
      intro _
      obtain ⟨later, snapshot, inside⟩ := ok.challenged pending
      refine ⟨later, snapshot, inside.scheduled, inside.filed, ?_, inside.txid_known, .inr ⟨rfl, ?_⟩⟩
      · exact (OrdMap.get?_insert_of_ne _ _ _ apart).trans inside.unburned
      · exact reached
  · intro x stored
    have gone := OrdMap.get?_erase_self db.deposits r.deposit_outpoint
    exact absurd (gone.symm.trans stored) (by simp)
  · intro x stored
    have here := OrdMap.get?_insert_self db.burns r.deposit_outpoint model
    exact (Option.mem_unique here stored).symm
  · intro h v stored above
    obtain ⟨s, inside, scheduled⟩ := inv.verifications h model v stored
    obtain rfl : r = s := Option.mem_unique found inside
    exact scheduled above

theorem RegInv.countChallenge (inv : RegInv known n m params db)
    (found : db.models.get? model = some r) (registered : r.status = .Registered)
    (pending : r.challenge_verdict_height ≠ 0) : RegInv known n m params (db.countChallenge ctx model r) := by
  unfold ModelDb.countChallenge
  cases reached : r.nextConvicts with
  | false => exact inv.count found registered pending reached
  | true => exact inv.convict found registered pending reached

theorem RegInv.accuse {payload : ModelChallengePayload}
    (inv : RegInv known ctx.nHeight ctx.nHeight ctx.params db)
    (fresh : tx.computeHash ctx.crypto.hash ∉ known) (nonzero : tx.computeHash ctx.crypto.hash ≠ 0)
    (found : db.models.get? model = some r) (registered : r.status = .Registered)
    (past : 0 < r.challenge_verdict_height → r.challenge_verdict_height ≤ ctx.nHeight) :
    RegInv (insert (tx.computeHash ctx.crypto.hash) known) ctx.nHeight ctx.nHeight ctx.params
      (db.accuse ctx tx payload model r) := by
  have ok := inv.records model r found
  obtain ⟨kept, idle⟩ := ok.of_registered registered
  have future : ctx.nHeight < ctx.nHeight + ctx.params.ModelChallengeVerdictBlockCount :=
    Nat.lt_add_of_pos_right ctx.params.verdict_pos
  have unburned : db.burns.get? (accusedRecord ctx tx payload r).challenge_outpoint = none := by
    cases stored : db.burns.get? (accusedRecord ctx tx payload r).challenge_outpoint with
    | none => rfl
    | some x =>
      -- Whatever stands in the burn index belongs to a transaction met before.
      by_cases sentinel : x = CHALLENGE_BURN_SENTINEL
      · subst sentinel
        exact absurd (inv.sentinels _ stored) fresh
      · obtain ⟨s, inside, same⟩ := inv.burns _ x stored sentinel
        exact absurd (congrArg COutPoint.hash same) (inv.deposit_txid_ne fresh nonzero inside)
  have scheduled : (db.accuse ctx tx payload model r).challenges =
      db.challenges.insert ⟨ctx.nHeight + ctx.params.ModelChallengeVerdictBlockCount, model⟩
        { deposit_outpoint := (accusedRecord ctx tx payload r).challenge_outpoint
          snapshot := some r } := by
    simp [ModelDb.accuse, accusedRecord, future]
  have upd : UpdatesOnly db (db.accuse ctx tx payload model r) model
      (accusedRecord ctx tx payload r) r.deposit_outpoint
      (accusedRecord ctx tx payload r).challenge_outpoint := by
    constructor
    · rfl
    · exact fun _ _ => rfl
    · exact fun _ _ _ => rfl
    · intro o differ
      exact OrdMap.get?_insert_of_ne _ _ _ differ
    · exact fun _ _ _ => rfl
    · intro h other differ
      rw [scheduled]
      refine OrdMap.get?_insert_of_ne _ _ _ ?_
      intro same
      exact differ (congrArg ScheduleKey.hash same)
  refine inv.update (Set.subset_insert _ _) le_rfl found upd rfl ?_ ?_ ?_
    (fun _ => inv.deposit_owner found) (fun _ => inv.burn_owner found) (fun _ _ => .inl)
    (fun _ _ => .inr (.inl rfl)) ?_ ?_
  · intro other s _ stored
    exact ⟨inv.deposit_txid_ne fresh nonzero stored, inv.challenge_txid_ne fresh stored⟩
  · intro _ other s stored
    exact ⟨inv.deposit_txid_ne fresh nonzero stored, fun _ => inv.challenge_txid_ne fresh stored⟩
  · constructor
    case origin => exact ok.origin.imp id fun ⟨height, txid, member⟩ => ⟨height, txid, .inr member⟩
    case commit_known => exact ok.commit_known.imp id .inr
    case live => exact fun kept => ok.live kept
    case lost =>
      intro gone
      exact ok.lost gone
    case uncommitted =>
      intro status
      simp [accusedRecord, registered] at status
    case awaiting => exact ok.awaiting
    case verifying => exact fun event => absurd idle event
    case unchallenged =>
      intro none
      simp only [accusedRecord] at none
      omega
    case challenged =>
      refine fun _ => ⟨future.le, r, ?_, OrdMap.get?_insert_self _ _ _, unburned, .inl rfl,
        .inl ⟨registered, by simp [ModelRecord.convicted, accusedRecord, CHALLENGE_COMMIT_THRESHOLD], rfl⟩⟩
      rw [scheduled]
      exact OrdMap.get?_insert_self _ _ _
  · intro h v stored above
    obtain ⟨s, inside, event⟩ := inv.verifications h model v stored
    obtain rfl : r = s := Option.mem_unique found inside
    exact event above
  · intro h v stored
    rw [scheduled, OrdMap.get?_insert] at stored
    split_ifs at stored with key
    · cases stored
      exact ⟨fun _ => rfl, fun _ => (congrArg ScheduleKey.height key).symm⟩
    · -- An older entry above this height would stand for a challenge that is not over.
      obtain ⟨state, verdict⟩ := inv.challenge_entry found stored
      refine ⟨state, fun later => ?_⟩
      have := verdict later
      have := past (by omega)
      omega

theorem RegInv.forgetSentinel {o : COutPoint} (inv : RegInv known n m params db)
    (sentinel : db.burns.get? o = some CHALLENGE_BURN_SENTINEL) :
    RegInv known n m params { db with burns := db.burns.erase o } := by
  -- The sentinel stands for no model, so no record points to this entry.
  have kept : ∀ p x, db.burns.get? p = some x → x ≠ CHALLENGE_BURN_SENTINEL → (db.burns.erase o).get? p = some x := by
    intro p x stored real
    have differ : p ≠ o := by
      rintro rfl
      exact real (Option.mem_unique stored sentinel)
    rw [OrdMap.get?_erase_of_ne _ _ differ, stored]
  have empty : ∀ p, db.burns.get? p = none → (db.burns.erase o).get? p = none := by
    intro p none
    rw [OrdMap.get?_erase]
    split_ifs
    · rfl
    · exact none
  have under : ∀ p x, (db.burns.erase o).get? p = some x → db.burns.get? p = some x := by
    intro p x stored
    rw [OrdMap.get?_erase] at stored
    split_ifs at stored
    exact stored
  constructor
  case records =>
    intro model r found
    have ok := inv.records model r found
    have real : model ≠ CHALLENGE_BURN_SENTINEL := by
      rintro rfl
      rw [inv.no_sentinel] at found
      cases found
    refine ok.frame subset_rfl ?_ rfl (fun _ => rfl) fun pending => ⟨rfl, rfl, ?_⟩
    · cases gone : r.forfeited with
      | false => rw [(ok.live gone).1]; exact empty _ (ok.live gone).1
      | true => rw [(ok.lost gone).1]; exact kept _ _ (ok.lost gone).1 real
    · obtain ⟨_, _, inside⟩ := ok.challenged pending
      rw [inside.unburned]
      exact empty _ inside.unburned
  case deposit_inj => exact inv.deposit_inj
  case challenge_apart => exact inv.challenge_apart
  case deposits => exact inv.deposits
  case burns => exact fun p x stored => inv.burns p x (under p x stored)
  case sentinels => exact fun p stored => inv.sentinels p (under p _ stored)
  case filings => exact inv.filings
  case no_sentinel => exact inv.no_sentinel
  case verifications => exact inv.verifications
  case challenges => exact inv.challenges

theorem RegInv.grow (inv : RegInv known n m params db)
    (grows : known ⊆ known') : RegInv known' n m params db where
  records model r found := (inv.records model r found).frame grows rfl rfl (fun _ => rfl) fun _ => ⟨rfl, rfl, rfl⟩
  deposit_inj := inv.deposit_inj
  challenge_apart := inv.challenge_apart
  deposits := inv.deposits
  burns := inv.burns
  sentinels o stored := grows (inv.sentinels o stored)
  filings o model stored := grows (inv.filings o model stored)
  no_sentinel := inv.no_sentinel
  verifications := inv.verifications
  challenges := inv.challenges

theorem RegInv.depositRecord_ok (payload : ModelDepositPayload)
    (inv : RegInv known ctx.nHeight ctx.nHeight ctx.params db) (above : 0 < ctx.nHeight)
    (fresh : tx.computeHash ctx.crypto.hash ∉ known) (nonzero : tx.computeHash ctx.crypto.hash ≠ 0) :
    RecordOk (insert (tx.computeHash ctx.crypto.hash) known) ctx.nHeight ctx.params
      (db.openDeposit ctx tx payload) payload.model_hash (depositRecord ctx tx payload) := by
  have window := ctx.params.verification_pos
  have future : ctx.nHeight < (depositRecord ctx tx payload).verification_event_height := by
    simp only [depositRecord, if_neg (show ctx.params.ModelVerificationBlockCount ≠ 0 by omega)]
    omega
  have event : (depositRecord ctx tx payload).verification_event_height =
      ctx.nHeight + ctx.params.ModelVerificationBlockCount := by
    simp [depositRecord, show ctx.params.ModelVerificationBlockCount ≠ 0 by omega]
  have unburned : db.burns.get? (depositRecord ctx tx payload).deposit_outpoint = none := by
    cases stored : db.burns.get? (depositRecord ctx tx payload).deposit_outpoint with
    | none => rfl
    | some x =>
      by_cases sentinel : x = CHALLENGE_BURN_SENTINEL
      · subst sentinel
        exact absurd (inv.sentinels _ stored) fresh
      · obtain ⟨s, inside, same⟩ := inv.burns _ x stored sentinel
        exact absurd (congrArg COutPoint.hash same) (inv.deposit_txid_ne fresh nonzero inside)
  constructor
  case origin => exact .inr ⟨above.ne', nonzero, .inl rfl⟩
  case commit_known => exact .inl rfl
  case live => exact fun _ => ⟨unburned, fun _ => OrdMap.get?_insert_self _ _ _⟩
  case lost =>
    intro gone
    simp [ModelRecord.forfeited, depositRecord] at gone
  case uncommitted =>
    intro _
    refine ⟨?_, rfl⟩
    have positive : 0 < (depositRecord ctx tx payload).deposit_block_height := above
    simp only [uncommittedRecord, if_pos positive]
    simp [depositRecord, show ctx.params.ModelVerificationBlockCount ≠ 0 by omega]
  case awaiting =>
    intro _
    omega
  case verifying =>
    refine fun _ => ⟨future.le, above.ne', event, ?_, by simp [depositRecord],
      by simp [ModelRecord.forfeited, depositRecord]⟩
    simp only [ModelDb.openDeposit, if_pos future]
    exact OrdMap.get?_insert_self _ _ _
  case unchallenged => exact fun _ => rfl
  case challenged => exact fun pending => absurd rfl pending

theorem RegInv.openDeposit {payload : ModelDepositPayload}
    (inv : RegInv known ctx.nHeight ctx.nHeight ctx.params db) (above : 0 < ctx.nHeight)
    (fresh : tx.computeHash ctx.crypto.hash ∉ known) (nonzero : tx.computeHash ctx.crypto.hash ≠ 0)
    (new : db.models.get? payload.model_hash = none) (real : payload.model_hash ≠ CHALLENGE_BURN_SENTINEL) :
    RegInv (insert (tx.computeHash ctx.crypto.hash) known) ctx.nHeight ctx.nHeight ctx.params
      (db.openDeposit ctx tx payload) := by
  have self := RegInv.depositRecord_ok payload inv above fresh nonzero
  have models : ∀ x, (db.openDeposit ctx tx payload).models.get? x =
      if x = payload.model_hash then some (depositRecord ctx tx payload)
      else db.models.get? x := fun x => OrdMap.get?_insert _ _ _ _
  have before : ∀ x s, (db.openDeposit ctx tx payload).models.get? x = some s →
      x = payload.model_hash ∧ s = depositRecord ctx tx payload ∨
        x ≠ payload.model_hash ∧ db.models.get? x = some s := by
    intro x s stored
    rw [models] at stored
    split_ifs at stored with here
    · exact .inl ⟨here, (Option.some.inj stored).symm⟩
    · exact .inr ⟨here, stored⟩
  -- A known model is not the new one.
  have old : ∀ x s, db.models.get? x = some s → x ≠ payload.model_hash := by
    rintro x s stored rfl
    rw [new] at stored
    cases stored
  have verifications : ∀ h x, x ≠ payload.model_hash →
      (db.openDeposit ctx tx payload).verifications.get? ⟨h, x⟩ = db.verifications.get? ⟨h, x⟩ := by
    intro h x differ
    simp only [ModelDb.openDeposit]
    split_ifs
    · refine OrdMap.get?_insert_of_ne _ _ _ ?_
      intro same
      exact differ (congrArg ScheduleKey.hash same)
    · rfl
  constructor
  case records =>
    intro x s stored
    rcases before x s stored with ⟨rfl, rfl⟩ | ⟨differ, stored⟩
    · exact self
    · have deposit_ne : s.deposit_outpoint ≠ (depositRecord ctx tx payload).deposit_outpoint :=
        COutPoint.ne_of_hash (inv.deposit_txid_ne fresh nonzero stored)
      exact (inv.records x s stored).frame (Set.subset_insert _ _) rfl
        (OrdMap.get?_insert_of_ne _ _ _ deposit_ne) (fun _ => verifications _ _ differ)
        fun _ => ⟨rfl, rfl, rfl⟩
  case deposit_inj =>
    intro a b s t stored stored' same
    rcases before a s stored with ⟨rfl, rfl⟩ | ⟨_, stored⟩ <;> rcases before b t stored' with ⟨rfl, rfl⟩ | ⟨_, stored'⟩
    · rfl
    · exact absurd same.symm (inv.deposit_txid_ne fresh nonzero stored')
    · exact absurd same (inv.deposit_txid_ne fresh nonzero stored)
    · exact inv.deposit_inj a b s t stored stored' same
  case challenge_apart =>
    intro a b s t stored stored' pending
    rcases before a s stored with ⟨rfl, rfl⟩ | ⟨_, stored⟩
    · exact absurd rfl pending
    · rcases before b t stored' with ⟨rfl, rfl⟩ | ⟨_, stored'⟩
      · exact ⟨(inv.challenge_txid_ne fresh stored pending).symm, fun none => absurd rfl none⟩
      · exact inv.challenge_apart a b s t stored stored' pending
  case deposits =>
    intro o x stored
    simp only [ModelDb.openDeposit, OrdMap.get?_insert] at stored
    split_ifs at stored with here
    · cases stored
      exact ⟨_, by rw [models, if_pos rfl], here.symm⟩
    · obtain ⟨s, inside, same⟩ := inv.deposits o x stored
      exact ⟨s, by rw [models, if_neg (old x s inside), inside], same⟩
  case burns =>
    intro o x stored genuine
    obtain ⟨s, inside, same⟩ := inv.burns o x stored genuine
    exact ⟨s, by rw [models, if_neg (old x s inside), inside], same⟩
  case sentinels => exact fun o stored => .inr (inv.sentinels o stored)
  case filings => exact fun o x stored => .inr (inv.filings o x stored)
  case no_sentinel => rw [models, if_neg real.symm, inv.no_sentinel]
  case verifications =>
    intro h x v stored
    by_cases here : x = payload.model_hash
    · subst here
      refine ⟨_, by rw [models, if_pos rfl], fun _ => ?_⟩
      simp only [ModelDb.openDeposit] at stored
      split_ifs at stored with future
      · rw [OrdMap.get?_insert] at stored
        split_ifs at stored with key
        · exact ⟨(Option.some.inj stored).symm, (congrArg ScheduleKey.height key).symm⟩
        · obtain ⟨s, inside, _⟩ := inv.verifications h _ v stored
          rw [new] at inside
          cases inside
      · obtain ⟨s, inside, _⟩ := inv.verifications h _ v stored
        rw [new] at inside
        cases inside
    · rw [verifications h x here] at stored
      obtain ⟨s, inside, pending⟩ := inv.verifications h x v stored
      exact ⟨s, by rw [models, if_neg here, inside], pending⟩
  case challenges =>
    intro h x v stored
    obtain ⟨s, inside, pending⟩ := inv.challenges h x v stored
    exact ⟨s, by rw [models, if_neg (old x s inside), inside], pending⟩

end Keeps

end TensorCash
