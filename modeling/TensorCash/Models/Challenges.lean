import TensorCash.Models.BlockRun

/-! From its accusation to its verdict a challenge stays in the record of its model. -/

namespace TensorCash

def challengeCommits (model : Uint256) (txs : List CTransaction) : Nat :=
  txs.countP fun tx => convictedModel tx = some model

structure ChallengePending (db : ModelDb) (model : Uint256) (deposit : COutPoint) (verdict : Nat)
    (r : ModelRecord) (count : Nat) : Prop where
  found : db.models.get? model = some r
  outpoint : r.challenge_outpoint = deposit
  height : r.challenge_verdict_height = verdict
  commits : r.challenge_commit_count = count

/-- A challenge is over: its deposit is free after a conviction and else forfeited. -/
structure ChallengeSettled (db : ModelDb) (model : Uint256) (deposit : COutPoint) (count : Nat) : Prop where
  erased : db.challengeDeposits.get? deposit = none
  unreferenced : ∀ other r, db.models.get? other = some r → r.challenge_outpoint ≠ deposit
  convicted : CHALLENGE_COMMIT_THRESHOLD ≤ count → db.burns.get? deposit = none ∧
    ∃ r, db.models.get? model = some r ∧ r.status = .Banned ∧ db.burns.get? r.deposit_outpoint = some model
  acquitted : count < CHALLENGE_COMMIT_THRESHOLD → db.burns.get? deposit = some CHALLENGE_BURN_SENTINEL

def Detached (db : ModelDb) (txid : Uint256) : Prop :=
  ∀ model r, db.models.get? model = some r → r.deposit_txid ≠ txid ∧
    (r.challenge_verdict_height ≠ 0 → r.challenge_deposit_txid ≠ txid)

variable {ctx : TipContext} {known : Set Uint256} {params : Params} {done txs : List CTransaction}
  {tx : CTransaction} {db db' : ModelDb} {model : Uint256} {r : ModelRecord}

section Pending

variable {deposit : COutPoint} {verdict count : Nat}

theorem challengeCommits_cons (model : Uint256) (tx : CTransaction) (txs : List CTransaction) :
    challengeCommits model (tx :: txs) =
      (if convictedModel tx = some model then 1 else 0) + challengeCommits model txs := by
  simp only [challengeCommits, List.countP_cons, decide_eq_true_eq]
  omega

theorem convictedModel_eq_none (other : tx.version ≠ MODEL_CHALLENGE_COMMIT_TX_VERSION) :
    convictedModel tx = none := by
  simp [convictedModel, parseModelChallengeCommitTx, other]

/-- A transaction leaves a challenge pending, unless it raises the next one at the verdict's
height. -/
theorem RegistryStep.pending (step : RegistryStep ctx done tx db db')
    (inv : RegInv known ctx.nHeight ctx.nHeight ctx.params db)
    (pending : ChallengePending db model deposit verdict r count) (above : 0 < verdict)
    (apart : accusedModel ctx tx = some model → ctx.nHeight < verdict) :
    ∃ r', ChallengePending db' model deposit verdict r'
      (count + if convictedModel tx = some model then 1 else 0) := by
  obtain ⟨found, outpoint, height, commits⟩ := pending
  have ok := inv.records model r found
  have open_ : r.challenge_verdict_height ≠ 0 := by omega
  -- A step that is no challenge commit and sets no record of this model changes nothing here.
  have keep : tx.version ≠ MODEL_CHALLENGE_COMMIT_TX_VERSION →
      db'.models.get? model = some r → ∃ r', ChallengePending db' model deposit verdict r'
        (count + if convictedModel tx = some model then 1 else 0) := by
    intro version same
    refine ⟨r, same, outpoint, height, ?_⟩
    simp [convictedModel_eq_none version, commits]
  cases step with
  | other _ _ convict => exact keep convict found
  | deposit payload parsed new =>
    have version := version_of_parseModelDepositTx parsed
    refine keep (by rw [version]; decide) ?_
    have differ : model ≠ payload.model_hash := by
      rintro rfl
      rw [new] at found
      cases found
    exact (OrdMap.get?_insert_of_ne _ _ _ differ).trans found
  | commit payload record parsed inside allowed =>
    have version := version_of_parseModelCommitTx parsed
    refine keep (by rw [version]; decide) ?_
    have differ : model ≠ payload.model_hash := by
      rintro rfl
      obtain rfl := Option.mem_unique inside found
      exact open_ (ok.of_allowCommit allowed).2.1
    exact (OrdMap.get?_insert_of_ne _ _ _ differ).trans found
  | challengeCommit payload record parsed inside registered =>
    have named : convictedModel tx = some payload.model_hash := by simp [convictedModel, parsed]
    have models : (db.countChallenge ctx payload.model_hash record).models =
        db.models.insert payload.model_hash (countedRecord ctx record) := by
      simp only [ModelDb.countChallenge, ModelDb.put, ModelDb.forfeitDeposit]
      split_ifs <;> rfl
    by_cases here : payload.model_hash = model
    · subst here
      obtain rfl := Option.mem_unique inside found
      -- Below the threshold the counter is far from its largest value.
      have below : record.challenge_commit_count < CHALLENGE_COMMIT_THRESHOLD := by
        obtain ⟨_, _, pending⟩ := ok.challenged open_
        rcases pending.standing with ⟨_, below, _⟩ | ⟨banned, _⟩
        · simpa [ModelRecord.convicted] using below
        · rw [registered] at banned
          cases banned
      have counted : (countedRecord ctx record).challenge_commit_count = record.challenge_commit_count + 1 := by
        have small : record.challenge_commit_count < UINT32_MAX := below.trans (by decide)
        simp only [countedRecord, saturatingSucc, small, if_true]
        split_ifs <;> rfl
      refine ⟨countedRecord ctx record, by rw [models, OrdMap.get?_insert_self], ?_, ?_, ?_⟩
      · rw [← outpoint]
        simp only [countedRecord]
        split_ifs <;> rfl
      · rw [← height]
        simp only [countedRecord]
        split_ifs <;> rfl
      · rw [counted, commits, named, if_pos rfl]
    · refine ⟨r, ?_, outpoint, height, ?_⟩
      · rw [models, OrdMap.get?_insert_of_ne _ _ _ (Ne.symm here), found]
      · rw [named, if_neg (by simpa using here), commits, Nat.add_zero]
  | accusation payload other record parsed accused inside _ past =>
    have version := version_of_parseModelChallengeTx parsed
    refine keep (by rw [version]; decide) ?_
    have differ : model ≠ other := by
      rintro rfl
      obtain rfl := Option.mem_unique inside found
      have := apart accused
      have := past (by omega)
      omega
    exact (OrdMap.get?_insert_of_ne _ _ _ differ).trans found
  | forgetSentinel _ version => exact keep (by rw [version]; decide) found
  | burn txin other record version _ _ _ inside =>
    have quiet : convictedModel tx = none := convictedModel_eq_none (by rw [version]; decide)
    by_cases here : model = other
    · subst here
      obtain rfl := Option.mem_unique inside found
      exact ⟨_, OrdMap.get?_insert_self _ _ _, outpoint, height, by simp [quiet, commits]⟩
    · exact keep (by rw [version]; decide) ((OrdMap.get?_insert_of_ne _ _ _ here).trans found)

theorem RegistryRun.pending (run : RegistryRun ctx known done db txs db')
    (pending : ChallengePending db model deposit verdict r count) (above : 0 < verdict)
    (apart : ∀ tx ∈ txs, accusedModel ctx tx = some model → ctx.nHeight < verdict) :
    ∃ r', ChallengePending db' model deposit verdict r' (count + challengeCommits model txs) := by
  induction run generalizing r count with
  | nil => exact ⟨r, by simpa [challengeCommits] using pending⟩
  | @cons known done rest tx db mid last inv _ _ _ _ step more ih =>
    obtain ⟨r₁, next⟩ := step.pending inv pending above (apart tx List.mem_cons_self)
    obtain ⟨r₂, final⟩ := ih next fun t member => apart t (List.mem_cons_of_mem _ member)
    refine ⟨r₂, ?_⟩
    rwa [challengeCommits_cons, ← Nat.add_assoc]

end Pending

section Verdict

variable {mid : ModelDb} {block : CBlock} {deposit : COutPoint} {verdict count n m : Nat}
  {entries : List (Uint256 × ChallengeValue)}

theorem ChallengePending.verifyAll (inv : RegInv known n m params db)
    (above : 0 < ctx.nHeight) (pending : ChallengePending db model deposit verdict r count)
    (open_ : 0 < verdict) (models : List Uint256) :
    ChallengePending (models.foldl (ModelDb.verify ctx) db) model deposit verdict r count := by
  have idle : r.verification_event_height = 0 := by
    by_contra event
    have := (inv.records model r pending.found).unchallenged_of_verifying event
    have := pending.height
    omega
  have same : r.afterVerification ctx = r := by
    simp [ModelRecord.afterVerification, idle, above.ne]
  refine { pending with found := ?_ }
  rw [ModelDb.verifyAll_models above, pending.found]
  split_ifs
  · rw [Option.map_some, same]
  · rfl

theorem BlockRun.pending_decided (run : BlockRun ctx known db mid block db')
    (above : 0 < ctx.nHeight) (pending : ChallengePending mid model deposit verdict r count)
    (early : ctx.nHeight < verdict) : ChallengePending db' model deposit verdict r count := by
  have verified := pending.verifyAll run.run.last_inv above (by omega)
    (verificationsAt db ctx.nHeight)
  have same : r.afterVerdict ctx = r := by
    have := pending.height
    simp only [ModelRecord.afterVerdict, ite_eq_right_iff]
    omega
  refine { verified with found := ?_ }
  rw [run.decided, ModelDb.judgeAll_models above, verified.found]
  split_ifs
  · rw [Option.map_some, same]
  · rfl

theorem BlockRun.pending (run : BlockRun ctx known db mid block db') (above : 0 < ctx.nHeight)
    (pending : ChallengePending db model deposit verdict r count) (early : ctx.nHeight < verdict) :
    ∃ r', ChallengePending db' model deposit verdict r'
      (count + challengeCommits model block.vtx) := by
  obtain ⟨r', after⟩ := run.run.pending pending (by omega) fun _ _ _ => early
  exact ⟨r', run.pending_decided above after early⟩

theorem BlockRun.accused {tx : CTransaction} {earlier rest : List CTransaction}
    (run : BlockRun ctx known db mid block db') (above : 0 < ctx.nHeight)
    (split : block.vtx = earlier ++ tx :: rest) (accused : accusedModel ctx tx = some model) :
    ∃ r, ChallengePending db' model ⟨tx.computeHash ctx.crypto.hash, 0⟩
      (ctx.nHeight + ctx.params.ModelChallengeVerdictBlockCount) r
      (challengeCommits model rest) := by
  have later := ctx.params.verdict_pos
  obtain ⟨known', before, after, step, more⟩ := run.run.split split
  have version := version_of_accusedModel accused
  obtain ⟨r, pending⟩ : ∃ r, ChallengePending after model ⟨tx.computeHash ctx.crypto.hash, 0⟩
      (ctx.nHeight + ctx.params.ModelChallengeVerdictBlockCount) r 0 := by
    cases step with
    | accusation payload other record parsed named =>
      obtain rfl := Option.mem_unique named accused
      have vout := deposit_vout_of_parseModelChallengeTx parsed
      exact ⟨_, OrdMap.get?_insert_self _ _ _, by simp [ModelRecord.challenge_outpoint, accusedRecord, vout], rfl, rfl⟩
    | other _ _ _ accuse => exact absurd version accuse
    | deposit _ parsed =>
      rw [version_of_parseModelDepositTx parsed] at version
      exact absurd version (by decide)
    | commit _ _ parsed =>
      rw [version_of_parseModelCommitTx parsed] at version
      exact absurd version (by decide)
    | challengeCommit _ _ parsed =>
      rw [version_of_parseModelChallengeCommitTx parsed] at version
      exact absurd version (by decide)
    | forgetSentinel _ burn =>
      rw [burn] at version
      exact absurd version (by decide)
    | burn _ _ _ burn =>
      rw [burn] at version
      exact absurd version (by decide)
  obtain ⟨r', counted⟩ := more.pending pending (by omega) fun _ _ _ => by omega
  rw [Nat.zero_add] at counted
  exact ⟨r', run.pending_decided above counted (by omega)⟩

theorem ModelDb.judgeAll_apart (entries : List (Uint256 × ChallengeValue)) {o : COutPoint}
    (distinct : (entries.map Prod.fst).Nodup) (apart : ∀ entry ∈ entries, ∀ r, db.models.get? entry.1 = some r →
      r.challenge_verdict_height = ctx.nHeight → entry.2.deposit_outpoint ≠ o ∧ r.deposit_outpoint ≠ o) :
    (entries.foldl (ModelDb.judge ctx) db).burns.get? o = db.burns.get? o ∧
      (entries.foldl (ModelDb.judge ctx) db).challengeDeposits.get? o = db.challengeDeposits.get? o := by
  induction entries generalizing db with
  | nil => exact ⟨rfl, rfl⟩
  | cons entry rest ih =>
    rw [List.map_cons, List.nodup_cons] at distinct
    -- The first verdict leaves this output and the records of the later ones alone.
    have first : (db.judge ctx entry).burns.get? o = db.burns.get? o ∧
        (db.judge ctx entry).challengeDeposits.get? o = db.challengeDeposits.get? o := by
      unfold ModelDb.judge
      cases found : db.models.get? entry.1 with
      | none => exact ⟨rfl, rfl⟩
      | some record =>
        by_cases due : record.challenge_verdict_height = ctx.nHeight
        · obtain ⟨challenge, own⟩ := apart entry List.mem_cons_self record found due
          simp only [due, if_true, ModelDb.settleChallenge, ModelDb.put, ModelDb.forfeitDeposit]
          split_ifs <;> simp [OrdMap.get?_insert, OrdMap.get?_erase, challenge.symm, own.symm]
        · simp [due]
    have others : ∀ next ∈ rest, ∀ s, (db.judge ctx entry).models.get? next.1 = some s →
        s.challenge_verdict_height = ctx.nHeight → next.2.deposit_outpoint ≠ o ∧ s.deposit_outpoint ≠ o := by
      intro next member s found due
      have differ : next.1 ≠ entry.1 := by
        intro same
        exact distinct.1 (same ▸ List.mem_map_of_mem member)
      rw [ModelDb.judge_models, if_neg differ] at found
      exact apart next (List.mem_cons_of_mem _ member) s found due
    have later := ih distinct.2 others
    exact ⟨later.1.trans first.1, later.2.trans first.2⟩

theorem RegInv.judge_deposit (inv : RegInv known ctx.nHeight (ctx.nHeight + 1) params db)
    (above : 0 < ctx.nHeight) {value : ChallengeValue}
    (scheduled : db.challenges.get? ⟨ctx.nHeight, model⟩ = some value)
    (pending : ChallengePending db model deposit ctx.nHeight r count) :
    (db.judge ctx (model, value)).challengeDeposits.get? deposit = none ∧
      (db.judge ctx (model, value)).burns.get? deposit =
        if r.convicted then none else some CHALLENGE_BURN_SENTINEL := by
  obtain ⟨found, rfl, height, commits⟩ := pending
  obtain ⟨_, snapshot, inside⟩ := (inv.records model r found).challenged (by omega)
  have entry := inside.scheduled
  rw [height, scheduled] at entry
  cases entry
  have unbanned := inside.bannedByVerdict_eq_false
  cases fate : r.convicted <;>
    simp [ModelDb.judge, found, height, ModelDb.settleChallenge, ModelDb.put, unbanned, fate, inside.unburned]

theorem RegInv.judgeAll_deposit (inv : RegInv known ctx.nHeight (ctx.nHeight + 1) params db)
    (above : 0 < ctx.nHeight) (distinct : (entries.map Prod.fst).Nodup)
    (scheduled : ∀ entry ∈ entries, db.challenges.get? ⟨ctx.nHeight, entry.1⟩ = some entry.2)
    (listed : model ∈ entries.map Prod.fst) (pending : ChallengePending db model deposit ctx.nHeight r count) :
    (entries.foldl (ModelDb.judge ctx) db).challengeDeposits.get? deposit = none ∧
      (entries.foldl (ModelDb.judge ctx) db).burns.get? deposit =
        if r.convicted then none else some CHALLENGE_BURN_SENTINEL := by
  induction entries generalizing db with
  | nil => simp at listed
  | cons entry rest ih =>
    have others : ∀ e ∈ rest, e.1 ≠ entry.1 ∧ (db.judge ctx entry).challenges.get? ⟨ctx.nHeight, e.1⟩ = some e.2 :=
      ModelDb.judge_scheduled distinct scheduled
    have first := scheduled entry List.mem_cons_self
    rw [List.map_cons, List.nodup_cons] at distinct
    by_cases here : entry.1 = model
    · -- The verdict falls now, and no other due challenge has the same deposit.
      subst here
      have settled := inv.judge_deposit above first pending
      obtain ⟨found, rfl, height, _⟩ := pending
      have apart : ∀ e ∈ rest, ∀ s, (db.judge ctx entry).models.get? e.1 = some s →
          s.challenge_verdict_height = ctx.nHeight → e.2.deposit_outpoint ≠ r.challenge_outpoint ∧
              s.deposit_outpoint ≠ r.challenge_outpoint := by
        intro e member s stored due
        obtain ⟨differ, _⟩ := others e member
        rw [ModelDb.judge_models, if_neg differ] at stored
        obtain ⟨own, unique⟩ := inv.challenge_apart entry.1 e.1 r s found stored (by omega)
        obtain ⟨_, _, inside⟩ := (inv.records e.1 s stored).challenged (by omega)
        have value := inside.scheduled
        rw [due, scheduled e (List.mem_cons_of_mem _ member)] at value
        rw [Option.some.inj value]
        exact ⟨COutPoint.ne_of_hash fun same => differ (unique (by omega) same), COutPoint.ne_of_hash own⟩
      have later := ModelDb.judgeAll_apart rest distinct.2 apart
      rw [List.foldl_cons]
      exact ⟨later.2.trans settled.1, later.1.trans settled.2⟩
    · have same : (db.judge ctx entry).models.get? model = some r := by
        rw [ModelDb.judge_models, if_neg (Ne.symm here), pending.found]
      exact ih (inv.judge above first) distinct.2 (fun e member => (others e member).2)
        (by simpa [Ne.symm here] using listed) { pending with found := same }

theorem ModelRecord.afterVerdict_cases (r : ModelRecord) : (r.afterVerdict ctx).deposit_txid = r.deposit_txid ∧
      (r.afterVerdict ctx = r ∨ (r.afterVerdict ctx).challenge_verdict_height = 0) := by
  simp only [ModelRecord.afterVerdict, judgedRecord, ModelRecord.ban, ModelRecord.clearChallenge]
  split_ifs <;> simp

theorem RegInv.judgeAll_detached (inv : RegInv known ctx.nHeight (ctx.nHeight + 1) params db)
    (above : 0 < ctx.nHeight) (listed : model ∈ entries.map Prod.fst)
    (pending : ChallengePending db model deposit ctx.nHeight r count) :
    Detached (entries.foldl (ModelDb.judge ctx) db) deposit.hash := by
  obtain ⟨found, rfl, height, _⟩ := pending
  have open_ : r.challenge_verdict_height ≠ 0 := by omega
  intro other s stored
  rw [ModelDb.judgeAll_models above] at stored
  cases before : db.models.get? other with
  | none => simp [before] at stored
  | some s₀ =>
    obtain ⟨own, others⟩ := inv.pending_apart found open_ other s₀ before
    -- A judged record keeps its deposit, and what is still pending in it was so before.
    obtain ⟨same, change⟩ : (s₀.afterVerdict ctx).deposit_txid = s₀.deposit_txid ∧
        (s₀.afterVerdict ctx = s₀ ∨ (s₀.afterVerdict ctx).challenge_verdict_height = 0) := s₀.afterVerdict_cases
    rw [before] at stored
    split_ifs at stored with inside
    · cases stored
      refine ⟨same ▸ own, fun still => ?_⟩
      rcases change with unchanged | cleared
      · rw [unchanged] at still ⊢
        refine others ?_ still
        rintro rfl
        obtain rfl := Option.mem_unique before found
        have due : (s₀.afterVerdict ctx).challenge_verdict_height = 0 := by
          simp [ModelRecord.afterVerdict, height, judgedRecord, ModelRecord.clearChallenge]
        rw [unchanged] at due
        exact still due
      · exact absurd cleared still
    · cases stored
      exact ⟨own, others fun here => inside (here ▸ listed)⟩

theorem Detached.unreferenced (detached : Detached db deposit.hash)
    (inv : RegInv known n m params db) (nonzero : deposit.hash ≠ 0) :
    ∀ other r, db.models.get? other = some r → r.challenge_outpoint ≠ deposit := by
  intro other r stored same
  -- A record without a challenge refers to the null outpoint.
  by_cases none : r.challenge_verdict_height = 0
  · have clear := (inv.records other r stored).unchallenged none
    have null := (ModelRecord.clearChallenge_eq_self_iff.mp clear).2.1
    rw [← same] at nonzero
    exact nonzero null
  · exact (detached other r stored).2 none (congrArg COutPoint.hash same)

theorem BlockRun.settles (run : BlockRun ctx known db mid block db') (above : 0 < ctx.nHeight)
    (pending : ChallengePending db model deposit ctx.nHeight r count)
    (apart : ∀ tx ∈ block.vtx, accusedModel ctx tx ≠ some model) (nonzero : deposit.hash ≠ 0) :
    Detached db' deposit.hash ∧
    ChallengeSettled db' model deposit (count + challengeCommits model block.vtx) := by
  obtain ⟨r', after⟩ := run.run.pending pending above fun tx member accused => absurd accused (apart tx member)
  have verified := after.verifyAll run.run.last_inv above above (verificationsAt db ctx.nHeight)
  generalize start : (verificationsAt db ctx.nHeight).foldl (ModelDb.verify ctx) mid = db₁
    at verified
  have inv := run.verified
  rw [start] at inv
  have listed := run.run.due_verdicts above after.found after.height
  have scheduled := run.scheduled
  rw [start] at scheduled
  have decided := run.decided
  rw [start] at decided
  obtain ⟨erased, burned⟩ := inv.judgeAll_deposit above (scheduledAt_nodup _ _) scheduled listed
    verified
  have detached : Detached db' deposit.hash := by
    rw [decided]
    exact inv.judgeAll_detached above listed verified
  rw [← decided] at erased burned
  obtain ⟨_, _, inside⟩ := (inv.records model r' verified.found).challenged
    (by have := verified.height; omega)
  refine ⟨detached, erased, detached.unreferenced run.inv nonzero, fun reached => ?_, fun below => ?_⟩
  · have convicted : r'.convicted = true := by
      simpa [ModelRecord.convicted, verified.commits] using reached
    have banned : r'.status = .Banned := by
      rcases inside.standing with ⟨_, below, _⟩ | ⟨banned, _⟩
      · rw [convicted] at below
        cases below
      · exact banned
    have final : db'.models.get? model = some (r'.afterVerdict ctx) := by
      rw [decided, ModelDb.judgeAll_models above, if_pos listed, verified.found, Option.map_some]
    have status : (r'.afterVerdict ctx).status = .Banned := by
      simp [ModelRecord.afterVerdict, verified.height, judgedRecord,
        inside.bannedByVerdict_eq_false, ModelRecord.clearChallenge, banned]
    refine ⟨by simpa [convicted] using burned, _, final, status, ?_⟩
    exact ((run.inv.records model _ final).lost (by simp [ModelRecord.forfeited, status])).1
  · have acquitted : r'.convicted = false := by
      simpa [ModelRecord.convicted, verified.commits] using below
    simpa [acquitted] using burned

end Verdict

structure Untouched (db db' : ModelDb) (o : COutPoint) : Prop where
  burns : db'.burns.get? o = db.burns.get? o
  filings : db'.challengeDeposits.get? o = db.challengeDeposits.get? o
  detached : Detached db' o.hash
  bans : ∀ model r, db.models.get? model = some r → r.status = .Banned →
    ∃ r', db'.models.get? model = some r' ∧ r'.status = .Banned

section Settled

variable {db'' : ModelDb} {o : COutPoint} {r' : ModelRecord}

theorem Untouched.refl (detached : Detached db o.hash) : Untouched db db o :=
  ⟨rfl, rfl, detached, fun _ r found banned => ⟨r, found, banned⟩⟩

theorem Untouched.trans (first : Untouched db db' o) (second : Untouched db' db'' o) : Untouched db db'' o where
  burns := second.burns.trans first.burns
  filings := second.filings.trans first.filings
  detached := second.detached
  bans model r found banned := by
    obtain ⟨r', found', banned'⟩ := first.bans model r found banned
    exact second.bans model r' found' banned'

theorem Untouched.update (model : Uint256) (detached : Detached db o.hash)
    (models : db'.models = db.models.insert model r') (burns : db'.burns.get? o = db.burns.get? o)
    (filings : db'.challengeDeposits.get? o = db.challengeDeposits.get? o)
    (deposit : r'.deposit_txid ≠ o.hash)
    (challenge : r'.challenge_verdict_height ≠ 0 → r'.challenge_deposit_txid ≠ o.hash)
    (ban : ∀ r, db.models.get? model = some r → r.status = .Banned → r'.status = .Banned) :
    Untouched db db' o := by
  refine ⟨burns, filings, fun other s stored => ?_, fun other s stored banned => ?_⟩
  · rw [models, OrdMap.get?_insert] at stored
    split_ifs at stored with here
    · cases stored
      exact ⟨deposit, challenge⟩
    · exact detached other s stored
  · rw [models, OrdMap.get?_insert]
    split_ifs with here
    · exact ⟨r', rfl, ban s (here ▸ stored) banned⟩
    · exact ⟨s, stored, banned⟩

/-- A transaction leaves older outputs that back nothing untouched, unless it burns a forfeited
deposit. -/
theorem RegistryStep.untouched (step : RegistryStep ctx done tx db db') (detached : Detached db o.hash)
    (fresh : tx.computeHash ctx.crypto.hash ≠ o.hash) (unspent : ∀ txin ∈ tx.vin, txin.prevout = o →
      db.burns.get? o ≠ some CHALLENGE_BURN_SENTINEL) : Untouched db db' o := by
  cases step with
  | other => exact .refl detached
  | deposit payload _ new =>
    refine .update _ detached rfl rfl rfl fresh (fun pending => absurd rfl pending) ?_
    intro r found
    rw [new] at found
    cases found
  | commit payload record _ found allowed =>
    obtain ⟨own, pending⟩ := detached _ record found
    refine .update _ detached rfl rfl rfl own pending ?_
    intro r stored banned
    obtain rfl := Option.mem_unique found stored
    simp [allowCommitStatus, banned] at allowed
  | challengeCommit payload record _ found registered =>
    obtain ⟨own, pending⟩ := detached _ record found
    have apart : o ≠ record.deposit_outpoint := COutPoint.ne_of_hash own.symm
    have kept : (countedRecord ctx record).deposit_txid = record.deposit_txid ∧
        (countedRecord ctx record).challenge_verdict_height = record.challenge_verdict_height ∧
        (countedRecord ctx record).challenge_deposit_txid = record.challenge_deposit_txid := by
      simp only [countedRecord, ModelRecord.ban]
      split_ifs <;> exact ⟨rfl, rfl, rfl⟩
    refine .update payload.model_hash detached ?_ ?_ ?_ (kept.1 ▸ own) (kept.2.1 ▸ kept.2.2 ▸ pending) ?_
    · simp only [ModelDb.countChallenge, ModelDb.put, ModelDb.forfeitDeposit]
      split_ifs <;> rfl
    · simp only [ModelDb.countChallenge, ModelDb.put, ModelDb.forfeitDeposit]
      split_ifs
      · exact OrdMap.get?_insert_of_ne _ _ _ apart
      · rfl
    · simp only [ModelDb.countChallenge, ModelDb.put, ModelDb.forfeitDeposit]
      split_ifs <;> rfl
    · intro r stored banned
      obtain rfl := Option.mem_unique found stored
      rw [registered] at banned
      cases banned
  | accusation payload other record _ _ found registered =>
    obtain ⟨own, _⟩ := detached _ record found
    have apart : o ≠ (accusedRecord ctx tx payload record).challenge_outpoint := COutPoint.ne_of_hash fresh.symm
    refine .update _ detached rfl rfl (OrdMap.get?_insert_of_ne _ _ _ apart) own (fun _ => fresh) ?_
    intro r stored banned
    obtain rfl := Option.mem_unique found stored
    rw [registered] at banned
    cases banned
  | forgetSentinel txin _ single sentinel =>
    have apart : o ≠ txin.prevout := by
      rintro rfl
      exact unspent txin (by simp [single]) rfl sentinel
    exact { Untouched.refl detached with burns := OrdMap.get?_erase_of_ne _ _ apart }
  | burn txin other record _ _ _ _ found =>
    obtain ⟨own, pending⟩ := detached _ record found
    refine .update _ detached rfl rfl rfl own pending ?_
    intro r stored banned
    obtain rfl := Option.mem_unique found stored
    exact banned

theorem RegistryRun.untouched (run : RegistryRun ctx known done db txs db')
    (detached : Detached db o.hash) (old : o.hash ∈ known)
    (unspent : ∀ tx ∈ txs, ∀ txin ∈ tx.vin, txin.prevout = o →
       db.burns.get? o ≠ some CHALLENGE_BURN_SENTINEL) : Untouched db db' o := by
  induction run with
  | nil => exact .refl detached
  | @cons known done rest tx db mid last _ fresh _ _ _ step more ih =>
    have first := step.untouched detached (fun same => fresh (same ▸ old))
      (unspent tx List.mem_cons_self)
    refine first.trans (ih first.detached (.inr old) ?_)
    rw [first.burns]
    exact fun t member => unspent t (List.mem_cons_of_mem _ member)

theorem RegInv.verify_untouched {n m : Nat} (inv : RegInv known n m params db)
    (above : 0 < ctx.nHeight) (detached : Detached db o.hash) (model : Uint256) :
    Untouched db (db.verify ctx model) o := by
  unfold ModelDb.verify
  cases found : db.models.get? model with
  | none => exact .refl detached
  | some record =>
    by_cases due : record.verification_event_height = ctx.nHeight
    · obtain ⟨own, pending⟩ := detached model record found
      have apart : o ≠ record.deposit_outpoint := COutPoint.ne_of_hash own.symm
      have kept : (verifiedRecord ctx record).deposit_txid = record.deposit_txid ∧
          (verifiedRecord ctx record).challenge_verdict_height = record.challenge_verdict_height ∧
          (verifiedRecord ctx record).challenge_deposit_txid = record.challenge_deposit_txid := by
        simp only [verifiedRecord, ModelRecord.lock]
        split_ifs <;> exact ⟨rfl, rfl, rfl⟩
      simp only [due, if_true, ModelDb.settleVerification, ModelDb.put, ModelDb.forfeitDeposit]
      refine .update model detached ?_ ?_ ?_ (kept.1 ▸ own) (kept.2.1 ▸ kept.2.2 ▸ pending) ?_
      · split_ifs <;> rfl
      · split_ifs
        · rfl
        · exact OrdMap.get?_insert_of_ne _ _ _ apart
      · split_ifs <;> rfl
      · -- A banned model does not wait for a verification.
        intro r stored banned
        obtain rfl := Option.mem_unique found stored
        obtain ⟨_, _, _, _, _, kept⟩ := (inv.records model record found).verifying (by omega)
        simp [ModelRecord.forfeited, banned] at kept
    · simpa [due] using .refl detached

theorem RegInv.judge_untouched {n m : Nat} (inv : RegInv known n m params db)
    (above : 0 < ctx.nHeight) (detached : Detached db o.hash) {entry : Uint256 × ChallengeValue}
    (scheduled : db.challenges.get? ⟨ctx.nHeight, entry.1⟩ = some entry.2) :
    Untouched db (db.judge ctx entry) o := by
  unfold ModelDb.judge
  cases found : db.models.get? entry.1 with
  | none => exact .refl detached
  | some record =>
    by_cases due : record.challenge_verdict_height = ctx.nHeight
    · obtain ⟨own, pending⟩ := detached entry.1 record found
      obtain ⟨_, _, inside⟩ := (inv.records entry.1 record found).challenged (by omega)
      have value := inside.scheduled
      rw [due, scheduled] at value
      have apart : o ≠ record.deposit_outpoint := COutPoint.ne_of_hash own.symm
      have away : o ≠ entry.2.deposit_outpoint := by
        rw [Option.some.inj value]
        exact COutPoint.ne_of_hash (pending (by omega)).symm
      have kept : (judgedRecord ctx record).deposit_txid = record.deposit_txid := by
        simp only [judgedRecord, ModelRecord.ban, ModelRecord.clearChallenge]
        split_ifs <;> rfl
      simp only [due, if_true, ModelDb.settleChallenge, ModelDb.put, ModelDb.forfeitDeposit]
      refine .update entry.1 detached ?_ ?_ ?_ (kept ▸ own) (fun still => absurd rfl still) ?_
      · split_ifs <;> rfl
      · split_ifs <;> simp [OrdMap.get?_insert, apart, away]
      · split_ifs <;> simp [OrdMap.get?_erase, away]
      · intro r stored banned
        obtain rfl := Option.mem_unique found stored
        simp [judgedRecord, ModelRecord.bannedByVerdict, banned, ModelRecord.clearChallenge]
    · simpa [due] using .refl detached

theorem BlockRun.untouched {mid : ModelDb} {block : CBlock}
    (run : BlockRun ctx known db mid block db') (above : 0 < ctx.nHeight)
    (detached : Detached db o.hash) (old : o.hash ∈ known)
    (unspent : ∀ tx ∈ block.vtx, ∀ txin ∈ tx.vin, txin.prevout = o →
      db.burns.get? o ≠ some CHALLENGE_BURN_SENTINEL) : Untouched db db' o := by
  have first := run.run.untouched detached old unspent
  -- The verifications, one after the other.
  have second : ∀ (models : List Uint256) (d : ModelDb),
      RegInv (known ∪ txids ctx.crypto block.vtx) ctx.nHeight (ctx.nHeight + 1) ctx.params d →
      Detached d o.hash → Untouched d (models.foldl (ModelDb.verify ctx) d) o := by
    intro models
    induction models with
    | nil => exact fun d _ free => .refl free
    | cons model rest ih =>
      intro d inv free
      have head := inv.verify_untouched above free model
      exact head.trans (ih _ (inv.verifyAll above [model]) head.detached)
  have third : ∀ (entries : List (Uint256 × ChallengeValue)) (d : ModelDb),
      RegInv (known ∪ txids ctx.crypto block.vtx) ctx.nHeight (ctx.nHeight + 1) ctx.params d →
      (entries.map Prod.fst).Nodup → (∀ entry ∈ entries, d.challenges.get? ⟨ctx.nHeight, entry.1⟩ = some entry.2) →
      Detached d o.hash → Untouched d (entries.foldl (ModelDb.judge ctx) d) o := by
    intro entries
    induction entries with
    | nil => exact fun d _ _ _ free => .refl free
    | cons entry rest ih =>
      intro d inv distinct scheduled free
      have here := scheduled entry List.mem_cons_self
      have head := inv.judge_untouched above free here
      exact head.trans (ih _ (inv.judge above here) (List.nodup_cons.mp distinct).2
        (fun e member => (ModelDb.judge_scheduled distinct scheduled e member).2) head.detached)
  have verified := second (verificationsAt db ctx.nHeight) mid (run.run.last_inv.later (by omega))
    first.detached
  rw [run.decided]
  refine first.trans (verified.trans (third _ _ run.verified (scheduledAt_nodup _ _) ?_
    verified.detached))
  exact run.scheduled

theorem ChallengeSettled.untouched {n m count : Nat} (settled : ChallengeSettled db model o count)
    (same : Untouched db db' o) (inv : RegInv known n m params db') (nonzero : o.hash ≠ 0) :
    ChallengeSettled db' model o count where
  erased := same.filings.trans settled.erased
  unreferenced := same.detached.unreferenced inv nonzero
  convicted reached := by
    obtain ⟨unburned, r, found, banned, _⟩ := settled.convicted reached
    obtain ⟨r', found', banned'⟩ := same.bans model r found banned
    exact ⟨same.burns.trans unburned, r', found', banned',
      ((inv.records model r' found').lost (by simp [ModelRecord.forfeited, banned'])).1⟩
  acquitted below := same.burns.trans (settled.acquitted below)

end Settled

end TensorCash
