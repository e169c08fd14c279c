import TensorCash.Models.Run

/-! The transactions of a block step through the database; then the height's decisions are taken. -/

namespace TensorCash

open Checked

variable {done txs : List CTransaction} {r : ModelRecord} {model : Uint256}
  {entry : Uint256 × ChallengeValue}

def txids (c : Crypto) (txs : List CTransaction) : Set Uint256 :=
  { h | ∃ t ∈ txs, t.computeHash c.hash = h }

/-- No accident with hashes: ids are new, distinct and not null, and no model is the sentinel. -/
structure HashesApart (c : Crypto) (params : Params) (known : Set Uint256) (txs : List CTransaction) : Prop where
  fresh : ∀ tx ∈ txs, tx.computeHash c.hash ∉ known
  nonzero : ∀ tx ∈ txs, tx.computeHash c.hash ≠ 0
  distinct : (txs.map fun tx => tx.computeHash c.hash).Nodup
  real : ∀ tx ∈ txs, ∀ payload, parseModelDepositTx c params tx = some payload →
    payload.model_hash ≠ CHALLENGE_BURN_SENTINEL

inductive RegistryRun (ctx : TipContext) : Set Uint256 → List CTransaction → ModelDb →
    List CTransaction → ModelDb → Prop where
  | nil {known : Set Uint256} {done : List CTransaction} {db : ModelDb}
      (inv : RegInv known ctx.nHeight ctx.nHeight ctx.params db) : RegistryRun ctx known done db [] db
  | cons {known : Set Uint256} {done rest : List CTransaction} {tx : CTransaction}
      {db mid last : ModelDb}
      (inv : RegInv known ctx.nHeight ctx.nHeight ctx.params db)
      (fresh : tx.computeHash ctx.crypto.hash ∉ known)
      (nonzero : tx.computeHash ctx.crypto.hash ≠ 0)
      (real : ∀ payload, parseModelDepositTx ctx.crypto ctx.params tx = some payload →
        payload.model_hash ≠ CHALLENGE_BURN_SENTINEL)
      (spends : SpendsAllowed ctx db tx) (step : RegistryStep ctx done tx db mid)
      (more : RegistryRun ctx (insert (tx.computeHash ctx.crypto.hash) known) (done ++ [tx]) mid
        rest last) : RegistryRun ctx known done db (tx :: rest) last

section Transactions

variable {ctx : TipContext} {known : Set Uint256} {done txs : List CTransaction} {tx : CTransaction}
  {db db' : ModelDb}

theorem HashesApart.tail {c : Crypto} {params : Params} {rest : List CTransaction}
    (apart : HashesApart c params known (tx :: rest)) :
    HashesApart c params (insert (tx.computeHash c.hash) known) rest where
  fresh t member := by
    have distinct := apart.distinct
    rw [List.map_cons, List.nodup_cons] at distinct
    rintro (same | old)
    · exact distinct.1 (same ▸ List.mem_map_of_mem member)
    · exact apart.fresh t (List.mem_cons_of_mem _ member) old
  nonzero t member := apart.nonzero t (List.mem_cons_of_mem _ member)
  distinct := by
    have distinct := apart.distinct
    rw [List.map_cons, List.nodup_cons] at distinct
    exact distinct.2
  real t member := apart.real t (List.mem_cons_of_mem _ member)

theorem RegistryStep.keeps (step : RegistryStep ctx done tx db db')
    (inv : RegInv known ctx.nHeight ctx.nHeight ctx.params db) (above : 0 < ctx.nHeight)
    (fresh : tx.computeHash ctx.crypto.hash ∉ known) (nonzero : tx.computeHash ctx.crypto.hash ≠ 0)
    (real : ∀ payload, parseModelDepositTx ctx.crypto ctx.params tx = some payload →
      payload.model_hash ≠ CHALLENGE_BURN_SENTINEL) :
    RegInv (insert (tx.computeHash ctx.crypto.hash) known) ctx.nHeight ctx.nHeight ctx.params
      db' := by
  have grows := Set.subset_insert (tx.computeHash ctx.crypto.hash) known
  cases step with
  | other => exact inv.grow grows
  | deposit payload parsed new => exact inv.openDeposit above fresh nonzero new (real payload parsed)
  | commit payload record _ found allowed => exact inv.commit found allowed
  | challengeCommit payload record _ found registered pending =>
    exact (inv.countChallenge found registered pending).grow grows
  | accusation payload model record _ _ found registered past => exact inv.accuse fresh nonzero found registered past
  | forgetSentinel txin _ _ sentinel => exact (inv.forgetSentinel sentinel).grow grows
  | burn txin model record _ _ _ _ found status forfeit =>
    refine (inv.burn found ?_).grow grows
    rcases status with status | status <;> simp [ModelRecord.forfeited, status, forfeit]

theorem RegistryStep.schedules (step : RegistryStep ctx done tx db db') (model : Uint256) :
    db'.verifications.get? ⟨ctx.nHeight, model⟩ = db.verifications.get? ⟨ctx.nHeight, model⟩ ∧
      db'.challenges.get? ⟨ctx.nHeight, model⟩ = db.challenges.get? ⟨ctx.nHeight, model⟩ := by
  cases step with
  | other => exact ⟨rfl, rfl⟩
  | deposit payload =>
    refine ⟨?_, rfl⟩
    simp only [ModelDb.openDeposit]
    split_ifs with later
    · refine OrdMap.get?_insert_of_ne _ _ _ fun same => ?_
      have := congrArg ScheduleKey.height same
      simp only at this
      omega
    · rfl
  | commit => exact ⟨rfl, rfl⟩
  | challengeCommit payload record =>
    simp only [ModelDb.countChallenge, ModelDb.put, ModelDb.forfeitDeposit]
    split_ifs <;> exact ⟨rfl, rfl⟩
  | accusation payload other record =>
    refine ⟨rfl, ?_⟩
    simp only [ModelDb.accuse]
    split_ifs with later
    · refine OrdMap.get?_insert_of_ne _ _ _ fun same => ?_
      have := congrArg ScheduleKey.height same
      simp only at this
      omega
    · rfl
  | forgetSentinel => exact ⟨rfl, rfl⟩
  | burn => exact ⟨rfl, rfl⟩

theorem connectModelTxs_run {s s' : Stage} (above : 0 < ctx.nHeight)
    (run : txs.foldlM (connectModelTx ctx) s = .ok s') (ok : StageOk ctx done s)
    (inv : RegInv known ctx.nHeight ctx.nHeight ctx.params s.db)
    (apart : HashesApart ctx.crypto ctx.params known txs) : RegistryRun ctx known done s.db txs s'.db := by
  induction txs generalizing s known done with
  | nil =>
    cases run
    exact .nil inv
  | cons tx rest ih =>
    rw [List.foldlM_cons, bind_eq_ok] at run
    obtain ⟨mid, stepped, run⟩ := run
    obtain ⟨spends, step, ok'⟩ := connectModelTx_step ok inv stepped
    have fresh := apart.fresh tx List.mem_cons_self
    have nonzero := apart.nonzero tx List.mem_cons_self
    have real := apart.real tx List.mem_cons_self
    exact .cons inv fresh nonzero real spends step
      (ih run ok' (step.keeps inv above fresh nonzero real) apart.tail)

theorem RegistryStep.sentinels (step : RegistryStep ctx done tx db db')
    (inv : RegInv known ctx.nHeight ctx.nHeight ctx.params db) {o : COutPoint}
    (stored : db'.burns.get? o = some CHALLENGE_BURN_SENTINEL) :
    db.burns.get? o = some CHALLENGE_BURN_SENTINEL := by
  cases step with
  | other => exact stored
  | deposit => exact stored
  | commit => exact stored
  | challengeCommit payload record _ found =>
    simp only [ModelDb.countChallenge, ModelDb.put, ModelDb.forfeitDeposit] at stored
    split_ifs at stored
    · -- A forfeited deposit is filed under its model, which is not the sentinel.
      rw [OrdMap.get?_insert] at stored
      split_ifs at stored
      · rw [Option.some.inj stored, inv.no_sentinel] at found
        cases found
      · exact stored
    · exact stored
  | accusation => exact stored
  | forgetSentinel =>
    rw [OrdMap.get?_erase] at stored
    split_ifs at stored
    exact stored
  | burn => exact stored

theorem connectModelTxs_at {s s' : Stage} {i : Nat} (above : 0 < ctx.nHeight)
    (run : txs.foldlM (connectModelTx ctx) s = .ok s') (ok : StageOk ctx done s)
    (inv : RegInv known ctx.nHeight ctx.nHeight ctx.params s.db)
    (apart : HashesApart ctx.crypto ctx.params known txs) (here : txs[i]? = some tx) :
    ∃ stage known' db', (txs.take i).foldlM (connectModelTx ctx) s = .ok stage ∧
      RegInv known' ctx.nHeight ctx.nHeight ctx.params stage.db ∧ SpendsAllowed ctx stage.db tx ∧
      RegistryStep ctx (done ++ txs.take i) tx stage.db db' ∧
      ∀ o, stage.db.burns.get? o = some CHALLENGE_BURN_SENTINEL →
        s.db.burns.get? o = some CHALLENGE_BURN_SENTINEL := by
  induction txs generalizing s known done i with
  | nil => simp at here
  | cons first rest ih =>
    rw [List.foldlM_cons, bind_eq_ok] at run
    obtain ⟨mid, stepped, run⟩ := run
    obtain ⟨spends, step, ok'⟩ := connectModelTx_step ok inv stepped
    cases i with
    | zero =>
      obtain rfl : first = tx := by simpa using here
      exact ⟨s, known, mid.db, rfl, inv, spends, by simpa using step, fun _ => id⟩
    | succ i =>
      have inv' := step.keeps inv above (apart.fresh first List.mem_cons_self)
        (apart.nonzero first List.mem_cons_self) (apart.real first List.mem_cons_self)
      obtain ⟨stage, known', db', reached, later, allowed, next, sentinels⟩ :=
        ih run ok' inv' apart.tail (by simpa using here)
      refine ⟨stage, known', db', ?_, later, allowed, by simpa using next,
        fun o stored => step.sentinels inv (sentinels o stored)⟩
      rw [List.take_succ_cons, List.foldlM_cons, bind_eq_ok]
      exact ⟨mid, stepped, reached⟩

theorem RegistryRun.last_inv (run : RegistryRun ctx known done db txs db') :
    RegInv (known ∪ txids ctx.crypto txs) ctx.nHeight ctx.nHeight ctx.params db' := by
  induction run with
  | nil inv => exact inv.grow Set.subset_union_left
  | cons _ _ _ _ _ _ _ ih =>
    refine ih.grow ?_
    rintro h ((rfl | old) | ⟨t, member, rfl⟩)
    · exact .inr ⟨_, List.mem_cons_self, rfl⟩
    · exact .inl old
    · exact .inr ⟨t, List.mem_cons_of_mem _ member, rfl⟩

theorem RegistryRun.schedules (run : RegistryRun ctx known done db txs db') (model : Uint256) :
    db'.verifications.get? ⟨ctx.nHeight, model⟩ = db.verifications.get? ⟨ctx.nHeight, model⟩ ∧
      db'.challenges.get? ⟨ctx.nHeight, model⟩ = db.challenges.get? ⟨ctx.nHeight, model⟩ := by
  induction run with
  | nil => exact ⟨rfl, rfl⟩
  | cons _ _ _ _ _ step _ ih =>
    obtain ⟨verifications, challenges⟩ := step.schedules model
    exact ⟨ih.1.trans verifications, ih.2.trans challenges⟩

theorem RegistryRun.split {earlier rest : List CTransaction}
    (run : RegistryRun ctx known done db txs db') (whole : txs = earlier ++ tx :: rest) :
    ∃ known' before after, RegistryStep ctx (done ++ earlier) tx before after ∧
      RegistryRun ctx (insert (tx.computeHash ctx.crypto.hash) known') (done ++ earlier ++ [tx])
        after rest db' := by
  induction run generalizing earlier with
  | nil => simp at whole
  | @cons known done _ first db mid last _ _ _ _ _ step more ih =>
    cases earlier with
    | nil =>
      obtain ⟨rfl, rfl⟩ := List.cons.inj whole
      exact ⟨known, db, mid, by simpa using step, by simpa using more⟩
    | cons head tail =>
      obtain ⟨rfl, same⟩ := List.cons.inj whole
      simpa using ih same

end Transactions

def ModelRecord.afterVerification (ctx : TipContext) (record : ModelRecord) : ModelRecord :=
  if record.verification_event_height = ctx.nHeight then verifiedRecord ctx record else record

def ModelRecord.afterVerdict (ctx : TipContext) (record : ModelRecord) : ModelRecord :=
  if record.challenge_verdict_height = ctx.nHeight then judgedRecord ctx record else record

def ModelDb.verify (ctx : TipContext) (db : ModelDb) (model : Uint256) : ModelDb :=
  match db.models.get? model with
  | none => db
  | some record =>
    if record.verification_event_height = ctx.nHeight then db.settleVerification ctx model record
    else db

def ModelDb.judge (ctx : TipContext) (db : ModelDb) (entry : Uint256 × ChallengeValue) : ModelDb :=
  match db.models.get? entry.1 with
  | none => db
  | some record =>
    if record.challenge_verdict_height = ctx.nHeight then
      db.settleChallenge ctx entry.1 record entry.2
    else db

section Decisions

variable {ctx : TipContext} {known : Set Uint256} {params : Params} {db : ModelDb} {model : Uint256}

theorem ModelDb.verify_models (db : ModelDb) (model other : Uint256) : (db.verify ctx model).models.get? other =
      if other = model then (db.models.get? model).map (ModelRecord.afterVerification ctx)
      else db.models.get? other := by
  unfold ModelDb.verify
  cases found : db.models.get? model with
  | none =>
    by_cases here : other = model
    · simp [here, found]
    · simp [here]
  | some record =>
    by_cases due : record.verification_event_height = ctx.nHeight
    · simp only [due, if_true, ModelDb.settleVerification, ModelDb.put, ModelDb.forfeitDeposit,
        Option.map_some, ModelRecord.afterVerification]
      split_ifs <;> simp_all [OrdMap.get?_insert]
    · by_cases here : other = model
      · simp [due, here, found, ModelRecord.afterVerification]
      · simp [due, here]

theorem ModelDb.judge_models (db : ModelDb) (entry : Uint256 × ChallengeValue) (other : Uint256) :
    (db.judge ctx entry).models.get? other =
      if other = entry.1 then (db.models.get? entry.1).map (ModelRecord.afterVerdict ctx)
      else db.models.get? other := by
  unfold ModelDb.judge
  cases found : db.models.get? entry.1 with
  | none =>
    by_cases here : other = entry.1
    · simp [here, found]
    · simp [here]
  | some record =>
    by_cases due : record.challenge_verdict_height = ctx.nHeight
    · simp only [due, if_true, ModelDb.settleChallenge, ModelDb.put, ModelDb.forfeitDeposit,
        Option.map_some, ModelRecord.afterVerdict]
      split_ifs <;> simp_all [OrdMap.get?_insert]
    · by_cases here : other = entry.1
      · simp [due, here, found, ModelRecord.afterVerdict]
      · simp [due, here]

theorem ModelRecord.afterVerification_idem (above : 0 < ctx.nHeight) (record : ModelRecord) :
    (record.afterVerification ctx).afterVerification ctx = record.afterVerification ctx := by
  by_cases due : record.verification_event_height = ctx.nHeight
  · have decided : (verifiedRecord ctx record).verification_event_height = 0 := rfl
    simp [ModelRecord.afterVerification, due, decided, above.ne]
  · simp [ModelRecord.afterVerification, due]

theorem ModelRecord.afterVerdict_idem (above : 0 < ctx.nHeight) (record : ModelRecord) :
    (record.afterVerdict ctx).afterVerdict ctx = record.afterVerdict ctx := by
  by_cases due : record.challenge_verdict_height = ctx.nHeight
  · have decided : (judgedRecord ctx record).challenge_verdict_height = 0 := rfl
    simp [ModelRecord.afterVerdict, due, decided, above.ne]
  · simp [ModelRecord.afterVerdict, due]

theorem ModelDb.verifyAll_models (above : 0 < ctx.nHeight) (models : List Uint256) (db : ModelDb)
    (other : Uint256) : (models.foldl (ModelDb.verify ctx) db).models.get? other =
      if other ∈ models then (db.models.get? other).map (ModelRecord.afterVerification ctx)
      else db.models.get? other := by
  induction models generalizing db with
  | nil => simp
  | cons model rest ih =>
    rw [List.foldl_cons, ih, ModelDb.verify_models]
    by_cases here : other = model
    · subst here
      cases found : db.models.get? other <;> simp [ModelRecord.afterVerification_idem above]
    · simp [here]

theorem ModelDb.judgeAll_models (above : 0 < ctx.nHeight)
    (entries : List (Uint256 × ChallengeValue)) (db : ModelDb) (other : Uint256) :
    (entries.foldl (ModelDb.judge ctx) db).models.get? other = if other ∈ entries.map Prod.fst then
        (db.models.get? other).map (ModelRecord.afterVerdict ctx)
      else db.models.get? other := by
  induction entries generalizing db with
  | nil => simp
  | cons entry rest ih =>
    rw [List.foldl_cons, ih, ModelDb.judge_models]
    by_cases here : other = entry.1
    · subst here
      cases found : db.models.get? entry.1 <;> simp [ModelRecord.afterVerdict_idem above]
    · simp only [here, if_false, List.map_cons, List.mem_cons, false_or]

theorem RegInv.verifyAll (above : 0 < ctx.nHeight) (models : List Uint256)
    (inv : RegInv known ctx.nHeight (ctx.nHeight + 1) params db) :
    RegInv known ctx.nHeight (ctx.nHeight + 1) params (models.foldl (ModelDb.verify ctx) db) := by
  induction models generalizing db with
  | nil => exact inv
  | cons model rest ih =>
    refine ih ?_
    unfold ModelDb.verify
    cases found : db.models.get? model with
    | none => exact inv
    | some record =>
      by_cases due : record.verification_event_height = ctx.nHeight
      · simpa [due] using inv.settleVerification found due above
      · simpa [due] using inv

theorem ModelDb.judge_challenges (db : ModelDb) (entry : Uint256 × ChallengeValue) {h : Nat}
    {other : Uint256} (differ : other ≠ entry.1) :
    (db.judge ctx entry).challenges.get? ⟨h, other⟩ = db.challenges.get? ⟨h, other⟩ := by
  unfold ModelDb.judge
  cases db.models.get? entry.1 with
  | none => rfl
  | some record =>
    simp only [ModelDb.settleChallenge, ModelDb.put, ModelDb.forfeitDeposit]
    split_ifs <;> simp [OrdMap.get?_insert, differ]

theorem RegInv.judge (above : 0 < ctx.nHeight) (inv : RegInv known ctx.nHeight (ctx.nHeight + 1) params db)
    (scheduled : db.challenges.get? ⟨ctx.nHeight, entry.1⟩ = some entry.2) :
    RegInv known ctx.nHeight (ctx.nHeight + 1) params (db.judge ctx entry) := by
  unfold ModelDb.judge
  cases found : db.models.get? entry.1 with
  | none => exact inv
  | some record =>
    by_cases due : record.challenge_verdict_height = ctx.nHeight
    · simpa [due] using inv.settleChallenge found due above scheduled
    · simpa [due] using inv

theorem ModelDb.judge_scheduled {rest : List (Uint256 × ChallengeValue)}
    (distinct : ((entry :: rest).map Prod.fst).Nodup)
    (scheduled : ∀ e ∈ entry :: rest, db.challenges.get? ⟨ctx.nHeight, e.1⟩ = some e.2) :
    ∀ e ∈ rest, e.1 ≠ entry.1 ∧ (db.judge ctx entry).challenges.get? ⟨ctx.nHeight, e.1⟩ = some e.2 := by
  intro e member
  rw [List.map_cons, List.nodup_cons] at distinct
  have differ : e.1 ≠ entry.1 := by
    intro same
    exact distinct.1 (same ▸ List.mem_map_of_mem member)
  refine ⟨differ, ?_⟩
  rw [ModelDb.judge_challenges db entry differ]
  exact scheduled e (List.mem_cons_of_mem _ member)

theorem RegInv.judgeAll (above : 0 < ctx.nHeight) (entries : List (Uint256 × ChallengeValue))
    (inv : RegInv known ctx.nHeight (ctx.nHeight + 1) params db) (distinct : (entries.map Prod.fst).Nodup)
    (scheduled : ∀ entry ∈ entries, db.challenges.get? ⟨ctx.nHeight, entry.1⟩ = some entry.2) :
    RegInv known ctx.nHeight (ctx.nHeight + 1) params
      (entries.foldl (ModelDb.judge ctx) db) := by
  induction entries generalizing db with
  | nil => exact inv
  | cons entry rest ih =>
    exact ih (inv.judge above (scheduled entry List.mem_cons_self)) (List.nodup_cons.mp distinct).2
      fun e member => (ModelDb.judge_scheduled distinct scheduled e member).2

theorem RegInv.advance {n : Nat} (inv : RegInv known n (n + 1) params db)
    (decided : ∀ model r, db.models.get? model = some r →
       r.verification_event_height ≠ n ∧ r.challenge_verdict_height ≠ n) :
    RegInv known (n + 1) (n + 1) params db where
  records model r found := by
    have ok := inv.records model r found
    obtain ⟨verified, judged⟩ := decided model r found
    refine { ok with verifying := fun event => ?_, challenged := fun pending => ?_ }
    · obtain ⟨later, rest⟩ := ok.verifying event
      exact ⟨by omega, rest⟩
    · obtain ⟨later, rest⟩ := ok.challenged pending
      exact ⟨by omega, rest⟩
  deposit_inj := inv.deposit_inj
  challenge_apart := inv.challenge_apart
  deposits := inv.deposits
  burns := inv.burns
  sentinels := inv.sentinels
  filings := inv.filings
  no_sentinel := inv.no_sentinel
  verifications := inv.verifications
  challenges h model v stored := by
    obtain ⟨r, found, state, verdict⟩ := inv.challenges h model v stored
    exact ⟨r, found, state, fun above => verdict (by omega)⟩

theorem RegInv.later {n m m' : Nat} (inv : RegInv known n m params db) (le : m ≤ m') :
    RegInv known n m' params db :=
  { inv with
    verifications := fun h model v stored => by
      obtain ⟨r, found, entry⟩ := inv.verifications h model v stored
      exact ⟨r, found, fun above => entry (le.trans above)⟩
    challenges := fun h model v stored => by
      obtain ⟨r, found, state, verdict⟩ := inv.challenges h model v stored
      exact ⟨r, found, fun above => state (le.trans above), verdict⟩ }

theorem decideVerification_db (s : Stage) {entry : Uint256 × VerificationValue}
    (pending : entry.2.state = 0) (known : (s.db.models.get? entry.1).isSome) :
    (decideVerification ctx s entry).db = s.db.verify ctx entry.1 := by
  obtain ⟨record, found⟩ := Option.isSome_iff_exists.mp known
  by_cases due : record.verification_event_height = ctx.nHeight <;>
    simp [decideVerification, ModelDb.verify, pending, found, due]

theorem decideVerifications_db (entries : List (Uint256 × VerificationValue)) (s : Stage)
    (pending : ∀ entry ∈ entries, entry.2.state = 0 ∧ (s.db.models.get? entry.1).isSome) :
    (entries.foldl (decideVerification ctx) s).db = (entries.map Prod.fst).foldl (ModelDb.verify ctx) s.db := by
  induction entries generalizing s with
  | nil => rfl
  | cons entry rest ih =>
    have first : (decideVerification ctx s entry).db = s.db.verify ctx entry.1 :=
      decideVerification_db s (pending entry List.mem_cons_self).1
        (pending entry List.mem_cons_self).2
    rw [List.foldl_cons, ih, List.map_cons, List.foldl_cons, first]
    intro later member
    obtain ⟨state, inside⟩ := pending later (List.mem_cons_of_mem _ member)
    refine ⟨state, ?_⟩
    rw [first, ModelDb.verify_models]
    split_ifs with same
    · rw [Option.isSome_map, ← same, inside]
    · exact inside

theorem decideChallenge_db (s : Stage) (known : (s.db.models.get? entry.1).isSome) :
    (decideChallenge ctx s entry).db = s.db.judge ctx entry := by
  obtain ⟨record, found⟩ := Option.isSome_iff_exists.mp known
  by_cases due : record.challenge_verdict_height = ctx.nHeight <;> simp [decideChallenge, ModelDb.judge, found, due]

theorem decideChallenges_db (entries : List (Uint256 × ChallengeValue)) (s : Stage)
    (inside : ∀ entry ∈ entries, (s.db.models.get? entry.1).isSome) :
    (entries.foldl (decideChallenge ctx) s).db = entries.foldl (ModelDb.judge ctx) s.db := by
  induction entries generalizing s with
  | nil => rfl
  | cons entry rest ih =>
    have first : (decideChallenge ctx s entry).db = s.db.judge ctx entry :=
      decideChallenge_db s (inside entry List.mem_cons_self)
    rw [List.foldl_cons, ih, List.foldl_cons, first]
    intro later member
    rw [first, ModelDb.judge_models]
    split_ifs with same
    · rw [Option.isSome_map, ← same]
      exact inside later (List.mem_cons_of_mem _ member)
    · exact inside later (List.mem_cons_of_mem _ member)

theorem catchUpModels_db (models : List Uint256) (s : Stage)
    (decided : ∀ model r, s.db.models.get? model = some r →
       r.verificationOverdue ctx.nHeight = false ∧ r.verdictOverdue ctx.nHeight = false) :
    models.foldl (catchUpModel ctx) s = s := by
  induction models with
  | nil => rfl
  | cons model rest ih =>
    have same : catchUpModel ctx s model = s := by
      unfold catchUpModel
      cases found : s.db.models.get? model with
      | none => rfl
      | some record =>
        obtain ⟨verified, judged⟩ := decided model record found
        simp [catchUpVerification, catchUpChallenge, verified, judged]
    rw [List.foldl_cons, same, ih]

end Decisions

def verificationsAt (db : ModelDb) (height : Nat) : List Uint256 :=
  (scheduledAt db.verifications height).map Prod.fst

/-- An accepted block: its transactions lead to `mid`, and its height's decisions on from there. -/
structure BlockRun (ctx : TipContext) (known : Set Uint256) (db mid : ModelDb) (block : CBlock)
    (db' : ModelDb) : Prop where
  run : RegistryRun ctx known [] db block.vtx mid
  verified : RegInv (known ∪ txids ctx.crypto block.vtx) ctx.nHeight (ctx.nHeight + 1) ctx.params
    ((verificationsAt db ctx.nHeight).foldl (ModelDb.verify ctx) mid)
  decided : db' = (scheduledAt db.challenges ctx.nHeight).foldl (ModelDb.judge ctx)
    ((verificationsAt db ctx.nHeight).foldl (ModelDb.verify ctx) mid)
  inv : RegInv (known ∪ txids ctx.crypto block.vtx) (ctx.nHeight + 1) (ctx.nHeight + 1) ctx.params
    db'
  unbanned : block.pow.getModelHash ctx.crypto = 0 ∨ ∀ record ∈ db'.models.get? (block.pow.getModelHash ctx.crypto),
      record.status = .Banned → record.challenge_verdict_height = 0 →
        0 < record.commit_block_height ∧ ctx.nHeight ≤ record.commit_block_height

section Block

variable {ctx : TipContext} {known : Set Uint256} {db mid db' : ModelDb} {block : CBlock}

theorem RegistryRun.due_verifications (run : RegistryRun ctx known done db txs mid)
    (above : 0 < ctx.nHeight) (found : mid.models.get? model = some r)
    (due : r.verification_event_height = ctx.nHeight) : model ∈ verificationsAt db ctx.nHeight := by
  obtain ⟨_, _, _, stored, _⟩ := (run.last_inv.records model r found).verifying (by omega)
  rw [due, (run.schedules model).1] at stored
  exact List.mem_map.mpr ⟨(model, {}), mem_scheduledAt.mpr stored, rfl⟩

theorem RegistryRun.due_verdicts (run : RegistryRun ctx known done db txs mid)
    (above : 0 < ctx.nHeight) (found : mid.models.get? model = some r)
    (due : r.challenge_verdict_height = ctx.nHeight) :
    model ∈ (scheduledAt db.challenges ctx.nHeight).map Prod.fst := by
  obtain ⟨_, snapshot, pending⟩ := (run.last_inv.records model r found).challenged (by omega)
  have stored := pending.scheduled
  rw [due, (run.schedules model).2] at stored
  exact List.mem_map.mpr ⟨(model, _), mem_scheduledAt.mpr stored, rfl⟩

theorem ModelDb.verifyAll_challenges (models : List Uint256) (db : ModelDb) :
    (models.foldl (ModelDb.verify ctx) db).challenges = db.challenges := by
  induction models generalizing db with
  | nil => rfl
  | cons model rest ih =>
    rw [List.foldl_cons, ih]
    unfold ModelDb.verify
    cases db.models.get? model with
    | none => rfl
    | some record =>
      simp only [ModelDb.settleVerification, ModelDb.put, ModelDb.forfeitDeposit]
      split_ifs <;> rfl

theorem BlockRun.scheduled (run : BlockRun ctx known db mid block db') :
    ∀ entry ∈ scheduledAt db.challenges ctx.nHeight,
      ((verificationsAt db ctx.nHeight).foldl (ModelDb.verify ctx) mid).challenges.get?
        ⟨ctx.nHeight, entry.1⟩ = some entry.2 := by
  intro entry member
  rw [ModelDb.verifyAll_challenges, (run.run.schedules entry.1).2]
  exact mem_scheduledAt.mp member

theorem ModelRecord.afterVerification_verdict (record : ModelRecord) :
    (record.afterVerification ctx).challenge_verdict_height = record.challenge_verdict_height := by
  simp only [ModelRecord.afterVerification, verifiedRecord, ModelRecord.lock]
  split_ifs <;> rfl

theorem ModelRecord.afterVerdict_event (record : ModelRecord) :
    (record.afterVerdict ctx).verification_event_height = record.verification_event_height := by
  simp only [ModelRecord.afterVerdict, judgedRecord, ModelRecord.ban, ModelRecord.clearChallenge]
  split_ifs <;> rfl

theorem RegistryRun.decided (run : RegistryRun ctx known done db txs mid) (above : 0 < ctx.nHeight) (found : ((scheduledAt db.challenges ctx.nHeight).foldl (ModelDb.judge ctx)
      ((verificationsAt db ctx.nHeight).foldl (ModelDb.verify ctx) mid)).models.get? model = some r) :
    r.verification_event_height ≠ ctx.nHeight ∧ r.challenge_verdict_height ≠ ctx.nHeight := by
  rw [ModelDb.judgeAll_models above, ModelDb.verifyAll_models above] at found
  cases start : mid.models.get? model with
  | none => simp [start] at found
  | some r₀ =>
    -- A due record is in the list, and its decision clears the height.
    have event : (r₀.afterVerification ctx).verification_event_height ≠ ctx.nHeight := by
      by_cases due : r₀.verification_event_height = ctx.nHeight
      · simp only [ModelRecord.afterVerification, due, if_true]
        exact above.ne
      · simp [ModelRecord.afterVerification, due]
    have verdict : ∀ r : ModelRecord, (r.afterVerdict ctx).challenge_verdict_height ≠ ctx.nHeight := by
      intro r
      by_cases due : r.challenge_verdict_height = ctx.nHeight
      · simp only [ModelRecord.afterVerdict, due, if_true]
        exact above.ne
      · simp [ModelRecord.afterVerdict, due]
    rw [start] at found
    split_ifs at found with judged verified verified <;> obtain rfl := Option.some.inj found
    · exact ⟨by rw [ModelRecord.afterVerdict_event]; exact event, verdict _⟩
    · refine ⟨?_, verdict _⟩
      rw [ModelRecord.afterVerdict_event]
      exact fun due => verified (run.due_verifications above start due)
    · refine ⟨event, ?_⟩
      rw [ModelRecord.afterVerification_verdict]
      exact fun due => judged (run.due_verdicts above start due)
    · exact ⟨fun due => verified (run.due_verifications above start due),
        fun due => judged (run.due_verdicts above start due)⟩

theorem connectModels_blockRun (above : 0 < ctx.nHeight)
    (inv : RegInv known ctx.nHeight ctx.nHeight ctx.params db)
    (apart : HashesApart ctx.crypto ctx.params known block.vtx)
    (accepted : connectModels ctx db block = .ok db') :
    ∃ mid, BlockRun ctx known db mid block db' := by
  unfold connectModels at accepted
  rw [bind_eq_ok] at accepted
  obtain ⟨s, txs, accepted⟩ := accepted
  rw [bind_eq_ok] at accepted
  obtain ⟨_, banned, accepted⟩ := accepted
  have run := connectModelTxs_run above txs (.start db) inv apart
  have last := run.last_inv
  -- What stands in the schedules of this height is pending, and its models are known.
  have verifications : ∀ entry ∈ scheduledAt db.verifications ctx.nHeight,
      entry.2.state = 0 ∧ (s.db.models.get? entry.1).isSome := by
    intro entry member
    have stored := mem_scheduledAt.mp member
    rw [← (run.schedules entry.1).1] at stored
    obtain ⟨r, found, entries⟩ := last.verifications _ _ _ stored
    exact ⟨by rw [(entries le_rfl).1], by simp [found]⟩
  have verified : (List.foldl (decideVerification ctx) s
      (scheduledAt db.verifications ctx.nHeight)).db =
        (verificationsAt db ctx.nHeight).foldl (ModelDb.verify ctx) s.db := decideVerifications_db _ s verifications
  have challenged : ∀ entry ∈ scheduledAt db.challenges ctx.nHeight,
      ((verificationsAt db ctx.nHeight).foldl (ModelDb.verify ctx) s.db).challenges.get?
        ⟨ctx.nHeight, entry.1⟩ = some entry.2 := by
    intro entry member
    rw [ModelDb.verifyAll_challenges, (run.schedules entry.1).2]
    exact mem_scheduledAt.mp member
  have verified_inv := (last.later (Nat.le_succ _)).verifyAll above (verificationsAt db ctx.nHeight)
  have judged_inv := verified_inv.judgeAll above _ (scheduledAt_nodup _ _) challenged
  have judged : (List.foldl (decideChallenge ctx) (List.foldl (decideVerification ctx) s
      (scheduledAt db.verifications ctx.nHeight)) (scheduledAt db.challenges ctx.nHeight)).db =
        (scheduledAt db.challenges ctx.nHeight).foldl (ModelDb.judge ctx)
          ((verificationsAt db ctx.nHeight).foldl (ModelDb.verify ctx) s.db) := by
    rw [decideChallenges_db, verified]
    intro entry member
    rw [verified]
    obtain ⟨r, found, _⟩ := verified_inv.challenges _ _ _ (challenged entry member)
    simp [found]
  have final := judged_inv.advance fun model r found => run.decided above found
  -- The catch-up re-reads every record, and none is overdue any more.
  rw [catchUpModels_db] at accepted
  · cases accepted
    refine ⟨s.db, run, verified_inv, judged, judged ▸ final, ?_⟩
    simpa [checkBannedModel, require_eq_ok] using banned
  · intro model r found
    rw [judged] at found
    have ok := final.records model r found
    refine ⟨?_, ?_⟩
    · by_cases event : r.verification_event_height = 0
      · simp [ModelRecord.verificationOverdue, event]
      · have later := (ok.verifying event).1
        simp only [ModelRecord.verificationOverdue, Bool.and_eq_false_iff, decide_eq_false_iff_not]
        exact .inr (by omega)
    · by_cases pending : r.challenge_verdict_height = 0
      · simp [ModelRecord.verdictOverdue, pending]
      · have later := (ok.challenged pending).1
        simp only [ModelRecord.verdictOverdue, Bool.and_eq_false_iff, decide_eq_false_iff_not]
        exact .inr (by omega)

end Block

end TensorCash
