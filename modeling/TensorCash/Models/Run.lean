import TensorCash.Models.Decisions

/-! Each accepted transaction is one step of the database; overlays repeat what the content says. -/

namespace TensorCash

open Checked

variable {c : Crypto} {db' : ModelDb} {r : ModelRecord} {params : Params} {model : Uint256}

def committedModel (c : Crypto) (tx : CTransaction) : Option Uint256 :=
  (parseModelCommitTx c tx).map ModelCommitPayload.model_hash

def convictedModel (tx : CTransaction) : Option Uint256 :=
  (parseModelChallengeCommitTx tx).map ModelChallengeCommitPayload.model_hash

def accusedModel (ctx : TipContext) (tx : CTransaction) : Option Uint256 :=
  (parseModelChallengeTx ctx.params tx).bind fun payload =>
    (ctx.lookupBlockIndex payload.block_hash).map fun p => p.1.pow.getModelHash ctx.crypto

/-- The inputs of a transaction that is neither a commit nor a burn nor the coinbase. -/
def SpendsAllowed (ctx : TipContext) (db : ModelDb) (tx : CTransaction) : Prop :=
  tx.version ≠ MODEL_REGISTER_COMMIT_TX_VERSION → tx.version ≠ MODEL_REGISTER_BURN_TX_VERSION →
    tx.isCoinBase = false → ∀ txin ∈ tx.vin, (∀ model, db.deposits.get? txin.prevout = some model →
        ∃ record, db.models.get? model = some record ∧ isModelDepositSpendAllowed record ctx.nHeight ctx.params) ∧
      (db.deposits.get? txin.prevout = none → db.burns.get? txin.prevout = none)

/-- What an accepted transaction does to the registry, behind the ones done before it. -/
inductive RegistryStep (ctx : TipContext) (done : List CTransaction) (tx : CTransaction)
    (db : ModelDb) : ModelDb → Prop where
  | other (deposit : tx.version ≠ MODEL_REGISTER_DEPOSIT_TX_VERSION)
      (commit : tx.version ≠ MODEL_REGISTER_COMMIT_TX_VERSION)
      (convict : tx.version ≠ MODEL_CHALLENGE_COMMIT_TX_VERSION)
      (accuse : tx.version ≠ MODEL_ACCUSATION_TX_VERSION)
      (burn : tx.version ≠ MODEL_REGISTER_BURN_TX_VERSION) : RegistryStep ctx done tx db db
  | deposit (payload : ModelDepositPayload)
      (parsed : parseModelDepositTx ctx.crypto ctx.params tx = some payload)
      (new : db.models.get? payload.model_hash = none) : RegistryStep ctx done tx db (db.openDeposit ctx tx payload)
  | commit (payload : ModelCommitPayload) (record : ModelRecord)
      (parsed : parseModelCommitTx ctx.crypto tx = some payload)
      (found : db.models.get? payload.model_hash = some record)
      (allowed : allowCommitStatus payload.success record)
      (first : ∀ t ∈ done, committedModel ctx.crypto t ≠ some payload.model_hash)
      (unspent : ∀ txin ∈ tx.vin, db.deposits.get? txin.prevout = none)
      (verdict : (verifyModel record.metadata).passed = payload.success)
      (checked : checkCommitVerdict ctx payload record = .ok ⟨⟩) : RegistryStep ctx done tx db
        (db.put payload.model_hash (commitRecord ctx tx payload.success record))
  | challengeCommit (payload : ModelChallengeCommitPayload) (record : ModelRecord)
      (parsed : parseModelChallengeCommitTx tx = some payload)
      (found : db.models.get? payload.model_hash = some record)
      (registered : record.status = .Registered)
      (pending : record.challenge_verdict_height ≠ 0)
      (early : ctx.nHeight ≤ record.challenge_verdict_height)
      (first : ∀ t ∈ done, convictedModel t ≠ some payload.model_hash)
      (unspent : ∀ txin ∈ tx.vin, txin.prevout ≠ record.challenge_outpoint) :
      RegistryStep ctx done tx db (db.countChallenge ctx payload.model_hash record)
  | accusation (payload : ModelChallengePayload) (model : Uint256) (record : ModelRecord)
      (parsed : parseModelChallengeTx ctx.params tx = some payload)
      (accused : accusedModel ctx tx = some model)
      (found : db.models.get? model = some record)
      (registered : record.status = .Registered)
      (past : 0 < record.challenge_verdict_height → record.challenge_verdict_height ≤ ctx.nHeight)
      (first : ∀ t ∈ done, accusedModel ctx t ≠ some model) :
      RegistryStep ctx done tx db (db.accuse ctx tx payload model record)
  | forgetSentinel (txin : CTxIn) (version : tx.version = MODEL_REGISTER_BURN_TX_VERSION)
      (single : tx.vin = [txin])
      (sentinel : db.burns.get? txin.prevout = some CHALLENGE_BURN_SENTINEL)
      (burned : burnsAllOutputs tx) : RegistryStep ctx done tx db { db with burns := db.burns.erase txin.prevout }
  | burn (txin : CTxIn) (model : Uint256) (record : ModelRecord)
      (version : tx.version = MODEL_REGISTER_BURN_TX_VERSION) (single : tx.vin = [txin])
      (stored : db.burns.get? txin.prevout = some model) (real : model ≠ CHALLENGE_BURN_SENTINEL)
      (found : db.models.get? model = some record)
      (status : record.status = .Locked ∨ record.status = .Banned)
      (forfeit : record.burn_txid ≠ 0)
      (reference : (⟨record.burn_txid, record.burn_vout⟩ : COutPoint) = txin.prevout)
      (first : record.burn_block_height = 0)
      (committed : record.commit_block_height ≠ 0)
      (allowed : (getModelBurnAllowedHeight record ctx.params).any fun allowed => allowed ≤ ctx.nHeight)
      (burned : burnsAllOutputs tx) :
      RegistryStep ctx done tx db (db.put model { record with burn_block_height := ctx.nHeight })

/-- The overlays agree with the staged content. -/
structure StageOk (ctx : TipContext) (done : List CTransaction) (s : Stage) : Prop where
  records : ∀ model r, s.block_model_records.get? model = some r →
    s.db.models.get? model = some r ∧ r.forfeited = false ∨ r.status = .Banned
  deposits : ∀ o payload r, s.block_deposits.get? o = some (payload, r) →
    s.db.models.get? payload.model_hash = some r ∧ s.db.deposits.get? o = some payload.model_hash ∧
      r.deposit_outpoint = o ∧ r.burn_txid = 0 ∧ r.status ≠ .Registered
  burns : ∀ o model, s.block_burn_outputs.get? o = some model → s.db.burns.get? o = some model
  commits : ∀ t ∈ done, ∀ model, committedModel ctx.crypto t = some model → model ∈ s.block_commit_models
  convictions : ∀ t ∈ done, ∀ model, convictedModel t = some model → model ∈ s.block_challenge_commit_models
  accusations : ∀ t ∈ done, ∀ model, accusedModel ctx t = some model → model ∈ s.block_challenge_models

section Lookups

variable {ctx : TipContext} {done : List CTransaction} {s s' : Stage} {tx : CTransaction}

theorem StageOk.start (db : ModelDb) : StageOk ctx [] { db } := by
  constructor <;> simp

theorem StageOk.lookupRecord (ok : StageOk ctx done s) (found : s.lookupRecord model = some r)
    (unbanned : r.status ≠ .Banned) : s.db.models.get? model = some r := by
  unfold Stage.lookupRecord at found
  cases staged : s.block_model_records.get? model with
  | none => simpa [staged] using found
  | some r' =>
    obtain rfl : r' = r := by simpa [staged] using found
    exact (ok.records model r' staged).elim And.left fun banned => absurd banned unbanned

theorem StageOk.lookupDeposit (ok : StageOk ctx done s) (o : COutPoint) :
    s.lookupDeposit o = s.db.deposits.get? o := by
  unfold Stage.lookupDeposit
  cases staged : s.block_deposits.get? o with
  | none => rfl
  | some entry => exact (ok.deposits o entry.1 entry.2 staged).2.1.symm

theorem StageOk.lookupBurn (ok : StageOk ctx done s) (o : COutPoint) : s.lookupBurn o = s.db.burns.get? o := by
  unfold Stage.lookupBurn
  cases staged : s.block_burn_outputs.get? o with
  | none => rfl
  | some model => exact (ok.burns o model staged).symm

theorem checkModelSpends_eq_ok (ok : StageOk ctx done s)
    (run : checkModelSpends ctx s tx = .ok ⟨⟩) : SpendsAllowed ctx s.db tx := by
  intro commit burn plain txin member
  simp only [checkModelSpends, commit, burn, plain, ne_eq, not_false_eq_true, and_self, if_true, forM_eq_ok] at run
  have passed := run txin member
  simp only [checkModelSpend, ok.lookupDeposit, ok.lookupBurn] at passed
  cases filed : s.db.deposits.get? txin.prevout with
  | none =>
    rw [filed, require_eq_ok] at passed
    exact ⟨fun _ absent => (by cases absent), fun _ => Option.isNone_iff_eq_none.mp passed⟩
  | some model =>
    rw [filed, require_eq_ok, Option.any_eq_true] at passed
    refine ⟨fun other same => ?_, fun absent => (by cases absent)⟩
    cases same
    obtain ⟨record, found, allowed⟩ := passed
    exact ⟨record, found, allowed⟩

end Lookups

section Inversion

variable {known : Set Uint256} {n m : Nat} {params : Params} {ctx : TipContext}
  {done : List CTransaction} {s s' : Stage} {tx : CTransaction}

theorem StageOk.of_same_lists (ok : StageOk ctx done s)
    (records : ∀ model r, s'.block_model_records.get? model = some r →
      s'.db.models.get? model = some r ∧ r.forfeited = false ∨ r.status = .Banned)
    (deposits : ∀ o payload r, s'.block_deposits.get? o = some (payload, r) →
      s'.db.models.get? payload.model_hash = some r ∧ s'.db.deposits.get? o = some payload.model_hash ∧
        r.deposit_outpoint = o ∧ r.burn_txid = 0 ∧ r.status ≠ .Registered)
    (burns : ∀ o model, s'.block_burn_outputs.get? o = some model → s'.db.burns.get? o = some model)
    (commits : s.block_commit_models ⊆ s'.block_commit_models ∧
      ∀ model, committedModel ctx.crypto tx = some model → model ∈ s'.block_commit_models)
    (convictions : s.block_challenge_commit_models ⊆ s'.block_challenge_commit_models ∧
      ∀ model, convictedModel tx = some model → model ∈ s'.block_challenge_commit_models)
    (accusations : s.block_challenge_models ⊆ s'.block_challenge_models ∧
      ∀ model, accusedModel ctx tx = some model → model ∈ s'.block_challenge_models) :
    StageOk ctx (done ++ [tx]) s' where
  records := records
  deposits := deposits
  burns := burns
  commits t member model named := by
    rcases List.mem_append.mp member with before | here
    · exact commits.1 (ok.commits t before model named)
    · exact commits.2 model (List.mem_singleton.mp here ▸ named)
  convictions t member model named := by
    rcases List.mem_append.mp member with before | here
    · exact convictions.1 (ok.convictions t before model named)
    · exact convictions.2 model (List.mem_singleton.mp here ▸ named)
  accusations t member model named := by
    rcases List.mem_append.mp member with before | here
    · exact accusations.1 (ok.accusations t before model named)
    · exact accusations.2 model (List.mem_singleton.mp here ▸ named)

variable {payload : ModelDepositPayload} {r' : ModelRecord} {db : ModelDb}

theorem version_of_parseModelDepositTx (parsed : parseModelDepositTx c params tx = some payload) :
    tx.version = MODEL_REGISTER_DEPOSIT_TX_VERSION := by
  by_contra other
  simp [parseModelDepositTx, other] at parsed

theorem version_of_parseModelCommitTx {payload : ModelCommitPayload}
    (parsed : parseModelCommitTx c tx = some payload) : tx.version = MODEL_REGISTER_COMMIT_TX_VERSION := by
  by_contra other
  simp [parseModelCommitTx, other] at parsed

theorem version_of_parseModelChallengeCommitTx {payload : ModelChallengeCommitPayload}
    (parsed : parseModelChallengeCommitTx tx = some payload) :
    tx.version = MODEL_CHALLENGE_COMMIT_TX_VERSION := by
  by_contra other
  simp [parseModelChallengeCommitTx, other] at parsed

theorem version_of_parseModelChallengeTx {payload : ModelChallengePayload}
    (parsed : parseModelChallengeTx params tx = some payload) : tx.version = MODEL_ACCUSATION_TX_VERSION := by
  by_contra other
  simp [parseModelChallengeTx, other] at parsed

theorem deposit_vout_of_parseModelChallengeTx {payload : ModelChallengePayload}
    (parsed : parseModelChallengeTx params tx = some payload) : payload.deposit_vout = 0 := by
  simp only [parseModelChallengeTx] at parsed
  split_ifs at parsed
  split at parsed
  · cases parsed
  · split_ifs at parsed
    obtain ⟨_, _, rfl⟩ := Option.map_eq_some_iff.mp parsed
    rfl

theorem version_of_committedModel (named : committedModel c tx = some model) :
    tx.version = MODEL_REGISTER_COMMIT_TX_VERSION := by
  obtain ⟨_, parsed, _⟩ := Option.map_eq_some_iff.mp named
  exact version_of_parseModelCommitTx parsed

theorem version_of_convictedModel (named : convictedModel tx = some model) :
    tx.version = MODEL_CHALLENGE_COMMIT_TX_VERSION := by
  obtain ⟨_, parsed, _⟩ := Option.map_eq_some_iff.mp named
  exact version_of_parseModelChallengeCommitTx parsed

theorem version_of_accusedModel (named : accusedModel ctx tx = some model) :
    tx.version = MODEL_ACCUSATION_TX_VERSION := by
  obtain ⟨_, parsed, _⟩ := Option.bind_eq_some_iff.mp named
  exact version_of_parseModelChallengeTx parsed

theorem connectDeposit_step (ok : StageOk ctx done s)
    (version : tx.version = MODEL_REGISTER_DEPOSIT_TX_VERSION) (run : connectDeposit ctx s tx = .ok s') :
    RegistryStep ctx done tx s.db s'.db ∧ StageOk ctx (done ++ [tx]) s' := by
  simp only [connectDeposit, demand_bind_eq_ok, require_bind_eq_ok, Bool.and_eq_true,
    Bool.not_eq_true', OrdMap.contains, Option.isSome_eq_false_iff, Option.isNone_iff_eq_none] at run
  obtain ⟨payload, parsed, ⟨_, new⟩, run⟩ := run
  cases run
  refine ⟨.deposit payload parsed new, ok.of_same_lists ?_ ?_ ok.burns
    ⟨fun _ => id, fun _ named => absurd (version_of_committedModel named) (by rw [version]; decide)⟩
    ⟨fun _ => id, fun _ named => absurd (version_of_convictedModel named) (by rw [version]; decide)⟩
    ⟨fun _ => id, fun _ named => absurd (version_of_accusedModel named) (by rw [version]; decide)⟩⟩
  · -- A model that is new has no staged record of its own.
    intro model r staged
    simp only [OrdMap.get?_insert, ModelDb.openDeposit] at staged ⊢
    split_ifs at staged with here
    · cases staged
      exact .inl ⟨by rw [if_pos here], by simp [ModelRecord.forfeited, depositRecord]⟩
    · rw [if_neg here]
      exact ok.records model r staged
  · intro o entry r staged
    simp only [OrdMap.get?_insert, ModelDb.openDeposit] at staged ⊢
    split_ifs at staged with here
    · cases staged
      refine ⟨by rw [if_pos rfl], by rw [if_pos here], here.symm, rfl, ?_⟩
      simp [depositRecord]
    · obtain ⟨found, filed, rest⟩ := ok.deposits o entry r staged
      have other : entry.model_hash ≠ payload.model_hash := by
        intro same
        rw [same, new] at found
        cases found
      rw [if_neg other, if_neg here]
      exact ⟨found, filed, rest⟩

theorem StageOk.records_insert (ok : StageOk ctx done s) (set : db'.models = s.db.models.insert model r')
    (fits : r'.forfeited = false ∨ r'.status = .Banned) (other : Uint256) (r : ModelRecord)
    (staged : (s.block_model_records.insert model r').get? other = some r) :
    db'.models.get? other = some r ∧ r.forfeited = false ∨ r.status = .Banned := by
  rw [set, OrdMap.get?_insert]
  rw [OrdMap.get?_insert] at staged
  split_ifs at staged ⊢ with here
  · cases staged
    exact fits.imp_left fun kept => ⟨rfl, kept⟩
  · exact ok.records other r staged

theorem StageOk.deposits_frame (ok : StageOk ctx done s) (inv : RegInv known n m params s.db)
    (found : s.db.models.get? model = some r) (set : db'.models = s.db.models.insert model r')
    (kept : ∀ o, o ≠ r.deposit_outpoint → db'.deposits.get? o = s.db.deposits.get? o)
    (apart : r.burn_txid ≠ 0 ∨ r.status = .Registered) (o : COutPoint)
    (payload : ModelDepositPayload) (x : ModelRecord) (staged : s.block_deposits.get? o = some (payload, x)) :
    db'.models.get? payload.model_hash = some x ∧ db'.deposits.get? o = some payload.model_hash ∧
      x.deposit_outpoint = o ∧ x.burn_txid = 0 ∧ x.status ≠ .Registered := by
  obtain ⟨inside, filed, same, unburned, pending⟩ := ok.deposits o payload x staged
  -- The touched model is registered or forfeited, a deposit of this block is neither.
  have other : payload.model_hash ≠ model := by
    rintro rfl
    obtain rfl : x = r := Option.mem_unique inside found
    exact apart.elim (fun burned => burned unburned) pending
  have outpoint : o ≠ r.deposit_outpoint := by
    intro equal
    rw [← same] at equal
    exact other (inv.deposit_inj _ _ x r inside found (congrArg COutPoint.hash equal))
  exact ⟨by rw [set, OrdMap.get?_insert_of_ne _ _ _ other, inside], by rw [kept o outpoint, filed],
    same, unburned, pending⟩

theorem StageOk.local_deposit (ok : StageOk ctx done s) (inv : RegInv known n m params s.db)
    {found : ModelRecord} (inside : s.db.models.get? model = some found)
    (staged : s.block_deposits.get? found.deposit_outpoint = some (payload, r)) :
    payload.model_hash = model ∧ r = found := by
  obtain ⟨there, _, same, _, _⟩ := ok.deposits _ payload r staged
  have here : payload.model_hash = model := inv.deposit_inj _ _ r found there inside (congrArg COutPoint.hash same)
  rw [here, inside] at there
  exact ⟨here, (Option.some.inj there).symm⟩

theorem connectCommit_step (ok : StageOk ctx done s) (inv : RegInv known n m params s.db)
    (version : tx.version = MODEL_REGISTER_COMMIT_TX_VERSION) (run : connectCommit ctx s tx = .ok s') :
    RegistryStep ctx done tx s.db s'.db ∧ StageOk ctx (done ++ [tx]) s' := by
  simp only [connectCommit, demand_bind_eq_ok, require_bind_eq_ok] at run
  obtain ⟨payload, parsed, found, lookup, allowed, inputs, _, first, verdict, unspent, run⟩ := run
  obtain ⟨_, checked, run⟩ := bind_eq_ok.mp run
  have unbanned : found.status ≠ .Banned := by
    intro banned
    simp [allowCommitStatus, banned] at allowed
  have inside := ok.lookupRecord lookup unbanned
  -- Whatever the block itself has deposited for this model is the record just found.
  have same : ((s.block_deposits.get? found.deposit_outpoint).map Prod.snd).getD found = found := by
    cases staged : s.block_deposits.get? found.deposit_outpoint with
    | none => rfl
    | some entry => exact (ok.local_deposit inv inside (r := entry.2) staged).2
  rw [same] at verdict checked run
  cases run
  have closed : ∀ txin ∈ tx.vin, s.db.deposits.get? txin.prevout = none := by
    intro txin member
    have differ : txin.prevout ≠ found.deposit_outpoint := by
      simpa using (List.countP_eq_zero.mp unspent) txin member
    cases filed : s.db.deposits.get? txin.prevout with
    | none => rfl
    | some other =>
      have owner := ((inputs txin member).resolve_left differ) other filed
      obtain ⟨r, there, outpoint⟩ := inv.deposits _ other filed
      rw [owner, inside] at there
      cases there
      exact absurd outpoint.symm differ
  refine ⟨.commit payload found parsed inside allowed
      (fun t member named => first (ok.commits t member _ named)) closed verdict checked, ?_⟩
  refine ok.of_same_lists (ok.records_insert rfl (.inl ?_)) ?_ ok.burns
    ⟨List.subset_cons_self _ _, ?_⟩
    ⟨fun _ => id, fun _ named => absurd (version_of_convictedModel named) (by rw [version]; decide)⟩
    ⟨fun _ => id, fun _ named => absurd (version_of_accusedModel named) (by rw [version]; decide)⟩
  · cases payload.success <;> simp [commitRecord, ModelRecord.forfeited]
  · intro o entry r staged
    have moved : ∀ o entry r, s.block_deposits.get? o = some (entry, r) →
        o ≠ found.deposit_outpoint → entry.model_hash ≠ payload.model_hash := by
      intro o entry r staged differ same
      obtain ⟨there, _, outpoint, _⟩ := ok.deposits o entry r staged
      rw [same, inside] at there
      cases there
      exact differ outpoint.symm
    -- The model's own staged deposit is updated with the record, every other one is kept.
    cases here : s.block_deposits.get? found.deposit_outpoint with
    | none =>
      simp only [here] at staged
      have differ : o ≠ found.deposit_outpoint := by
        rintro rfl
        rw [here] at staged
        cases staged
      obtain ⟨there, rest⟩ := ok.deposits o entry r staged
      exact ⟨by simp [ModelDb.put, OrdMap.get?_insert, moved o entry r staged differ, there], rest⟩
    | some local_deposit =>
      obtain ⟨deposit, old⟩ := local_deposit
      simp only [here, OrdMap.get?_insert] at staged
      split_ifs at staged with touched
      · cases staged
        obtain ⟨named, _⟩ := ok.local_deposit inv inside here
        obtain ⟨_, filed, _⟩ := ok.deposits _ _ _ here
        refine ⟨by simp [ModelDb.put, named], by rw [touched]; exact filed, touched.symm, rfl, ?_⟩
        cases payload.success <;> simp [commitRecord]
      · obtain ⟨there, rest⟩ := ok.deposits o entry r staged
        exact ⟨by simp [ModelDb.put, OrdMap.get?_insert, moved o entry r staged touched, there], rest⟩
  · intro model named
    simp only [committedModel, parsed, Option.map_some, Option.some.injEq] at named
    simp [named]

theorem connectChallengeCommit_step (ok : StageOk ctx done s) (inv : RegInv known n m params s.db)
    (version : tx.version = MODEL_CHALLENGE_COMMIT_TX_VERSION)
    (run : connectChallengeCommit ctx s tx = .ok s') :
    RegistryStep ctx done tx s.db s'.db ∧ StageOk ctx (done ++ [tx]) s' := by
  simp only [connectChallengeCommit, demand_bind_eq_ok, require_bind_eq_ok] at run
  obtain ⟨payload, parsed, record, lookup, ⟨pending, early⟩, registered, first, unspent, run⟩ := run
  cases run
  have inside := ok.lookupRecord lookup (by simp [registered])
  have unburned : s.db.burns.get? record.deposit_outpoint = none :=
    ((inv.records _ _ inside).live ((inv.records _ _ inside).of_registered registered).1).1
  -- The deposit of a registered model is not staged as forfeited, so it is really entered.
  have unstaged : s.block_burn_outputs.get? record.deposit_outpoint = none := by
    cases staged : s.block_burn_outputs.get? record.deposit_outpoint with
    | none => rfl
    | some model =>
      rw [ok.burns _ _ staged] at unburned
      cases unburned
  have set : (s.db.countChallenge ctx payload.model_hash record).models =
      s.db.models.insert payload.model_hash (countedRecord ctx record) := by
    simp only [ModelDb.countChallenge, ModelDb.put, ModelDb.forfeitDeposit]
    split_ifs <;> rfl
  refine ⟨.challengeCommit payload record parsed inside registered pending early
      (fun t member named => first (ok.convictions t member _ named)) unspent, ?_⟩
  refine ok.of_same_lists (ok.records_insert set ?_)
    (ok.deposits_frame inv inside set ?_ (.inr registered)) ?_
    ⟨fun _ => id, fun _ named => absurd (version_of_committedModel named) (by rw [version]; decide)⟩
    ⟨List.subset_cons_self _ _, ?_⟩
    ⟨fun _ => id, fun _ named => absurd (version_of_accusedModel named) (by rw [version]; decide)⟩
  · simp only [countedRecord]
    split_ifs
    · exact .inr rfl
    · exact .inl (by simp [ModelRecord.forfeited, registered])
  · intro o differ
    simp only [ModelDb.countChallenge, ModelDb.put, ModelDb.forfeitDeposit]
    split_ifs
    · exact OrdMap.get?_erase_of_ne _ _ differ
    · rfl
  · intro o model staged
    cases reached : record.nextConvicts with
    | false =>
      simp only [reached, Bool.false_eq_true, if_false] at staged
      simpa [ModelDb.countChallenge, ModelDb.put, reached] using ok.burns o model staged
    | true =>
      simp only [reached, if_true, emplace, OrdMap.contains, unstaged, Option.isSome_none,
        Bool.false_eq_true, if_false, OrdMap.get?_insert] at staged
      simp only [ModelDb.countChallenge, ModelDb.put, ModelDb.forfeitDeposit, reached, if_true, OrdMap.get?_insert]
      split_ifs at staged ⊢ with here
      · exact staged
      · exact ok.burns o model staged
  · intro model named
    simp only [convictedModel, parsed, Option.map_some, Option.some.injEq] at named
    simp [named]

theorem connectAccusation_step (ok : StageOk ctx done s) (inv : RegInv known n m params s.db)
    (version : tx.version = MODEL_ACCUSATION_TX_VERSION) (run : connectAccusation ctx s tx = .ok s') :
    RegistryStep ctx done tx s.db s'.db ∧ StageOk ctx (done ++ [tx]) s' := by
  simp only [connectAccusation, demand_bind_eq_ok, require_bind_eq_ok] at run
  obtain ⟨payload, parsed, ⟨block, height⟩, lookup, _, _, record, found, registered, past, first, run⟩ := run
  cases run
  have accused : accusedModel ctx tx = some (block.pow.getModelHash ctx.crypto) := by
    simp [accusedModel, parsed, lookup]
  refine ⟨.accusation payload _ record parsed accused found registered
      (fun pending => not_lt.mp fun early => past ⟨pending, early⟩)
      (fun t member named => first (ok.accusations t member _ named)), ?_⟩
  refine ok.of_same_lists (ok.records_insert rfl (.inl ?_))
    (ok.deposits_frame inv found rfl (fun _ _ => rfl) (.inr registered)) ok.burns
    ⟨fun _ => id, fun _ named => absurd (version_of_committedModel named) (by rw [version]; decide)⟩
    ⟨fun _ => id, fun _ named => absurd (version_of_convictedModel named) (by rw [version]; decide)⟩
    ⟨List.subset_cons_self _ _, ?_⟩
  · simp [accusedRecord, ModelRecord.forfeited, registered]
  · intro model named
    rw [accused] at named
    simp [Option.some.inj named]

theorem connectBurn_step (ok : StageOk ctx done s) (inv : RegInv known n m params s.db)
    (version : tx.version = MODEL_REGISTER_BURN_TX_VERSION) (run : connectBurn ctx s tx = .ok s') :
    RegistryStep ctx done tx s.db s'.db ∧ StageOk ctx (done ++ [tx]) s' := by
  simp only [connectBurn, demand_bind_eq_ok, ok.lookupBurn] at run
  obtain ⟨prevout, only, model, stored, run⟩ := run
  obtain ⟨txin, single, rfl⟩ : ∃ txin, tx.vin = [txin] ∧ txin.prevout = prevout := by
    match inputs : tx.vin, only with
    | [txin], only => exact ⟨txin, rfl, by simpa [inputs] using only⟩
  have lists : ∀ s' : Stage, s'.block_commit_models = s.block_commit_models →
      s'.block_challenge_commit_models = s.block_challenge_commit_models →
      s'.block_challenge_models = s.block_challenge_models → (∀ model r, s'.block_model_records.get? model = some r →
        s'.db.models.get? model = some r ∧ r.forfeited = false ∨ r.status = .Banned) →
      (∀ o payload r, s'.block_deposits.get? o = some (payload, r) →
        s'.db.models.get? payload.model_hash = some r ∧ s'.db.deposits.get? o = some payload.model_hash ∧
          r.deposit_outpoint = o ∧ r.burn_txid = 0 ∧ r.status ≠ .Registered) →
      (∀ o model, s'.block_burn_outputs.get? o = some model →
        s'.db.burns.get? o = some model) → StageOk ctx (done ++ [tx]) s' := by
    intro s' commits convictions accusations records deposits burns
    refine ok.of_same_lists records deposits burns ⟨by rw [commits]; exact fun _ => id, ?_⟩
      ⟨by rw [convictions]; exact fun _ => id, ?_⟩ ⟨by rw [accusations]; exact fun _ => id, ?_⟩
    · exact fun _ named => absurd (version_of_committedModel named) (by rw [version]; decide)
    · exact fun _ named => absurd (version_of_convictedModel named) (by rw [version]; decide)
    · exact fun _ named => absurd (version_of_accusedModel named) (by rw [version]; decide)
  split_ifs at run with sentinel
  · subst sentinel
    rw [require_bind_eq_ok] at run
    obtain ⟨burned, run⟩ := run
    cases run
    refine ⟨.forgetSentinel txin version single stored burned, lists _ rfl rfl rfl ok.records ok.deposits ?_⟩
    intro o x staged
    simp only [OrdMap.get?_erase] at staged ⊢
    split_ifs at staged ⊢ with here
    exact ok.burns o x staged
  · simp only [demand_bind_eq_ok, require_bind_eq_ok] at run
    obtain ⟨record, found, status, ⟨forfeit, hash, index⟩, fresh, committed, allowed, burned, run⟩ := run
    cases run
    have gone : record.forfeited = true := by
      rcases status with status | status <;> simp [ModelRecord.forfeited, status, forfeit]
    refine ⟨.burn txin model record version single stored sentinel found status forfeit
      (by rw [hash, index]) fresh committed allowed burned, lists _ rfl rfl rfl ?_
        (ok.deposits_frame inv found rfl (fun _ _ => rfl) (.inl forfeit)) ?_⟩
    · -- A record that the block has staged for this model is a ban.
      intro other r staged
      by_cases here : other = model
      · subst here
        refine (ok.records other r staged).elim (fun same => ?_) .inr
        obtain rfl := Option.mem_unique found same.1
        rw [gone] at same
        cases same.2
      · rw [show (s.db.put model { record with burn_block_height := ctx.nHeight }).models.get? other =
          s.db.models.get? other from OrdMap.get?_insert_of_ne _ _ _ here]
        exact ok.records other r staged
    · intro o x staged
      rw [OrdMap.get?_erase] at staged
      split_ifs at staged
      exact ok.burns o x staged

theorem connectModelTx_step (ok : StageOk ctx done s) (inv : RegInv known n m params s.db)
    (run : connectModelTx ctx s tx = .ok s') :
    SpendsAllowed ctx s.db tx ∧ RegistryStep ctx done tx s.db s'.db ∧ StageOk ctx (done ++ [tx]) s' := by
  obtain ⟨_, spends, run⟩ := bind_eq_ok.mp run
  refine ⟨checkModelSpends_eq_ok ok spends, ?_⟩
  unfold connectModelPayload at run
  split_ifs at run with deposit commit convict accuse burn
  · exact connectDeposit_step ok deposit run
  · exact connectCommit_step ok inv commit run
  · exact connectChallengeCommit_step ok inv convict run
  · exact connectAccusation_step ok inv accuse run
  · exact connectBurn_step ok inv burn run
  · cases run
    refine ⟨.other deposit commit convict accuse burn, ok.of_same_lists ok.records ok.deposits
      ok.burns ⟨fun _ => id, ?_⟩ ⟨fun _ => id, ?_⟩ ⟨fun _ => id, ?_⟩⟩
    · exact fun _ named => absurd (version_of_committedModel named) commit
    · exact fun _ named => absurd (version_of_convictedModel named) convict
    · exact fun _ named => absurd (version_of_accusedModel named) accuse

theorem RegistryStep.burned {db' : ModelDb} (step : RegistryStep ctx done tx db db')
    (version : tx.version = MODEL_REGISTER_BURN_TX_VERSION) : burnsAllOutputs tx = true := by
  cases step with
  | other _ _ _ _ burn => exact absurd version burn
  | deposit _ parsed => exact absurd (version_of_parseModelDepositTx parsed) (by rw [version]; decide)
  | commit _ _ parsed => exact absurd (version_of_parseModelCommitTx parsed) (by rw [version]; decide)
  | challengeCommit _ _ parsed => exact absurd (version_of_parseModelChallengeCommitTx parsed) (by rw [version]; decide)
  | accusation _ _ _ parsed => exact absurd (version_of_parseModelChallengeTx parsed) (by rw [version]; decide)
  | forgetSentinel _ _ _ _ burned => exact burned
  | burn _ _ _ _ _ _ _ _ _ _ _ _ _ _ burned => exact burned

theorem RegistryStep.commit_unspent (step : RegistryStep ctx done tx db db')
    (version : tx.version = MODEL_REGISTER_COMMIT_TX_VERSION) :
    ∀ txin ∈ tx.vin, db.deposits.get? txin.prevout = none := by
  cases step with
  | other _ commit => exact absurd version commit
  | deposit _ parsed => exact absurd (version_of_parseModelDepositTx parsed) (by rw [version]; decide)
  | commit _ _ _ _ _ _ unspent => exact unspent
  | challengeCommit _ _ parsed => exact absurd (version_of_parseModelChallengeCommitTx parsed) (by rw [version]; decide)
  | accusation _ _ _ parsed => exact absurd (version_of_parseModelChallengeTx parsed) (by rw [version]; decide)
  | forgetSentinel _ burn => exact absurd burn (by rw [version]; decide)
  | burn _ _ _ burn => exact absurd burn (by rw [version]; decide)

end Inversion

end TensorCash
