import TensorCash.Models.Disconnect
import Mathlib.Data.Set.Insert

/-! `known` holds the ids met so far; below `n` nothing is pending, and from `m` on the schedules
are pending. -/

namespace TensorCash

def ModelRecord.forfeited (r : ModelRecord) : Bool :=
  r.status = .Banned || (r.status = .Locked && r.burn_txid ≠ 0)

def ModelRecord.withChallengeOf (snapshot r : ModelRecord) : ModelRecord :=
  { snapshot with
    challenge_block_hash := r.challenge_block_hash
    challenge_deposit_txid := r.challenge_deposit_txid
    challenge_deposit_vout := r.challenge_deposit_vout
    challenge_deposit_height := r.challenge_deposit_height
    challenge_commit_count := r.challenge_commit_count
    challenge_verdict_height := r.challenge_verdict_height }

structure PendingChallenge (known : Set Uint256) (db : ModelDb) (model : Uint256)
    (r snapshot : ModelRecord) : Prop where
  scheduled : db.challenges.get? ⟨r.challenge_verdict_height, model⟩ =
    some { deposit_outpoint := r.challenge_outpoint, snapshot := some snapshot }
  filed : db.challengeDeposits.get? r.challenge_outpoint = some model
  unburned : db.burns.get? r.challenge_outpoint = none
  txid_known : r.challenge_deposit_txid ∈ known
  standing : r.status = .Registered ∧ r.convicted = false ∧ r = snapshot.withChallengeOf r ∨
    r.status = .Banned ∧ r.convicted = true

structure RecordOk (known : Set Uint256) (n : Nat) (params : Params) (db : ModelDb)
    (model : Uint256) (r : ModelRecord) : Prop where
  /-- Only the default model has no deposit. -/
  origin : r.deposit_block_height = 0 ∧ r.deposit_txid = 0 ∨
    r.deposit_block_height ≠ 0 ∧ r.deposit_txid ≠ 0 ∧ r.deposit_txid ∈ known
  commit_known : r.commit_txid = 0 ∨ r.commit_txid ∈ known
  live : r.forfeited = false → db.burns.get? r.deposit_outpoint = none ∧
    (r.deposit_block_height ≠ 0 → db.deposits.get? r.deposit_outpoint = some model)
  lost : r.forfeited = true → db.burns.get? r.deposit_outpoint = some model ∧
    db.deposits.get? r.deposit_outpoint = none ∧ r.burn_txid = r.deposit_txid ∧ r.burn_vout = r.deposit_vout
  uncommitted : r.status = .PendingDeposit → uncommittedRecord params false r = r ∧ r.successful_commit_count = 0
  awaiting : r.status = .PendingDeposit ∨ r.status = .PendingVerification → r.verification_event_height ≠ 0
  verifying : r.verification_event_height ≠ 0 → n ≤ r.verification_event_height ∧ r.deposit_block_height ≠ 0 ∧
    r.verification_event_height = r.deposit_block_height + params.ModelVerificationBlockCount ∧
    db.verifications.get? ⟨r.verification_event_height, model⟩ = some {} ∧ r.status ≠ .Registered ∧ r.forfeited = false
  unchallenged : r.challenge_verdict_height = 0 → r.clearChallenge = r
  challenged : r.challenge_verdict_height ≠ 0 → n ≤ r.challenge_verdict_height ∧
    ∃ snapshot, PendingChallenge known db model r snapshot

structure RegInv (known : Set Uint256) (n m : Nat) (params : Params) (db : ModelDb) : Prop where
  records : ∀ model r, db.models.get? model = some r → RecordOk known n params db model r
  deposit_inj : ∀ model model' r r', db.models.get? model = some r →
    db.models.get? model' = some r' → r.deposit_txid = r'.deposit_txid → model = model'
  challenge_apart : ∀ model model' r r', db.models.get? model = some r →
    db.models.get? model' = some r' → r.challenge_verdict_height ≠ 0 → r'.deposit_txid ≠ r.challenge_deposit_txid ∧
      (r'.challenge_verdict_height ≠ 0 → r'.challenge_deposit_txid = r.challenge_deposit_txid → model' = model)
  deposits : ∀ o model, db.deposits.get? o = some model → ∃ r, db.models.get? model = some r ∧ r.deposit_outpoint = o
  burns : ∀ o model, db.burns.get? o = some model → model ≠ CHALLENGE_BURN_SENTINEL →
    ∃ r, db.models.get? model = some r ∧ r.deposit_outpoint = o
  sentinels : ∀ o, db.burns.get? o = some CHALLENGE_BURN_SENTINEL → o.hash ∈ known
  filings : ∀ o model, db.challengeDeposits.get? o = some model → o.hash ∈ known
  no_sentinel : db.models.get? CHALLENGE_BURN_SENTINEL = none
  verifications : ∀ h model v, db.verifications.get? ⟨h, model⟩ = some v →
    ∃ r, db.models.get? model = some r ∧ (m ≤ h → v = {} ∧ r.verification_event_height = h)
  challenges : ∀ h model v, db.challenges.get? ⟨h, model⟩ = some v →
    ∃ r, db.models.get? model = some r ∧ (m ≤ h → v.state = 0) ∧ (n < h → r.challenge_verdict_height = h)

section Frames

variable {known known' : Set Uint256} {n m : Nat} {params : Params} {db db' : ModelDb}
  {model : Uint256} {r : ModelRecord}

theorem PendingChallenge.frame {snapshot : ModelRecord}
    (pending : PendingChallenge known db model r snapshot) (grows : known ⊆ known')
    (challenges : db'.challenges.get? ⟨r.challenge_verdict_height, model⟩ =
      db.challenges.get? ⟨r.challenge_verdict_height, model⟩)
    (filings : db'.challengeDeposits.get? r.challenge_outpoint = db.challengeDeposits.get? r.challenge_outpoint)
    (burns : db'.burns.get? r.challenge_outpoint = db.burns.get? r.challenge_outpoint) :
    PendingChallenge known' db' model r snapshot := by
  -- The same three answers make the same challenge.
  refine ⟨?_, ?_, ?_, grows pending.txid_known, pending.standing⟩
  · rw [challenges, pending.scheduled]
  · rw [filings, pending.filed]
  · rw [burns, pending.unburned]

theorem RecordOk.frame (ok : RecordOk known n params db model r) (grows : known ⊆ known')
    (burns : db'.burns.get? r.deposit_outpoint = db.burns.get? r.deposit_outpoint)
    (deposits : db'.deposits.get? r.deposit_outpoint = db.deposits.get? r.deposit_outpoint)
    (verifications : r.verification_event_height ≠ 0 → db'.verifications.get? ⟨r.verification_event_height, model⟩ =
        db.verifications.get? ⟨r.verification_event_height, model⟩)
    (challenge : r.challenge_verdict_height ≠ 0 → db'.challenges.get? ⟨r.challenge_verdict_height, model⟩ =
          db.challenges.get? ⟨r.challenge_verdict_height, model⟩ ∧
        db'.challengeDeposits.get? r.challenge_outpoint = db.challengeDeposits.get? r.challenge_outpoint ∧
        db'.burns.get? r.challenge_outpoint = db.burns.get? r.challenge_outpoint) :
    RecordOk known' n params db' model r where
  origin := ok.origin.imp id fun ⟨height, txid, member⟩ => ⟨height, txid, grows member⟩
  commit_known := ok.commit_known.imp id fun member => grows member
  live kept := by
    rw [burns, deposits]
    exact ok.live kept
  lost gone := by
    rw [burns, deposits]
    exact ok.lost gone
  uncommitted := ok.uncommitted
  awaiting := ok.awaiting
  verifying pending := by
    rw [verifications pending]
    exact ok.verifying pending
  unchallenged := ok.unchallenged
  challenged pending := by
    obtain ⟨later, snapshot, inside⟩ := ok.challenged pending
    obtain ⟨challenges, filings, unburned⟩ := challenge pending
    exact ⟨later, snapshot, inside.frame grows challenges filings unburned⟩

end Frames

/-- All that a step on one model may change: its record and its own index and schedule entries. -/
structure UpdatesOnly (db db' : ModelDb) (model : Uint256) (r' : ModelRecord)
    (deposit challenge : COutPoint) : Prop where
  models : db'.models = db.models.insert model r'
  deposits : ∀ o, o ≠ deposit → db'.deposits.get? o = db.deposits.get? o
  burns : ∀ o, o ≠ deposit → o ≠ challenge → db'.burns.get? o = db.burns.get? o
  filings : ∀ o, o ≠ challenge → db'.challengeDeposits.get? o = db.challengeDeposits.get? o
  verifications : ∀ h other, other ≠ model → db'.verifications.get? ⟨h, other⟩ = db.verifications.get? ⟨h, other⟩
  challenges : ∀ h other, other ≠ model → db'.challenges.get? ⟨h, other⟩ = db.challenges.get? ⟨h, other⟩

theorem COutPoint.ne_of_hash {a b : COutPoint} (differ : a.hash ≠ b.hash) : a ≠ b := by
  -- Equal outpoints have equal hashes.
  intro same
  exact differ (congrArg COutPoint.hash same)

section Update

variable {known known' : Set Uint256} {n m m' : Nat} {params : Params} {db db' : ModelDb}
  {model : Uint256} {r r' : ModelRecord} {challenge : COutPoint}

theorem RegInv.other_record (inv : RegInv known n m params db) (grows : known ⊆ known')
    (found : db.models.get? model = some r) (upd : UpdatesOnly db db' model r' r.deposit_outpoint challenge)
    (apart : ∀ other s, other ≠ model → db.models.get? other = some s → s.deposit_txid ≠ challenge.hash ∧
        (s.challenge_verdict_height ≠ 0 → s.challenge_deposit_txid ≠ challenge.hash))
    {other : Uint256} {s : ModelRecord} (differ : other ≠ model)
    (stored : db.models.get? other = some s) : RecordOk known' n params db' other s := by
  -- Deposits and challenge deposits of different models are different outputs.
  have deposit_ne : s.deposit_outpoint ≠ r.deposit_outpoint := COutPoint.ne_of_hash fun same =>
    differ (inv.deposit_inj _ _ _ _ stored found same)
  have challenge_ne : s.deposit_outpoint ≠ challenge := COutPoint.ne_of_hash (apart other s differ stored).1
  refine (inv.records other s stored).frame grows (upd.burns _ deposit_ne challenge_ne)
    (upd.deposits _ deposit_ne) (fun _ => upd.verifications _ _ differ) fun pending => ?_
  have filed_ne : s.challenge_outpoint ≠ challenge := COutPoint.ne_of_hash ((apart other s differ stored).2 pending)
  have filed_deposit_ne : s.challenge_outpoint ≠ r.deposit_outpoint := COutPoint.ne_of_hash
    fun same => (inv.challenge_apart other model s r stored found pending).1 same.symm
  exact ⟨upd.challenges _ _ differ, upd.filings _ filed_ne, upd.burns _ filed_deposit_ne filed_ne⟩

theorem RegInv.update (inv : RegInv known n m params db) (grows : known ⊆ known') (later : m ≤ m')
    (found : db.models.get? model = some r)
    (upd : UpdatesOnly db db' model r' r.deposit_outpoint challenge)
    (same_deposit : r'.deposit_outpoint = r.deposit_outpoint)
    (apart : ∀ other s, other ≠ model → db.models.get? other = some s →
       s.deposit_txid ≠ challenge.hash ∧
       (s.challenge_verdict_height ≠ 0 → s.challenge_deposit_txid ≠ challenge.hash))
    (pending_apart : r'.challenge_verdict_height ≠ 0 →
       ∀ other s, db.models.get? other = some s →
         s.deposit_txid ≠ r'.challenge_deposit_txid ∧
         (other ≠ model → s.challenge_verdict_height ≠ 0 →
          s.challenge_deposit_txid ≠ r'.challenge_deposit_txid))
    (self : RecordOk known' n params db' model r')
    (deposit_self : ∀ x, db'.deposits.get? r.deposit_outpoint = some x → x = model)
    (burn_self : ∀ x, db'.burns.get? r.deposit_outpoint = some x → x = model)
    (burn_challenge : challenge ≠ r.deposit_outpoint →
       ∀ x, db'.burns.get? challenge = some x →
         db.burns.get? challenge = some x ∨ x = CHALLENGE_BURN_SENTINEL ∧ challenge.hash ∈ known')
    (filed_challenge : ∀ x, db'.challengeDeposits.get? challenge = some x →
       db.challengeDeposits.get? challenge = some x ∨ challenge.hash ∈ known')
    (verifications_self : ∀ h v, db'.verifications.get? ⟨h, model⟩ = some v → m' ≤ h →
       v = {} ∧ r'.verification_event_height = h)
    (challenges_self : ∀ h v, db'.challenges.get? ⟨h, model⟩ = some v →
       (m' ≤ h → v.state = 0) ∧ (n < h → r'.challenge_verdict_height = h)) :
    RegInv known' n m' params db' := by
  have models : ∀ other, db'.models.get? other = if other = model then some r' else db.models.get? other := by
    intro other
    rw [upd.models, OrdMap.get?_insert]
  have txid_same : r'.deposit_txid = r.deposit_txid := congrArg COutPoint.hash same_deposit
  -- Every record after the step stands for one before it with the same deposit.
  have before : ∀ other s, db'.models.get? other = some s →
      other = model ∧ s = r' ∨ other ≠ model ∧ db.models.get? other = some s := by
    intro other s stored
    rw [models] at stored
    split_ifs at stored with here
    · exact .inl ⟨here, (Option.some.inj stored).symm⟩
    · exact .inr ⟨here, stored⟩
  have after : ∀ other s, db.models.get? other = some s →
      ∃ s', db'.models.get? other = some s' ∧ s'.deposit_outpoint = s.deposit_outpoint := by
    intro other s stored
    rw [models]
    by_cases here : other = model
    · subst here
      obtain rfl : r = s := Option.mem_unique found stored
      exact ⟨r', if_pos rfl, same_deposit⟩
    · exact ⟨s, by rw [if_neg here, stored], rfl⟩
  have old_txid : ∀ other s, db'.models.get? other = some s →
      ∃ s₀, db.models.get? other = some s₀ ∧ s₀.deposit_txid = s.deposit_txid := by
    intro other s stored
    rcases before other s stored with ⟨rfl, rfl⟩ | ⟨_, stored⟩
    · exact ⟨r, found, txid_same.symm⟩
    · exact ⟨s, stored, rfl⟩
  constructor
  case records =>
    intro other s stored
    rcases before other s stored with ⟨rfl, rfl⟩ | ⟨differ, stored⟩
    · exact self
    · exact inv.other_record grows found upd apart differ stored
  case deposit_inj =>
    intro a b s t stored stored' same
    obtain ⟨s₀, old, eq⟩ := old_txid a s stored
    obtain ⟨t₀, old', eq'⟩ := old_txid b t stored'
    exact inv.deposit_inj a b s₀ t₀ old old' (by rw [eq, eq', same])
  case challenge_apart =>
    intro a b s t stored stored' pending
    obtain ⟨t₀, old', eq'⟩ := old_txid b t stored'
    rcases before a s stored with ⟨rfl, rfl⟩ | ⟨differ, old⟩
    · refine ⟨eq' ▸ (pending_apart pending b t₀ old').1, fun pending' same => ?_⟩
      rcases before b t stored' with ⟨here, _⟩ | ⟨differ', stored'⟩
      · exact here
      · exact absurd same ((pending_apart pending b t stored').2 differ' pending')
    · refine ⟨eq' ▸ (inv.challenge_apart a b s t₀ old old' pending).1, fun pending' same => ?_⟩
      rcases before b t stored' with ⟨rfl, rfl⟩ | ⟨_, stored'⟩
      · exact absurd same.symm ((pending_apart pending' a s old).2 differ pending)
      · exact (inv.challenge_apart a b s t old stored' pending).2 pending' same
  case deposits =>
    intro o x stored
    by_cases here : o = r.deposit_outpoint
    · subst here
      obtain rfl := deposit_self x stored
      exact ⟨r', by rw [models, if_pos rfl], same_deposit⟩
    · rw [upd.deposits o here] at stored
      obtain ⟨s, inside, eq⟩ := inv.deposits o x stored
      obtain ⟨s', inside', eq'⟩ := after x s inside
      exact ⟨s', inside', eq'.trans eq⟩
  case burns =>
    intro o x stored real
    have old : ∀ o, db.burns.get? o = some x → ∃ s, db'.models.get? x = some s ∧ s.deposit_outpoint = o := by
      intro o stored
      obtain ⟨s, inside, eq⟩ := inv.burns o x stored real
      obtain ⟨s', inside', eq'⟩ := after x s inside
      exact ⟨s', inside', eq'.trans eq⟩
    by_cases here : o = r.deposit_outpoint
    · subst here
      obtain rfl := burn_self x stored
      exact ⟨r', by rw [models, if_pos rfl], same_deposit⟩
    · by_cases there : o = challenge
      · subst there
        rcases burn_challenge here x stored with stored | ⟨sentinel, _⟩
        · exact old o stored
        · exact absurd sentinel real
      · rw [upd.burns o here there] at stored
        exact old o stored
  case sentinels =>
    intro o stored
    by_cases here : o = r.deposit_outpoint
    · subst here
      have named := burn_self _ stored
      rw [← named, inv.no_sentinel] at found
      cases found
    · by_cases there : o = challenge
      · subst there
        rcases burn_challenge here _ stored with stored | ⟨_, member⟩
        · exact grows (inv.sentinels o stored)
        · exact member
      · rw [upd.burns o here there] at stored
        exact grows (inv.sentinels o stored)
  case filings =>
    intro o x stored
    by_cases there : o = challenge
    · subst there
      exact (filed_challenge x stored).elim (fun stored => grows (inv.filings o x stored)) id
    · rw [upd.filings o there] at stored
      exact grows (inv.filings o x stored)
  case no_sentinel =>
    rw [models, if_neg, inv.no_sentinel]
    intro here
    rw [← here, inv.no_sentinel] at found
    cases found
  case verifications =>
    intro h x v stored
    by_cases here : x = model
    · subst here
      exact ⟨r', by rw [models, if_pos rfl], verifications_self h v stored⟩
    · rw [upd.verifications h x here] at stored
      obtain ⟨s, inside, pending⟩ := inv.verifications h x v stored
      exact ⟨s, by rw [models, if_neg here, inside], fun above => pending (later.trans above)⟩
  case challenges =>
    intro h x v stored
    by_cases here : x = model
    · subst here
      exact ⟨r', by rw [models, if_pos rfl], challenges_self h v stored⟩
    · rw [upd.challenges h x here] at stored
      obtain ⟨s, inside, pending, verdict⟩ := inv.challenges h x v stored
      exact ⟨s, by rw [models, if_neg here, inside], fun above => pending (later.trans above), verdict⟩

end Update

end TensorCash
