import TensorCash.Models.BlockRun
import TensorCash.Validation.RegChain

/-! Every state of a chain of accepted blocks satisfies the registry's invariant. -/

namespace TensorCash

open Checked

theorem RegInv.initial {c : Crypto} {params : Params}
    (real : hashSHA256 c params.DefaultModelName params.DefaultModelCommit ≠
      CHALLENGE_BURN_SENTINEL) (known : Set Uint256) (n m : Nat) :
    RegInv known n m params (initialModelDb c params) := by
  have models : ∀ model r, (initialModelDb c params).models.get? model = some r →
      model = hashSHA256 c params.DefaultModelName params.DefaultModelCommit ∧
        r.status = .Registered ∧ r.deposit_block_height = 0 ∧ r.deposit_txid = 0 ∧
        r.commit_txid = 0 ∧ r.verification_event_height = 0 ∧ r.challenge_verdict_height = 0 ∧
        r.clearChallenge = r := by
    intro model r found
    simp only [initialModelDb, OrdMap.get?_insert, OrdMap.get?_empty] at found
    split_ifs at found with here
    cases found
    exact ⟨here, rfl, rfl, rfl, rfl, rfl, rfl, rfl⟩
  constructor
  case records =>
    intro model r found
    obtain ⟨_, status, height, txid, commit, event, verdict, clear⟩ := models model r found
    constructor
    case origin => exact .inl ⟨height, txid⟩
    case commit_known => exact .inl commit
    case live => exact fun _ => ⟨rfl, fun some => absurd height some⟩
    case lost => simp [ModelRecord.forfeited, status]
    case uncommitted => simp [status]
    case awaiting => simp [status]
    case verifying => exact fun some => absurd event some
    case unchallenged => exact fun _ => clear
    case challenged => exact fun some => absurd verdict some
  case deposit_inj =>
    intro a b r s found found' _
    exact (models a r found).1.trans (models b s found').1.symm
  case challenge_apart =>
    intro a b r s found _ pending
    obtain ⟨_, _, _, _, _, _, clear, _⟩ := models a r found
    exact absurd clear pending
  case no_sentinel =>
    cases found : (initialModelDb c params).models.get? CHALLENGE_BURN_SENTINEL with
    | none => rfl
    | some r => exact absurd (models _ r found).1.symm real
  all_goals simp [initialModelDb]

section Chain

variable {env : TipEnv} {genesis block : CBlock} {blocks more : List CBlock}
  {st next last : ChainState}

theorem ChainAssumptions.hashesApart
    (assume : ChainAssumptions env genesis (blocks ++ [block]))
    (chain : Chain env (genesisState env genesis) (blocks ++ [block]) next) :
    HashesApart env.crypto env.params (txids env.crypto (transactions blocks)) block.vtx := by
  have distinct := (chain.coinsOk assume).distinct
  have split : transactions (blocks ++ [block]) = transactions blocks ++ block.vtx := by
    simp [transactions]
  have inside : ∀ tx ∈ block.vtx, tx ∈ transactions (blocks ++ [block]) := by
    intro tx member
    simp [split, member]
  rw [split, List.map_append, List.nodup_append] at distinct
  refine ⟨?_, fun tx member => assume.nonzero tx (inside tx member), distinct.2.1,
    fun tx member => assume.real tx (inside tx member)⟩
  rintro tx member ⟨t, old, same⟩
  exact distinct.2.2 _ (List.mem_map_of_mem old) _ (List.mem_map_of_mem member) same

theorem Chain.regInv (chain : Chain env (genesisState env genesis) blocks st)
    (assume : ChainAssumptions env genesis blocks) :
    RegInv (txids env.crypto (transactions blocks)) st.chain.length st.chain.length env.params
      st.modelDb := by
  induction chain with
  | nil => exact .initial assume.default_real _ _ _
  | @snoc mid next blocks block earlier connects ih =>
    have before := ih assume.of_append
    have above : 0 < (tipContext env mid block).nHeight := by simp [tipContext, earlier.chain_eq]
    obtain ⟨_, run⟩ := connectModels_blockRun above before
      (assume.hashesApart (.snoc earlier connects)) connects.parts.2.1
    rw [connects.parts.2.2, List.length_append]
    refine run.inv.grow ?_
    rintro h (⟨t, member, same⟩ | ⟨t, member, same⟩)
    · exact ⟨t, by simp only [transactions, List.flatMap_append, List.mem_append]; exact .inl member, same⟩
    · exact ⟨t, by simpa [transactions] using .inr member, same⟩

theorem Connects.blockRun (connects : Connects env st block next)
    (chain : Chain env (genesisState env genesis) blocks st)
    (assume : ChainAssumptions env genesis (blocks ++ [block])) :
    ∃ mid, BlockRun (tipContext env st block) (txids env.crypto (transactions blocks)) st.modelDb mid
      block next.modelDb :=
  connectModels_blockRun (by simp [tipContext, chain.chain_eq])
    (chain.regInv assume.of_append) (assume.hashesApart (.snoc chain connects)) connects.parts.2.1

theorem Connects.sentinels_unspent (connects : Connects env st block next)
    (chain : Chain env (genesisState env genesis) blocks st)
    (genesis_hash : genesis.getHash env.crypto = env.params.hashGenesisBlock) {tx : CTransaction}
    (member : tx ∈ block.vtx) (plain : tx.isCoinBase = false) :
    ∀ txin ∈ tx.vin, st.modelDb.burns.get? txin.prevout ≠ some CHALLENGE_BURN_SENTINEL := by
  obtain ⟨pass, assets, undo, accepted, _⟩ := connects.accepted chain genesis_hash
  obtain ⟨_, _, stepped⟩ := foldlM_step_of_mem accepted.coins member
  obtain ⟨_, passed⟩ := connectTx_accepted stepped
  exact passed.unburned plain

/-- On every chain the records of the models and the indexes over them say the same: a deposit is
burned exactly when its model is banned, or locked by a burn, and filed under its one model exactly
when not; and a model that waits for its verification is scheduled at the height that its deposit
fixes, which is still to come. -/
theorem modelRegistry_consistent (chain : Chain env (genesisState env genesis) blocks st)
    (assume : ChainAssumptions env genesis blocks) :
    (∀ model r, st.modelDb.models.get? model = some r →
      (r.forfeited = true ↔ st.modelDb.burns.get? r.deposit_outpoint = some model) ∧
      (r.deposit_block_height ≠ 0 →
        (r.forfeited = false ↔ st.modelDb.deposits.get? r.deposit_outpoint = some model)) ∧
      (r.status = .PendingDeposit ∨ r.status = .PendingVerification →
        st.chain.length ≤ r.verification_event_height ∧
        r.verification_event_height = r.deposit_block_height + env.params.ModelVerificationBlockCount ∧
        st.modelDb.verifications.get? ⟨r.verification_event_height, model⟩ = some {})) ∧
    (∀ o model, st.modelDb.deposits.get? o = some model →
      ∃ r, st.modelDb.models.get? model = some r ∧ r.deposit_outpoint = o) ∧
    ∀ model model' r r', st.modelDb.models.get? model = some r → st.modelDb.models.get? model' = some r' →
      r.deposit_outpoint = r'.deposit_outpoint → model = model' := by
  have inv := chain.regInv assume
  refine ⟨fun model r found => ?_, inv.deposits, fun model model' r r' found found' same =>
    inv.deposit_inj model model' r r' found found' (congrArg COutPoint.hash same)⟩
  have ok := inv.records model r found
  refine ⟨⟨fun gone => (ok.lost gone).1, fun burned => ?_⟩, fun deposited =>
    ⟨fun kept => (ok.live kept).2 deposited, fun filed => ?_⟩, fun waits => ?_⟩
  · by_contra kept
    simp [(ok.live (Bool.eq_false_iff.mpr kept)).1] at burned
  · by_contra gone
    simp [(ok.lost (Bool.not_eq_false _ ▸ gone)).2.1] at filed
  · obtain ⟨later, _, height, scheduled, _⟩ := ok.verifying (ok.awaiting waits)
    exact ⟨later, height, scheduled⟩

end Chain

open RegChain in
/-- On the regtest chain of a payment: what it spent is an output of the first block, and is
gone. -/
theorem chain_spends_once_on_regChain : ∃ paid : Node, payment ∈ transactions paid.blocks ∧
    ((transactions paid.blocks).map (CTransaction.txid crypto)).Nodup ∧
      ∀ i ∈ payment.vin, paid.state.coinsTip.coins.get? i.prevout = none ∧
        ∃ u ∈ transactions paid.blocks, u.txid crypto = i.prevout.hash ∧ i.prevout.n.toNat < u.vout.length := by
  obtain ⟨base, paid, again, gone, day⟩ := eve_exists
  have assume := Node.assumptions_of_tidy day.lengths.1 day.paid_tidy
  have inside : payment ∈ transactions paid.blocks := by
    simp [(Node.extend_eq_some day.pays).1, transactions, Node.mined, mine, assemble]
  obtain ⟨distinct, _, spent⟩ := chain_spends_once paid.chain assume
  exact ⟨paid, inside, distinct, spent payment inside (by decide +kernel)⟩

open RegChain in
/-- On a chain with a deposit that was locked and burned, the deposit is in the burn index and in no
other. -/
theorem modelRegistry_consistent_after_burn : ∃ (burned : Node) (r : ModelRecord),
    burned.state.modelDb.models.get? (hardModel.hash crypto) = some r ∧ r.forfeited = true ∧
      r.deposit_block_height ≠ 0 ∧
      burned.state.modelDb.burns.get? r.deposit_outpoint = some (hardModel.hash crypto) ∧
      burned.state.modelDb.deposits.get? r.deposit_outpoint ≠ some (hardModel.hash crypto) := by
  obtain ⟨base, paid, again, gone, day⟩ := eve_exists
  obtain ⟨burned, burns, tidy, bond⟩ := day.burns
  have assume := Node.assumptions_of_tidy (day.burned_length burns) tidy
  obtain ⟨r, found, fields⟩ := Option.map_eq_some_iff.mp bond
  obtain ⟨forfeited, two⟩ := Prod.mk.inj fields
  have height : r.deposit_block_height ≠ 0 := by omega
  obtain ⟨lost, kept, _⟩ := (modelRegistry_consistent burned.chain assume).1 _ r found
  refine ⟨burned, r, found, forfeited, height, lost.mp forfeited, fun filed => ?_⟩
  rw [(kept height).mpr filed] at forfeited
  cases forfeited

end TensorCash
