import TensorCash.Models.Challenges
import TensorCash.Validation.RegChain
import TensorCash.Validation.RegistryChain

/-! An accusation is settled at its verdict's height, unless the next challenge is raised at that
very height. -/

namespace TensorCash

def VerdictsApart (env : TipEnv) (st : ChainState) (block : CBlock) : Prop :=
  ∀ tx ∈ block.vtx, ∀ model r, accusedModel (tipContext env st block) tx = some model →
    st.modelDb.models.get? model = some r → r.challenge_verdict_height ≠ st.chain.length

inductive ChallengeAt (verdict : Nat) (db : ModelDb) (model : Uint256) (deposit : COutPoint)
    (delay : Nat) (first : List CTransaction) (later : List CBlock) : Prop where
  | pending (r : ModelRecord) (early : later.length < delay)
      (inside : ChallengePending db model deposit verdict r
        (challengeCommits model (first ++ transactions later)))
  | settled (due : delay ≤ later.length) (detached : Detached db deposit.hash)
      (past : ChallengeSettled db model deposit
        (challengeCommits model (first ++ transactions (later.take delay))))

section

variable {env : TipEnv} {genesis block : CBlock} {blocks later : List CBlock}
  {st next last : ChainState} {model : Uint256} {deposit : COutPoint} {verdict delay : Nat}
  {first : List CTransaction}

theorem challengeCommits_snoc (model : Uint256) (first : List CTransaction) (blocks : List CBlock)
    (block : CBlock) : challengeCommits model (first ++ transactions (blocks ++ [block])) =
      challengeCommits model (first ++ transactions blocks) + challengeCommits model block.vtx := by
  simp [challengeCommits, transactions, Nat.add_assoc]

theorem Connects.sentinel_unspent (connects : Connects env st block next)
    (chain : Chain env (genesisState env genesis) blocks st)
    (genesis_hash : genesis.getHash env.crypto = env.params.hashGenesisBlock)
    (nonzero : deposit.hash ≠ 0) : ∀ tx ∈ block.vtx, ∀ txin ∈ tx.vin, txin.prevout = deposit →
      st.modelDb.burns.get? deposit ≠ some CHALLENGE_BURN_SENTINEL := by
  rintro tx member txin inside rfl
  cases mint : tx.isCoinBase with
  | false => exact connects.sentinels_unspent chain genesis_hash member mint txin inside
  | true =>
    -- The input of a coinbase has the null hash.
    obtain ⟨version, vin, vout, nLockTime⟩ := tx
    match vin with
    | [] => cases inside
    | _ :: _ :: _ => simp [CTransaction.isCoinBase] at mint
    | [i] =>
      obtain rfl : txin = i := by simpa using inside
      simp only [CTransaction.isCoinBase, COutPoint.isNull, Bool.and_eq_true, decide_eq_true_eq] at mint
      exact absurd mint.1 nonzero

theorem ChallengeAt.step (here : ChallengeAt verdict st.modelDb model deposit delay first later)
    (connects : Connects env st block next) (chain : Chain env (genesisState env genesis) blocks st)
    (assume : ChainAssumptions env genesis (blocks ++ [block]))
    (apart : VerdictsApart env st block) (nonzero : deposit.hash ≠ 0)
    (known : deposit.hash ∈ txids env.crypto (transactions blocks))
    (height : verdict + later.length + 1 = st.chain.length + delay) :
    ChallengeAt verdict next.modelDb model deposit delay first (later ++ [block]) := by
  obtain ⟨mid, run⟩ := connects.blockRun chain assume
  have above : 0 < (tipContext env st block).nHeight := by simp [tipContext, chain.chain_eq]
  have position : (tipContext env st block).nHeight = st.chain.length := rfl
  have length : (later ++ [block]).length = later.length + 1 := by simp
  cases here with
  | pending r early inside =>
    by_cases more : later.length + 1 < delay
    · -- The block is below the verdict's height.
      obtain ⟨r', pending⟩ := run.pending above inside (by omega)
      refine .pending r' (by omega) ?_
      rwa [challengeCommits_snoc]
    · -- The verdict falls with this block.
      obtain rfl : verdict = (tipContext env st block).nHeight := by omega
      obtain ⟨detached, past⟩ := run.settles above inside
        (fun tx member accused => apart tx member model r accused inside.found inside.height) nonzero
      refine .settled (by omega) detached ?_
      rwa [List.take_of_length_le (by omega), challengeCommits_snoc]
  | settled due detached past =>
    have same := run.untouched above detached known
      (connects.sentinel_unspent chain assume.genesis_hash nonzero)
    refine .settled (by omega) same.detached ?_
    rw [List.take_append_of_le_length due]
    exact past.untouched same run.inv nonzero

/-- On every chain an accusation keeps its deposit filed and unburned until its verdict's height and
is settled from there on, provided that no later block challenges a model whose verdict is due with
it. -/
theorem challenge_settled_of_verdictsApart {tx : CTransaction} {earlier rest : List CTransaction}
    (before : Chain env (genesisState env genesis) blocks st) (here : Connects env st block next)
    (after : Chain env next later last) (assume : ChainAssumptions env genesis (blocks ++ block :: later))
    (split : block.vtx = earlier ++ tx :: rest) (accused : accusedModel (tipContext env st block) tx = some model)
    (apart : ∀ front b back mid, later = front ++ b :: back → Chain env next front mid →
      VerdictsApart env mid b) : (later.length < env.params.ModelChallengeVerdictBlockCount →
      last.modelDb.challengeDeposits.get? ⟨tx.txid env.crypto, 0⟩ = some model ∧
        last.modelDb.burns.get? ⟨tx.txid env.crypto, 0⟩ = none) ∧
    (env.params.ModelChallengeVerdictBlockCount ≤ later.length →
      ChallengeSettled last.modelDb model ⟨tx.txid env.crypto, 0⟩
        (challengeCommits model
          (rest ++ transactions (later.take env.params.ModelChallengeVerdictBlockCount)))) := by
  have nonzero : tx.txid env.crypto ≠ 0 := assume.nonzero tx (by simp [transactions, split])
  -- The challenge is followed from block to block.
  have at_ : ChallengeAt (st.chain.length + env.params.ModelChallengeVerdictBlockCount)
      last.modelDb model ⟨tx.txid env.crypto, 0⟩ env.params.ModelChallengeVerdictBlockCount rest
      later ∧ last.chain = st.chain ++ block :: later := by
    induction after with
    | nil =>
      obtain ⟨mid, run⟩ := here.blockRun before assume
      obtain ⟨r, pending⟩ := run.accused (by simp [tipContext, before.chain_eq]) split accused
      refine ⟨.pending r env.params.verdict_pos ?_, here.parts.2.2⟩
      rw [transactions, List.flatMap_nil, List.append_nil]
      exact pending
    | @snoc mid last front b earlier' connects ih =>
      have whole : blocks ++ block :: (front ++ [b]) = (blocks ++ block :: front) ++ [b] := by simp
      rw [whole] at assume
      obtain ⟨challenge, chain⟩ := ih assume.of_append fun front' b' back mid' same =>
        apart front' b' (back ++ [b]) mid' (by simp [same])
      have reached : Chain env (genesisState env genesis) (blocks ++ block :: front) mid := by
        simpa using (Chain.snoc before here).append earlier'
      refine ⟨challenge.step connects reached assume (apart front b [] mid rfl earlier') nonzero ?_ ?_, ?_⟩
      · exact ⟨tx, by simp [transactions, split], rfl⟩
      · rw [chain, List.length_append, List.length_cons]
        omega
      · rw [connects.parts.2.2, chain]
        simp
  have inv := Chain.regInv ((Chain.snoc before here).append after) (by simpa using assume)
  obtain ⟨challenge, _⟩ := at_
  cases challenge with
  | pending r early inside =>
    refine ⟨fun _ => ?_, fun late => by omega⟩
    have open_ : r.challenge_verdict_height ≠ 0 := by
      have := inside.height
      have := env.params.verdict_pos
      omega
    obtain ⟨_, _, pending⟩ := (inv.records model r inside.found).challenged open_
    rw [← inside.outpoint]
    exact ⟨pending.filed, pending.unburned⟩
  | settled due _ past => exact ⟨fun early => by omega, fun _ => past⟩

end

namespace RegChain

theorem firstBlock_accuses : firstBlock.vtx = [] ++ firstMint :: [] ∧
    accusedModel (tipContext env start firstBlock) firstMint = some defaultModel := by
  decide +kernel

theorem verdict_delay : env.params.ModelChallengeVerdictBlockCount = 100 := rfl

theorem verdictsApart_of_plain {st : ChainState} {block : CBlock}
    (plain : ∀ tx ∈ block.vtx, tx.version = 1 ∨ tx.version = MODEL_REGISTER_DEPOSIT_TX_VERSION) :
    VerdictsApart env st block := by
  intro tx member model r accused
  have version := version_of_accusedModel accused
  rcases plain tx member with same | same
  all_goals
    rw [same] at version
    exact absurd version (by decide)

end RegChain

open RegChain in
/-- The first block's accusation is settled at its verdict's height by a block with a payment only;
its deposit is forfeited. -/
theorem challenge_settled_on_regChain :
    ∃ st last : ChainState, ∃ later : List CBlock, Connects env start firstBlock st ∧
      Chain env st later last ∧ later.length = 100 ∧
      ChallengeSettled last.modelDb defaultModel ⟨firstMint.txid crypto, 0⟩ 0 ∧
      last.modelDb.burns.get? ⟨firstMint.txid crypto, 0⟩ = some CHALLENGE_BURN_SENTINEL := by
  obtain ⟨base, paid, again, gone, day⟩ := eve_exists
  obtain ⟨st, idle, first, chain, length, blocks, plain⟩ := day.split
  obtain ⟨extended, connects⟩ := Node.extend_eq_some day.pays
  have ordinary : ∀ block ∈ idle ++ [base.mined payment], ∀ tx ∈ block.vtx,
      tx.version = 1 ∨ tx.version = MODEL_REGISTER_DEPOSIT_TX_VERSION := by
    intro block member tx inside
    rcases List.mem_append.mp member with old | new
    · exact plain block old tx inside
    · obtain rfl : block = base.mined payment := by simpa using new
      obtain rfl | rfl : tx = coinbase base.state.chain.length 1 [payAnyone 100] ∨ tx = payment := by
        simpa [Node.mined, mine, assemble] using inside
      · exact .inl rfl
      · exact .inl rfl
  have whole : ([] : List CBlock) ++ firstBlock :: (idle ++ [base.mined payment]) = paid.blocks := by
    rw [extended, blocks, List.nil_append, List.cons_append]
  have assume : ChainAssumptions env genesis
      ([] ++ firstBlock :: (idle ++ [base.mined payment])) := by
    rw [whole]
    exact Node.assumptions_of_tidy day.lengths.1 day.paid_tidy
  have settled := (challenge_settled_of_verdictsApart (.nil start) first (.snoc chain connects) assume
    firstBlock_accuses.1 firstBlock_accuses.2 fun front b back mid same _ =>
      verdictsApart_of_plain (ordinary b (by rw [same]; simp))).2 (by simp [length, verdict_delay])
  -- Nobody has committed to the accusation.
  have quiet : challengeCommits defaultModel ([] ++ transactions ((idle ++ [base.mined payment]).take
      env.params.ModelChallengeVerdictBlockCount)) = 0 := by
    rw [challengeCommits, List.countP_eq_zero]
    intro tx member
    obtain ⟨block, inside, here⟩ := List.mem_flatMap.mp (by simpa [transactions] using member)
    have quiet : convictedModel tx = none := by
      rcases ordinary block (List.mem_of_mem_take inside) tx here with version | version
      all_goals exact convictedModel_eq_none (by rw [version]; decide)
    simp [quiet]
  rw [quiet] at settled
  exact ⟨st, paid.state, _, first, .snoc chain connects, by simp [length], settled, settled.acquitted (by decide)⟩

open RegChain in
/-- An accusation in the block of the verdict takes the first one's place: the first deposit is
still filed behind it. -/
theorem challenge_lost_on_regChain :
    ∃ st last : ChainState, ∃ later : List CBlock, Connects env start firstBlock st ∧
      accusedModel (tipContext env start firstBlock) firstMint = some defaultModel ∧
      Chain env st later last ∧ later.length = env.params.ModelChallengeVerdictBlockCount ∧
      last.modelDb.challengeDeposits.get? ⟨firstMint.txid crypto, 0⟩ = some defaultModel ∧
      ∀ count, ¬ ChallengeSettled last.modelDb defaultModel ⟨firstMint.txid crypto, 0⟩ count := by
  obtain ⟨base, paid, again, gone, day⟩ := eve_exists
  obtain ⟨st, idle, first, chain, length, _⟩ := day.split
  obtain ⟨_, connects⟩ := Node.extend_eq_some day.accuses
  refine ⟨st, again.state, _, first, firstBlock_accuses.2, .snoc chain connects,
    by simp [length, verdict_delay], day.overlapped.1, fun count settled => ?_⟩
  have erased := settled.erased
  rw [day.overlapped.1] at erased
  cases erased

end TensorCash
