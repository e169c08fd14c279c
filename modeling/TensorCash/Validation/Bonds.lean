import TensorCash.Validation.RegChain
import TensorCash.Validation.RegistryChain

/-! What the checks on deposits freeze, for every transaction of every block on every chain. -/

namespace TensorCash

open Checked

variable {txin : CTxIn} {model : Uint256}

/-- The rule on challenge deposits, which only admission to the mempool asks. -/
def isChallengeDepositSpendAllowed (record : ModelRecord) (spend_height : Nat) : Bool :=
  0 < record.challenge_deposit_height && 0 < record.challenge_verdict_height &&
    record.challenge_verdict_height < spend_height

structure BondsFrozen (ctx : TipContext) (db : ModelDb) (tx : CTransaction) : Prop where
  /-- A live deposit is spendable only after its delay and with its model registered. -/
  deposit : ∀ txin ∈ tx.vin, ∀ model r, db.models.get? model = some r →
    0 < r.deposit_block_height → r.deposit_outpoint = txin.prevout → r.forfeited = false →
    burnsAllOutputs tx = false → r.status = .Registered ∧
        r.deposit_block_height + ctx.params.ModelCommitRefundDelay ≤ ctx.nHeight
  /-- A forfeited deposit goes to a burn. -/
  forfeited : ∀ txin ∈ tx.vin, ∀ model r, db.models.get? model = some r →
    0 < r.deposit_block_height → r.deposit_outpoint = txin.prevout → r.forfeited = true →
      tx.version = MODEL_REGISTER_BURN_TX_VERSION ∧ burnsAllOutputs tx = true
  /-- The deposit of a scheduled challenge waits for its verdict's height. -/
  challenge : ∀ txin ∈ tx.vin, ∀ model verdict entry,
    db.challenges.get? ⟨verdict, model⟩ = some entry → entry.state = 0 →
    entry.deposit_outpoint = txin.prevout → verdict ≤ ctx.nHeight
  /-- The deposit of a failed challenge goes to no spendable output. -/
  failed : ∀ txin ∈ tx.vin, db.burns.get? txin.prevout = some CHALLENGE_BURN_SENTINEL → burnsAllOutputs tx = true

/-- What connecting does not ask: filed deposits are free, and no commit spends a forfeited
output. -/
def SpendsGuarded (ctx : TipContext) (db : ModelDb) (tx : CTransaction) : Prop :=
  ∀ txin ∈ tx.vin, (∀ model r, db.challengeDeposits.get? txin.prevout = some model →
      db.models.get? model = some r → isChallengeDepositSpendAllowed r ctx.nHeight = true) ∧
    (tx.version = MODEL_REGISTER_COMMIT_TX_VERSION → db.burns.get? txin.prevout = none)

section Step

variable {ctx : TipContext} {known : Set Uint256} {done : List CTransaction} {tx : CTransaction}
  {db db' : ModelDb}

theorem RegistryStep.deposit_frozen (step : RegistryStep ctx done tx db db')
    (inv : RegInv known ctx.nHeight ctx.nHeight ctx.params db) (spends : SpendsAllowed ctx db tx)
    (plain : tx.isCoinBase = false) (member : txin ∈ tx.vin) {r : ModelRecord}
    (found : db.models.get? model = some r) (height : 0 < r.deposit_block_height)
    (same : r.deposit_outpoint = txin.prevout) (kept : r.forfeited = false)
    (spendable : burnsAllOutputs tx = false) :
    r.status = .Registered ∧
    r.deposit_block_height + ctx.params.ModelCommitRefundDelay ≤ ctx.nHeight := by
  have filed := ((inv.records model r found).live kept).2 height.ne'
  rw [same] at filed
  have commit : tx.version ≠ MODEL_REGISTER_COMMIT_TX_VERSION := by
    intro version
    rw [step.commit_unspent version txin member] at filed
    cases filed
  have burn : tx.version ≠ MODEL_REGISTER_BURN_TX_VERSION := by
    intro version
    rw [step.burned version] at spendable
    cases spendable
  -- Every other transaction asks for the deposit's release.
  obtain ⟨record, inside, allowed⟩ := (spends commit burn plain txin member).1 model filed
  obtain rfl := Option.mem_unique inside found
  simp only [isModelDepositSpendAllowed, Bool.and_eq_true, decide_eq_true_eq] at allowed
  exact ⟨allowed.1.2, allowed.2⟩

theorem RegistryStep.forfeited_frozen (step : RegistryStep ctx done tx db db')
    (spends : SpendsAllowed ctx db tx) (plain : tx.isCoinBase = false) (member : txin ∈ tx.vin)
    (burned : db.burns.get? txin.prevout = some model)
    (closed : db.deposits.get? txin.prevout = none)
    (guarded : tx.version = MODEL_REGISTER_COMMIT_TX_VERSION → db.burns.get? txin.prevout = none) :
    tx.version = MODEL_REGISTER_BURN_TX_VERSION ∧ burnsAllOutputs tx = true := by
  have commit : tx.version ≠ MODEL_REGISTER_COMMIT_TX_VERSION := by
    intro version
    rw [guarded version] at burned
    cases burned
  -- An ordinary transaction would have been refused.
  have version : tx.version = MODEL_REGISTER_BURN_TX_VERSION := by
    by_contra burn
    rw [(spends commit burn plain txin member).2 closed] at burned
    cases burned
  exact ⟨version, step.burned version⟩

theorem SpendsGuarded.challenge_frozen (guarded : SpendsGuarded ctx db tx)
    (inv : RegInv known ctx.nHeight ctx.nHeight ctx.params db) (member : txin ∈ tx.vin)
    {verdict : Nat} {entry : ChallengeValue}
    (stored : db.challenges.get? ⟨verdict, model⟩ = some entry)
    (same : entry.deposit_outpoint = txin.prevout) : verdict ≤ ctx.nHeight := by
  by_contra early
  -- An entry above this height belongs to the pending challenge of its model.
  obtain ⟨r, found, _, height⟩ := inv.challenges verdict model entry stored
  have pending := height (by omega)
  obtain ⟨_, snapshot, inside⟩ := (inv.records model r found).challenged (by omega)
  have filed := inside.filed
  have scheduled := inside.scheduled
  rw [pending, stored] at scheduled
  rw [← show entry.deposit_outpoint = r.challenge_outpoint from by rw [Option.some.inj scheduled], same] at filed
  have allowed := (guarded txin member).1 model r filed found
  simp only [isChallengeDepositSpendAllowed, Bool.and_eq_true, decide_eq_true_eq] at allowed
  omega

end Step

section Chain

variable {env : TipEnv} {genesis block : CBlock} {blocks : List CBlock} {st next : ChainState}

/-- At every transaction of a further block of every chain the bonds are frozen, provided that no
transaction spends a filed challenge deposit against the mempool's rule and no commit a forfeited
output. -/
theorem bondsFrozen_of_spendsGuarded (connects : Connects env st block next)
    (chain : Chain env (genesisState env genesis) blocks st)
    (assume : ChainAssumptions env genesis (blocks ++ [block])) (guarded : ∀ i tx stage, block.vtx[i]? = some tx →
      (block.vtx.take i).foldlM (connectModelTx (tipContext env st block)) { db := st.modelDb } =
        .ok stage → SpendsGuarded (tipContext env st block) stage.db tx) :
    ∀ i tx, block.vtx[i]? = some tx → tx.isCoinBase = false → ∃ stage,
      (block.vtx.take i).foldlM (connectModelTx (tipContext env st block)) { db := st.modelDb } =
        .ok stage ∧ BondsFrozen (tipContext env st block) stage.db tx := by
  intro i tx here plain
  have above : 0 < (tipContext env st block).nHeight := by simp [tipContext, chain.chain_eq]
  have models := connects.parts.2.1
  unfold connectModels at models
  obtain ⟨s, txs, _⟩ := bind_eq_ok.mp models
  -- The registry as the transaction meets it, with the invariant of every reachable state.
  obtain ⟨stage, known, db', reached, inv, spends, step, sentinels⟩ :=
    connectModelTxs_at above txs (.start st.modelDb) (chain.regInv assume.of_append)
      (assume.hashesApart (.snoc chain connects)) here
  have guards := guarded i tx stage here reached
  refine ⟨stage, reached, ?_, ?_, ?_, ?_⟩
  · intro txin member model r found height same kept spendable
    exact step.deposit_frozen inv spends plain member found height same kept spendable
  · intro txin member model r found height same gone
    obtain ⟨burned, closed, _⟩ := (inv.records model r found).lost gone
    rw [same] at burned closed
    exact step.forfeited_frozen spends plain member burned closed (guards txin member).2
  · intro txin member model verdict entry stored _ same
    exact guards.challenge_frozen inv member stored same
  · intro txin member burned
    exact absurd (sentinels _ burned) (connects.sentinels_unspent chain assume.genesis_hash
      (List.mem_of_getElem? here) plain txin member)

end Chain

theorem connectModelTx_coinbase {ctx : TipContext} {tx : CTransaction} (s : Stage)
    (mint : tx.isCoinBase = true) (version : tx.version = 1) : connectModelTx ctx s tx = .ok s := by
  have payload : connectModelPayload ctx s tx = .ok s := by
    simp only [connectModelPayload, version]
    rfl
  have spends : checkModelSpends ctx s tx = .ok ⟨⟩ := by simp [checkModelSpends, mint]
  rw [connectModelTx, spends, payload]
  rfl

namespace RegChain

theorem spend_input (version : UInt32) (prevout : COutPoint) (vout : List CTxOut) :
    ∃ txin ∈ (spend version prevout vout).vin, txin.prevout = prevout := ⟨_, List.mem_singleton.mpr rfl, rfl⟩

theorem spend_isCoinBase {version : UInt32} {prevout : COutPoint} {vout : List CTxOut}
    (real : prevout.n ≠ COutPoint.NULL_INDEX) : (spend version prevout vout).isCoinBase = false := by
  simp [CTransaction.isCoinBase, spend, COutPoint.isNull, real]

theorem Node.second_stage (node : Node) (tx : CTransaction) :
    ((node.mined tx).vtx.take 1).foldlM (connectModelTx (tipContext env node.state (node.mined tx)))
      { db := node.state.modelDb } = .ok { db := node.state.modelDb } := by
  have coinbase : (node.mined tx).vtx.take 1 = [coinbase node.state.chain.length 1 [payAnyone 100]] := rfl
  rw [coinbase, List.foldlM_cons, connectModelTx_coinbase _ rfl rfl]
  rfl

theorem Node.guarded {node : Node} {pay : CTransaction} {spent : CTxIn} (single : pay.vin = [spent])
    (version : pay.version ≠ MODEL_REGISTER_COMMIT_TX_VERSION) (unfiled : node.state.modelDb.challengeDeposits.get? spent.prevout = none)
    (null : node.state.modelDb.challengeDeposits.get? ⟨0, COutPoint.NULL_INDEX⟩ = none) (i : Nat)
    (tx : CTransaction) (stage : Stage) (here : (node.mined pay).vtx[i]? = some tx)
    (reached : ((node.mined pay).vtx.take i).foldlM
      (connectModelTx (tipContext env node.state (node.mined pay))) { db := node.state.modelDb } =
        .ok stage) : SpendsGuarded (tipContext env node.state (node.mined pay)) stage.db tx := by
  -- Neither transaction commits, and both meet the registry as it was before the block.
  obtain ⟨plain, same, inputs⟩ : tx.version ≠ MODEL_REGISTER_COMMIT_TX_VERSION ∧ stage.db = node.state.modelDb ∧
      ∀ txin ∈ tx.vin, node.state.modelDb.challengeDeposits.get? txin.prevout = none := by
    match i with
    | 0 =>
      obtain rfl : coinbase node.state.chain.length 1 [payAnyone 100] = tx := by
        simpa [Node.mined, mine, assemble] using here
      obtain rfl : { db := node.state.modelDb } = stage := Except.ok.inj reached
      refine ⟨by simp only [coinbase]; decide, rfl, fun txin member => ?_⟩
      rw [List.mem_singleton.mp member]
      exact null
    | 1 =>
      obtain rfl : pay = tx := by simpa [Node.mined, mine, assemble] using here
      rw [node.second_stage] at reached
      cases reached
      refine ⟨version, rfl, fun txin member => ?_⟩
      rw [single] at member
      rw [List.mem_singleton.mp member]
      exact unfiled
    | i + 2 => simp [Node.mined, mine, assemble] at here
  intro txin member
  refine ⟨fun model r filed => ?_, fun commit => ?_⟩
  · rw [same, inputs txin member] at filed
    cases filed
  · exact absurd commit plain

end RegChain

open RegChain in
/-- The bond of a model that was locked is sent to an output nobody can spend: the block is
accepted, and the bonds are frozen at this transaction. -/
theorem bondsFrozen_for_burn : ∃ (gone burned : Node) (r : ModelRecord),
    Connects env gone.state (gone.mined burn) burned.state ∧ (gone.mined burn).vtx[1]? = some burn ∧
      gone.state.modelDb.models.get? (hardModel.hash crypto) = some r ∧ r.status = .Locked ∧
      burn.vin.map CTxIn.prevout = [r.deposit_outpoint] ∧
      ∃ stage, ((gone.mined burn).vtx.take 1).foldlM
          (connectModelTx (tipContext env gone.state (gone.mined burn))) { db := gone.state.modelDb } = .ok stage ∧
        BondsFrozen (tipContext env gone.state (gone.mined burn)) stage.db burn := by
  obtain ⟨base, paid, again, gone, day⟩ := eve_exists
  obtain ⟨burned, burns, tidy, _⟩ := day.burns
  obtain ⟨extended, connects⟩ := Node.extend_eq_some burns
  obtain ⟨locked, unfiled, null⟩ := day.forfeits
  obtain ⟨r, found, fields⟩ := Option.map_eq_some_iff.mp locked
  obtain ⟨status, outpoint⟩ := Prod.mk.inj fields
  have assume : ChainAssumptions env genesis (gone.blocks ++ [gone.mined burn]) := by
    rw [← extended]
    exact Node.assumptions_of_tidy (day.burned_length burns) tidy
  exact ⟨gone, burned, r, connects, rfl, found, status, by rw [outpoint]; rfl,
    bondsFrozen_of_spendsGuarded connects gone.chain assume
      (Node.guarded rfl (by decide) unfiled null) 1 burn rfl (spend_isCoinBase (by decide))⟩

open RegChain in
/-- A block spends a challenge's deposit ninety-nine blocks before the verdict and is accepted:
connecting does not ask for the index of deposits. -/
theorem challengeDeposit_spent_before_verdict : ∃ again gone : Node,
    Connects env again.state (again.mined withdrawal) gone.state ∧
      (again.mined withdrawal).vtx[1]? = some withdrawal ∧ again.state.chain.length = 102 ∧
      ∃ stage, ((again.mined withdrawal).vtx.take 1).foldlM
          (connectModelTx (tipContext env again.state (again.mined withdrawal)))
          { db := again.state.modelDb } = .ok stage ∧
        ¬ BondsFrozen (tipContext env again.state (again.mined withdrawal)) stage.db withdrawal := by
  obtain ⟨base, paid, again, gone, day⟩ := eve_exists
  obtain ⟨_, connects⟩ := Node.extend_eq_some day.withdraws
  refine ⟨again, gone, connects, rfl, day.lengths.2, _, again.second_stage withdrawal, fun frozen => ?_⟩
  obtain ⟨entry, stored, fields⟩ := Option.map_eq_some_iff.mp day.overlapped.2
  obtain ⟨state, deposit⟩ := Prod.mk.inj fields
  obtain ⟨txin, member, prevout⟩ := spend_input 1 ⟨nextAccusation.txid crypto, 0⟩
    [payAnyone 400000000]
  have late := frozen.challenge txin member defaultModel 201 entry stored state
    (deposit.trans prevout.symm)
  have height : (tipContext env again.state (again.mined withdrawal)).nHeight = 102 := day.lengths.2
  omega

end TensorCash
