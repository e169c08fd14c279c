import TensorCash.Assets.Connect

/-! `Chainstate::ConnectBlock` for a block that extends the tip, on a view of its own. -/

namespace TensorCash

open Checked

def INITIAL_REWARD : Int := 715 * COIN
def EPOCH_START_LEN : Nat := 715
def EPOCH_CAP_LEN : Nat := 715 * 2 ^ 10

/-- Walks the epochs; the height is fuel enough. -/
def epochReward : Nat → Nat → Int → Nat → Int
  | 0, _, reward, _ => reward
  | fuel + 1, remaining, reward, epoch_len =>
    if epoch_len ≤ remaining ∧ 0 < reward then
      epochReward fuel (remaining - epoch_len) (reward * 3 / 5) (min (epoch_len * 2) EPOCH_CAP_LEN)
    else reward

def getBlockSubsidy (nHeight : Nat) (params : Params) : Int :=
  if params.tensor_subsidy then epochReward nHeight nHeight INITIAL_REWARD EPOCH_START_LEN
  else
    let halvings := nHeight / params.nSubsidyHalvingInterval
    if 64 ≤ halvings then 0 else 50 * COIN / 2 ^ halvings

def checkBlockModelRegistered (c : Crypto) (db : ModelDb) (block : CBlock) : Except Failure Unit :=
  require ((db.models.get? (block.pow.getModelHash c)).any fun r => r.status = .Registered)
    (.consensus "unreg-model")

def checkRotationLimit (block : CBlock) : Except Failure Unit :=
  require (((block.vtx.flatMap fun tx => regsOf tx.vout).map IssuerReg.asset_id).Nodup)
    (.consensus "asset-rotation-limit")

def checkNoOverwrite (c : Crypto) (coins : OrdMap COutPoint Coin) (block : CBlock) : Except Failure Unit :=
  require (∀ tx ∈ block.vtx, ∀ o ∈ tx.vout.zipIdx, (coins.get? ⟨tx.txid c, UInt32.ofNat o.2⟩).isNone)
    (.consensus "bad-txns-BIP30")

def touchedAssets (spent vout : List CTxOut) : List Uint256 :=
  sortedIds ((tagsOf spent ++ tagsOf vout).map AssetTag.id ++ (regsOf spent ++ regsOf vout).map IssuerReg.asset_id)

/-- The shares of a fee: equal parts, and the rest one by one from a fixed offset. -/
def feeShares (c : Crypto) (blockHash txid : Uint256) (touched : List Uint256) (txfee : Nat) :
    List FeeUndoEntry :=
  if touched = [] then []
  else
    let base := txfee / touched.length
    let rem := txfee % touched.length
    let rnd := Codec.leNat ((c.sha256 (blockHash.bytes ++ txid.bytes)).bytes.take 8)
    let off := rnd % touched.length
    (if 0 < base then touched.map fun id => FeeUndoEntry.mk id (UInt64.ofNat base) else []) ++
      (List.range rem).map fun r => FeeUndoEntry.mk (touched.getD ((off + r) % touched.length) 0) 1

def enforceBindingSig (env : ChainEnv) (sig_bytes : Bytes) : Bool :=
  let ht := sig_bytes.getLast?.getD 0
  let binding := ht &&& 0x80 = 0 && ht &&& 0x1f = SIGHASH_ALL
  if env.signatureEncoding sig_bytes then binding
  else if sig_bytes.length = 64 then true
  else if sig_bytes.length = 65 then binding
  else false

def signatureElements (env : ChainEnv) (txin : CTxIn) : List Bytes :=
  (scriptPushes txin.scriptSig.length txin.scriptSig ++ txin.scriptWitness).filter fun e =>
    e ≠ [] && (env.signatureEncoding e || e.length = 64 || e.length = 65)

/-- The current credentials of assets whose 64-bit supply changes are signed over all outputs. -/
def checkIcuSighash (env : ChainEnv) (view : CCoinsView) (tx : CTransaction) (spent : List CTxOut) :
    Except Failure Unit :=
  let changed := ((tagsOf spent ++ tagsOf tx.vout).map AssetTag.id).filter fun id =>
    Int64.ofInt (assetDelta spent tx.vout id) ≠ 0
  tx.vin.forM fun i =>
    require ((changed.any fun id =>
          (view.policies.get? id).any fun cur => cur.icu_outpoint = i.prevout) →
        signatureElements env i ≠ [] ∧ (signatureElements env i).all (enforceBindingSig env))
      (.consensus "icu-invalid-sighash")

structure CoinsPass where
  coins : OrdMap COutPoint Coin
  spent : List (CTransaction × List Coin) := []
  fee_undo : List FeeUndoEntry := []
  nFees : Int := 0
  nSigOpsCost : Nat := 0

def checkBlockExtensions (params : Params) (nHeight : Nat) (tx : CTransaction) : Except Failure Unit := do
  -- The last of these three tests overwrites the reason of the others, so it goes first.
  require (tx.vout.all fun o => o.vExt = [] || isKnownExtension params nHeight o.vExt)
    (.consensus "outext")
  require (nHeight < params.AssetsHeight → tx.vout.all fun o => o.vExt = []) (.consensus "outext")
  require (nHeight < params.AssetsDelegationHeight → (regsOf tx.vout).all fun r => r.compliance_delegate_asset_id = 0)
    (.consensus "kyc-delegate-inactive")
  require (tx.isCoinBase → tagsOf tx.vout = []) (.consensus "coinbase-asset")

def connectInputs (ctx : BlockContext) (db : ModelDb) (view : CCoinsView) (pass : CoinsPass)
    (tx : CTransaction) : Except Failure (List Coin × CoinsPass) := do
  require (∀ i ∈ tx.vin, db.burns.get? i.prevout ≠ some CHALLENGE_BURN_SENTINEL)
    (.consensus "challenge-deposit-burned")
  let (coins, txfee) ←
    (checkTxInputs ctx.env { view with coins := pass.coins } ctx.nHeight tx).mapError
      Failure.consensus
  let nFees := pass.nFees + txfee
  require (MoneyRange nFees) (.consensus "bad-txns-accumulated-fee-outofrange")
  require (ctx.env.sequenceLocks ctx.blockHash tx (coins.map Coin.nHeight))
    (.consensus "bad-txns-nonfinal")
  let shares := feeShares ctx.env.crypto ctx.blockHash (tx.txid ctx.env.crypto)
    (touchedAssets (coins.map Coin.out) tx.vout) txfee.toNat
  .ok (coins, { pass with nFees, fee_undo := pass.fee_undo ++ shares })

def connectSpends (ctx : BlockContext) (db : ModelDb) (view : CCoinsView) (pass : CoinsPass)
    (tx : CTransaction) : Except Failure (List Coin × CoinsPass) :=
  if tx.isCoinBase then .ok ([], pass) else connectInputs ctx db view pass tx

def checkSignatures (ctx : BlockContext) (view : CCoinsView) (tx : CTransaction)
    (coins : List Coin) : Except Failure Unit :=
  if tx.isCoinBase then .ok ⟨⟩
  else match ctx.env.inputScripts ctx.blockHash tx coins with
    | some reason => .error (.consensus reason)
    | none => checkIcuSighash ctx.env view tx (coins.map Coin.out)

def connectTx (ctx : BlockContext) (db : ModelDb) (view : CCoinsView) (pass : CoinsPass)
    (tx : CTransaction) : Except Failure CoinsPass := do
  checkBlockExtensions ctx.env.params ctx.nHeight tx
  let (coins, pass) ← connectSpends ctx db view pass tx
  let nSigOpsCost := pass.nSigOpsCost + ctx.env.sigOpCost tx coins
  require (nSigOpsCost ≤ MAX_BLOCK_SIGOPS_COST) (.consensus "bad-blk-sigops")
  checkSignatures ctx view tx coins
  .ok { pass with
    coins := updateCoins (tx.txid ctx.env.crypto) tx ctx.nHeight pass.coins
    spent := pass.spent ++ [(tx, coins)]
    nSigOpsCost }

/-- A body that does not match its header: the node stops. -/
def fatalIfMutated : Failure → Failure
  | .invalid .BLOCK_MUTATED _ => .error "Corrupt block found indicating potential hardware failure."
  | failure => failure

def connectBlock (ctx : BlockContext) (db : ModelDb) (view : CCoinsView) (block : CBlock) :
    Except Failure (CCoinsView × CBlockUndo) := do
  (checkBlock ctx.env.toNodeEnv true true true block).mapError fatalIfMutated
  checkProofVersion ctx.env.toNodeEnv db ctx.nHeight block.pow
  require (block.hashPrevBlock = view.bestBlock) (.error "UTXO tip mismatch before ConnectBlock")
  if ctx.blockHash = ctx.env.params.hashGenesisBlock then
    .ok ({ view with bestBlock := ctx.blockHash }, {})
  else do
    checkBlockModelRegistered ctx.env.crypto db block
    checkRotationLimit block
    checkNoOverwrite ctx.env.crypto view.coins block
    let pass ← block.vtx.foldlM (connectTx ctx db view) { coins := view.coins }
    let (view, undo) ← connectAssets ctx pass.spent { view with coins := pass.coins }
      { vtxundo := pass.spent.tail.map Prod.snd, fee_undo := pass.fee_undo }
    require (((block.vtx.head?.map getValueOut).getD 0) ≤
      pass.nFees + getBlockSubsidy ctx.nHeight ctx.env.params) (.consensus "bad-cb-amount")
    .ok ({ view with bestBlock := ctx.blockHash }, undo)

section Accepted

variable {ctx : BlockContext} {db : ModelDb} {view next : CCoinsView} {block : CBlock}
  {undo : CBlockUndo}

structure TxAccepted (ctx : BlockContext) (db : ModelDb) (view : CCoinsView) (pass : CoinsPass)
    (tx : CTransaction) (found : List Coin) (pass' : CoinsPass) : Prop where
  extensions : checkBlockExtensions ctx.env.params ctx.nHeight tx = .ok ⟨⟩
  mint : tx.isCoinBase = true → found = [] ∧ pass'.fee_undo = pass.fee_undo
  unburned : tx.isCoinBase = false → ∀ i ∈ tx.vin, db.burns.get? i.prevout ≠ some CHALLENGE_BURN_SENTINEL
  spend : tx.isCoinBase = false → ∃ txfee,
    checkTxInputs ctx.env { view with coins := pass.coins } ctx.nHeight tx = .ok (found, txfee) ∧
      pass'.fee_undo = pass.fee_undo ++ feeShares ctx.env.crypto ctx.blockHash
        (tx.txid ctx.env.crypto) (touchedAssets (found.map Coin.out) tx.vout) txfee.toNat
  coins : pass'.coins = updateCoins (tx.txid ctx.env.crypto) tx ctx.nHeight pass.coins
  spent : pass'.spent = pass.spent ++ [(tx, found)]

theorem connectTx_accepted {pass pass' : CoinsPass} {tx : CTransaction}
    (connected : connectTx ctx db view pass tx = .ok pass') :
    ∃ found, TxAccepted ctx db view pass tx found pass' := by
  -- The coinbase skips the inputs, so the two kinds of transactions are taken apart.
  obtain ⟨_, extensions, connected⟩ := bind_eq_ok.mp connected
  obtain ⟨⟨coins, mid⟩, spends, connected⟩ := bind_eq_ok.mp connected
  obtain ⟨_, _, connected⟩ := bind_eq_ok.mp connected
  obtain ⟨_, _, connected⟩ := bind_eq_ok.mp connected
  cases connected
  unfold connectSpends at spends
  cases mint : tx.isCoinBase with
  | true =>
    simp only [mint, if_true, Except.ok.injEq, Prod.mk.injEq] at spends
    obtain ⟨rfl, rfl⟩ := spends
    exact ⟨[], extensions, fun _ => ⟨rfl, rfl⟩, by simp [mint], by simp [mint], rfl, rfl⟩
  | false =>
    simp only [mint, Bool.false_eq_true, if_false, connectInputs, require_bind_eq_ok] at spends
    obtain ⟨unburned, spends⟩ := spends
    obtain ⟨⟨found, txfee⟩, checked, spends⟩ := bind_eq_ok.mp spends
    simp only [require_bind_eq_ok, Except.ok.injEq, Prod.mk.injEq] at spends
    obtain ⟨_, _, rfl, rfl⟩ := spends
    exact ⟨found, extensions, by simp [mint], fun _ => unburned,
      fun _ => ⟨txfee, mapError_eq_ok.mp checked, rfl⟩, rfl, rfl⟩

structure BlockAccepted (ctx : BlockContext) (db : ModelDb) (view : CCoinsView) (block : CBlock)
    (pass : CoinsPass) (assets : CCoinsView) (undo : CBlockUndo) : Prop where
  checked : checkBlock ctx.env.toNodeEnv true true true block = .ok ⟨⟩
  parent : block.hashPrevBlock = view.bestBlock
  registered : checkBlockModelRegistered ctx.env.crypto db block = .ok ⟨⟩
  rotations : checkRotationLimit block = .ok ⟨⟩
  no_overwrite : checkNoOverwrite ctx.env.crypto view.coins block = .ok ⟨⟩
  coins : block.vtx.foldlM (connectTx ctx db view) { coins := view.coins } = .ok pass
  registry : connectAssets ctx pass.spent { view with coins := pass.coins }
    { vtxundo := pass.spent.tail.map Prod.snd, fee_undo := pass.fee_undo } = .ok (assets, undo)

theorem connectBlock_accepted (above : ctx.blockHash ≠ ctx.env.params.hashGenesisBlock)
    (connected : connectBlock ctx db view block = .ok (next, undo)) :
    ∃ pass assets, BlockAccepted ctx db view block pass assets undo ∧
      next = { assets with bestBlock := ctx.blockHash } := by
  -- The steps are taken apart in the order in which they run.
  simp only [connectBlock, bind_eq_ok, if_neg above] at connected
  obtain ⟨_, checked, _, _, _, parent, _, registered, _, rotations, _, no_overwrite, pass, coins,
    ⟨assets, undo'⟩, registry, _, _, rest⟩ := connected
  cases rest
  exact ⟨pass, assets, ⟨mapError_eq_ok.mp checked, require_eq_ok.mp parent, registered, rotations,
    no_overwrite, coins, registry⟩, rfl⟩

end Accepted

end TensorCash
