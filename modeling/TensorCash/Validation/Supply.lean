import TensorCash.Assets.Conservation
import TensorCash.Lib.MapTotal
import TensorCash.Validation.FeeShares
import TensorCash.Validation.IssuanceCap
import TensorCash.Validation.Replay
import TensorCash.Validation.Subsidy
import Mathlib.Algebra.BigOperators.Ring.Finset

/-! What is in circulation, whatever blocks are connected and disconnected: no more coins than the
subsidies have paid, and no more units of an asset than its issuer has made. -/

namespace TensorCash

open Checked

section Supply

variable {w : CTxOut → Nat} {env : ChainEnv} {ctx : BlockContext} {db : ModelDb}
  {stack : List ConnectedBlock} {view next assets : CCoinsView} {block : CBlock} {undo : CBlockUndo}
  {pass pass' : CoinsPass} {coins coins' : OrdMap COutPoint Coin} {vtx : List CTransaction}
  {tx : CTransaction} {found : List Coin} {id : Uint256}

/-! ## Weights of outputs -/

/-- What the unspent outputs weigh. -/
def circulating (w : CTxOut → Nat) (coins : OrdMap COutPoint Coin) : Nat := coins.total fun coin => w coin.out

/-- What a transaction makes beyond what it spends. -/
def surplus (w : CTxOut → Nat) (tx : CTransaction) (found : List Coin) : Int :=
  ((tx.vout.map w).sum : Nat) - ((found.map fun coin => w coin.out).sum : Nat)

theorem circulating_addCoinsFrom (txid : Uint256) (nHeight : Nat) (fCoinbase : Bool) (start : Nat)
    (vout : List CTxOut) (coins : OrdMap COutPoint Coin) :
    circulating w (addCoinsFrom txid nHeight fCoinbase start vout coins) ≤
      circulating w coins + (vout.map w).sum := by
  induction vout generalizing start coins with
  | nil => exact Nat.le_refl _
  | cons out rest ih =>
    -- An unspendable output is not kept, any other one adds its own weight at most.
    have first : circulating w (addCoin coins ⟨txid, UInt32.ofNat start⟩ ⟨out, nHeight, fCoinbase⟩) ≤
        circulating w coins + w out := by
      unfold addCoin
      split_ifs
      · exact Nat.le_add_right _ _
      · exact OrdMap.total_insert_le _ _
    refine (ih (start + 1) _).trans ?_
    rw [List.map_cons, List.sum_cons]
    omega

theorem circulating_spendCoins (distinct : (tx.vin.map CTxIn.prevout).Nodup)
    (inputs : inputCoins coins tx = some found) :
    circulating w (spendCoins tx.vin coins) + (found.map fun coin => w coin.out).sum =
      circulating w coins := by
  have each : List.Forall₂ (fun o coin => coins.get? o = some coin) (tx.vin.map CTxIn.prevout) found :=
    List.forall₂_map_left_iff.mpr (forall₂_of_inputCoins inputs)
  have taken := OrdMap.total_erase_each (w := fun coin : Coin => w coin.out) distinct each
  rwa [List.foldl_map] at taken

theorem TxAccepted.circulating_le (accepted : TxAccepted ctx db view pass tx found pass')
    (checked : checkTransaction tx = .ok ⟨⟩) :
    (circulating w pass'.coins : Int) ≤ circulating w pass.coins + surplus w tx found := by
  have added := circulating_addCoinsFrom (w := w) (tx.txid ctx.env.crypto) ctx.nHeight tx.isCoinBase 0 tx.vout
    (if tx.isCoinBase then pass.coins else spendCoins tx.vin pass.coins)
  -- A coinbase spends nothing.
  have taken : circulating w (if tx.isCoinBase then pass.coins else spendCoins tx.vin pass.coins) +
      (found.map fun coin => w coin.out).sum = circulating w pass.coins := by
    cases mint : tx.isCoinBase with
    | true => simp [(accepted.mint mint).1]
    | false =>
      obtain ⟨_, inputs, _⟩ := accepted.spend mint
      simp only [checkTransaction, bind_eq_ok, require_eq_ok] at checked
      obtain ⟨_, _, _, _, _, _, _, _, _, distinct, _⟩ := checked
      exact circulating_spendCoins distinct (checkTxInputs_eq_ok inputs).1
  rw [accepted.coins, updateCoins, addCoins, surplus]
  omega

theorem OutputsAmong.circulating_le (among : OutputsAmong coins coins') :
    circulating w coins' ≤ circulating w coins := by
  refine OrdMap.total_le_total fun o coin found => ?_
  obtain ⟨old, there, same⟩ := among o coin found
  exact ⟨old, there, by rw [same]⟩

/-- A bound that grows with every block by what the block may add holds after any reorganisation. -/
theorem Follows.circulating_le (bound : List ConnectedBlock → Int) (start : 0 ≤ bound [])
    (step : ∀ top stack before after db, top.block.getHash env.crypto ≠ env.params.hashGenesisBlock →
      connectBlock (contextAt env (stack.length + 1) top.block) db before top.block = .ok (after, top.undo) →
      (circulating w after.coins : Int) + bound stack ≤ circulating w before.coins + bound (top :: stack))
    (follows : Follows env stack view) : (circulating w view.coins : Int) ≤ bound stack := by
  induction stack generalizing view with
  | nil =>
    have none : circulating w view.coins ≤ 0 := follows.1.circulating_le
    omega
  | cons top stack ih =>
    obtain ⟨before, after, db, earlier, above, connected, among, _⟩ := follows
    have kept := among.circulating_le (w := w)
    have grown := step top stack before after db above connected
    have started := ih earlier
    omega

/-! ## Coins -/

def valueOf (out : CTxOut) : Nat := out.nValue.toInt.toNat

def mintOf (tx : CTransaction) : Int := if tx.isCoinBase then getValueOut tx else 0

theorem connectTx_nFees (connected : connectTx ctx db view pass tx = .ok pass') : ∃ found,
    TxAccepted ctx db view pass tx found pass' ∧
      pass'.nFees = pass.nFees + if tx.isCoinBase then 0 else txFee tx found := by
  obtain ⟨found, accepted⟩ := connectTx_accepted connected
  refine ⟨found, accepted, ?_⟩
  obtain ⟨_, _, connected⟩ := bind_eq_ok.mp connected
  obtain ⟨⟨coins, mid⟩, spends, connected⟩ := bind_eq_ok.mp connected
  obtain ⟨_, _, connected⟩ := bind_eq_ok.mp connected
  obtain ⟨_, _, connected⟩ := bind_eq_ok.mp connected
  cases connected
  unfold connectSpends at spends
  cases mint : tx.isCoinBase with
  | true =>
    simp only [mint, if_true, Except.ok.injEq, Prod.mk.injEq] at spends
    simp [spends.2]
  | false =>
    simp only [mint, Bool.false_eq_true, if_false, connectInputs, require_bind_eq_ok] at spends
    obtain ⟨_, spends⟩ := spends
    obtain ⟨⟨spent, txfee⟩, checked, spends⟩ := bind_eq_ok.mp spends
    simp only [require_bind_eq_ok, Except.ok.injEq, Prod.mk.injEq] at spends
    obtain ⟨_, _, rfl, rfl⟩ := spends
    obtain ⟨fee, again, _⟩ := accepted.spend mint
    obtain ⟨rfl, rfl⟩ := Prod.mk.inj (Except.ok.inj (again.symm.trans (mapError_eq_ok.mp checked)))
    simp [(checkTxInputs_fee again).1]

/-- Value moves from the coins to the block's fees; only a coinbase makes some. -/
theorem connectTx_value (checked : checkTransaction tx = .ok ⟨⟩)
    (connected : connectTx ctx db view pass tx = .ok pass') :
    (circulating valueOf pass'.coins : Int) + pass'.nFees ≤
      circulating valueOf pass.coins + pass.nFees + mintOf tx := by
  obtain ⟨found, accepted, fees⟩ := connectTx_nFees connected
  have moved := accepted.circulating_le (w := valueOf) checked
  have made : ((tx.vout.map valueOf).sum : Nat) ≤ getValueOut tx := by
    rw [Nat.cast_list_sum, List.map_map]
    refine List.sum_le_sum fun out member => (Int.toNat_of_nonneg ?_).le
    exact (checkTransaction_values checked out member).1
  have spent : (found.map fun coin => coin.out.nValue.toInt).sum ≤ ((found.map fun coin => valueOf coin.out).sum : Nat) := by
    rw [Nat.cast_list_sum, List.map_map]
    exact List.sum_le_sum fun coin _ => Int.self_le_toNat _
  rw [surplus] at moved
  rw [fees, mintOf]
  -- A fee is what the inputs are worth beyond the outputs.
  split_ifs
  · omega
  · rw [txFee]
    omega

theorem connectTxs_value (each : ∀ tx ∈ vtx, checkTransaction tx = .ok ⟨⟩)
    (connected : vtx.foldlM (connectTx ctx db view) pass = .ok pass') :
    (circulating valueOf pass'.coins : Int) + pass'.nFees ≤
      circulating valueOf pass.coins + pass.nFees + (vtx.map mintOf).sum := by
  induction vtx generalizing pass with
  | nil =>
    cases connected
    simp
  | cons tx rest ih =>
    rw [List.foldlM_cons] at connected
    obtain ⟨mid, stepped, connected⟩ := bind_eq_ok.mp connected
    have first := connectTx_value (each tx List.mem_cons_self) stepped
    have later := ih (fun t member => each t (List.mem_cons_of_mem _ member)) connected
    rw [List.map_cons, List.sum_cons]
    omega

/-- A block adds its subsidy to the coins in circulation, at most. -/
theorem connectBlock_value (above : ctx.blockHash ≠ ctx.env.params.hashGenesisBlock)
    (connected : connectBlock ctx db view block = .ok (next, undo)) : (circulating valueOf next.coins : Int) ≤
      circulating valueOf view.coins + getBlockSubsidy ctx.nHeight ctx.env.params := by
  simp only [connectBlock, bind_eq_ok, if_neg above] at connected
  obtain ⟨_, checked, _, _, _, _, _, _, _, _, _, _, pass, coins, _, registry, _, reward, done⟩ := connected
  cases done
  have reward := require_eq_ok.mp reward
  obtain ⟨mint, rest, vtx, coinbase, plain, each⟩ := checkBlock_transactions (mapError_eq_ok.mp checked)
  have moved := connectTxs_value each coins
  -- Only the first transaction mints, and no more than fees and subsidy.
  have others : (rest.map mintOf).sum = 0 := by
    refine List.sum_eq_zero fun value member => ?_
    obtain ⟨tx, listed, rfl⟩ := List.mem_map.mp member
    simp [mintOf, plain tx listed]
  have own : mintOf mint = getValueOut mint := if_pos coinbase
  rw [vtx] at reward moved
  rw [List.map_cons, List.sum_cons, others, own] at moved
  simp only [List.head?_cons, Option.map_some, Option.getD_some] at reward
  rw [(connectAssets_sameCoins registry).1]
  dsimp only at moved ⊢
  omega

/-- In every state that connecting and disconnecting blocks leads to, the unspent outputs are worth
no more than the subsidies of the connected blocks together. Under the epoch schedule that is the
expected total without the reward of the genesis block, which nobody can spend. -/
theorem coins_within_emission (reached : Reachable env stack view) : (circulating valueOf view.coins : Int) ≤
      ∑ h ∈ Finset.range stack.length, getBlockSubsidy (h + 1) env.params ∧ (env.params.tensor_subsidy = true →
        circulating valueOf view.coins + getBlockSubsidy 0 env.params ≤ EXPECTED_TOTAL) := by
  have bounded : (circulating valueOf view.coins : Int) ≤
      ∑ h ∈ Finset.range stack.length, getBlockSubsidy (h + 1) env.params := by
    refine reached.follows.circulating_le (fun stack => ∑ h ∈ Finset.range stack.length,
      getBlockSubsidy (h + 1) env.params) le_rfl fun top stack before after db above connected => ?_
    have grown := connectBlock_value above connected
    simp only [contextAt] at grown
    rw [List.length_cons, Finset.sum_range_succ]
    omega
  refine ⟨bounded, fun enabled => ?_⟩
  -- The heights from 1 on are the schedule without its first reward.
  obtain ⟨long, positive, _⟩ := schedule_starts
  have all := sum_rewardAt_le PAID_EPOCHS long positive rewardBehind_schedule (stack.length + 1)
  simp only [mintedBy_schedule, ← getBlockSubsidy_eq_rewardAt enabled] at all
  rw [Finset.sum_range_succ'] at all
  omega

open RegChain in
/-- The regtest chain after a registration and the issue of a hundred units. -/
theorem issued_reachable : ∃ (issued : Node) (stack : List ConnectedBlock) (e : AssetRegistryEntry),
    Reachable RegChain.env.toChainEnv stack issued.state.coinsTip ∧
      issued.state.coinsTip.policies.get? 7 = some e ∧ e.issued_total = 100 := by
  obtain ⟨base, _, ⟨registered, issued, voted, renewed, day⟩, _⟩ := laterDays_exist
  obtain ⟨steps, chain, _⟩ := day.chain
  obtain ⟨_, _, before, _⟩ := chain.last_connected
  obtain ⟨stack, _, reached⟩ := before.reachable
  obtain ⟨e, known, _, hundred, _⟩ := Node.cap_eq_some day.issued_cap
  exact ⟨issued, stack, e, reached, known, hundred⟩

theorem coins_within_emission_after_issue :
    ∃ (issued : RegChain.Node) (stack : List ConnectedBlock),
      Reachable RegChain.env.toChainEnv stack issued.state.coinsTip ∧
      circulating valueOf issued.state.coinsTip.coins + getBlockSubsidy 0 RegChain.env.params ≤
        EXPECTED_TOTAL := by
  obtain ⟨issued, stack, _, reached, _⟩ := issued_reachable
  exact ⟨issued, stack, reached, (coins_within_emission reached).2 rfl⟩

/-! ## Units of assets -/

def outUnits (id : Uint256) (out : CTxOut) : Nat := unitsOf id (tagsOf [out])

theorem sum_outUnits (id : Uint256) (outs : List CTxOut) :
    (outs.map (outUnits id)).sum = unitsOf id (tagsOf outs) := by
  induction outs with
  | nil => rfl
  | cons out rest ih =>
    have split : tagsOf (out :: rest) = tagsOf [out] ++ tagsOf rest := List.filterMap_append (l := [out])
    rw [List.map_cons, List.sum_cons, ih, split, outUnits]
    simp [unitsOf]

theorem surplus_outUnits (id : Uint256) (tx : CTransaction) (found : List Coin) :
    surplus (outUnits id) tx found = assetDelta (found.map Coin.out) tx.vout id := by
  rw [surplus, assetDelta, ← sum_outUnits, ← sum_outUnits, List.map_map]
  rfl

/-- The units of an asset that transactions with their spent coins make, less those that they
destroy. -/
def issueOf (id : Uint256) (txs : List (CTransaction × List Coin)) : Int :=
  (txs.map fun t => assetDelta (t.2.map Coin.out) t.1.vout id).sum

/-- The transactions of a block beside the coins that they have spent, from the undo data. -/
def ConnectedBlock.spends (b : ConnectedBlock) : List (CTransaction × List Coin) :=
  b.block.vtx.zip ([] :: b.undo.vtxundo)

def netIssue (id : Uint256) (stack : List ConnectedBlock) : Int := (stack.map fun b => issueOf id b.spends).sum

theorem netIssue_cons (id : Uint256) (top : ConnectedBlock) (stack : List ConnectedBlock) :
    netIssue id (top :: stack) = issueOf id top.spends + netIssue id stack := by
  simp [netIssue]

theorem BlockAccepted.spends_eq (accepted : BlockAccepted ctx db view block pass assets undo) :
    ConnectedBlock.spends ⟨block, undo⟩ = blockSpends ctx.env.crypto ctx.nHeight view.coins block.vtx := by
  obtain ⟨mint, rest, vtx, coinbase, _⟩ := checkBlock_transactions accepted.checked
  have vtxundo := (connectAssets_sameCoins accepted.registry).2.1
  rw [accepted.spent_eq] at vtxundo
  simp only [ConnectedBlock.spends, vtx, vtxundo, blockSpends, coinbase, if_true, List.tail_cons, List.zip_cons_cons]
  generalize spends : blockSpends ctx.env.crypto ctx.nHeight
    (updateCoins (mint.txid ctx.env.crypto) mint ctx.nHeight view.coins) rest = txs
  have names : rest = txs.map Prod.fst := by rw [← spends, blockSpends_map_fst]
  rw [names, List.zip_map']
  simp

theorem connectTxs_units (id : Uint256) (each : ∀ tx ∈ vtx, checkTransaction tx = .ok ⟨⟩)
    (connected : vtx.foldlM (connectTx ctx db view) pass = .ok pass') :
    (circulating (outUnits id) pass'.coins : Int) ≤ circulating (outUnits id) pass.coins +
      issueOf id (blockSpends ctx.env.crypto ctx.nHeight pass.coins vtx) := by
  induction vtx generalizing pass with
  | nil =>
    cases connected
    simp [blockSpends, issueOf]
  | cons tx rest ih =>
    rw [List.foldlM_cons] at connected
    obtain ⟨mid, stepped, connected⟩ := bind_eq_ok.mp connected
    obtain ⟨found, accepted⟩ := connectTx_accepted stepped
    have first := accepted.circulating_le (w := outUnits id) (each tx List.mem_cons_self)
    have later := ih (fun t member => each t (List.mem_cons_of_mem _ member)) connected
    rw [accepted.coins] at first later
    rw [surplus_outUnits] at first
    rw [issueOf] at later ⊢
    rw [blockSpends, ← accepted.found_eq, List.map_cons, List.sum_cons]
    dsimp only
    omega

/-- Units are made and destroyed beside a credential of the asset only. -/
theorem checkTxInputs_credential {nSpendHeight : Nat} {fee : Int}
    (accepted : checkTxInputs env view nSpendHeight tx = .ok (found, fee))
    (changed : assetDelta (found.map Coin.out) tx.vout id ≠ 0) : ∃ i coin reg, (i, coin) ∈ tx.vin.zip found ∧
      parseIssuerReg coin.out.vExt = some reg ∧ reg.asset_id = id := by
  obtain ⟨inputs, checked⟩ := checkTxInputs_eq_ok accepted
  have moved : id ∈ (tagsOf (found.map Coin.out) ++ tagsOf tx.vout).map AssetTag.id := by
    by_contra still
    exact changed (assetDelta_eq_zero still)
  obtain ⟨result, checked⟩ := checkTxAssets_asset checked moved
  simp only [checkTxAsset, bind_eq_ok] at checked
  obtain ⟨policy, _, _, delta, _⟩ := checked
  obtain ⟨mint, burn⟩ := checkAssetDelta_eq_ok delta
  have issuer : ∃ r ∈ regsOf (found.map Coin.out), r.asset_id = id := by
    rcases lt_or_gt_of_ne changed with fewer | more
    · simpa using (burn fewer).1
    · simpa using (mint more).1
  obtain ⟨reg, member, own⟩ := issuer
  obtain ⟨out, listed, parsed⟩ := List.mem_filterMap.mp member
  obtain ⟨coin, inside, rfl⟩ := List.mem_map.mp listed
  -- Every coin has its input.
  have seconds : (tx.vin.zip found).map Prod.snd = found :=
    List.map_snd_zip (forall₂_of_inputCoins inputs).length_eq.ge
  rw [← seconds, List.mem_map] at inside
  obtain ⟨⟨i, coin⟩, paired, rfl⟩ := inside
  exact ⟨i, coin, reg, paired, parsed, own⟩

theorem TxAccepted.credential (accepted : TxAccepted ctx db view pass tx found pass')
    (changed : assetDelta (found.map Coin.out) tx.vout id ≠ 0) : ∃ i coin reg, (i, coin) ∈ tx.vin.zip found ∧
      parseIssuerReg coin.out.vExt = some reg ∧ reg.asset_id = id := by
  cases mint : tx.isCoinBase with
  | true =>
    -- A coinbase spends nothing and carries no units.
    have extensions := accepted.extensions
    simp only [checkBlockExtensions, bind_eq_ok, require_eq_ok] at extensions
    obtain ⟨_, _, _, _, _, _, bare⟩ := extensions
    refine absurd (assetDelta_eq_zero ?_) changed
    rw [(accepted.mint mint).1, bare mint]
    exact List.not_mem_nil
  | false =>
    obtain ⟨fee, checked, _⟩ := accepted.spend mint
    exact checkTxInputs_credential checked changed

theorem connectTxs_credential (connected : vtx.foldlM (connectTx ctx db view) pass = .ok pass') :
    ∀ t ∈ blockSpends ctx.env.crypto ctx.nHeight pass.coins vtx,
      assetDelta (t.2.map Coin.out) t.1.vout id ≠ 0 →
      ∃ i coin reg, (i, coin) ∈ t.1.vin.zip t.2 ∧ parseIssuerReg coin.out.vExt = some reg ∧
        reg.asset_id = id := by
  induction vtx generalizing pass with
  | nil => simp [blockSpends]
  | cons tx rest ih =>
    rw [List.foldlM_cons] at connected
    obtain ⟨mid, stepped, connected⟩ := bind_eq_ok.mp connected
    obtain ⟨found, accepted⟩ := connectTx_accepted stepped
    have later := ih connected
    rw [accepted.coins] at later
    rw [blockSpends, ← accepted.found_eq]
    exact List.forall_mem_cons.mpr ⟨accepted.credential, later⟩

/-- The credential of an asset that is not registered cannot be spent, so nobody makes units of
it. -/
theorem BlockAccepted.issueOf_eq_zero (accepted : BlockAccepted ctx db view block pass assets undo)
    (ok : CredentialsOk view.coins view.policies) (unknown : view.policies.get? id = none) :
    issueOf id (blockSpends ctx.env.crypto ctx.nHeight view.coins block.vtx) = 0 := by
  refine List.sum_eq_zero fun d member => ?_
  obtain ⟨⟨tx, found⟩, listed, rfl⟩ := List.mem_map.mp member
  by_contra changed
  obtain ⟨i, coin, reg, paired, parsed, rfl⟩ := connectTxs_credential accepted.coins (tx, found) listed changed
  obtain ⟨cur, _, known, _⟩ := ((accepted.credentials ok).2 tx found i coin reg listed paired parsed).spends
  rw [creditFees_get?, unknown] at known
  cases known

/-- The supply of an asset as the registry has it, in 64 bits. -/
def AssetRegistryEntry.supply (e : AssetRegistryEntry) : UInt64 := e.issued_total - e.burned_total

def suppliesOf (view : CCoinsView) (id : Uint256) : Option UInt64 :=
  (view.policies.get? id).map AssetRegistryEntry.supply

/-- The registry has the supplies that the connected blocks have made. -/
def SuppliesOk (stack : List ConnectedBlock) (supplies : Uint256 → Option UInt64) : Prop :=
  ∀ id, (supplies id = none → netIssue id stack = 0) ∧ (supplies id).getD 0 = UInt64.ofInt (netIssue id stack)

theorem toUInt64_ofInt (d : Int) : (Int64.ofInt d).toUInt64 = UInt64.ofInt d := by
  apply UInt64.toNat_inj.mp
  simp only [Int64.ofInt, UInt64.ofInt, UInt64.toNat_ofNat']
  show (BitVec.ofInt 64 d).toNat = _
  rw [BitVec.toNat_ofInt]
  omega

theorem AssetRegistryEntry.settle_supply (e : AssetRegistryEntry) (d : Int) :
    (e.settle (Int64.ofInt d)).supply = e.supply + UInt64.ofInt d := by
  rw [← toUInt64_ofInt]
  unfold AssetRegistryEntry.settle AssetRegistryEntry.supply
  split_ifs with more fewer
  · grind
  · dsimp only
    rw [Int64.toUInt64_neg]
    grind
  · have none : Int64.ofInt d = 0 := Int64.le_antisymm (Int64.not_lt.mp more) (Int64.not_lt.mp fewer)
    rw [none, show Int64.toUInt64 0 = 0 from rfl, UInt64.add_zero]

/-- A registration takes the totals over, and an entry never goes. -/
theorem Staged.supply {txs : List (CTransaction × List Coin)} {prev entry : Option AssetRegistryEntry}
    (staged : Staged ctx txs id prev entry) : (entry = none → prev = none) ∧
      (entry.map AssetRegistryEntry.supply).getD 0 = (prev.map AssetRegistryEntry.supply).getD 0 := by
  cases staged with
  | kept silent => exact ⟨fun gone => gone, rfl⟩
  | @registered tx _ p _ member listed named accepted =>
    obtain ⟨ticker, decimals, rfl⟩ := accepted.entry
    obtain ⟨_, _, _, _, _, _, _, _, same⟩ := newEntry_eq ctx tx p prev ticker decimals
    rw [same]
    refine ⟨fun gone => (Option.some_ne_none _ gone).elim, ?_⟩
    cases prev with
    | none => exact UInt64.sub_self 0
    | some old => rfl

theorem connectBlock_supplies (above : ctx.blockHash ≠ ctx.env.params.hashGenesisBlock)
    (connected : connectBlock ctx db view block = .ok (next, undo))
    (ok : CredentialsOk view.coins view.policies) (supplies : SuppliesOk stack (suppliesOf view)) :
    SuppliesOk (⟨block, undo⟩ :: stack) (suppliesOf next) := by
  obtain ⟨pass, assets, accepted, _⟩ := connectBlock_accepted above connected
  intro id
  obtain ⟨absent, before⟩ := supplies id
  have step := connectBlock_entry connected id
  rw [netIssue_cons, accepted.spends_eq, suppliesOf]
  generalize next.policies.get? id = entry at step ⊢
  cases step with
  | genesis hash => exact absurd hash above
  | @block staged _ _ taken _ =>
    obtain ⟨kept, same⟩ := taken.supply
    rw [Option.map_map] at same
    have started : (staged.map AssetRegistryEntry.supply).getD 0 = UInt64.ofInt (netIssue id stack) := same.trans before
    cases staged with
    | none =>
      -- Without an entry nobody can have made units.
      have unknown : view.policies.get? id = none := Option.map_eq_none_iff.mp (kept rfl)
      rw [accepted.issueOf_eq_zero ok unknown, absent (Option.map_eq_none_iff.mpr unknown)]
      exact ⟨fun _ => rfl, rfl⟩
    | some e =>
      refine ⟨fun gone => (Option.some_ne_none _ gone).elim, ?_⟩
      rw [Int.add_comm, UInt64.ofInt_add, ← started]
      exact e.settle_supply _

theorem suppliesOf_revertFees (fees : List FeeUndoEntry) (view : CCoinsView) :
    suppliesOf (fees.foldl revertFee view) = suppliesOf view := by
  induction fees generalizing view with
  | nil => rfl
  | cons f rest ih =>
    rw [List.foldl_cons, ih]
    funext id
    rw [suppliesOf, revertFee_get?]
    split_ifs
    · rw [Option.map_map]
      rfl
    · rfl

theorem suppliesOf_revertAssets {other : CCoinsView}
    (above : ctx.blockHash ≠ ctx.env.params.hashGenesisBlock)
    (connected : connectBlock ctx db view block = .ok (next, undo))
    (same : suppliesOf other = suppliesOf next) :
    suppliesOf (revertAssets undo other) = suppliesOf view := by
  obtain ⟨pass, assets, accepted, rfl⟩ := connectBlock_accepted above connected
  obtain ⟨mid, logged, fees⟩ := revertAssets_policies undo other
  funext id
  have credited : ((creditFees pass.fee_undo { view with coins := pass.coins }).policies.get? id).map
      AssetRegistryEntry.supply = suppliesOf view id := by
    rw [creditFees_get?, Option.map_map]
    rfl
  rw [suppliesOf, fees, ← suppliesOf, suppliesOf_revertFees, suppliesOf, logged]
  -- An entry comes back from its record, or the block has never written it.
  rcases (connectAssets_regLogs rfl accepted.registry).revert_cases other.policies id with
    restored | ⟨left, unwritten⟩
  · rw [restored]
    exact credited
  · rw [left, ← credited, ← unwritten]
    exact congrFun same id

theorem supplies_restored (env : ChainEnv) : Restores env suppliesOf SuppliesOk where
  genesis := fun _ _ => ⟨fun _ => rfl, rfl⟩
  connect := fun _ _ _ _ _ reached above connected supplies =>
    connectBlock_supplies above connected reached.follows.credentials supplies
  back := fun _ _ _ _ _ _ above connected _ same => suppliesOf_revertAssets above connected same
  coins := fun _ _ _ => rfl

/-- In every state that connecting and disconnecting blocks leads to, the units of an asset in
circulation are at most those that the connected blocks have made and not destroyed. For a
registered asset the two totals of the registry differ by that number, up to a multiple of `2 ^ 64`,
and there are no units of any other asset. -/
theorem assets_within_issue (reached : Reachable env stack view) (id : Uint256) :
    (circulating (outUnits id) view.coins : Int) ≤ netIssue id stack ∧ (∀ e, view.policies.get? id = some e →
        e.issued_total - e.burned_total = UInt64.ofInt (netIssue id stack)) ∧
      (view.policies.get? id = none → netIssue id stack = 0 ∧ circulating (outUnits id) view.coins = 0) := by
  have bounded : (circulating (outUnits id) view.coins : Int) ≤ netIssue id stack := by
    refine reached.follows.circulating_le (netIssue id) le_rfl fun top stack before after db above connected => ?_
    obtain ⟨pass, assets, accepted, rfl⟩ := connectBlock_accepted above connected
    obtain ⟨_, _, _, _, _, each⟩ := checkBlock_transactions accepted.checked
    have grown := connectTxs_units id each accepted.coins
    rw [netIssue_cons, accepted.spends_eq, (connectAssets_sameCoins accepted.registry).1]
    dsimp only at grown ⊢
    omega
  -- Disconnecting restores the totals, so they are those of the blocks that are left.
  obtain ⟨absent, supply⟩ := (reached.replaysAs (supplies_restored env)).invariant (supplies_restored env) id
  refine ⟨bounded, fun e known => ?_, fun unknown => ?_⟩
  · rw [← supply, suppliesOf, known]
    rfl
  · have none := absent (Option.map_eq_none_iff.mpr unknown)
    exact ⟨none, by omega⟩

theorem assets_within_issue_after_issue : ∃ (issued : RegChain.Node) (stack : List ConnectedBlock)
    (e : AssetRegistryEntry), Reachable RegChain.env.toChainEnv stack issued.state.coinsTip ∧
      issued.state.coinsTip.policies.get? 7 = some e ∧ e.issued_total = 100 ∧
      e.issued_total - e.burned_total = UInt64.ofInt (netIssue 7 stack) := by
  obtain ⟨issued, stack, e, reached, known, hundred⟩ := issued_reachable
  exact ⟨issued, stack, e, reached, known, hundred, (assets_within_issue reached 7).2.1 e known⟩

end Supply

end TensorCash
