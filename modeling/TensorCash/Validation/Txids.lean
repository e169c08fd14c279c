import TensorCash.Assets.Frame
import TensorCash.Primitives.TxidBinding
import TensorCash.Validation.ConnectTip

/-! No two transactions of an accepted chain share an id, unless the hash function collides. -/

namespace TensorCash

open Checked Codec

theorem leNat_scriptNumBytes {fuel n : Nat} (small : n < 256 ^ fuel) : leNat (scriptNumBytes fuel n) = n := by
  induction fuel generalizing n with
  | zero =>
    have zero : n = 0 := by simpa using small
    subst zero
    rfl
  | succ fuel ih =>
    cases n with
    | zero => rfl
    | succ k =>
      have quotient : (k + 1) / 256 < 256 ^ fuel := by
        rw [Nat.pow_succ] at small
        exact Nat.div_lt_of_lt_mul (by omega)
      have low : (UInt8.ofNat (k + 1)).toNat = (k + 1) % 256 := by simp
      rw [scriptNumBytes, leNat, ih quotient, low]
      exact Nat.mod_add_div _ _
      · simp

theorem leNat_append_zero (bytes : Bytes) : leNat (bytes ++ [0]) = leNat bytes := by
  induction bytes with
  | nil => rfl
  | cons b rest ih => simp [leNat, ih]

theorem scriptNumBytes_length (fuel n : Nat) : (scriptNumBytes fuel n).length ≤ fuel := by
  induction fuel generalizing n with
  | zero => simp [scriptNumBytes]
  | succ fuel ih =>
    cases n with
    | zero => simp [scriptNumBytes]
    | succ k =>
      have := ih ((k + 1) / 256)
      simpa [scriptNumBytes] using this

theorem leNat_scriptNumSerialize {n : Nat} (small : n < 2 ^ 31) : leNat (scriptNumSerialize n) = n := by
  have bytes : leNat (scriptNumBytes 8 n) = n := leNat_scriptNumBytes (by omega)
  unfold scriptNumSerialize
  dsimp only
  split_ifs
  · rw [leNat_append_zero, bytes]
  · exact bytes

theorem scriptNumSerialize_length (n : Nat) : (scriptNumSerialize n).length ≤ 9 := by
  have := scriptNumBytes_length 8 n
  unfold scriptNumSerialize
  dsimp only
  split_ifs <;> simp <;> omega

theorem scriptPushHeight_cases {n : Nat} (small : n < 2 ^ 31) :
    n ≤ 16 ∧ scriptPushHeight n = [UInt8.ofNat (if n = 0 then 0 else 0x50 + n)] ∨
      16 < n ∧ 0 < (scriptNumSerialize n).length ∧ (scriptNumSerialize n).length ≤ 9 ∧ scriptPushHeight n =
          UInt8.ofNat (scriptNumSerialize n).length :: scriptNumSerialize n := by
  by_cases low : n ≤ 16
  · refine .inl ⟨low, ?_⟩
    unfold scriptPushHeight
    split_ifs <;> rfl
  · have nonempty : scriptNumSerialize n ≠ [] := by
      intro empty
      have number := leNat_scriptNumSerialize small
      rw [empty] at number
      simp only [leNat] at number
      omega
    refine .inr ⟨by omega, List.length_pos_iff.mpr nonempty, scriptNumSerialize_length n, ?_⟩
    simp [scriptPushHeight, low, show n ≠ 0 by omega]

theorem scriptPushHeight_inj {n m : Nat} {r s : Bytes} (small : n < 2 ^ 31) (small' : m < 2 ^ 31)
    (same : scriptPushHeight n ++ r = scriptPushHeight m ++ s) : n = m := by
  -- The first byte tells the two forms apart, and the length in the long one.
  have byte : ∀ a b : Nat, a < 256 → b < 256 → UInt8.ofNat a = UInt8.ofNat b → a = b := by
    intro a b low high equal
    have numbers := congrArg UInt8.toNat equal
    simp only [UInt8.toNat_ofNat'] at numbers
    omega
  rcases scriptPushHeight_cases small with ⟨low, form⟩ | ⟨high, pos, bound, form⟩ <;>
    rcases scriptPushHeight_cases small' with ⟨low', form'⟩ | ⟨high', pos', bound', form'⟩ <;>
    rw [form, form'] at same <;> simp only [List.cons_append, List.nil_append, List.cons.injEq] at same
  · have heads := byte _ _ (by split_ifs <;> omega) (by split_ifs <;> omega) same.1
    split_ifs at heads <;> omega
  · have heads := byte _ _ (by split_ifs <;> omega) (by omega) same.1
    split_ifs at heads <;> omega
  · have heads := byte _ _ (by omega) (by split_ifs <;> omega) same.1
    split_ifs at heads <;> omega
  · have lengths := byte _ _ (by omega) (by omega) same.1
    have numbers := (List.append_inj same.2 lengths).1
    rw [← leNat_scriptNumSerialize small, ← leNat_scriptNumSerialize small', numbers]

/-- What the coins know about the transactions of a chain whose next height is `n`. -/
structure CoinsOk (c : Crypto) (n : Nat) (done : List CTransaction) (coins : OrdMap COutPoint Coin) : Prop where
  distinct : (done.map (CTransaction.txid c)).Nodup
  created : ∀ o coin, coins.get? o = some coin →
    ∃ t ∈ done, t.txid c = o.hash ∧ t.vout[o.n.toNat]? = some coin.out
  spent : ∀ t ∈ done, t.isCoinBase = false → t.vin ≠ [] ∧ ∀ i ∈ t.vin,
    (∃ u ∈ done, u.txid c = i.prevout.hash ∧ i.prevout.n.toNat < u.vout.length) ∧
      coins.get? i.prevout = none
  minted : ∀ t ∈ done, t.isCoinBase = true →
    ∃ h < n, ∃ i, t.vin = [i] ∧ ∃ rest, i.scriptSig = scriptPushHeight h ++ rest

theorem vout_length_lt {tx : CTransaction} (checked : checkTransaction tx = .ok ⟨⟩) :
    tx.vout.length < 2 ^ 32 := by
  obtain ⟨_, short⟩ := checkTransaction_inputs checked
  have count := tx.vout_length_le
  unfold WITNESS_SCALE_FACTOR MAX_BLOCK_WEIGHT at short
  omega

theorem isCoinBase_eq_of_prevouts {t u : CTransaction}
    (same : t.vin.map CTxIn.prevout = u.vin.map CTxIn.prevout) : t.isCoinBase = u.isCoinBase := by
  unfold CTransaction.isCoinBase
  generalize t.vin = ts at same ⊢
  generalize u.vin = us at same ⊢
  rcases ts with _ | ⟨a, _ | ⟨b, rest⟩⟩ <;> rcases us with _ | ⟨c, _ | ⟨d, rest'⟩⟩ <;> simp_all

section Coins

variable {c : Crypto} {n n' : Nat} {done : List CTransaction} {coins : OrdMap COutPoint Coin}
  {tx : CTransaction}

theorem CoinsOk.add (ok : CoinsOk c n done coins) (le : n ≤ n') (nHeight : Nat)
    (checked : checkTransaction tx = .ok ⟨⟩) (fresh : ∀ t ∈ done, t.txid c ≠ tx.txid c)
    (inputs : tx.isCoinBase = false → tx.vin ≠ [] ∧ ∀ i ∈ tx.vin, (coins.get? i.prevout).isSome)
    (height : tx.isCoinBase = true →
       ∃ h < n', ∃ i, tx.vin = [i] ∧ ∃ rest, i.scriptSig = scriptPushHeight h ++ rest) :
    CoinsOk c n' (done ++ [tx]) (updateCoins (tx.txid c) tx nHeight coins) where
  distinct := by
    rw [List.map_append, List.nodup_append]
    refine ⟨ok.distinct, List.nodup_singleton _, ?_⟩
    intro a old b new same
    obtain ⟨t, member, rfl⟩ := List.mem_map.mp old
    obtain rfl : b = tx.txid c := by simpa using new
    exact fresh t member same
  created o coin found := by
    rcases get?_updateCoins_cases found with ⟨index, member, rfl, _⟩ | ⟨old, _⟩
    · -- An index of an output fits into 32 bits.
      obtain ⟨_, below, out⟩ := List.mem_zipIdx member
      have small := vout_length_lt checked
      refine ⟨tx, by simp, rfl, ?_⟩
      rw [UInt32.toNat_ofNat_of_lt' (show index < 2 ^ 32 by omega), List.getElem?_eq_getElem (by omega)]
      simpa using out.symm
    · obtain ⟨t, member, same⟩ := ok.created o coin old
      exact ⟨t, by simp [member], same⟩
  spent t member plain := by
    rcases List.mem_append.mp member with old | new
    · obtain ⟨nonempty, inputs⟩ := ok.spent t old plain
      refine ⟨nonempty, fun i inside => ?_⟩
      obtain ⟨⟨u, earlier, named, output⟩, gone⟩ := inputs i inside
      refine ⟨⟨u, by simp [earlier], named, output⟩, ?_⟩
      rw [get?_updateCoins_of_ne (named ▸ fresh u earlier)]
      split_ifs
      · rfl
      · exact gone
    · obtain rfl : t = tx := by simpa using new
      obtain ⟨nonempty, present⟩ := inputs plain
      refine ⟨nonempty, fun i inside => ?_⟩
      obtain ⟨coin, found⟩ := Option.isSome_iff_exists.mp (present i inside)
      obtain ⟨u, earlier, named, output⟩ := ok.created _ coin found
      refine ⟨⟨u, by simp [earlier], named, (List.getElem?_eq_some_iff.mp output).1⟩, ?_⟩
      rw [get?_updateCoins_of_ne (named ▸ fresh u earlier), if_pos ⟨plain, List.mem_map_of_mem inside⟩]
  minted t member mint := by
    rcases List.mem_append.mp member with old | new
    · obtain ⟨h, below, rest⟩ := ok.minted t old mint
      exact ⟨h, below.trans_le le, rest⟩
    · obtain rfl : t = tx := by simpa using new
      exact height mint

theorem CoinsOk.fresh_of_inputs (ok : CoinsOk c n done coins) (plain : tx.isCoinBase = false)
    (nonempty : tx.vin ≠ []) (present : ∀ i ∈ tx.vin, (coins.get? i.prevout).isSome)
    (binds : ∀ t ∈ done, t.txid c = tx.txid c → t.vin.map CTxIn.unsigned = tx.vin.map CTxIn.unsigned) :
    ∀ t ∈ done, t.txid c ≠ tx.txid c := by
  -- The same id would mean the same inputs, which the earlier transaction has spent.
  intro t member same
  have prevouts : t.vin.map CTxIn.prevout = tx.vin.map CTxIn.prevout := by
    have unsigned := congrArg (List.map Prod.fst) (binds t member same)
    simpa [List.map_map, Function.comp_def, CTxIn.unsigned] using unsigned
  obtain ⟨_, spent⟩ := ok.spent t member ((isCoinBase_eq_of_prevouts prevouts).trans plain)
  obtain ⟨i, inside⟩ := List.exists_mem_of_ne_nil _ nonempty
  have shared : i.prevout ∈ t.vin.map CTxIn.prevout := prevouts ▸ List.mem_map_of_mem inside
  obtain ⟨j, inside', equal⟩ := List.mem_map.mp shared
  have gone := (spent j inside').2
  rw [equal] at gone
  simpa [gone] using present i inside

theorem CoinsOk.fresh_of_height (ok : CoinsOk c n done coins) (small : n < 2 ^ 31)
    (mint : tx.isCoinBase = true) {i : CTxIn} {rest : Bytes} (single : tx.vin = [i])
    (height : i.scriptSig = scriptPushHeight n ++ rest) (binds : ∀ t ∈ done, t.txid c = tx.txid c →
      t.vin.map CTxIn.unsigned = tx.vin.map CTxIn.unsigned) : ∀ t ∈ done, t.txid c ≠ tx.txid c := by
  -- The same id would mean the same script, which names one height only.
  intro t member same
  have inputs := binds t member same
  have prevouts : t.vin.map CTxIn.prevout = tx.vin.map CTxIn.prevout := by
    have unsigned := congrArg (List.map Prod.fst) inputs
    simpa [List.map_map, Function.comp_def, CTxIn.unsigned] using unsigned
  obtain ⟨h, below, j, single', rest', height'⟩ := ok.minted t member ((isCoinBase_eq_of_prevouts prevouts).trans mint)
  rw [single, single'] at inputs
  have scripts : j.scriptSig = i.scriptSig := by
    simp only [CTxIn.unsigned, List.map_cons, List.map_nil, List.cons.injEq, Prod.mk.injEq] at inputs
    exact inputs.1.2.1
  have heights := scriptPushHeight_inj (below.trans small) small
    (height'.symm.trans (scripts.trans height))
  omega

end Coins

theorem coinbaseHeight_input {block : CBlock} {n : Nat} {mint : CTransaction}
    {rest : List CTransaction} (vtx : block.vtx = mint :: rest) (coinbase : mint.isCoinBase = true)
    (height : coinbaseHeightOk block n = true) :
    ∃ i, mint.vin = [i] ∧ ∃ tail, i.scriptSig = scriptPushHeight n ++ tail := by
  obtain ⟨version, vin, vout, nLockTime⟩ := mint
  match vin with
  | [] => simp [CTransaction.isCoinBase] at coinbase
  | _ :: _ :: _ => simp [CTransaction.isCoinBase] at coinbase
  | [i] =>
    refine ⟨i, rfl, ?_⟩
    simp only [coinbaseHeightOk, vtx] at height
    rw [ List.isPrefixOf_iff_prefix] at height
    obtain ⟨tail, same⟩ := height
    exact ⟨tail, same.symm⟩

theorem CoinsOk.block {ctx : BlockContext} {db : ModelDb} {view assets : CCoinsView}
    {block : CBlock} {pass : CoinsPass} {undo : CBlockUndo} {done : List CTransaction}
    (ok : CoinsOk ctx.env.crypto ctx.nHeight done view.coins)
    (accepted : BlockAccepted ctx db view block pass assets undo) (small : ctx.nHeight < 2 ^ 31)
    (height : coinbaseHeightOk block ctx.nHeight = true)
    (injective : ∀ t ∈ done ++ block.vtx, ∀ u ∈ done ++ block.vtx,
       t.txid ctx.env.crypto = u.txid ctx.env.crypto →
       t.vin.map CTxIn.unsigned = u.vin.map CTxIn.unsigned) :
    CoinsOk ctx.env.crypto (ctx.nHeight + 1) (done ++ block.vtx) pass.coins := by
  obtain ⟨mint, rest, vtx, coinbase, plain, each⟩ := checkBlock_transactions accepted.checked
  obtain ⟨i, single, tail, named⟩ := coinbaseHeight_input vtx coinbase height
  have run := accepted.coins
  rw [vtx, List.foldlM_cons, bind_eq_ok] at run
  obtain ⟨first, minted, run⟩ := run
  obtain ⟨_, step⟩ := connectTx_accepted minted
  -- The coinbase names the next height, which no earlier one does.
  have start : CoinsOk ctx.env.crypto (ctx.nHeight + 1) (done ++ [mint]) first.coins := by
    rw [step.coins]
    refine ok.add (Nat.le_succ _) ctx.nHeight (each mint (by simp [vtx])) (ok.fresh_of_height small coinbase single named ?_)
      (fun no => absurd coinbase (by simp [no])) fun _ => ⟨_, Nat.lt_succ_self _, i, single, tail, named⟩
    exact fun t member => injective t (by simp [member]) mint (by simp [vtx])
  have final : CoinsOk ctx.env.crypto (ctx.nHeight + 1) (done ++ [mint] ++ rest) pass.coins := by
    refine foldlM_induction (P := fun d p =>
      CoinsOk ctx.env.crypto (ctx.nHeight + 1) (done ++ [mint] ++ d) p.coins) ?_ run (by simpa)
    intro before tx after p q split kept stepped
    have inside : tx ∈ rest := by simp [split]
    obtain ⟨found, step⟩ := connectTx_accepted stepped
    obtain ⟨_, checked, _⟩ := step.spend (plain tx inside)
    obtain ⟨nonempty, _⟩ := checkTransaction_inputs (each tx (by simp [vtx, inside]))
    have present : ∀ i ∈ tx.vin, (p.coins.get? i.prevout).isSome := by
      obtain ⟨_, _, checked⟩ := bind_eq_ok.mp checked
      obtain ⟨spent, inputs, _⟩ := demand_bind_eq_ok.mp checked
      exact fun i member => isSome_of_inputCoins inputs member
    rw [step.coins, ← List.append_assoc]
    refine kept.add le_rfl ctx.nHeight (each tx (by simp [vtx, inside]))
      (kept.fresh_of_inputs (plain tx inside) nonempty present ?_)
      (fun _ => ⟨nonempty, present⟩) fun mints => absurd (plain tx inside) (by simp [mints])
    intro t member
    refine injective t ?_ tx (by simp [vtx, inside])
    have : t ∈ done ∨ t = mint ∨ t ∈ before := by simpa [or_assoc] using member
    rcases this with old | rfl | earlier
    · simp [old]
    · simp [vtx]
    · simp [vtx, split, earlier]
  simpa [vtx] using final

def transactions (blocks : List CBlock) : List CTransaction := blocks.flatMap CBlock.vtx

/-- Assumed of a chain on a genesis block: heights fit an `int`, and its hashes have no accident. -/
structure ChainAssumptions (env : TipEnv) (genesis : CBlock) (blocks : List CBlock) : Prop where
  genesis_hash : genesis.getHash env.crypto = env.params.hashGenesisBlock
  heights : blocks.length < 2 ^ 31
  injective : ∀ t ∈ transactions blocks, ∀ u ∈ transactions blocks,
    t.txid env.crypto = u.txid env.crypto → serializeTransaction false t = serializeTransaction false u
  nonzero : ∀ t ∈ transactions blocks, t.txid env.crypto ≠ 0
  real : ∀ t ∈ transactions blocks, ∀ payload, parseModelDepositTx env.crypto env.params t = some payload →
      payload.model_hash ≠ CHALLENGE_BURN_SENTINEL
  default_real : hashSHA256 env.crypto env.params.DefaultModelName env.params.DefaultModelCommit ≠
    CHALLENGE_BURN_SENTINEL

section Chain

variable {env : TipEnv} {genesis block : CBlock} {blocks more : List CBlock} {st next : ChainState}

theorem ChainAssumptions.of_append (assume : ChainAssumptions env genesis (blocks ++ more)) :
    ChainAssumptions env genesis blocks := by
  have sub : ∀ t ∈ transactions blocks, t ∈ transactions (blocks ++ more) := by
    intro t member
    simp only [transactions, List.flatMap_append, List.mem_append]
    exact .inl member
  refine ⟨assume.genesis_hash, ?_, ?_, ?_, ?_, assume.default_real⟩
  · have := assume.heights
    simp only [List.length_append] at this
    omega
  · exact fun t member u member' => assume.injective t (sub t member) u (sub u member')
  · exact fun t member => assume.nonzero t (sub t member)
  · exact fun t member => assume.real t (sub t member)

theorem Chain.chain_eq (chain : Chain env (genesisState env genesis) blocks st) :
    st.chain = genesis :: blocks := by
  induction chain with
  | nil => rfl
  | snoc _ connects ih => rw [connects.parts.2.2, ih, List.cons_append]

theorem Connects.above_genesis (connects : Connects env st block next)
    (chain : Chain env (genesisState env genesis) blocks st)
    (genesis_hash : genesis.getHash env.crypto = env.params.hashGenesisBlock) :
    block.getHash env.crypto ≠ env.params.hashGenesisBlock := by
  have fresh := connects.fresh genesis (by simp [chain.chain_eq])
  exact genesis_hash ▸ fresh.symm

theorem Connects.accepted (connects : Connects env st block next)
    (chain : Chain env (genesisState env genesis) blocks st)
    (genesis_hash : genesis.getHash env.crypto = env.params.hashGenesisBlock) : ∃ pass assets undo,
      BlockAccepted (blockContext env st block) st.modelDb st.coinsTip block pass assets undo ∧
        next.coinsTip = { assets with bestBlock := block.getHash env.crypto } ∧
        next.undoData = st.undoData.insert (block.getHash env.crypto) undo := by
  obtain ⟨⟨undo, connected, written⟩, _⟩ := connects.parts
  obtain ⟨pass, assets, accepted, same⟩ := connectBlock_accepted (connects.above_genesis chain genesis_hash) connected
  exact ⟨pass, assets, undo, accepted, same, written⟩

theorem Connects.height (connects : Connects env st block next)
    (chain : Chain env (genesisState env genesis) blocks st) :
    coinbaseHeightOk block st.chain.length = true := by
  obtain ⟨_, contextual⟩ := connects.contextual
  have named := contextualCheckBlock_height contextual
    (env.params.bip34_first.trans (Nat.le_add_left _ _))
  have position : st.chain.length - 1 + 1 = st.chain.length := by simp [chain.chain_eq]
  simpa [prevIndex, position] using named

theorem Chain.checked (chain : Chain env (genesisState env genesis) blocks st)
    (genesis_hash : genesis.getHash env.crypto = env.params.hashGenesisBlock) :
    ∀ t ∈ transactions blocks, checkTransaction t = .ok ⟨⟩ := by
  induction chain with
  | nil => simp [transactions]
  | snoc earlier connects ih =>
    intro t member
    simp only [transactions, List.flatMap_append, List.mem_append] at member
    rcases member with old | new
    · exact ih t old
    · obtain ⟨pass, assets, undo, accepted, _⟩ := connects.accepted earlier genesis_hash
      obtain ⟨_, _, _, _, _, each⟩ := checkBlock_transactions accepted.checked
      exact each t (by simpa using new)

theorem ChainAssumptions.binds (assume : ChainAssumptions env genesis blocks)
    (checked : ∀ t ∈ transactions blocks, checkTransaction t = .ok ⟨⟩) :
    ∀ t ∈ transactions blocks, ∀ u ∈ transactions blocks, t.txid env.crypto = u.txid env.crypto →
        t.vin.map CTxIn.unsigned = u.vin.map CTxIn.unsigned := by
  have range : ∀ t ∈ transactions blocks, t.InputsInRange := by
    intro t member
    obtain ⟨_, short⟩ := checkTransaction_inputs (checked t member)
    refine .of_length ?_
    unfold WITNESS_SCALE_FACTOR MAX_BLOCK_WEIGHT at short
    unfold MAX_SIZE
    omega
  intro t member u member' same
  exact (serializeTransaction_binds_inputs (range t member) (range u member')
    (assume.injective t member u member' same)).2.1

theorem Chain.coinsOk (chain : Chain env (genesisState env genesis) blocks st)
    (assume : ChainAssumptions env genesis blocks) :
    CoinsOk env.crypto st.chain.length (transactions blocks) st.coinsTip.coins := by
  induction chain with
  | nil => constructor <;> simp [transactions, genesisState]
  | @snoc mid next blocks block earlier connects ih =>
    have before := ih assume.of_append
    obtain ⟨pass, assets, undo, accepted, view, _⟩ := connects.accepted earlier assume.genesis_hash
    have binds := assume.binds (Chain.checked (.snoc earlier connects) assume.genesis_hash)
    have small : mid.chain.length < 2 ^ 31 := by
      have := assume.heights
      simp only [List.length_append, List.length_singleton] at this
      rw [earlier.chain_eq, List.length_cons]
      omega
    -- The registry pass behind the coins leaves them alone.
    have coins : next.coinsTip.coins = pass.coins := by
      rw [view]
      exact (connectAssets_sameCoins accepted.registry).1
    have split : transactions (blocks ++ [block]) = transactions blocks ++ block.vtx := by
      simp [transactions]
    rw [split] at binds ⊢
    rw [coins, connects.parts.2.2, List.length_append]
    exact before.block accepted small (connects.height earlier) binds

/-- **A chain spends every output once.** The ids of its transactions differ, an unspent coin is the
output of one of them that its outpoint names, and what its transactions spend is an output of one
of them and is gone for good. -/
theorem chain_spends_once (chain : Chain env (genesisState env genesis) blocks st)
    (assume : ChainAssumptions env genesis blocks) :
    ((transactions blocks).map (CTransaction.txid env.crypto)).Nodup ∧
      (∀ o coin, st.coinsTip.coins.get? o = some coin → ∃ t ∈ transactions blocks,
        t.txid env.crypto = o.hash ∧ t.vout[o.n.toNat]? = some coin.out) ∧
      ∀ t ∈ transactions blocks, t.isCoinBase = false → ∀ i ∈ t.vin, st.coinsTip.coins.get? i.prevout = none ∧
        ∃ u ∈ transactions blocks, u.txid env.crypto = i.prevout.hash ∧ i.prevout.n.toNat < u.vout.length := by
  have ok := chain.coinsOk assume
  exact ⟨ok.distinct, ok.created, fun t member plain i inside => ((ok.spent t member plain).2 i inside).symm⟩

end Chain

end TensorCash
