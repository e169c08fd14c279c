import TensorCash.Assets.Undo
import TensorCash.Validation.Credential
import TensorCash.Validation.RegChain

/-! Blocks are connected and disconnected in any order that fits, and the credentials stay in
order. -/

namespace TensorCash

open Checked

section Disconnect

variable {c : Crypto} {nHeight : Nat} {coins : OrdMap COutPoint Coin} {tx : CTransaction}
  {pass pass' : UndoPass} {o : COutPoint} {coin : Coin}

theorem get?_removeOutputs {txid : Uint256} {outs : List (CTxOut × Nat)}
    (found : (outs.foldl (removeOutput txid tx nHeight) pass).coins.get? o = some coin) :
    pass.coins.get? o = some coin ∧ ∀ out index, (out, index) ∈ outs →
      isUnspendable out.scriptPubKey = false → o ≠ ⟨txid, UInt32.ofNat index⟩ := by
  induction outs generalizing pass with
  | nil => exact ⟨found, by simp⟩
  | cons first rest ih =>
    obtain ⟨there, others⟩ := ih found
    unfold removeOutput at there
    dsimp only at there
    split_ifs at there with burned
    · refine ⟨there, fun out index member spendable => ?_⟩
      rcases List.mem_cons.mp member with rfl | later
      · simp [spendable] at burned
      · exact others out index later spendable
    · rw [OrdMap.get?_erase] at there
      split_ifs at there with own
      refine ⟨there, fun out index member spendable => ?_⟩
      rcases List.mem_cons.mp member with rfl | later
      · exact own
      · exact others out index later spendable

theorem get?_applyTxInUndos {entries : List (COutPoint × Coin)}
    (restored : entries.foldlM applyTxInUndo pass = some pass') (found : pass'.coins.get? o = some coin) :
    pass.coins.get? o = some coin ∨ ∃ old, (o, old) ∈ entries ∧ old.out = coin.out := by
  induction entries generalizing pass with
  | nil =>
    cases restored
    exact .inl found
  | cons first rest ih =>
    obtain ⟨out, undo⟩ := first
    rw [List.foldlM_cons, Option.bind_eq_bind, Option.bind_eq_some_iff] at restored
    obtain ⟨mid, stepped, restored⟩ := restored
    -- Whatever its height turns out to be, the coin has the recorded output.
    obtain ⟨back, same, filed⟩ : ∃ back : Coin, back.out = undo.out ∧ mid.coins = addCoin pass.coins out back := by
      unfold applyTxInUndo at stepped
      dsimp only at stepped
      split_ifs at stepped
      · obtain ⟨alternate, _, made⟩ := Option.map_eq_some_iff.mp stepped
        exact ⟨{ undo with nHeight := alternate.nHeight, fCoinBase := alternate.fCoinBase }, rfl, by rw [← made]⟩
      · exact ⟨undo, rfl, by rw [← Option.some.inj stepped]⟩
    rcases ih restored with before | ⟨old, member, equal⟩
    · rw [filed] at before
      unfold addCoin at before
      split_ifs at before
      · exact .inl before
      · rw [OrdMap.get?_insert] at before
        split_ifs at before with own
        · cases before
          exact .inr ⟨undo, by simp [own], same.symm⟩
        · exact .inl before
    · exact .inr ⟨old, List.mem_cons_of_mem _ member, equal⟩

theorem OutputsAmong.disconnectTx {undo : Option (List Coin)}
    (among : OutputsAmong (updateCoins (tx.txid c) tx nHeight coins) pass.coins)
    (recorded : ∀ spent, undo = some spent → ∀ i coin, (i, coin) ∈ tx.vin.zip spent →
      coins.get? i.prevout = some coin) (disconnected : disconnectTx c nHeight pass (tx, undo) = some pass') :
    OutputsAmong coins pass'.coins := by
  intro o coin found
  -- What is left once the outputs are gone.
  have rest : ∀ coin, (tx.vout.zipIdx.foldl (removeOutput (tx.txid c) tx nHeight) pass).coins.get? o =
      some coin → ∃ old, coins.get? o = some old ∧ old.out = coin.out := by
    intro coin left
    obtain ⟨there, others⟩ := get?_removeOutputs left
    obtain ⟨old, kept, same⟩ := among o coin there
    rcases get?_updateCoins_cases kept with ⟨index, member, place, spendable⟩ | ⟨before, _⟩
    · exact absurd place (others _ _ member spendable)
    · exact ⟨old, before, same⟩
  unfold TensorCash.disconnectTx at disconnected
  cases undo with
  | none =>
    cases disconnected
    exact rest coin found
  | some spent =>
    dsimp only at disconnected
    split_ifs at disconnected
    rcases get?_applyTxInUndos disconnected found with left | ⟨old, member, same⟩
    · exact rest coin left
    · rw [List.mem_reverse, List.zip_map_left, List.mem_map] at member
      obtain ⟨⟨i, old'⟩, inside, pair⟩ := member
      obtain ⟨rfl, rfl⟩ := Prod.mk.inj pair
      exact ⟨old', recorded spent rfl i old' inside, same⟩

theorem get?_of_mem_blockSpends {coins : OrdMap COutPoint Coin} {i : CTxIn} (inside : (i, coin) ∈ tx.vin.zip
      (if tx.isCoinBase then [] else (inputCoins coins tx).getD [])) : coins.get? i.prevout = some coin := by
  split_ifs at inside
  · simp at inside
  · cases inputs : inputCoins coins tx with
    | none => simp [inputs] at inside
    | some found =>
      rw [inputs, Option.getD_some] at inside
      exact get?_of_mem_zip_inputCoins inputs inside

theorem OutputsAmong.disconnectTxs {vtx : List CTransaction}
    (among : OutputsAmong (vtx.foldl (fun coins tx => updateCoins (tx.txid c) tx nHeight coins) coins)
      pass.coins) (disconnected : (((blockSpends c nHeight coins vtx).map fun t => (t.1, some t.2)).reverse.foldlM
      (TensorCash.disconnectTx c nHeight) pass) = some pass') : OutputsAmong coins pass'.coins := by
  induction vtx generalizing coins pass' with
  | nil =>
    cases disconnected
    exact among
  | cons tx rest ih =>
    rw [blockSpends, List.map_cons, List.reverse_cons, List.foldlM_append, Option.bind_eq_bind,
      Option.bind_eq_some_iff] at disconnected
    obtain ⟨mid, later, disconnected⟩ := disconnected
    rw [List.foldlM_cons, Option.bind_eq_bind, Option.bind_eq_some_iff] at disconnected
    obtain ⟨last, stepped, done⟩ := disconnected
    cases done
    refine OutputsAmong.disconnectTx (ih among later) ?_ stepped
    intro spent same i coin inside
    cases same
    exact get?_of_mem_blockSpends inside

theorem revertFees_sameCredentials (fees : List FeeUndoEntry) (view : CCoinsView) :
    SameCredentials view.policies (fees.foldl revertFee view).policies := by
  induction fees generalizing view with
  | nil => exact fun _ => rfl
  | cons f rest ih =>
    intro id
    rw [List.foldl_cons, ih (revertFee view f) id, revertFee_get?]
    split_ifs
    · rw [Option.map_map]
      rfl
    · rfl

end Disconnect

section Back

variable {ctx : BlockContext} {db : ModelDb} {before after view back : CCoinsView} {block : CBlock}
  {undo : CBlockUndo} {clean : Bool} {p : CoinsPass} {assets : CCoinsView}

theorem connectTxs_coins {vtx : List CTransaction} {p' : CoinsPass}
    (connected : vtx.foldlM (connectTx ctx db view) p = .ok p') : p'.coins = vtx.foldl
      (fun coins tx => updateCoins (tx.txid ctx.env.crypto) tx ctx.nHeight coins) p.coins := by
  induction vtx generalizing p with
  | nil =>
    cases connected
    rfl
  | cons tx rest ih =>
    rw [List.foldlM_cons] at connected
    obtain ⟨mid, stepped, connected⟩ := bind_eq_ok.mp connected
    obtain ⟨_, accepted⟩ := connectTx_accepted stepped
    rw [ih connected, accepted.coins, List.foldl_cons]

theorem BlockAccepted.undo_pairs
    (accepted : BlockAccepted ctx db before block p assets undo) : ∃ mint rest, block.vtx = mint :: rest ∧
      block.vtx.zip (none :: undo.vtxundo.map some) = (mint, none) :: (blockSpends ctx.env.crypto ctx.nHeight
          (updateCoins (mint.txid ctx.env.crypto) mint ctx.nHeight before.coins) rest).map
            fun t => (t.1, some t.2) := by
  obtain ⟨mint, rest, vtx, _⟩ := checkBlock_transactions accepted.checked
  refine ⟨mint, rest, vtx, ?_⟩
  have vtxundo := (connectAssets_sameCoins accepted.registry).2.1
  rw [accepted.spent_eq, vtx, blockSpends, List.tail_cons] at vtxundo
  rw [vtxundo, vtx, List.zip_cons_cons, List.map_map]
  -- The transactions are listed beside their own coins.
  generalize spends : blockSpends ctx.env.crypto ctx.nHeight
    (updateCoins (mint.txid ctx.env.crypto) mint ctx.nHeight before.coins) rest = txs
  have names : rest = txs.map Prod.fst := by rw [← spends, blockSpends_map_fst]
  rw [names, List.zip_map']
  rfl

theorem BlockAccepted.credentials_back
    (accepted : BlockAccepted ctx db before block p assets undo)
    (among : OutputsAmong assets.coins view.coins) (same : SameCredentials assets.policies view.policies)
    (disconnected : disconnectBlock ctx.env.crypto ctx.nHeight block undo view = some (back, clean)) :
    OutputsAmong before.coins back.coins ∧ SameCredentials before.policies back.policies := by
  unfold disconnectBlock at disconnected
  split_ifs at disconnected
  obtain ⟨pass, run, made⟩ := Option.map_eq_some_iff.mp disconnected
  obtain ⟨rfl, _⟩ := Prod.mk.inj made
  refine ⟨?_, ?_⟩
  · show OutputsAmong before.coins (revertAssets undo { view with coins := pass.coins }).coins
    rw [revertAssets_coins]
    obtain ⟨mint, rest, vtx, pairs⟩ := accepted.undo_pairs
    rw [pairs, List.reverse_cons, List.foldlM_append, Option.bind_eq_bind, Option.bind_eq_some_iff] at run
    obtain ⟨mid, later, run⟩ := run
    rw [List.foldlM_cons, Option.bind_eq_bind, Option.bind_eq_some_iff] at run
    obtain ⟨last, stepped, done⟩ := run
    cases done
    have coins : assets.coins = _ :=
      (connectAssets_sameCoins accepted.registry).1.trans (connectTxs_coins accepted.coins)
    rw [coins, vtx] at among
    exact OutputsAmong.disconnectTx (OutputsAmong.disconnectTxs among later) (by simp) stepped
  · intro id
    obtain ⟨mid, logged, fees⟩ := revertAssets_policies undo { view with coins := pass.coins }
    show ((revertAssets undo { view with coins := pass.coins }).policies.get? id).map _ = _
    rw [fees, revertFees_sameCredentials undo.fee_undo mid id, logged]
    have logs := connectAssets_regLogs rfl accepted.registry
    have credited := creditFees_sameCredentials p.fee_undo { before with coins := p.coins } id
    -- An entry comes back from its record, or the block has never written it.
    rcases logs.revert_cases view.policies id with restored | ⟨left, unwritten⟩
    · rw [restored]
      exact credited
    · rw [left, same id, unwritten]
      exact credited

end Back

structure ConnectedBlock where
  block : CBlock
  undo : CBlockUndo

/-- The states above genesis that `ConnectBlock` and `DisconnectBlock` lead to, latest block
first. -/
inductive Reachable (env : ChainEnv) : List ConnectedBlock → CCoinsView → Prop where
  | genesis (bestBlock : Uint256) : Reachable env [] { bestBlock }
  | connect {stack : List ConnectedBlock} {view next : CCoinsView} {block : CBlock} {db : ModelDb}
      {undo : CBlockUndo} (reached : Reachable env stack view)
      (above : block.getHash env.crypto ≠ env.params.hashGenesisBlock)
      (connected : connectBlock (contextAt env (stack.length + 1) block) db view block = .ok (next, undo)) :
      Reachable env (⟨block, undo⟩ :: stack) next
  | disconnect {stack : List ConnectedBlock} {top : ConnectedBlock} {view back : CCoinsView}
      {clean : Bool} (reached : Reachable env (top :: stack) view)
      (disconnected : disconnectBlock env.crypto (stack.length + 1) top.block top.undo view =
        some (back, clean)) : Reachable env stack back

def Follows (env : ChainEnv) : List ConnectedBlock → CCoinsView → Prop
  | [], view => OutputsAmong ∅ view.coins ∧ SameCredentials ∅ view.policies
  | top :: stack, view => ∃ before after db, Follows env stack before ∧
      top.block.getHash env.crypto ≠ env.params.hashGenesisBlock ∧
      connectBlock (contextAt env (stack.length + 1) top.block) db before top.block = .ok (after, top.undo) ∧
      OutputsAmong after.coins view.coins ∧ SameCredentials after.policies view.policies

section Reachable

variable {env : ChainEnv} {stack : List ConnectedBlock} {view view' : CCoinsView}

theorem OutputsAmong.trans {a b c : OrdMap COutPoint Coin} (first : OutputsAmong a b)
    (second : OutputsAmong b c) : OutputsAmong a c := by
  intro o coin found
  obtain ⟨mid, there, same⟩ := second o coin found
  obtain ⟨old, before, equal⟩ := first o mid there
  exact ⟨old, before, equal.trans same⟩

theorem Follows.of_same (follows : Follows env stack view) (among : OutputsAmong view.coins view'.coins)
    (same : SameCredentials view.policies view'.policies) : Follows env stack view' := by
  cases stack with
  | nil => exact ⟨follows.1.trans among, fun id => (same id).trans (follows.2 id)⟩
  | cons top stack =>
    obtain ⟨before, after, db, earlier, above, connected, coins, pointers⟩ := follows
    exact ⟨before, after, db, earlier, above, connected, coins.trans among, fun id => (same id).trans (pointers id)⟩

theorem Follows.credentials (follows : Follows env stack view) : CredentialsOk view.coins view.policies := by
  induction stack generalizing view with
  | nil =>
    -- Without a block there is no coin.
    have none : ∀ o, view.coins.get? o = none := by
      intro o
      cases found : view.coins.get? o with
      | none => rfl
      | some coin =>
        obtain ⟨old, there, _⟩ := follows.1 o coin found
        simp at there
    exact ⟨fun o coin _ found => by simp [none o] at found, fun o coin found => by simp [none o] at found⟩
  | cons top stack ih =>
    obtain ⟨before, after, db, earlier, _, connected, coins, pointers⟩ := follows
    exact ((ih earlier).connect connected).of_same coins pointers

theorem Reachable.follows (reached : Reachable env stack view) : Follows env stack view := by
  induction reached with
  | genesis => exact ⟨.refl _, fun _ => rfl⟩
  | connect _ above connected ih => exact ⟨_, _, _, ih, above, connected, .refl _, fun _ => rfl⟩
  | disconnect _ disconnected ih =>
    -- The block goes, and the view before it is what is left, up to coins and fees.
    obtain ⟨before, after, db, earlier, above, connected, coins, pointers⟩ := ih
    obtain ⟨pass, assets, accepted, rfl⟩ := connectBlock_accepted above connected
    obtain ⟨among, same⟩ := accepted.credentials_back coins pointers disconnected
    exact earlier.of_same among same

/-- In every reachable state an asset has at most one unspent registration, it is registered, and
the registry points there. Hence any registration that a further block spends is the current
credential. -/
theorem credential_unique_and_tracked (reached : Reachable env stack view) :
    (∀ o o' coin coin' reg reg', view.coins.get? o = some coin → view.coins.get? o' = some coin' →
      parseIssuerReg coin.out.vExt = some reg → parseIssuerReg coin'.out.vExt = some reg' →
        reg.asset_id = reg'.asset_id → o = o') ∧
    (∀ o coin reg, view.coins.get? o = some coin → parseIssuerReg coin.out.vExt = some reg →
      ∃ e, view.policies.get? reg.asset_id = some e ∧ e.icu_outpoint = o) ∧
    ∀ block db next undo, block.getHash env.crypto ≠ env.params.hashGenesisBlock →
      connectBlock (contextAt env (stack.length + 1) block) db view block = .ok (next, undo) →
      ∀ tx found i coin reg, (tx, found) ∈ blockSpends env.crypto (stack.length + 1) view.coins block.vtx →
        (i, coin) ∈ tx.vin.zip found → parseIssuerReg coin.out.vExt = some reg →
          ∃ e, view.policies.get? reg.asset_id = some e ∧ e.icu_outpoint = i.prevout := by
  have ok := reached.follows.credentials
  refine ⟨fun o o' coin coin' reg reg' found found' parsed parsed' same => ?_, ok.filed,
    fun block db next undo above connected tx found i coin reg member inside parsed => ?_⟩
  · obtain ⟨e, known, current⟩ := ok.filed o coin reg found parsed
    obtain ⟨e', known', current'⟩ := ok.filed o' coin' reg' found' parsed'
    rw [same, known'] at known
    cases known
    exact current.symm.trans current'
  · obtain ⟨pass, assets, accepted, _⟩ := connectBlock_accepted above connected
    obtain ⟨cur, p, known, current, _⟩ := ((accepted.credentials ok).2 tx found i coin reg member inside parsed).spends
    -- The block's fees do not move the pointer.
    rw [creditFees_get?, Option.map_eq_some_iff] at known
    obtain ⟨e, known, rfl⟩ := known
    exact ⟨e, known, current⟩

theorem ConnectChain.reachable {bestBlock : Uint256} {steps : List ChainStep}
    (chain : ConnectChain env 1 { bestBlock } steps view) :
    ∃ stack, stack.length = steps.length ∧ Reachable env stack view := by
  induction chain with
  | nil => exact ⟨[], rfl, .genesis bestBlock⟩
  | @snoc steps view next block db undo _ above connected ih =>
    obtain ⟨stack, length, reached⟩ := ih
    rw [Nat.add_comm, ← length] at connected
    exact ⟨⟨block, undo⟩ :: stack, by simp [length], .connect reached above connected⟩

end Reachable

open RegChain in
/-- After a renewal and a vote the registry points at the one credential of the asset. -/
theorem credential_tracked_after_vote :
    ∃ (voted : Node) (stack : List ConnectedBlock) (e : AssetRegistryEntry),
      Reachable env.toChainEnv stack voted.state.coinsTip ∧
      voted.state.coinsTip.policies.get? 7 = some e ∧
      ∀ o coin reg, voted.state.coinsTip.coins.get? o = some coin →
        parseIssuerReg coin.out.vExt = some reg → reg.asset_id = 7 → o = e.icu_outpoint := by
  obtain ⟨base, registered, ⟨renewed, voted, day⟩, _⟩ := assetDays_exist
  obtain ⟨steps, _, _, chain⟩ := day.chain
  obtain ⟨stack, _, reached⟩ := chain.reachable
  obtain ⟨e, known, _⟩ := Node.holds_eq_true day.voted_terms
  refine ⟨voted, stack, e, reached, known, fun o coin reg present parsed own => ?_⟩
  obtain ⟨e', known', current⟩ := (credential_unique_and_tracked reached).2.1 o coin reg present parsed
  rw [own, known] at known'
  rw [Option.some.inj known', current]

end TensorCash
