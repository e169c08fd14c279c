import TensorCash.Lib.Apportion
import TensorCash.Validation.RegChain

/-! The fee of a transaction is handed out to the assets that it touches before registrations are
looked at. -/

namespace TensorCash

open Checked Apportion

def FeeUndoEntry.payment (f : FeeUndoEntry) : Uint256 × Nat := (f.asset_id, f.delta.toNat)

def shareOf (fees : List FeeUndoEntry) (id : Uint256) : Nat := paidTo (fees.map FeeUndoEntry.payment) id

def txFee (tx : CTransaction) (coins : List Coin) : Int :=
  (coins.map fun coin => coin.out.nValue.toInt).sum - getValueOut tx

/-- The shares that `ConnectBlock` writes down for a transaction. -/
def txShares (ctx : BlockContext) (t : CTransaction × List Coin) : List FeeUndoEntry :=
  if t.1.isCoinBase then []
  else feeShares ctx.env.crypto ctx.blockHash (t.1.txid ctx.env.crypto)
    (touchedAssets (t.2.map Coin.out) t.1.vout) (txFee t.1 t.2).toNat

theorem range_map_rotate {α : Type*} (items : List α) (off count : Nat) (fewer : count ≤ items.length)
    (d : α) : ((List.range count).map fun r => items.getD ((off + r) % items.length) d) =
      (items.rotate off).take count := by
  apply List.ext_getElem
  · rw [List.length_map, List.length_range, List.length_take, List.length_rotate]
    omega
  · intro r left right
    rw [List.length_map, List.length_range] at left
    have inside : (off + r) % items.length < items.length := Nat.mod_lt _ (by omega)
    rw [List.getElem_map, List.getElem_range, List.getElem_take, List.getElem_rotate,
      List.getD_eq_getElem?_getD, List.getElem?_eq_getElem inside, Option.getD_some]
    congr 2
    omega

theorem shareOf_feeShares (c : Crypto) (blockHash txid : Uint256) {touched : List Uint256}
    {fee : Nat} (some_one : touched ≠ []) (fits : fee < 2 ^ 64) :
    ∃ off, ∀ id,
      shareOf (feeShares c blockHash txid touched fee) id =
        paidTo (apportion touched off fee) id := by
  refine ⟨Codec.leNat ((c.sha256 (blockHash.bytes ++ txid.bytes)).bytes.take 8) % touched.length, ?_⟩
  intro id
  have fewer := (Nat.mod_lt fee (List.length_pos_of_ne_nil some_one)).le
  have quotient : (UInt64.ofNat (fee / touched.length)).toNat = fee / touched.length := by
    rw [UInt64.toNat_ofNat']
    exact Nat.mod_eq_of_lt (lt_of_le_of_lt (Nat.div_le_self _ _) fits)
  simp only [shareOf, feeShares, if_neg some_one, List.map_append, paidTo_append, apportion]
  congr 1
  · -- Equal parts of nothing are not written down.
    split_ifs with parts
    · simp [List.map_map, Function.comp_def, FeeUndoEntry.payment, quotient]
    · rw [Nat.eq_zero_of_not_pos parts, paidTo_nothing]
      rfl
  · rw [← range_map_rotate touched _ _ fewer 0]
    simp only [List.map_map, Function.comp_def, FeeUndoEntry.payment]
    rfl

variable {nSpendHeight : Nat} {coins : List Coin} {view : CCoinsView} {fee : Int}
  {ctx : BlockContext} {db : ModelDb}

theorem sumInputs_eq_ok {start total : Int}
    (summed : sumInputs nSpendHeight start coins = .ok total) :
    total = start + (coins.map fun coin => coin.out.nValue.toInt).sum := by
  induction coins generalizing start with
  | nil =>
    cases summed
    simp
  | cons coin rest ih =>
    simp only [sumInputs, require_bind_eq_ok] at summed
    rw [ih summed.2.2, List.map_cons, List.sum_cons]
    ring

theorem checkTxInputs_fee {env : ChainEnv} {tx : CTransaction}
    (accepted : checkTxInputs env view nSpendHeight tx = .ok (coins, fee)) :
    fee = txFee tx coins ∧ MoneyRange fee = true := by
  simp only [checkTxInputs, bind_eq_ok, require_eq_ok, demand_eq_ok] at accepted
  obtain ⟨_, _, found, _, total, summed, _, _, _, range, _, _, made⟩ := accepted
  cases made
  refine ⟨?_, range⟩
  rw [txFee, sumInputs_eq_ok summed, Int.zero_add]

theorem connectTxs_shares {pass pass' : CoinsPass}
    {vtx : List CTransaction} (connected : vtx.foldlM (connectTx ctx db view) pass = .ok pass') :
    pass'.fee_undo = pass.fee_undo ++ (blockSpends ctx.env.crypto ctx.nHeight pass.coins vtx).flatMap (txShares ctx) ∧
      ∀ t ∈ blockSpends ctx.env.crypto ctx.nHeight pass.coins vtx, t.1.isCoinBase = false →
        MoneyRange (txFee t.1 t.2) = true := by
  induction vtx generalizing pass with
  | nil =>
    cases connected
    simp [blockSpends]
  | cons tx rest ih =>
    rw [List.foldlM_cons] at connected
    obtain ⟨mid, stepped, connected⟩ := bind_eq_ok.mp connected
    obtain ⟨found, accepted⟩ := connectTx_accepted stepped
    obtain ⟨shares, range⟩ := ih connected
    -- The transaction's own shares come first, then those of the rest of the block.
    have own : mid.fee_undo = pass.fee_undo ++ txShares ctx (tx, found) ∧
        (tx.isCoinBase = false → MoneyRange (txFee tx found) = true) := by
      cases mint : tx.isCoinBase with
      | true =>
        rw [(accepted.mint mint).2]
        simp [txShares, mint]
      | false =>
        obtain ⟨fee, checked, written⟩ := accepted.spend mint
        obtain ⟨rfl, fine⟩ := checkTxInputs_fee checked
        exact ⟨by simpa [txShares, mint] using written, fun _ => fine⟩
    rw [accepted.coins] at shares range
    rw [blockSpends, ← accepted.found_eq]
    constructor
    · rw [shares, own.1, List.flatMap_cons, List.append_assoc]
    · intro t member plain
      rcases List.mem_cons.mp member with rfl | later
      · exact own.2 plain
      · exact range t later plain

theorem feeAdd_eq (fees : List FeeUndoEntry) (id : Uint256) :
    feeAdd fees id = UInt64.ofNat (shareOf fees id) := by
  induction fees with
  | nil => rfl
  | cons f fees ih =>
    have credit : feeAdd (f :: fees) id = (if f.asset_id = id then f.delta else 0) + feeAdd fees id := by
      unfold feeAdd
      by_cases is : f.asset_id = id <;> simp [is]
    have share : shareOf (f :: fees) id = (if f.asset_id = id then f.delta.toNat else 0) + shareOf fees id :=
      paidTo_cons f.payment (fees.map FeeUndoEntry.payment) id
    rw [credit, ih, share, UInt64.ofNat_add]
    congr 1
    split_ifs
    · exact (UInt64.ofNat_toNat).symm
    · rfl

theorem shareOf_flatMap (ctx : BlockContext) (txs : List (CTransaction × List Coin)) (id : Uint256) :
    shareOf (txs.flatMap (txShares ctx)) id = (txs.map fun t => shareOf (txShares ctx t) id).sum := by
  induction txs with
  | nil => rfl
  | cons t rest ih =>
    rw [List.flatMap_cons, List.map_cons, List.sum_cons, ← ih]
    simp only [shareOf, List.map_append, paidTo_append]

theorem connectBlock_collected {next : CCoinsView} {block : CBlock} {undo : CBlockUndo}
    {id : Uint256} {e : AssetRegistryEntry}
    (above : ctx.blockHash ≠ ctx.env.params.hashGenesisBlock)
    (connected : connectBlock ctx db view block = .ok (next, undo))
    (known : view.policies.get? id = some e) :
    ∃ e', next.policies.get? id = some e' ∧
      e'.fees_accum_sats = e.fees_accum_sats + feeAdd undo.fee_undo id := by
  have step := connectBlock_entry connected id
  rw [known] at step
  generalize after : next.policies.get? id = entry at step
  cases step with
  | genesis hash => exact absurd hash above
  | @block staged _ _ taken _ =>
    obtain ⟨now, rfl, kept⟩ : ∃ now, staged = some now ∧
        now.fees_accum_sats = e.fees_accum_sats + feeAdd undo.fee_undo id := by
      cases taken with
      | kept _ => exact ⟨_, rfl, rfl⟩
      | @registered tx coins p new _ _ _ accepted =>
        -- The new entry copies what the credited one has collected.
        obtain ⟨ticker, decimals, rfl⟩ := accepted.entry
        obtain ⟨_, _, _, _, _, _, _, _, entry⟩ := newEntry_eq ctx tx p
          (Option.map (AssetRegistryEntry.credit undo.fee_undo id) (some e)) ticker decimals
        refine ⟨_, rfl, ?_⟩
        rw [entry]
        rfl
    refine ⟨_, rfl, ?_⟩
    rw [← kept]
    unfold AssetRegistryEntry.settle
    split_ifs <;> rfl

/-- Shares add up to the fee, differ by at most one unit, and go to touched assets only. -/
structure FairShares (touched : List Uint256) (fee : Int) (shares : List FeeUndoEntry) : Prop where
  whole : ((touched.map (shareOf shares)).sum : Int) = fee
  even : ∀ a ∈ touched, ∀ b ∈ touched, shareOf shares a ≤ shareOf shares b + 1
  only : ∀ f ∈ shares, f.asset_id ∈ touched

theorem feeShares_fair (c : Crypto) (blockHash txid : Uint256) {spent vout : List CTxOut}
    (some_one : touchedAssets spent vout ≠ []) (range : MoneyRange fee = true) :
    FairShares (touchedAssets spent vout) fee
      (feeShares c blockHash txid (touchedAssets spent vout) fee.toNat) := by
  have bounds : 0 ≤ fee ∧ fee ≤ MAX_MONEY := by
    simpa only [MoneyRange, Bool.and_eq_true, decide_eq_true_eq] using range
  have supply : MAX_MONEY = 2100000000000000 := rfl
  obtain ⟨off, shares⟩ := shareOf_feeShares c blockHash txid some_one
    (show fee.toNat < 2 ^ 64 by omega)
  have distinct : (touchedAssets spent vout).Nodup := nodup_sortedIds _
  refine ⟨?_, ?_, ?_⟩
  · have all : (touchedAssets spent vout).map
        (shareOf (feeShares c blockHash txid (touchedAssets spent vout) fee.toNat)) = (touchedAssets spent vout).map
            (paidTo (apportion (touchedAssets spent vout) off fee.toNat)) := List.map_congr_left fun id _ => shares id
    rw [all, sum_apportion off fee.toNat some_one distinct]
    omega
  · intro a has_a b has_b
    have at_a := paidTo_apportion off fee.toNat distinct has_a
    have at_b := paidTo_apportion off fee.toNat distinct has_b
    rw [shares a, shares b]
    omega
  · intro f written
    simp only [feeShares, if_neg some_one, List.mem_append] at written
    rcases written with equal | unit
    · split_ifs at equal
      · obtain ⟨id, member, rfl⟩ := List.mem_map.mp equal
        exact member
      · cases equal
    · obtain ⟨r, _, rfl⟩ := List.mem_map.mp unit
      have pos := List.length_pos_of_ne_nil some_one
      simp only [List.getD_eq_getElem?_getD, List.getElem?_eq_getElem (Nat.mod_lt _ pos), Option.getD_some]
      exact List.getElem_mem _

/-- Every accepted block writes down the shares of its transactions in order; those of one that pays
a fee and touches assets are fair; and what a registered asset has collected grows by its shares,
whatever else the block does with it. -/
theorem feeShares_conserved {ctx : BlockContext} {db : ModelDb} {view next : CCoinsView} {block : CBlock}
    {undo : CBlockUndo} (above : ctx.blockHash ≠ ctx.env.params.hashGenesisBlock)
    (connected : connectBlock ctx db view block = .ok (next, undo)) : undo.fee_undo =
        (blockSpends ctx.env.crypto ctx.nHeight view.coins block.vtx).flatMap (txShares ctx) ∧
      (∀ t ∈ blockSpends ctx.env.crypto ctx.nHeight view.coins block.vtx, t.1.isCoinBase = false →
        0 < txFee t.1 t.2 → touchedAssets (t.2.map Coin.out) t.1.vout ≠ [] →
        FairShares (touchedAssets (t.2.map Coin.out) t.1.vout) (txFee t.1 t.2) (txShares ctx t)) ∧
      ∀ id e, view.policies.get? id = some e → ∃ e', next.policies.get? id = some e' ∧
        e'.fees_accum_sats = e.fees_accum_sats + UInt64.ofNat
          ((blockSpends ctx.env.crypto ctx.nHeight view.coins block.vtx).map fun t =>
            shareOf (txShares ctx t) id).sum ∧
        (e.fees_accum_sats.toNat + ((blockSpends ctx.env.crypto ctx.nHeight view.coins block.vtx).map
            fun t => shareOf (txShares ctx t) id).sum < 2 ^ 64 → e'.fees_accum_sats.toNat = e.fees_accum_sats.toNat +
            ((blockSpends ctx.env.crypto ctx.nHeight view.coins block.vtx).map fun t =>
              shareOf (txShares ctx t) id).sum) := by
  obtain ⟨pass, assets, accepted, rfl⟩ := connectBlock_accepted above connected
  obtain ⟨shares, range⟩ := connectTxs_shares accepted.coins
  have written : undo.fee_undo =
      (blockSpends ctx.env.crypto ctx.nHeight view.coins block.vtx).flatMap (txShares ctx) := by
    rw [(connectAssets_sameCoins accepted.registry).2.2]
    simpa using shares
  refine ⟨written, ?_, ?_⟩
  · intro t member plain _ some_one
    rw [txShares, plain]
    exact feeShares_fair _ _ _ some_one (range t member plain)
  · intro id e known
    obtain ⟨e', found, grown⟩ := connectBlock_collected above connected known
    rw [feeAdd_eq, written, shareOf_flatMap] at grown
    refine ⟨e', found, grown, ?_⟩
    intro fits
    rw [grown, UInt64.toNat_add, UInt64.toNat_ofNat', Nat.add_mod_mod, Nat.mod_eq_of_lt fits]

open RegChain in
/-- An asset sponsors a child, and the fee of 350000000 goes to both in equal shares: the parent
collects what the theorem says. -/
theorem feeShares_conserved_on_sponsoring : ∃ (registered sponsored : Node) (undo : CBlockUndo)
    (e e' : AssetRegistryEntry),
    undo.fee_undo = (registered.spends childRegistration).flatMap
        (txShares (contextAt env.toChainEnv registered.state.chain.length
          (registered.signed childRegistration))) ∧
      registered.state.coinsTip.policies.get? 7 = some e ∧ e.fees_accum_sats = 0 ∧
      sponsored.state.coinsTip.policies.get? 7 = some e' ∧ e'.fees_accum_sats = 175000000 ∧
      e'.fees_accum_sats = e.fees_accum_sats + UInt64.ofNat ((registered.spends childRegistration).map
        fun t => shareOf (txShares (contextAt env.toChainEnv registered.state.chain.length
          (registered.signed childRegistration)) t) 7).sum := by
  obtain ⟨base, _, _, ⟨registered, sponsored, day⟩, _⟩ := laterDays_exist
  obtain ⟨e, known, none_⟩ := Option.map_eq_some_iff.mp day.collects.1
  obtain ⟨above, undo, connected⟩ := day.sponsors.connected
  obtain ⟨written, _, grows⟩ := feeShares_conserved (by exact above) connected
  obtain ⟨e', found, grown, _⟩ := grows 7 e known
  obtain ⟨e'', found', some_⟩ := Option.map_eq_some_iff.mp day.collects.2
  obtain rfl := Option.mem_unique found found'
  exact ⟨registered, sponsored, undo, e, e', written, known, none_, found, some_, grown⟩

end TensorCash
