import TensorCash.Lib.UndoLog
import TensorCash.Validation.ConnectBlock

/-! `Chainstate::DisconnectBlock` on the coins view. -/

namespace TensorCash

/-- The coins on the way back, and whether everything found was as expected. -/
structure UndoPass where
  coins : OrdMap COutPoint Coin
  fClean : Bool := true
deriving DecidableEq

def removeOutput (txid : Uint256) (tx : CTransaction) (nHeight : Nat) (pass : UndoPass)
    (entry : CTxOut × Nat) : UndoPass :=
  let (out, index) := entry
  if isUnspendable out.scriptPubKey then pass
  else
    let outpoint : COutPoint := ⟨txid, UInt32.ofNat index⟩
    { coins := pass.coins.erase outpoint
      fClean := pass.fClean && pass.coins.get? outpoint = some ⟨out, nHeight, tx.isCoinBase⟩ }

def accessByTxid (coins : OrdMap COutPoint Coin) (txid : Uint256) : Option Coin :=
  (coins.entries.find? fun p => p.1.hash = txid).map Prod.snd

/-- A spent coin comes back; its height may come from a sibling. -/
def applyTxInUndo (pass : UndoPass) (entry : COutPoint × Coin) : Option UndoPass :=
  let (out, undo) := entry
  let clean := pass.fClean && (pass.coins.get? out).isNone
  if undo.nHeight = 0 then
    (accessByTxid pass.coins out.hash).map fun alternate =>
      ⟨addCoin pass.coins out { undo with
        nHeight := alternate.nHeight, fCoinBase := alternate.fCoinBase }, clean⟩
  else some ⟨addCoin pass.coins out undo, clean⟩

def disconnectTx (c : Crypto) (nHeight : Nat) (pass : UndoPass)
    (entry : CTransaction × Option (List Coin)) : Option UndoPass :=
  let (tx, undo) := entry
  let pass := tx.vout.zipIdx.foldl (removeOutput (tx.txid c) tx nHeight) pass
  match undo with
  | none => some pass
  | some spent =>
    if spent.length ≠ tx.vin.length then none
    else ((tx.vin.map CTxIn.prevout).zip spent).reverse.foldlM applyTxInUndo pass

def revertReg (view : CCoinsView) (u : RegUndoEntry) : CCoinsView :=
  let tickers :=
    match view.policies.get? u.asset_id with
    | none => view.tickers
    | some cur =>
      if cur.ticker ≠ [] ∧ u.prev.all fun p => cur.ticker ≠ p.ticker then
        view.tickers.erase ⟨cur.ticker⟩
      else view.tickers
  { view with
    policies := view.policies.set u.asset_id u.prev
    tickers :=
      match u.prev with
      | some prev => if prev.ticker ≠ [] then tickers.insert ⟨prev.ticker⟩ u.asset_id else tickers
      | none => tickers }

def revertVk (view : CCoinsView) (u : VkUndoEntry) : CCoinsView :=
  { view with vks := view.vks.set u.vk_hash u.prev_payload }

def revertIcu (view : CCoinsView) (u : IcuUndoEntry) : CCoinsView :=
  { view with icus := view.icus.set u.key u.prev_payload }

def revertScalar (view : CCoinsView) (u : ScalarUndoEntry) : CCoinsView :=
  { view with
    scalars := view.scalars.erase u.key
    scalarHeads := view.scalarHeads.set u.key.feed u.prev_last_epoch }

def revertFee (view : CCoinsView) (f : FeeUndoEntry) : CCoinsView :=
  match view.policies.get? f.asset_id with
  | none => view
  | some e =>
    { view with
      policies := view.policies.insert f.asset_id
        { e with fees_accum_sats :=
            if f.delta ≤ e.fees_accum_sats then e.fees_accum_sats - f.delta else 0 } }

def revertAssets (undo : CBlockUndo) (view : CCoinsView) : CCoinsView :=
  let view := undo.reg_undo.reverse.foldl revertReg view
  let view := undo.vk_undo.reverse.foldl revertVk view
  let view := undo.icu_undo.reverse.foldl revertIcu view
  let view := undo.scalar_undo.reverse.foldl revertScalar view
  undo.fee_undo.foldl revertFee view

def AssetRegistryEntry.debit (delta : UInt64) (e : AssetRegistryEntry) : AssetRegistryEntry :=
  { e with fees_accum_sats := if delta ≤ e.fees_accum_sats then e.fees_accum_sats - delta else 0 }

theorem revertFee_get? (view : CCoinsView) (f : FeeUndoEntry) (id : Uint256) :
    (revertFee view f).policies.get? id = if id =
      f.asset_id then (view.policies.get? id).map (AssetRegistryEntry.debit f.delta) else
        view.policies.get? id := by
  unfold revertFee
  by_cases own : id = f.asset_id
  · rw [if_pos own, own]
    cases known : view.policies.get? f.asset_id with
    | none => exact known
    | some e => exact OrdMap.get?_insert_self _ _ _
  · rw [if_neg own]
    cases view.policies.get? f.asset_id with
    | none => rfl
    | some e => exact OrdMap.get?_insert_of_ne _ _ _ own

theorem revertFee_coins (view : CCoinsView) (f : FeeUndoEntry) : (revertFee view f).coins = view.coins := by
  unfold revertFee
  split <;> rfl

theorem revertAssets_coins (undo : CBlockUndo) (view : CCoinsView) :
    (revertAssets undo view).coins = view.coins := by
  unfold revertAssets
  dsimp only
  rw [UndoLog.foldl_observe revertFee CCoinsView.coins revertFee_coins,
    UndoLog.foldl_observe revertScalar CCoinsView.coins fun _ _ => rfl,
    UndoLog.foldl_observe revertIcu CCoinsView.coins fun _ _ => rfl,
    UndoLog.foldl_observe revertVk CCoinsView.coins fun _ _ => rfl,
    UndoLog.foldl_observe revertReg CCoinsView.coins fun _ _ => rfl]

theorem revertAssets_policies (undo : CBlockUndo) (view : CCoinsView) : ∃ mid : CCoinsView, mid.policies =
        UndoLog.revert RegUndoEntry.asset_id RegUndoEntry.prev undo.reg_undo view.policies ∧
      (revertAssets undo view).policies = (undo.fee_undo.foldl revertFee mid).policies := by
  refine ⟨_, ?_, rfl⟩
  rw [UndoLog.foldl_observe revertScalar CCoinsView.policies fun _ _ => rfl,
    UndoLog.foldl_observe revertIcu CCoinsView.policies fun _ _ => rfl,
    UndoLog.foldl_observe revertVk CCoinsView.policies fun _ _ => rfl]
  exact (List.foldl_hom CCoinsView.policies fun _ _ => rfl).symm

def disconnectBlock (c : Crypto) (nHeight : Nat) (block : CBlock) (undo : CBlockUndo)
    (view : CCoinsView) : Option (CCoinsView × Bool) :=
  if undo.vtxundo.length + 1 ≠ block.vtx.length then none
  else
    ((block.vtx.zip (none :: undo.vtxundo.map some)).reverse.foldlM (disconnectTx c nHeight)
      { coins := view.coins }).map fun pass =>
      ({ revertAssets undo { view with coins := pass.coins } with
          bestBlock := block.hashPrevBlock }, pass.fClean)

end TensorCash
