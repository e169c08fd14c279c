import TensorCash.Assets.Run
import TensorCash.Validation.ConnectBlock

/-! What each block of an accepted chain makes of the entry of one asset. -/

namespace TensorCash

open Checked

def blockSpends (c : Crypto) (nHeight : Nat) :
    OrdMap COutPoint Coin → List CTransaction → List (CTransaction × List Coin)
  | _, [] => []
  | coins, tx :: rest =>
    (tx, if tx.isCoinBase then [] else (inputCoins coins tx).getD []) ::
      blockSpends c nHeight (updateCoins (tx.txid c) tx nHeight coins) rest

theorem pendingRegs_map_reg (tx : CTransaction) :
    (pendingRegs tx).map PendingIssuerReg.reg = regsOf tx.vout := by
  unfold pendingRegs regsOf
  rw [List.map_filterMap]
  simp only [Option.map_map, Function.comp_def, Option.map_id']
  -- Only the output itself is read, so the indices can be dropped.
  rw [show (fun x : CTxOut × Nat => parseIssuerReg x.1.vExt) =
      (fun o : CTxOut => parseIssuerReg o.vExt) ∘ Prod.fst from rfl]
  rw [← List.filterMap_map, List.zipIdx_map_fst]

section Spends

variable {ctx : BlockContext} {db : ModelDb} {view next assets : CCoinsView} {block : CBlock}
  {undo : CBlockUndo} {pass pass' : CoinsPass}

theorem blockSpends_map_fst (c : Crypto) (nHeight : Nat) (coins : OrdMap COutPoint Coin)
    (vtx : List CTransaction) : (blockSpends c nHeight coins vtx).map Prod.fst = vtx := by
  induction vtx generalizing coins with
  | nil => rfl
  | cons tx rest ih => rw [blockSpends, List.map_cons, ih]

theorem TxAccepted.found_eq {tx : CTransaction} {found : List Coin}
    (accepted : TxAccepted ctx db view pass tx found pass') :
    found = if tx.isCoinBase then [] else (inputCoins pass.coins tx).getD [] := by
  cases mint : tx.isCoinBase with
  | true => exact (accepted.mint mint).1
  | false =>
    obtain ⟨fee, checked, _⟩ := accepted.spend mint
    simp [(checkTxInputs_eq_ok checked).1]

theorem connectTxs_spends {vtx : List CTransaction}
    (connected : vtx.foldlM (connectTx ctx db view) pass = .ok pass') :
    pass'.spent = pass.spent ++ blockSpends ctx.env.crypto ctx.nHeight pass.coins vtx := by
  induction vtx generalizing pass with
  | nil =>
    cases connected
    simp [blockSpends]
  | cons tx rest ih =>
    rw [List.foldlM_cons] at connected
    obtain ⟨mid, stepped, connected⟩ := bind_eq_ok.mp connected
    obtain ⟨found, accepted⟩ := connectTx_accepted stepped
    rw [ih connected, accepted.spent, accepted.coins, blockSpends, ← accepted.found_eq]
    simp

theorem BlockAccepted.spent_eq (accepted : BlockAccepted ctx db view block pass assets undo) :
    pass.spent = blockSpends ctx.env.crypto ctx.nHeight view.coins block.vtx := by
  simpa using connectTxs_spends accepted.coins

theorem BlockAccepted.limit (accepted : BlockAccepted ctx db view block pass assets undo) :
    (registeredIds (blockSpends ctx.env.crypto ctx.nHeight view.coins block.vtx)).Nodup := by
  have limit := require_eq_ok.mp accepted.rotations
  have same : registeredIds (blockSpends ctx.env.crypto ctx.nHeight view.coins block.vtx) =
      (block.vtx.flatMap fun tx => regsOf tx.vout).map IssuerReg.asset_id := by
    have vtx := blockSpends_map_fst ctx.env.crypto ctx.nHeight view.coins block.vtx
    generalize blockSpends ctx.env.crypto ctx.nHeight view.coins block.vtx = txs at vtx
    rw [← vtx, List.flatMap_map, List.map_flatMap]
    unfold registeredIds
    simp only [← pendingRegs_map_reg, List.map_map, Function.comp_def]
  rwa [same]

end Spends

def blockRegs (block : CBlock) : List IssuerReg := block.vtx.flatMap fun tx => regsOf tx.vout

variable {block : CBlock} {ctx : BlockContext} {db : ModelDb} {view next : CCoinsView}
  {undo : CBlockUndo}

theorem mem_blockRegs {reg : IssuerReg} (c : Crypto) (nHeight : Nat) (coins : OrdMap COutPoint Coin) :
    reg ∈ blockRegs block ↔ ∃ tx found p, (tx, found) ∈ blockSpends c nHeight coins block.vtx ∧
      p ∈ pendingRegs tx ∧ p.reg = reg := by
  unfold blockRegs
  rw [List.mem_flatMap]
  have names := blockSpends_map_fst c nHeight coins block.vtx
  constructor
  · rintro ⟨tx, member, inside⟩
    rw [← names, List.mem_map] at member
    obtain ⟨⟨tx, found⟩, member, rfl⟩ := member
    rw [← pendingRegs_map_reg, List.mem_map] at inside
    obtain ⟨p, listed, same⟩ := inside
    exact ⟨tx, found, p, member, listed, same⟩
  · rintro ⟨tx, found, p, member, listed, rfl⟩
    refine ⟨tx, ?_, ?_⟩
    · rw [← names]
      exact List.mem_map_of_mem (f := Prod.fst) member
    · rw [← pendingRegs_map_reg]
      exact List.mem_map_of_mem listed

inductive EntryStep (ctx : BlockContext) (coins : OrdMap COutPoint Coin) (block : CBlock)
    (fees : List FeeUndoEntry) (id : Uint256) (before : Option AssetRegistryEntry) :
    Option AssetRegistryEntry → Prop where
  -- The genesis block is taken without a look at its transactions.
  | genesis (hash : ctx.blockHash = ctx.env.params.hashGenesisBlock) : EntryStep ctx coins block fees id before before
  | block {staged : Option AssetRegistryEntry}
      (above : ctx.blockHash ≠ ctx.env.params.hashGenesisBlock)
      (limit : (registeredIds (blockSpends ctx.env.crypto ctx.nHeight coins block.vtx)).Nodup)
      (taken : Staged ctx (blockSpends ctx.env.crypto ctx.nHeight coins block.vtx) id
        (before.map (AssetRegistryEntry.credit fees id)) staged)
      (cap : ∀ e, staged = some e →
        CapKept (supplyDelta (blockSpends ctx.env.crypto ctx.nHeight coins block.vtx) id) e) :
      EntryStep ctx coins block fees id before (staged.map (AssetRegistryEntry.settle
        (supplyDelta (blockSpends ctx.env.crypto ctx.nHeight coins block.vtx) id)))

theorem connectBlock_entry
    (connected : connectBlock ctx db view block = .ok (next, undo)) (id : Uint256) :
    EntryStep ctx view.coins block undo.fee_undo id (view.policies.get? id) (next.policies.get? id) := by
  by_cases above : ctx.blockHash = ctx.env.params.hashGenesisBlock
  · simp only [connectBlock, bind_eq_ok, if_pos above] at connected
    obtain ⟨_, _, _, _, _, _, done⟩ := connected
    cases done
    exact .genesis above
  · obtain ⟨pass, assets, accepted, rfl⟩ := connectBlock_accepted above connected
    have registry := accepted.registry
    have fees := (connectAssets_sameCoins registry).2.2
    rw [accepted.spent_eq] at registry
    obtain ⟨staged, taken, cap, lookup⟩ := connectAssets_entry accepted.limit registry id
    have result : (({ assets with bestBlock := ctx.blockHash } : CCoinsView)).policies.get? id =
      staged.map (AssetRegistryEntry.settle
        (supplyDelta (blockSpends ctx.env.crypto ctx.nHeight view.coins block.vtx) id)) := lookup
    rw [result, fees]
    exact .block above accepted.limit taken cap

theorem connectBlock_registers
    {tx : CTransaction} {coins : List Coin}
    {p : PendingIssuerReg} (above : ctx.blockHash ≠ ctx.env.params.hashGenesisBlock)
    (connected : connectBlock ctx db view block = .ok (next, undo))
    (member : (tx, coins) ∈ blockSpends ctx.env.crypto ctx.nHeight view.coins block.vtx)
    (listed : p ∈ pendingRegs tx) : ∃ new, RegistersAs ctx tx coins p ((view.policies.get? p.reg.asset_id).map
        (AssetRegistryEntry.credit undo.fee_undo p.reg.asset_id)) new ∧
      next.policies.get? p.reg.asset_id = some (new.settle (supplyDelta
        (blockSpends ctx.env.crypto ctx.nHeight view.coins block.vtx) p.reg.asset_id)) := by
  have step := connectBlock_entry connected p.reg.asset_id
  generalize after : next.policies.get? p.reg.asset_id = entry at step
  cases step with
  | genesis hash => exact absurd hash above
  | block _ limit taken cap =>
    obtain ⟨new, accepted, rfl⟩ := taken.of_registration limit member listed rfl
    exact ⟨new, accepted, rfl⟩

def contextAt (env : ChainEnv) (nHeight : Nat) (block : CBlock) : BlockContext where
  env
  nHeight
  nTime := block.nTime
  blockHash := block.getHash env.crypto

structure ChainStep where
  view : CCoinsView
  block : CBlock

/-- Blocks above genesis that `ConnectBlock` accepts one after the other. -/
inductive ConnectChain (env : ChainEnv) (base : Nat) (start : CCoinsView) : List ChainStep → CCoinsView → Prop where
  | nil : ConnectChain env base start [] start
  | snoc {steps : List ChainStep} {view next : CCoinsView} {block : CBlock} {db : ModelDb}
      {undo : CBlockUndo} (earlier : ConnectChain env base start steps view)
      (above : block.getHash env.crypto ≠ env.params.hashGenesisBlock)
      (connected : connectBlock (contextAt env (base + steps.length) block) db view block =
        .ok (next, undo)) : ConnectChain env base start (steps ++ [⟨view, block⟩]) next

section Chain

variable {env : ChainEnv} {base : Nat} {start view : CCoinsView} {steps : List ChainStep}

theorem ConnectChain.last_connected {front : List ChainStep} {last : ChainStep}
    (chain : ConnectChain env base start (front ++ [last]) view) :
    ∃ db undo, ConnectChain env base start front last.view ∧
      last.block.getHash env.crypto ≠ env.params.hashGenesisBlock ∧
      connectBlock (contextAt env (base + front.length) last.block) db last.view last.block =
        .ok (view, undo) := by
  generalize whole : front ++ [last] = all at chain
  cases chain with
  | nil => simp at whole
  | snoc earlier above connected =>
    obtain ⟨rfl, same⟩ := List.append_inj' whole rfl
    obtain rfl := (List.cons.inj same).1
    exact ⟨_, _, earlier, above, connected⟩

theorem ConnectChain.prefix_of_eq (chain : ConnectChain env base start steps view)
    {before after : List ChainStep} {s : ChainStep} (split : steps = before ++ s :: after) :
    ConnectChain env base start before s.view := by
  induction chain generalizing after with
  | nil => simp at split
  | snoc earlier above connected ih =>
    -- The step is the last one, or it belongs to the chain before.
    rcases List.eq_nil_or_concat after with rfl | ⟨init, last, rfl⟩
    · obtain ⟨rfl, same⟩ := List.append_inj' split rfl
      obtain rfl := List.cons.inj same |>.1
      exact earlier
    · rw [List.concat_eq_append, ← List.cons_append, ← List.append_assoc] at split
      obtain ⟨rfl, _⟩ := List.append_inj' split rfl
      exact ih rfl

end Chain

end TensorCash
