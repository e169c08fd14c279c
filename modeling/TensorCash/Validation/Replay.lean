import TensorCash.Validation.Reachable

/-! A part of the view that disconnecting restores is what the connected blocks have left. -/

namespace TensorCash

section Replay

variable {α : Type} {env : ChainEnv} {stack : List ConnectedBlock} {view view' : CCoinsView}
  {part : CCoinsView → α} {good : List ConnectedBlock → α → Prop}

/-- A part of the view that connecting keeps good and disconnecting leads back. -/
structure Restores (env : ChainEnv) (part : CCoinsView → α) (good : List ConnectedBlock → α → Prop) : Prop where
  genesis : ∀ bestBlock : Uint256, good [] (part { bestBlock })
  connect : ∀ (stack : List ConnectedBlock) (top : ConnectedBlock) (db : ModelDb)
      (before after : CCoinsView), Reachable env stack before →
    top.block.getHash env.crypto ≠ env.params.hashGenesisBlock →
    connectBlock (contextAt env (stack.length + 1) top.block) db before top.block = .ok (after, top.undo) →
    good stack (part before) → good (top :: stack) (part after)
  back : ∀ (stack : List ConnectedBlock) (top : ConnectedBlock) (db : ModelDb)
      (before after view : CCoinsView), top.block.getHash env.crypto ≠ env.params.hashGenesisBlock →
    connectBlock (contextAt env (stack.length + 1) top.block) db before top.block = .ok (after, top.undo) →
    good stack (part before) → part view = part after → part (revertAssets top.undo view) = part before
  coins : ∀ (view : CCoinsView) (coins : OrdMap COutPoint Coin) (bestBlock : Uint256),
    part { view with coins, bestBlock } = part view

def ReplaysAs (env : ChainEnv) (part : CCoinsView → α) : List ConnectedBlock → CCoinsView → Prop
  | [], view => ∃ bestBlock : Uint256, part view = part { bestBlock }
  | top :: stack, view => ∃ before after db, Reachable env stack before ∧ ReplaysAs env part stack before ∧
      top.block.getHash env.crypto ≠ env.params.hashGenesisBlock ∧
      connectBlock (contextAt env (stack.length + 1) top.block) db before top.block = .ok (after, top.undo) ∧
      part view = part after

theorem ReplaysAs.congr (replays : ReplaysAs env part stack view) (same : part view' = part view) :
    ReplaysAs env part stack view' := by
  cases stack with
  | nil =>
    obtain ⟨bestBlock, start⟩ := replays
    exact ⟨bestBlock, same.trans start⟩
  | cons top stack =>
    obtain ⟨before, after, db, reached, earlier, above, connected, left⟩ := replays
    exact ⟨before, after, db, reached, earlier, above, connected, same.trans left⟩

theorem ReplaysAs.invariant (restores : Restores env part good) (replays : ReplaysAs env part stack view) :
    good stack (part view) := by
  induction stack generalizing view with
  | nil =>
    obtain ⟨bestBlock, same⟩ := replays
    rw [same]
    exact restores.genesis bestBlock
  | cons top stack ih =>
    obtain ⟨before, after, db, reached, earlier, above, connected, same⟩ := replays
    rw [same]
    exact restores.connect stack top db before after reached above connected (ih earlier)

theorem Restores.part_disconnectBlock (restores : Restores env part good) {nHeight : Nat} {block : CBlock}
    {undo : CBlockUndo} {back : CCoinsView} {clean : Bool}
    (disconnected : disconnectBlock env.crypto nHeight block undo view = some (back, clean)) :
    ∃ other, part other = part view ∧ part back = part (revertAssets undo other) := by
  unfold disconnectBlock at disconnected
  split_ifs at disconnected
  obtain ⟨pass, _, made⟩ := Option.map_eq_some_iff.mp disconnected
  obtain ⟨rfl, _⟩ := Prod.mk.inj made
  exact ⟨{ view with coins := pass.coins }, restores.coins view pass.coins view.bestBlock,
    restores.coins (revertAssets undo { view with coins := pass.coins }) _ block.hashPrevBlock⟩

theorem Reachable.replaysAs (restores : Restores env part good) (reached : Reachable env stack view) :
    ReplaysAs env part stack view := by
  induction reached with
  | genesis bestBlock => exact ⟨bestBlock, rfl⟩
  | connect reached above connected ih => exact ⟨_, _, _, reached, ih, above, connected, rfl⟩
  | disconnect _ disconnected ih =>
    obtain ⟨before, after, db, _, earlier, above, connected, left⟩ := ih
    obtain ⟨other, same, back⟩ := restores.part_disconnectBlock disconnected
    exact earlier.congr (back.trans (restores.back _ _ db before after other above connected
      (earlier.invariant restores) (same.trans left)))

end Replay

end TensorCash
