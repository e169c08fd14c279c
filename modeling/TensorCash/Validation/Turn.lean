import TensorCash.Validation.AssetChain

/-! A block takes its registrations one at a time, each on the pass at its turn. -/

namespace TensorCash

open Checked

def lastRegs (tx : CTransaction) : List PendingIssuerReg :=
  (sortedIds ((pendingRegs tx).map fun p => p.reg.asset_id)).filterMap fun id =>
    (pendingOf (pendingRegs tx) id).getLast?

structure Turn (ctx : BlockContext) (txs : List (CTransaction × List Coin)) (tx : CTransaction)
    (coins : List Coin) (p : PendingIssuerReg) (start final : RegistryPass) where
  earlier : List (CTransaction × List Coin)
  later : List (CTransaction × List Coin)
  front : List PendingIssuerReg
  rest : List PendingIssuerReg
  opened : RegistryPass
  collected : RegistryPass
  published : RegistryPass
  turn : RegistryPass
  taken : RegistryPass
  closed : RegistryPass
  split : txs = earlier ++ (tx, coins) :: later
  listed : lastRegs tx = front ++ p :: rest
  opens : earlier.foldlM (connectAssetTx ctx) start = .ok opened
  collects : tx.vout.foldlM (collectExtension ctx.env.crypto tx) opened = .ok collected
  publishes : publishScalars ctx (icuSpent collected.view (tx.vin.zip coins)) collected tx.vout = .ok published
  before : front.foldlM (registerAsset ctx tx coins (icuSpent collected.view (tx.vin.zip coins)))
    published = .ok turn
  registers : registerAsset ctx tx coins (icuSpent collected.view (tx.vin.zip coins)) turn p = .ok taken
  behind : rest.foldlM (registerAsset ctx tx coins (icuSpent collected.view (tx.vin.zip coins)))
    taken = .ok closed
  ends : later.foldlM (connectAssetTx ctx) closed = .ok final

section Turns

variable {ctx : BlockContext} {txs : List (CTransaction × List Coin)} {tx : CTransaction}
  {coins : List Coin} {p : PendingIssuerReg} {start final pass pass' : RegistryPass}

theorem connectAssetTx_steps (connected : connectAssetTx ctx pass (tx, coins) = .ok pass') :
    ∃ collected published, tx.vout.foldlM (collectExtension ctx.env.crypto tx) pass = .ok collected ∧
      publishScalars ctx (icuSpent collected.view (tx.vin.zip coins)) collected tx.vout = .ok published ∧
      (lastRegs tx).foldlM (registerAsset ctx tx coins (icuSpent collected.view (tx.vin.zip coins)))
        published = .ok pass' := by
  obtain ⟨collected, published, collects, _, publishes, _, _, connected⟩ := connectAssetTx_eq_ok connected
  exact ⟨collected, published, collects, publishes, connected⟩

theorem lastRegs_subset (counts : p ∈ lastRegs tx) : p ∈ pendingRegs tx := by
  obtain ⟨id, _, last⟩ := List.mem_filterMap.mp counts
  exact (asset_id_of_getLast? last).1

theorem mem_lastRegs (distinct : ((pendingRegs tx).map fun p => p.reg.asset_id).Nodup)
    (listed : p ∈ pendingRegs tx) : p ∈ lastRegs tx := by
  refine List.mem_filterMap.mpr ⟨p.reg.asset_id, mem_sortedIds.mpr (List.mem_map_of_mem listed), ?_⟩
  obtain ⟨q, last⟩ : ∃ q, (pendingOf (pendingRegs tx) p.reg.asset_id).getLast? = some q :=
    Option.isSome_iff_exists.mp (List.getLast?_isSome.mpr
      (List.ne_nil_of_mem (mem_pendingOf.mpr ⟨listed, rfl⟩)))
  obtain ⟨inside, named⟩ := asset_id_of_getLast? last
  rw [last, List.inj_on_of_nodup_map distinct inside listed named]

theorem exists_turn (limit : (registeredIds txs).Nodup) (member : (tx, coins) ∈ txs)
    (listed : p ∈ pendingRegs tx) (connected : txs.foldlM (connectAssetTx ctx) start = .ok final) :
    Nonempty (Turn ctx txs tx coins p start final) := by
  have counts := mem_lastRegs ((List.nodup_flatMap.mp limit).1 _ member) listed
  obtain ⟨earlier, later, rfl⟩ := List.append_of_mem member
  obtain ⟨front, rest, split⟩ := List.append_of_mem counts
  obtain ⟨opened, closed, opens, stepped, ends⟩ := foldlM_split connected
  obtain ⟨collected, published, collects, publishes, registered⟩ := connectAssetTx_steps stepped
  rw [split] at registered
  obtain ⟨turn, taken, before, registers, behind⟩ := foldlM_split registered
  exact ⟨⟨earlier, later, front, rest, opened, collected, published, turn, taken, closed, rfl, split,
    opens, collects, publishes, before, registers, behind, ends⟩⟩

theorem Turn.mine (t : Turn ctx txs tx coins p start final) : p ∈ pendingRegs tx := by
  exact lastRegs_subset (by simp [t.listed])

theorem Turn.absent (t : Turn ctx txs tx coins p start final) (limit : (registeredIds txs).Nodup) :
    p.reg.asset_id ∉ registeredIds t.earlier := by
  rw [t.split, registeredIds_append, List.nodup_append] at limit
  intro before
  exact limit.2.2 _ before _ (List.mem_flatMap.mpr ⟨_, List.mem_cons_self, List.mem_map_of_mem t.mine⟩) rfl

theorem Turn.front_nodup (t : Turn ctx txs tx coins p start final) :
    (t.front.map fun p => p.reg.asset_id).Nodup ∧ ∀ q ∈ t.front, q.reg.asset_id ≠ p.reg.asset_id := by
  have order : ((t.front ++ p :: t.rest).map fun p => p.reg.asset_id).Nodup :=
    t.listed ▸ nodup_lastRegs (pendingRegs tx)
      (nodup_sortedIds ((pendingRegs tx).map fun p => p.reg.asset_id))
  rw [List.map_append, List.nodup_append] at order
  exact ⟨order.1, fun q early => order.2.2 _ (List.mem_map_of_mem early) _ (by simp)⟩

theorem Turn.entry (t : Turn ctx txs tx coins p start final) (limit : (registeredIds txs).Nodup) :
    t.turn.view.policies.get? p.reg.asset_id = start.view.policies.get? p.reg.asset_id := by
  have parts := limit
  rw [t.split, registeredIds_append, List.nodup_append] at parts
  have opened := (connectAssetTxs_staged parts.1 t.opens p.reg.asset_id).eq_of_silent (t.absent limit)
  have published := (collected_same t.collects t.publishes).2.1.policies
  obtain ⟨distinct, others⟩ := t.front_nodup
  have front := (registerAssets_eq_ok distinct t.before).1 p.reg.asset_id fun early => by
    obtain ⟨q, member, same⟩ := List.mem_map.mp early
    exact others q member same
  rw [front, published, opened]

theorem registerAsset_key {spent : List (Uint256 × Int)}
    (registered : registerAsset ctx tx coins spent pass p = .ok pass') (kyc : p.reg.kyc_flags ≠ 0) :
    p.reg.zk_vk_commitment ≠ 0 := by
  obtain ⟨_, _, _, _, _, _, _, _, keyed, _⟩ := registerAsset_steps registered
  unfold installRegVk at keyed
  rw [if_pos kyc] at keyed
  exact (require_bind_eq_ok.mp keyed).1

end Turns

theorem connectBlock_turn {ctx : BlockContext} {db : ModelDb} {view next : CCoinsView}
    {block : CBlock} {undo : CBlockUndo} {tx : CTransaction} {coins : List Coin}
    {p : PendingIssuerReg} (above : ctx.blockHash ≠ ctx.env.params.hashGenesisBlock)
    (connected : connectBlock ctx db view block = .ok (next, undo))
    (member : (tx, coins) ∈ blockSpends ctx.env.crypto ctx.nHeight view.coins block.vtx)
    (listed : p ∈ pendingRegs tx) : ∃ start final settled, Nonempty (Turn ctx
        (blockSpends ctx.env.crypto ctx.nHeight view.coins block.vtx) tx coins p start final) ∧
      (movedAssets (blockSpends ctx.env.crypto ctx.nHeight view.coins block.vtx)).foldlM
        (settleSupply (blockSpends ctx.env.crypto ctx.nHeight view.coins block.vtx)) final = .ok settled ∧
      start.view.policies = (creditFees undo.fee_undo view).policies ∧
      start.view.tickers = view.tickers ∧ start.icu_payloads = ∅ ∧
      next.tickers = settled.view.tickers ∧ next.icus = settled.view.icus := by
  obtain ⟨pass, assets, accepted, rfl⟩ := connectBlock_accepted above connected
  have registry := accepted.registry
  have fees := (connectAssets_sameCoins registry).2.2
  rw [accepted.spent_eq] at registry
  obtain ⟨final, settled, connects, settles, _, rfl, rfl⟩ := connectAssets_eq_ok registry
  refine ⟨_, final, settled, exists_turn accepted.limit member listed connects, settles, ?_, rfl, rfl, rfl, rfl⟩
  rw [fees]
  rfl

end TensorCash
