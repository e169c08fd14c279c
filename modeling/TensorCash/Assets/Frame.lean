import TensorCash.Assets.Connect

/-! What each step of the registry pass touches. -/

namespace TensorCash

open Checked

/-- Chunks and texts are collected beside the view. -/
def Collects (pass pass' : RegistryPass) : Prop :=
  ∃ vk_chunks icu_payloads icu_payload_metadata, pass' = { pass with vk_chunks, icu_payloads, icu_payload_metadata }

/-- Publications go to the feeds. -/
def FeedsOnly (pass pass' : RegistryPass) : Prop :=
  ∃ scalars scalarHeads scalar_undo, pass' = { pass with
    view := { pass.view with scalars, scalarHeads }, undo := { pass.undo with scalar_undo } }

/-- A verifying key comes out of its slot. -/
def InstallsVk (pass pass' : RegistryPass) : Prop :=
  ∃ vks vk_undo vk_chunks zk_vk_installs, pass' = { pass with
    view := { pass.view with vks }, undo := { pass.undo with vk_undo }, vk_chunks, zk_vk_installs }

/-- A text comes out of the collection. -/
def InstallsIcu (pass pass' : RegistryPass) : Prop :=
  ∃ icus icu_undo icu_payloads icu_payload_metadata, pass' = { pass with
    view := { pass.view with icus }, undo := { pass.undo with icu_undo }, icu_payloads, icu_payload_metadata }

/-- Entries are written, and the record of them. -/
def WritesEntry (pass pass' : RegistryPass) : Prop :=
  ∃ policies reg_undo, pass' = { pass with
    view := { pass.view with policies }, undo := { pass.undo with reg_undo } }

section Steps

variable {c : Crypto} {ctx : BlockContext} {env : ChainEnv} {tx : CTransaction} {coins : List Coin}
  {spent : List (Uint256 × Int)} {pass pass' : RegistryPass} {p : PendingIssuerReg}
  {reg : IssuerReg} {txs : List (CTransaction × List Coin)} {view view' : CCoinsView}
  {undo undo' : CBlockUndo}

theorem collectExtension_collects (out : CTxOut) :
    Ensures (Collects pass) (collectExtension c tx pass out) := by
  unfold collectExtension
  split
  · exact .seq fun _ => .seq fun _ => .seq fun _ => .seq fun _ => .ok ⟨_, _, _, rfl⟩
  · exact .seq fun _ => .seq fun _ => .ok ⟨_, _, _, rfl⟩
  · exact .seq fun _ => .seq fun _ => .seq fun _ => .seq fun _ => .ok ⟨_, _, _, rfl⟩
  · exact .ok ⟨_, _, _, rfl⟩

theorem collectExtensions_collects (vout : List CTxOut) :
    Ensures (Collects pass) (vout.foldlM (collectExtension c tx) pass) := by
  refine .foldlM ⟨_, _, _, rfl⟩ ?_
  rintro _ out ⟨_, _, _, rfl⟩ next stepped
  obtain ⟨_, _, _, rfl⟩ := collectExtension_collects out next stepped
  exact ⟨_, _, _, rfl⟩

theorem publishScalars_publishes (vout : List CTxOut) :
    Ensures (FeedsOnly pass) (publishScalars ctx spent pass vout) := by
  unfold publishScalars
  split_ifs
  · refine .foldlM ⟨_, _, _, rfl⟩ ?_
    rintro _ out ⟨_, _, _, rfl⟩
    unfold publishScalar
    split
    · exact .ok ⟨_, _, _, rfl⟩
    · dsimp only
      split
      · exact .error
      · exact .ok ⟨_, _, _, rfl⟩
  · exact .ok ⟨_, _, _, rfl⟩

theorem installRegVk_installs (reg : IssuerReg) : Ensures (InstallsVk pass) (installRegVk c pass reg) := by
  unfold installRegVk
  split_ifs
  · refine .seq fun _ => ?_
    dsimp only
    split
    · exact .ok ⟨_, _, _, _, rfl⟩
    · exact .seq fun _ => .seq fun _ => .ok ⟨_, _, _, _, rfl⟩
    · exact .error
    · exact .seq fun _ => .seq fun _ => .seq fun _ => .ok ⟨_, _, _, _, rfl⟩
  · exact .ok ⟨_, _, _, _, rfl⟩

theorem installRegIcu_installs (prev : Option AssetRegistryEntry) (reg : IssuerReg) :
    Ensures (InstallsIcu pass) (installRegIcu env pass prev reg) := by
  unfold installRegIcu
  split_ifs
  · exact .seq fun _ => .ok ⟨_, _, _, _, rfl⟩
  · exact .ok ⟨_, _, _, _, rfl⟩

theorem bindTicker_eq (prev : Option AssetRegistryEntry) (reg : IssuerReg) (view : CCoinsView) :
    ∃ tickers, bindTicker prev reg view = { view with tickers } := by
  unfold bindTicker
  split_ifs <;> exact ⟨_, rfl⟩

theorem settleSupply_writes (id : Uint256) : Ensures (WritesEntry pass) (settleSupply txs pass id) := by
  unfold settleSupply
  split
  · exact .ok ⟨_, _, rfl⟩
  · refine .seq fun _ => .ok ?_
    split_ifs <;> exact ⟨_, _, rfl⟩

theorem settleSupplies_writes (ids : List Uint256) :
    Ensures (WritesEntry pass) (ids.foldlM (settleSupply txs) pass) := by
  refine .foldlM ⟨_, _, rfl⟩ ?_
  rintro _ id ⟨_, _, rfl⟩ next stepped
  obtain ⟨_, _, rfl⟩ := settleSupply_writes id next stepped
  exact ⟨_, _, rfl⟩

def RegistryPass.noted (pass : RegistryPass) (reg : IssuerReg) : RegistryPass :=
  let prev := pass.view.policies.get? reg.asset_id
  { pass with
    undo := { pass.undo with reg_undo := pass.undo.reg_undo ++ [RegUndoEntry.mk reg.asset_id prev] }
    view := bindTicker prev reg pass.view }

theorem registerAsset_steps (registered : registerAsset ctx tx coins spent pass p = .ok pass') :
    ∃ ticker sponsored decimals keyed texted, checkRegTerms p.reg p.out.nValue = .ok ⟨⟩ ∧
      resolveTicker ctx.env.params pass.view spent p.reg.asset_id (pass.view.policies.get? p.reg.asset_id)
        p.reg.ticker = .ok (ticker, sponsored) ∧ ((pass.view.policies.get? p.reg.asset_id).isSome ∨
        (if sponsored then ctx.env.params.SponsoredChildMinIcuBond else ctx.env.params.AssetMinIcuBond) ≤ 0 ∨
        (if sponsored then ctx.env.params.SponsoredChildMinIcuBond else ctx.env.params.AssetMinIcuBond) ≤
          p.out.nValue.toInt) ∧ installRegVk ctx.env.crypto (pass.noted p.reg) p.reg = .ok keyed ∧
      installRegIcu ctx.env keyed (pass.view.policies.get? p.reg.asset_id) p.reg = .ok texted ∧
      checkRegHistory ctx tx coins (pass.view.policies.get? p.reg.asset_id) p.reg = .ok ⟨⟩ ∧
      pass' = { texted with view := { texted.view with
        policies := texted.view.policies.insert p.reg.asset_id
          (newEntry ctx tx p (pass.view.policies.get? p.reg.asset_id) ticker decimals) } } := by
  unfold registerAsset at registered
  obtain ⟨_, terms, registered⟩ := bind_eq_ok.mp registered
  obtain ⟨⟨ticker, sponsored⟩, resolved, registered⟩ := bind_eq_ok.mp registered
  obtain ⟨decimals, _, registered⟩ := bind_eq_ok.mp registered
  obtain ⟨_, bonded, registered⟩ := bind_eq_ok.mp registered
  obtain ⟨keyed, installs, registered⟩ := bind_eq_ok.mp registered
  obtain ⟨_, _, registered⟩ := bind_eq_ok.mp registered
  obtain ⟨texted, files, registered⟩ := bind_eq_ok.mp registered
  obtain ⟨_, history, registered⟩ := bind_eq_ok.mp registered
  exact ⟨ticker, sponsored, decimals, keyed, texted, terms, resolved, require_eq_ok.mp bonded, installs,
    files, history, (Except.ok.inj registered).symm⟩

theorem connectAssetTx_eq_ok (connected : connectAssetTx ctx pass (tx, coins) = .ok pass') : ∃ collected published,
      tx.vout.foldlM (collectExtension ctx.env.crypto tx) pass = .ok collected ∧
      tx.vout.forM (checkKeywrap ctx.env.crypto collected.view) = .ok ⟨⟩ ∧
      publishScalars ctx (icuSpent collected.view (tx.vin.zip coins)) collected tx.vout = .ok published ∧
      (sortedIds ((pendingRegs tx).map fun p => p.reg.asset_id)).forM
        (checkReregistration published.view tx) = .ok ⟨⟩ ∧
      ((icuSpent collected.view (tx.vin.zip coins)).insertionSort fun a b => a.1 ≤ b.1).forM
        (checkBond published.view (pendingRegs tx)) = .ok ⟨⟩ ∧
      ((sortedIds ((pendingRegs tx).map fun p => p.reg.asset_id)).filterMap fun id =>
        (pendingOf (pendingRegs tx) id).getLast?).foldlM
        (registerAsset ctx tx coins (icuSpent collected.view (tx.vin.zip coins))) published = .ok pass' := by
  unfold connectAssetTx at connected
  obtain ⟨collected, collects, connected⟩ := bind_eq_ok.mp connected
  obtain ⟨_, wrapped, connected⟩ := bind_eq_ok.mp connected
  obtain ⟨published, publishes, connected⟩ := bind_eq_ok.mp connected
  obtain ⟨_, renewed, connected⟩ := bind_eq_ok.mp connected
  obtain ⟨_, replaced, connected⟩ := bind_eq_ok.mp connected
  obtain ⟨_, _, connected⟩ := bind_eq_ok.mp connected
  exact ⟨collected, published, collects, wrapped, publishes, renewed, replaced, connected⟩

theorem connectAssets_eq_ok (connected : connectAssets ctx txs view undo = .ok (view', undo')) :
    ∃ done settled, txs.foldlM (connectAssetTx ctx) { view := creditFees undo.fee_undo view, undo } =
        .ok done ∧ (movedAssets txs).foldlM (settleSupply txs) done = .ok settled ∧
      settled.vk_chunks = ∅ ∧ settled.view = view' ∧ settled.undo = undo' := by
  obtain ⟨done, first, connected⟩ := bind_eq_ok.mp (mapError_eq_ok.mp connected)
  obtain ⟨settled, second, connected⟩ := bind_eq_ok.mp connected
  obtain ⟨_, empty, connected⟩ := bind_eq_ok.mp connected
  obtain ⟨same, same'⟩ := Prod.mk.inj (Except.ok.inj connected)
  exact ⟨done, settled, first, second, require_eq_ok.mp empty, same, same'⟩

structure SameCoins (pass pass' : RegistryPass) : Prop where
  coins : pass'.view.coins = pass.view.coins
  vtxundo : pass'.undo.vtxundo = pass.undo.vtxundo
  fee_undo : pass'.undo.fee_undo = pass.undo.fee_undo

theorem SameCoins.trans {a b c : RegistryPass} (first : SameCoins a b) (second : SameCoins b c) :
    SameCoins a c :=
  ⟨second.coins.trans first.coins, second.vtxundo.trans first.vtxundo, second.fee_undo.trans first.fee_undo⟩

theorem SameCoins.foldlM {α : Type} {step : RegistryPass → α → Except Failure RegistryPass}
    (each : ∀ pass item, Ensures (SameCoins pass) (step pass item)) (items : List α)
    (pass : RegistryPass) : Ensures (SameCoins pass) (items.foldlM step pass) :=
  .foldlM ⟨rfl, rfl, rfl⟩ fun s item kept t stepped => kept.trans (each s item t stepped)

theorem registerAsset_sameCoins (pass : RegistryPass) (p : PendingIssuerReg) :
    Ensures (SameCoins pass) (registerAsset ctx tx coins spent pass p) := by
  intro pass' registered
  obtain ⟨_, _, _, _, _, _, _, _, keyed, texted, _, rfl⟩ := registerAsset_steps registered
  obtain ⟨_, _, _, _, rfl⟩ := installRegVk_installs _ _ keyed
  obtain ⟨_, _, _, _, rfl⟩ := installRegIcu_installs _ _ _ texted
  obtain ⟨_, bound⟩ := bindTicker_eq (pass.view.policies.get? p.reg.asset_id) p.reg pass.view
  exact ⟨by simp only [RegistryPass.noted, bound], rfl, rfl⟩

theorem connectAssetTx_sameCoins (pass : RegistryPass) (entry : CTransaction × List Coin) :
    Ensures (SameCoins pass) (connectAssetTx ctx pass entry) := by
  intro pass' connected
  obtain ⟨_, _, collects, _, publishes, _, _, registered⟩ := connectAssetTx_eq_ok connected
  obtain ⟨_, _, _, rfl⟩ := collectExtensions_collects _ _ collects
  obtain ⟨_, _, _, rfl⟩ := publishScalars_publishes _ _ publishes
  obtain ⟨coins, vtxundo, fee_undo⟩ := SameCoins.foldlM registerAsset_sameCoins _ _ _ registered
  exact ⟨coins, vtxundo, fee_undo⟩

theorem connectAssets_sameCoins (connected : connectAssets ctx txs view undo = .ok (view', undo')) :
    view'.coins = view.coins ∧ undo'.vtxundo = undo.vtxundo ∧ undo'.fee_undo = undo.fee_undo := by
  obtain ⟨_, _, first, second, _, rfl, rfl⟩ := connectAssets_eq_ok connected
  obtain ⟨coins, vtxundo, fee_undo⟩ := SameCoins.foldlM connectAssetTx_sameCoins _ _ _ first
  obtain ⟨_, _, rfl⟩ := settleSupplies_writes _ _ second
  exact ⟨coins, vtxundo, fee_undo⟩

end Steps

end TensorCash
