import TensorCash.Validation.IssuerBond
import TensorCash.Validation.Tickers
import TensorCash.Validation.RegChain
import TensorCash.Validation.Turn

/-! A ticker `ROOT.SUFFIX` is bound in a transaction that spends the credential of `ROOT`, and takes
a smaller bond. -/

namespace TensorCash

open Checked

def Grows (tickers tickers' : OrdMap TickerKey Uint256) : Prop :=
  ∀ key id, tickers.get? key = some id → tickers'.get? key = some id

theorem Grows.of_eq {tickers tickers' : OrdMap TickerKey Uint256} (same : tickers' = tickers) :
    Grows tickers tickers' := by
  subst same
  exact fun _ _ found => found

theorem Grows.trans {a b c : OrdMap TickerKey Uint256} (first : Grows a b) (second : Grows b c) :
    Grows a c := fun key id found => second key id (first key id found)

section Registration

variable {ctx : BlockContext} {tx : CTransaction} {coins : List Coin} {spent : List (Uint256 × Int)}
  {pass pass' opened : RegistryPass} {p : PendingIssuerReg} {id : Uint256} {params : Params}
  {view : CCoinsView} {prev : Option AssetRegistryEntry} {ticker resolved : Bytes}
  {sponsored : Bool}

/-- A child's root can sponsor it, is bound, and is spent with the full bond. -/
structure Sponsored (params : Params) (view : CCoinsView) (spent : List (Uint256 × Int))
    (child : ChildTicker) : Prop where
  free : isReservedTicker child.root = false
  parent : ∃ parent bond, view.tickers.get? ⟨child.root⟩ = some parent ∧
    spentBond spent parent = some bond ∧ params.AssetMinIcuBond ≤ bond

theorem resolveTicker_sponsored
    (accepted : resolveTicker params view spent id prev ticker = .ok (resolved, sponsored))
    (unnamed : (prev.map AssetRegistryEntry.ticker).getD [] = []) :
    (sponsored = true → ticker ≠ [] ∧ (parseChildTicker ticker).isSome) ∧
      (ticker ≠ [] → ∀ child, parseChildTicker ticker = some child → Sponsored params view spent child) := by
  unfold resolveTicker at accepted
  dsimp only at accepted
  rw [if_neg (not_not.mpr unnamed)] at accepted
  split_ifs at accepted with empty
  · obtain ⟨_, rfl⟩ := Prod.mk.inj (Except.ok.inj accepted)
    exact ⟨by rintro ⟨⟩, fun set => absurd empty set⟩
  · split at accepted
    · next child parsed =>
      obtain ⟨reserved, accepted⟩ := require_bind_eq_ok.mp accepted
      obtain ⟨parent, bound, accepted⟩ := demand_bind_eq_ok.mp accepted
      obtain ⟨bond, posted, accepted⟩ := demand_bind_eq_ok.mp accepted
      obtain ⟨enough, _⟩ := require_bind_eq_ok.mp accepted
      refine ⟨fun _ => ⟨empty, by rw [parsed]; rfl⟩, fun _ other same => ?_⟩
      obtain rfl := Option.mem_unique parsed same
      exact ⟨by simpa using reserved, parent, bond, bound, posted, enough⟩
    · next none =>
      obtain ⟨_, accepted⟩ := require_bind_eq_ok.mp accepted
      obtain ⟨flag, no, accepted⟩ := bind_eq_ok.mp accepted
      cases no
      obtain ⟨_, accepted⟩ := require_bind_eq_ok.mp accepted
      obtain ⟨_, rfl⟩ := Prod.mk.inj (Except.ok.inj accepted)
      refine ⟨by rintro ⟨⟩, fun _ child parsed => ?_⟩
      exact absurd (none.symm.trans parsed) (by simp)

def minBond (params : Params) (sponsored : Bool) : Int :=
  if sponsored then params.SponsoredChildMinIcuBond else params.AssetMinIcuBond

theorem registerAsset_ticker (registered : registerAsset ctx tx coins spent pass p = .ok pass') :
    ∃ ticker sponsored, resolveTicker ctx.env.params pass.view spent p.reg.asset_id
        (pass.view.policies.get? p.reg.asset_id) p.reg.ticker = .ok (ticker, sponsored) ∧
      ((pass.view.policies.get? p.reg.asset_id).isSome ∨ minBond ctx.env.params sponsored ≤ 0 ∨
        minBond ctx.env.params sponsored ≤ p.out.nValue.toInt) ∧ pass'.view.tickers =
        (bindTicker (pass.view.policies.get? p.reg.asset_id) p.reg pass.view).tickers := by
  obtain ⟨ticker, sponsored, _, _, _, _, resolved, bonded, keyed, texted, _, rfl⟩ := registerAsset_steps registered
  obtain ⟨_, _, _, _, rfl⟩ := installRegVk_installs _ _ keyed
  obtain ⟨_, _, _, _, rfl⟩ := installRegIcu_installs _ _ _ texted
  exact ⟨ticker, sponsored, resolved, bonded, rfl⟩

theorem registerAsset_grows (registered : registerAsset ctx tx coins spent pass p = .ok pass') :
    Grows pass.view.tickers pass'.view.tickers := by
  obtain ⟨ticker, names⟩ := registerAsset_names registered
  rw [names.tickers]
  split_ifs with new
  · intro key bound found
    rw [OrdMap.get?_insert]
    split_ifs with own
    · subst own
      rw [names.free new.1 new.2 bound found]
    · exact found
  · exact fun _ _ found => found

/-- A transaction binds a first ticker, and spends another asset's credential with its full bond. -/
structure Sponsors (params : Params) (view : CCoinsView) (tx : CTransaction) (coins : List Coin)
    (ticker : Bytes) (id parent : Uint256) : Prop where
  registers : ∃ p ∈ pendingRegs tx, p.reg.asset_id = id ∧ p.reg.ticker = ticker
  unbound : view.tickers.get? ⟨ticker⟩ = none
  credential : ∃ i coin reg cur, (i, coin) ∈ tx.vin.zip coins ∧
    parseIssuerReg coin.out.vExt = some reg ∧ reg.asset_id = parent ∧
    view.policies.get? parent = some cur ∧ cur.icu_outpoint = i.prevout ∧ params.AssetMinIcuBond ≤ coin.out.nValue.toInt

/-- Every child ticker has an unreserved root in the index, and was bound under some evidence. -/
def ChildrenKept (evidence : Bytes → Uint256 → Uint256 → Prop) (tickers : OrdMap TickerKey Uint256) : Prop :=
  ∀ ticker child id, parseChildTicker ticker = some child → tickers.get? ⟨ticker⟩ = some id →
    isReservedTicker child.root = false ∧ ∃ parent, tickers.get? ⟨child.root⟩ = some parent ∧ evidence ticker id parent

variable {evidence : Bytes → Uint256 → Uint256 → Prop} {names : Names}

theorem ChildrenKept.mono {more : Bytes → Uint256 → Uint256 → Prop}
    {tickers : OrdMap TickerKey Uint256} (kept : ChildrenKept evidence tickers)
    (implies : ∀ ticker id parent, evidence ticker id parent → more ticker id parent) :
    ChildrenKept more tickers := by
  intro ticker child id parsed bound
  obtain ⟨free, parent, root, because⟩ := kept ticker child id parsed bound
  exact ⟨free, parent, root, implies ticker id parent because⟩

theorem spentBond_eq_some {inputs : List (CTxIn × Coin)} {parent : Uint256} {bond : Int}
    (found : spentBond (icuSpent view inputs) parent = some bond) :
    ∃ i coin reg cur, (i, coin) ∈ inputs ∧ parseIssuerReg coin.out.vExt = some reg ∧
      reg.asset_id = parent ∧ view.policies.get? parent = some cur ∧
      cur.icu_outpoint = i.prevout ∧ bond = coin.out.nValue.toInt := by
  obtain ⟨⟨id, value⟩, first, rfl⟩ := Option.map_eq_some_iff.mp found
  have named := List.find?_some first
  simp only [decide_eq_true_eq] at named
  subst named
  obtain ⟨⟨i, coin⟩, member, made⟩ := List.mem_filterMap.mp (List.mem_of_find?_eq_some first)
  obtain ⟨reg, parsed, made⟩ := Option.bind_eq_some_iff.mp made
  split_ifs at made with current
  cases made
  obtain ⟨cur, known, same⟩ := (Option.any_eq_true _ _).mp current
  exact ⟨i, coin, reg, cur, member, parsed, rfl, known, of_decide_eq_true same, rfl⟩

structure TxKept (names : Names) (evidence : Bytes → Uint256 → Uint256 → Prop) (opened pass : RegistryPass) : Prop where
  named : NamesKept names pass
  grows : Grows opened.view.tickers pass.view.tickers
  children : ChildrenKept evidence pass.view.tickers

theorem TxKept.register
    (kept : TxKept names evidence opened pass)
    (entries : spent = icuSpent opened.view (tx.vin.zip coins)) (listed : p ∈ pendingRegs tx)
    (makes : ∀ ticker id parent, Sponsors ctx.env.params opened.view tx coins ticker id parent →
      evidence ticker id parent) (registered : registerAsset ctx tx coins spent pass p = .ok pass') :
    TxKept names evidence opened pass' := by
  have grows := registerAsset_grows registered
  refine ⟨kept.named.register registered, kept.grows.trans grows, fun ticker child id parsed bound => ?_⟩
  obtain ⟨resolved, sponsored, accepted, _, tickers⟩ := registerAsset_ticker registered
  -- A binding that was there keeps its root and its evidence.
  have old : pass.view.tickers.get? ⟨ticker⟩ = some id → isReservedTicker child.root = false ∧
      ∃ parent, pass'.view.tickers.get? ⟨child.root⟩ = some parent ∧ evidence ticker id parent := by
    intro before
    obtain ⟨free, parent, root, because⟩ := kept.children ticker child id parsed before
    exact ⟨free, parent, grows _ _ root, because⟩
  unfold bindTicker at tickers
  split_ifs at tickers with new
  · rw [tickers, OrdMap.get?_insert] at bound
    split_ifs at bound with own
    · -- The ticker is the one that this registration sets.
      obtain rfl := TickerKey.mk.inj own
      cases bound
      obtain ⟨free, parent, bond, root, posted, enough⟩ := (resolveTicker_sponsored accepted new.1).2 new.2 child parsed
      refine ⟨free, parent, grows _ _ root, makes _ _ _ ⟨⟨p, listed, rfl, rfl⟩, ?_, ?_⟩⟩
      · -- Bound before the transaction, it would be bound to this asset, which has no ticker yet.
        by_contra there
        obtain ⟨bound, found⟩ := Option.ne_none_iff_exists'.mp there
        have still := kept.grows _ _ found
        have rules := resolveTicker_eq_ok accepted
        rw [if_neg (not_not.mpr new.1)] at rules
        obtain rfl := rules.2 new.2 bound still
        have has := (kept.named.mirrors _ _ new.2).mp still
        have none : (tickersOf pass.view.policies p.reg.asset_id).getD [] = [] := new.1
        rw [show tickersOf pass.view.policies p.reg.asset_id = some p.reg.ticker from has] at none
        exact new.2 none
      · subst entries
        obtain ⟨i, coin, reg, cur, spends, carried, named, known, current, rfl⟩ := spentBond_eq_some posted
        exact ⟨i, coin, reg, cur, spends, carried, named, known, current, enough⟩
    · exact old bound
  · exact old (tickers ▸ bound)

theorem registerAssets_grows {ps : List PendingIssuerReg}
    (registered : ps.foldlM (registerAsset ctx tx coins spent) pass = .ok pass') :
    Grows pass.view.tickers pass'.view.tickers := by
  have all : Ensures (fun now : RegistryPass => Grows pass.view.tickers now.view.tickers)
      (ps.foldlM (registerAsset ctx tx coins spent) pass) :=
    .foldlM (.of_eq rfl) fun _ _ kept _ stepped => kept.trans (registerAsset_grows stepped)
  exact all pass' registered

theorem connectAssetTxs_grows {txs : List (CTransaction × List Coin)}
    (connected : txs.foldlM (connectAssetTx ctx) pass = .ok pass') :
    Grows pass.view.tickers pass'.view.tickers := by
  have all : Ensures (fun now : RegistryPass => Grows pass.view.tickers now.view.tickers)
      (txs.foldlM (connectAssetTx ctx) pass) := by
    refine .foldlM (.of_eq rfl) ?_
    rintro now ⟨tx, coins⟩ kept next stepped
    obtain ⟨collected, published, collects, publishes, registered⟩ := connectAssetTx_steps stepped
    have same := (collected_same collects publishes).2.2
    exact (kept.trans (.of_eq same)).trans (registerAssets_grows registered)
  exact all pass' connected

theorem TxKept.transaction
    (named : NamesKept names opened) (children : ChildrenKept evidence opened.view.tickers)
    (makes : ∀ ticker id parent, Sponsors ctx.env.params opened.view tx coins ticker id parent →
      evidence ticker id parent) (connected : connectAssetTx ctx opened (tx, coins) = .ok pass') :
    TxKept names evidence opened pass' := by
  obtain ⟨collected, published, collects, publishes, registered⟩ := connectAssetTx_steps connected
  obtain ⟨entries, same, tickers⟩ := collected_same collects publishes
  have spends : icuSpent collected.view (tx.vin.zip coins) = icuSpent opened.view (tx.vin.zip coins) := by
    unfold icuSpent
    rw [entries]
  have start : TxKept names evidence opened published := by
    refine ⟨named.of_same ?_ same.reg_undo, .of_eq tickers, tickers ▸ children⟩
    unfold namesOf
    rw [tickers, same.policies]
  exact foldlM_keeps (fun _ _ p member kept stepped =>
    kept.register spends (lastRegs_subset member) makes stepped) registered start

end Registration

section Block

variable {ctx : BlockContext} {txs : List (CTransaction × List Coin)} {view view' : CCoinsView}
  {undo undo' : CBlockUndo} {pass pass' start : RegistryPass}

def SponsoredIn (ctx : BlockContext) (start : RegistryPass) (txs : List (CTransaction × List Coin))
    (ticker : Bytes) (id parent : Uint256) : Prop :=
  ∃ earlier tx coins later pass, txs = earlier ++ (tx, coins) :: later ∧
    earlier.foldlM (connectAssetTx ctx) start = .ok pass ∧ Sponsors ctx.env.params pass.view tx coins ticker id parent

theorem connectAssets_children {old : Bytes → Uint256 → Uint256 → Prop} (fresh : undo.reg_undo = [])
    (mirrors : Mirrors (namesOf view)) (children : ChildrenKept old view.tickers)
    (connected : connectAssets ctx txs view undo = .ok (view', undo')) :
    ∃ start : RegistryPass, start.view.policies = (creditFees undo.fee_undo view).policies ∧
      start.view.tickers = view.tickers ∧ ChildrenKept (fun ticker id parent => old ticker id parent ∨
        SponsoredIn ctx start txs ticker id parent) view'.tickers := by
  obtain ⟨pass₁, pass₂, first, second, _, rfl, rfl⟩ := connectAssets_eq_ok connected
  refine ⟨{ view := creditFees undo.fee_undo view, undo }, rfl, rfl, ?_⟩
  have credited := namesOf_creditFees undo.fee_undo view
  have begins : NamesKept (namesOf view) { view := creditFees undo.fee_undo view, undo } := by
    refine ⟨credited ▸ mirrors, fun other same => ?_⟩
    rw [fresh]
    exact same.trans credited
  obtain ⟨_, _, rfl⟩ := settleSupplies_writes _ _ second
  -- The induction is over the transactions done; each of them is at its place in the block.
  refine (foldlM_induction (P := fun done (now : RegistryPass) =>
    done.foldlM (connectAssetTx ctx) { view := creditFees undo.fee_undo view, undo } = .ok now ∧
      NamesKept (namesOf view) now ∧ ChildrenKept (fun ticker id parent => old ticker id parent ∨
        SponsoredIn ctx { view := creditFees undo.fee_undo view, undo } txs ticker id parent)
        now.view.tickers) ?_ first
    ⟨rfl, begins, children.mono fun _ _ _ known => .inl known⟩).2.2
  rintro done ⟨tx, coins⟩ rest now next split ⟨run, named, kept⟩ stepped
  have step := TxKept.transaction named kept (fun ticker id parent sponsors =>
    .inr ⟨done, tx, coins, rest, now, split, run, sponsors⟩) stepped
  refine ⟨?_, step.named, step.children⟩
  simp [List.foldlM_append, run, stepped, Bind.bind, Except.bind, Pure.pure, Except.pure]

end Block

section Reachable

variable {env : ChainEnv} {stack : List ConnectedBlock} {view : CCoinsView}

/-- A connected block bound the child and spent the root's current credential with the full bond. -/
def SponsoredOn (env : ChainEnv) (stack : List ConnectedBlock) (ticker : Bytes) (id parent : Uint256) : Prop :=
  ∃ front top rest before after db start, stack = front ++ top :: rest ∧ Reachable env rest before ∧
    connectBlock (contextAt env (rest.length + 1) top.block) db before top.block = .ok (after, top.undo) ∧
    start.view.policies = (creditFees top.undo.fee_undo before).policies ∧
    start.view.tickers = before.tickers ∧ SponsoredIn (contextAt env (rest.length + 1) top.block) start
      (blockSpends env.crypto (rest.length + 1) before.coins top.block.vtx) ticker id parent

variable {top : ConnectedBlock} {db : ModelDb} {ctx : BlockContext} {tx : CTransaction}
  {coins : List Coin} {p : PendingIssuerReg}

theorem SponsoredOn.later {ticker : Bytes} {id parent : Uint256}
    (sponsored : SponsoredOn env stack ticker id parent) : SponsoredOn env (top :: stack) ticker id parent := by
  obtain ⟨front, block, rest, before, after, db, start, rfl, placed⟩ := sponsored
  exact ⟨top :: front, block, rest, before, after, db, start, rfl, placed⟩

theorem connectBlock_children {before after : CCoinsView}
    (reached : Reachable env stack before) (above : top.block.getHash env.crypto ≠ env.params.hashGenesisBlock)
    (connected : connectBlock (contextAt env (stack.length + 1) top.block) db before top.block =
      .ok (after, top.undo)) (mirrors : Mirrors (namesOf before))
    (children : ChildrenKept (SponsoredOn env stack) before.tickers) :
    ChildrenKept (SponsoredOn env (top :: stack)) after.tickers := by
  obtain ⟨pass, assets, accepted, rfl⟩ := connectBlock_accepted above connected
  have registry := accepted.registry
  have fees := (connectAssets_sameCoins registry).2.2
  rw [accepted.spent_eq] at registry
  have start : Mirrors (namesOf { before with coins := pass.coins }) := mirrors
  obtain ⟨begun, policies, tickers, kept⟩ := connectAssets_children rfl start children registry
  refine kept.mono fun ticker id parent because => ?_
  rcases because with old | new
  · exact old.later
  · refine ⟨[], top, stack, before, _, db, begun, rfl, reached, connected, ?_, tickers, new⟩
    rw [policies, fees]
    rfl

theorem children_restored (env : ChainEnv) : Restores env namesOf fun stack names =>
    Mirrors names ∧ ChildrenKept (SponsoredOn env stack) names.1 where
  genesis := fun bestBlock => ⟨mirrors_empty bestBlock, fun _ _ _ _ bound => by
    simp [namesOf] at bound⟩
  connect := fun _ _ _ _ _ reached above connected good =>
    ⟨(connectBlock_names above connected good.1).1, connectBlock_children reached above connected good.1 good.2⟩
  back := fun _ _ _ _ _ other above connected good same => (connectBlock_names above connected good.1).2 other same
  coins := fun _ _ _ => rfl

theorem Turn.grows {txs : List (CTransaction × List Coin)}
    {start final : RegistryPass}
    (t : Turn ctx txs tx coins p start final) : Grows t.taken.view.tickers final.view.tickers :=
  (registerAssets_grows t.behind).trans (connectAssetTxs_grows t.ends)

theorem connectBlock_firstChild {next : CCoinsView} {block : CBlock}
    {undo : CBlockUndo}
    (above : ctx.blockHash ≠ ctx.env.params.hashGenesisBlock)
    (connected : connectBlock ctx db view block = .ok (next, undo))
    (member : (tx, coins) ∈ blockSpends ctx.env.crypto ctx.nHeight view.coins block.vtx)
    (listed : p ∈ pendingRegs tx) (first : view.policies.get? p.reg.asset_id = none)
    (small : p.out.nValue.toInt < ctx.env.params.AssetMinIcuBond) : (parseChildTicker p.reg.ticker).isSome ∧
      next.tickers.get? ⟨p.reg.ticker⟩ = some p.reg.asset_id := by
  obtain ⟨start, final, settled, ⟨turn⟩, settles, policies, _, _, tickers, _⟩ :=
    connectBlock_turn above connected member listed
  obtain ⟨pass, assets, accepted, _⟩ := connectBlock_accepted above connected
  have none : turn.turn.view.policies.get? p.reg.asset_id = none := by
    rw [turn.entry accepted.limit, policies, creditFees_get?, first]
    rfl
  obtain ⟨ticker, sponsored, resolved, bonded, taken⟩ := registerAsset_ticker turn.registers
  rw [none] at resolved bonded taken
  have positive := (bond_range accepted member listed).1
  -- The full bond is not there, so the registration has gone through as a sponsored one.
  obtain rfl : sponsored = true := by
    cases sponsored with
    | true => rfl
    | false =>
      have full : minBond ctx.env.params false = ctx.env.params.AssetMinIcuBond := rfl
      rw [full] at bonded
      rcases bonded with known | free | enough
      · exact nomatch known
      · omega
      · omega
  obtain ⟨set, child⟩ := (resolveTicker_sponsored resolved rfl).1 rfl
  refine ⟨child, ?_⟩
  have bound : turn.taken.view.tickers.get? ⟨p.reg.ticker⟩ = some p.reg.asset_id := by
    rw [taken, bindTicker, if_pos ⟨rfl, set⟩]
    exact OrdMap.get?_insert_self ..
  obtain ⟨_, _, rfl⟩ := settleSupplies_writes _ _ settles
  rw [tickers]
  exact turn.grows _ _ bound

/-- In every reachable state the root of a bound child ticker is bound and no reserved name, and a
connected block bound the child and spent the root's current credential with the full bond. Every
first registration of a further block with less than that bond binds such a child. -/
theorem childTickers_sponsored (env : ChainEnv) (stack : List ConnectedBlock) (view : CCoinsView)
    (reached : Reachable env stack view) :
    (∀ ticker child id, parseChildTicker ticker = some child →
      view.tickers.get? ⟨ticker⟩ = some id →
      isReservedTicker child.root = false ∧
        ∃ parent, view.tickers.get? ⟨child.root⟩ = some parent ∧ SponsoredOn env stack ticker id parent) ∧
    ∀ (block : CBlock) (db : ModelDb) (next : CCoinsView) (undo : CBlockUndo),
      block.getHash env.crypto ≠ env.params.hashGenesisBlock →
      connectBlock (contextAt env (stack.length + 1) block) db view block = .ok (next, undo) →
      ∀ tx coins p, (tx, coins) ∈ blockSpends env.crypto (stack.length + 1) view.coins block.vtx →
        p ∈ pendingRegs tx → view.policies.get? p.reg.asset_id = none →
        p.out.nValue.toInt < env.params.AssetMinIcuBond →
        ∃ child, parseChildTicker p.reg.ticker = some child ∧
          next.tickers.get? ⟨p.reg.ticker⟩ = some p.reg.asset_id ∧ isReservedTicker child.root = false ∧
          ∃ parent, next.tickers.get? ⟨child.root⟩ = some parent ∧
            SponsoredOn env (⟨block, undo⟩ :: stack) p.reg.ticker p.reg.asset_id parent := by
  have children : ∀ {stack view}, Reachable env stack view →
      ChildrenKept (SponsoredOn env stack) view.tickers := fun reached =>
    ((reached.replaysAs (children_restored env)).invariant (children_restored env)).2
  refine ⟨children reached, fun block db next undo above connected tx coins p member listed first
    small => ?_⟩
  obtain ⟨some_child, bound⟩ := connectBlock_firstChild (by exact above) connected member listed first
    small
  obtain ⟨child, parsed⟩ := Option.isSome_iff_exists.mp some_child
  exact ⟨child, parsed, bound,
    children (.connect reached above connected) p.reg.ticker child p.reg.asset_id parsed bound⟩

end Reachable

open RegChain in
/-- On the regtest chain, after an asset has sponsored a child. -/
theorem childTickers_after_sponsoring : ∃ (sponsored : Node) (stack : List ConnectedBlock),
    Reachable env.toChainEnv stack sponsored.state.coinsTip ∧
      sponsored.state.coinsTip.tickers.get? ⟨childTicker⟩ = some 8 ∧
      ∃ parent, sponsored.state.coinsTip.tickers.get? ⟨rootTicker⟩ = some parent ∧
        SponsoredOn env.toChainEnv stack childTicker 8 parent := by
  obtain ⟨base, _, _, ⟨registered, sponsored, day⟩, _⟩ := laterDays_exist
  obtain ⟨steps, _, height, chain⟩ := base.connectChain
  obtain ⟨height, chain⟩ := day.registers.step height chain
  obtain ⟨_, chain⟩ := day.sponsors.step height chain
  obtain ⟨stack, _, reached⟩ := chain.reachable
  obtain ⟨_, parent, root, because⟩ := (childTickers_sponsored env.toChainEnv stack _ reached).1
    childTicker ⟨rootTicker, [83, 85, 66]⟩ 8 (by decide) day.bound
  exact ⟨sponsored, stack, reached, day.bound, parent, root, because⟩

end TensorCash
