import TensorCash.Validation.Replay
import TensorCash.Validation.RegChain

/-! The index from tickers to assets, beside the entries and their undo records. -/

namespace TensorCash

open Checked

def tickersOf (policies : OrdMap Uint256 AssetRegistryEntry) (id : Uint256) : Option Bytes :=
  (policies.get? id).map AssetRegistryEntry.ticker

abbrev Names : Type := OrdMap TickerKey Uint256 × (Uint256 → Option Bytes)

def namesOf (view : CCoinsView) : Names := (view.tickers, tickersOf view.policies)

def Mirrors (names : Names) : Prop :=
  ∀ ticker id, ticker ≠ [] → (names.1.get? ⟨ticker⟩ = some id ↔ names.2 id = some ticker)

def nameAsset (names : Names) (id : Uint256) (ticker : Bytes) : Names :=
  (if (names.2 id).getD [] = [] ∧ ticker ≠ [] then names.1.insert ⟨ticker⟩ id else names.1,
    Function.update names.2 id (some ticker))

def revertNames (names : Names) (id : Uint256) (prev : Option Bytes) : Names :=
  let tickers :=
    match names.2 id with
    | none => names.1
    | some cur => if cur ≠ [] ∧ prev.all fun p => cur ≠ p then names.1.erase ⟨cur⟩ else names.1
  (match prev with
    | some ticker => if ticker ≠ [] then tickers.insert ⟨ticker⟩ id else tickers
    | none => tickers, Function.update names.2 id prev)

variable {id : Uint256} {names : Names} {ticker : Bytes}

theorem insert_of_bound {tickers : OrdMap TickerKey Uint256} {key : TickerKey}
    (bound : tickers.get? key = some id) : tickers.insert key id = tickers := by
  ext1 other
  rw [OrdMap.get?_insert]
  split_ifs with own
  · rw [own, bound]
  · rfl

theorem update_back (named : Uint256 → Option Bytes) (id : Uint256) (ticker : Option Bytes) :
    Function.update (Function.update named id ticker) id (named id) = named := by
  rw [Function.update_idem, Function.update_eq_self]

theorem Mirrors.revert_self (mirrors : Mirrors names)
    (known : names.2 id = some ticker) : revertNames names id (some ticker) = names := by
  have same : ¬ (ticker ≠ [] ∧ (some ticker).all fun p => ticker ≠ p) := by simp
  unfold revertNames
  rw [known]
  dsimp only
  rw [if_neg same, ← known, Function.update_eq_self]
  split_ifs with set
  · rw [insert_of_bound ((mirrors ticker id set).mpr known)]
  · rfl

theorem Mirrors.name (mirrors : Mirrors names)
    (kept : (names.2 id).getD [] ≠ [] → ticker = (names.2 id).getD [])
    (free : (names.2 id).getD [] = [] → ticker ≠ [] →
       ∀ bound, names.1.get? ⟨ticker⟩ = some bound → bound = id) :
    Mirrors (nameAsset names id ticker) ∧
    revertNames (nameAsset names id ticker) id (names.2 id) = names := by
  obtain ⟨tickers, named⟩ := names
  dsimp only at kept free
  by_cases old : (named id).getD [] = []
  · -- The asset has no ticker yet, so no ticker is bound to it.
    have unbound : ∀ t, t ≠ [] → named id ≠ some t := by
      intro t set has
      rw [has] at old
      exact set old
    by_cases set : ticker = []
    · subst set
      have names : nameAsset (tickers, named) id [] = (tickers, Function.update named id (some [])) := by
        simp [nameAsset]
      rw [names]
      refine ⟨fun t a nonempty => ?_, ?_⟩
      · rw [mirrors t a nonempty]
        by_cases own : a = id
        · subst own
          simp [unbound t nonempty, Ne.symm nonempty]
        · simp [own]
      · refine Prod.ext ?_ (update_back named id _)
        cases has : named id with
        | none => simp [revertNames, has]
        | some t =>
          rw [has] at old
          obtain rfl : t = [] := old
          simp [revertNames, has]
    · have new : tickers.get? ⟨ticker⟩ = none := by
        cases found : tickers.get? ⟨ticker⟩ with
        | none => rfl
        | some bound =>
          obtain rfl := free old set bound found
          exact absurd ((mirrors ticker bound set).mp found) (unbound ticker set)
      have names : nameAsset (tickers, named) id ticker =
          (tickers.insert ⟨ticker⟩ id, Function.update named id (some ticker)) := by
        simp [nameAsset, old, set]
      rw [names]
      refine ⟨fun t a nonempty => ?_, ?_⟩
      · dsimp only
        rw [OrdMap.get?_insert]
        by_cases same : t = ticker
        · subst same
          by_cases own : a = id
          · simp [own]
          · have other : named a ≠ some t := fun has => by
              have bound := (mirrors t a nonempty).mpr has
              rw [new] at bound
              exact absurd bound (by simp)
            simp [own, Ne.symm own, other]
        · have differ : (⟨t⟩ : TickerKey) ≠ ⟨ticker⟩ := fun eq => same (TickerKey.mk.inj eq)
          rw [if_neg differ, mirrors t a nonempty]
          by_cases own : a = id
          · subst own
            simp [unbound t nonempty, Ne.symm same]
          · simp [own]
      · have back : (tickers.insert ⟨ticker⟩ id).erase ⟨ticker⟩ = tickers := by
          ext1 key
          rw [OrdMap.get?_erase, OrdMap.get?_insert]
          split_ifs with own
          · rw [own, new]
          · rfl
        refine Prod.ext ?_ (update_back named id _)
        cases has : named id with
        | none => simp [revertNames, set, back, has]
        | some t =>
          rw [has] at old
          obtain rfl : t = [] := old
          simp [revertNames, set, back, has]
  · -- A ticker once set stays, and its binding with it.
    have same := kept old
    have has : named id = some ticker := by
      cases value : named id with
      | none =>
        rw [value] at old
        exact absurd rfl old
      | some t =>
        rw [same, value]
        rfl
    have names : nameAsset (tickers, named) id ticker = (tickers, named) := by
      unfold nameAsset
      dsimp only
      rw [if_neg fun both => old both.1, ← has, Function.update_eq_self]
    rw [names]
    refine ⟨mirrors, ?_⟩
    dsimp only
    rw [has]
    exact mirrors.revert_self has

theorem namesOf_revertReg (view : CCoinsView) (u : RegUndoEntry) : namesOf (revertReg view u) =
      revertNames (namesOf view) u.asset_id (u.prev.map AssetRegistryEntry.ticker) := by
  have entries : tickersOf (view.policies.set u.asset_id u.prev) =
      Function.update (tickersOf view.policies) u.asset_id (u.prev.map AssetRegistryEntry.ticker) := by
    funext id
    unfold tickersOf
    rw [OrdMap.get?_set, Function.update_apply]
    split_ifs <;> rfl
  unfold namesOf revertReg revertNames
  dsimp only
  rw [entries]
  refine Prod.ext ?_ rfl
  dsimp only [tickersOf]
  cases view.policies.get? u.asset_id <;> cases u.prev <;> simp

theorem newEntry_ticker (ctx : BlockContext) (tx : CTransaction) (p : PendingIssuerReg)
    (prev : Option AssetRegistryEntry) (ticker : Bytes) (decimals : UInt8) :
    (newEntry ctx tx p prev ticker decimals).ticker = ticker := by
  obtain ⟨_, _, _, _, _, _, _, _, entry⟩ := newEntry_eq ctx tx p prev ticker decimals
  rw [entry]
  rfl

section Passes

variable {c : Crypto} {ctx : BlockContext} {env : ChainEnv} {tx : CTransaction} {coins : List Coin}
  {spent : List (Uint256 × Int)} {pass pass' : RegistryPass} {txs : List (CTransaction × List Coin)}
  {id : Uint256}

theorem resolveTicker_eq_ok {params : Params} {view : CCoinsView} {prev : Option AssetRegistryEntry}
    {ticker resolved : Bytes} {sponsored : Bool}
    (accepted : resolveTicker params view spent id prev ticker = .ok (resolved, sponsored)) :
    if (prev.map AssetRegistryEntry.ticker).getD [] ≠ [] then
      resolved = (prev.map AssetRegistryEntry.ticker).getD []
    else resolved = ticker ∧ (ticker ≠ [] → ∀ bound, view.tickers.get? ⟨ticker⟩ = some bound → bound = id) := by
  unfold resolveTicker at accepted
  dsimp only at accepted
  split_ifs at accepted ⊢ with old empty
  · obtain ⟨_, _, accepted⟩ := bind_eq_ok.mp accepted
    exact (Prod.mk.inj (Except.ok.inj accepted)).1.symm
  · obtain ⟨rfl, _⟩ := Prod.mk.inj (Except.ok.inj accepted)
    exact ⟨empty.symm, fun nonempty => absurd empty nonempty⟩
  · -- A child asks for its sponsor first; then both kinds of ticker must be free.
    have last : ∀ {flag : Bool}, (require ((view.tickers.get? ⟨ticker⟩).all fun bound => bound = id)
            (.consensus "asset-ticker-duplicate") >>= fun _ => .ok (ticker, flag)) =
          (.ok (resolved, sponsored) : Except Failure (Bytes × Bool)) → resolved = ticker ∧
          (ticker ≠ [] → ∀ bound, view.tickers.get? ⟨ticker⟩ = some bound → bound = id) := by
      intro flag accepted
      obtain ⟨_, free, accepted⟩ := bind_eq_ok.mp accepted
      obtain ⟨rfl, _⟩ := Prod.mk.inj (Except.ok.inj accepted)
      refine ⟨rfl, fun _ bound found => ?_⟩
      have unique := require_eq_ok.mp free
      simpa only [found, Option.all_some, decide_eq_true_eq] using unique
    split at accepted
    · obtain ⟨_, _, accepted⟩ := bind_eq_ok.mp accepted
      obtain ⟨_, _, accepted⟩ := bind_eq_ok.mp accepted
      obtain ⟨_, _, accepted⟩ := bind_eq_ok.mp accepted
      obtain ⟨_, _, accepted⟩ := bind_eq_ok.mp accepted
      obtain ⟨_, _, accepted⟩ := bind_eq_ok.mp accepted
      exact last accepted
    · obtain ⟨_, _, accepted⟩ := bind_eq_ok.mp accepted
      obtain ⟨_, _, accepted⟩ := bind_eq_ok.mp accepted
      exact last accepted

structure NamesAsset (pass pass' : RegistryPass) (id : Uint256) (ticker : Bytes) : Prop where
  entry : ∃ new : AssetRegistryEntry, new.ticker = ticker ∧ pass'.view.policies = pass.view.policies.insert id new
  record : pass'.undo.reg_undo = pass.undo.reg_undo ++ [⟨id, pass.view.policies.get? id⟩]
  tickers : pass'.view.tickers = if (tickersOf pass.view.policies id).getD [] = [] ∧ ticker ≠ [] then
      pass.view.tickers.insert ⟨ticker⟩ id
    else pass.view.tickers
  kept : (tickersOf pass.view.policies id).getD [] ≠ [] → ticker = (tickersOf pass.view.policies id).getD []
  free : (tickersOf pass.view.policies id).getD [] = [] → ticker ≠ [] →
    ∀ bound, pass.view.tickers.get? ⟨ticker⟩ = some bound → bound = id

theorem registerAsset_names {p : PendingIssuerReg}
    (registered : registerAsset ctx tx coins spent pass p = .ok pass') :
    ∃ ticker, NamesAsset pass pass' p.reg.asset_id ticker := by
  obtain ⟨ticker, _, decimals, _, _, _, resolved, _, keyed, texted, _, rfl⟩ := registerAsset_steps registered
  obtain ⟨_, _, _, _, rfl⟩ := installRegVk_installs _ _ keyed
  obtain ⟨_, _, _, _, rfl⟩ := installRegIcu_installs _ _ _ texted
  have rules := resolveTicker_eq_ok resolved
  refine ⟨ticker, ⟨newEntry ctx tx p (pass.view.policies.get? p.reg.asset_id) ticker decimals,
    newEntry_ticker _ _ _ _ _ _, ?_⟩, rfl, ?_, fun old => ?_, fun none set => ?_⟩
  · show (pass.noted p.reg).view.policies.insert _ _ = _
    rw [pass.noted_policies]
  · show (bindTicker (pass.view.policies.get? p.reg.asset_id) p.reg pass.view).tickers = _
    unfold bindTicker tickersOf
    -- Where the asset had no ticker, the resolved one is the registration's.
    by_cases old : ((pass.view.policies.get? p.reg.asset_id).map AssetRegistryEntry.ticker).getD [] = []
    · rw [if_neg (not_not.mpr old)] at rules
      rw [rules.1]
      split_ifs <;> rfl
    · rw [if_neg fun both => old both.1, if_neg fun both => old both.1]
  · unfold tickersOf at old ⊢
    rw [if_pos old] at rules
    exact rules
  · unfold tickersOf at none
    rw [if_neg (not_not.mpr none)] at rules
    obtain ⟨rfl, free⟩ := rules
    exact free set

structure NamesKept (start : Names) (pass : RegistryPass) : Prop where
  mirrors : Mirrors (namesOf pass.view)
  back : ∀ view, namesOf view = namesOf pass.view → namesOf (pass.undo.reg_undo.reverse.foldl revertReg view) = start

variable {start : Names}

theorem NamesKept.of_same (kept : NamesKept start pass) (names : namesOf pass'.view = namesOf pass.view)
    (record : pass'.undo.reg_undo = pass.undo.reg_undo) : NamesKept start pass' :=
  ⟨names ▸ kept.mirrors, fun view same => record ▸ kept.back view (same.trans names)⟩

theorem NamesKept.log {i : Uint256} (kept : NamesKept start pass) (prev : Option AssetRegistryEntry)
    (mirrors : Mirrors (namesOf pass'.view)) (record : pass'.undo.reg_undo = pass.undo.reg_undo ++ [⟨i, prev⟩])
    (reverted : revertNames (namesOf pass'.view) i (prev.map AssetRegistryEntry.ticker) =
      namesOf pass.view) : NamesKept start pass' := by
  refine ⟨mirrors, fun view same => ?_⟩
  rw [record, List.reverse_append, List.reverse_singleton, List.singleton_append, List.foldl_cons]
  refine kept.back _ ?_
  rw [namesOf_revertReg, same]
  exact reverted

theorem NamesKept.register {p : PendingIssuerReg} (kept : NamesKept start pass)
    (registered : registerAsset ctx tx coins spent pass p = .ok pass') : NamesKept start pass' := by
  obtain ⟨ticker, ⟨new, named, policies⟩, record, tickers, old, free⟩ := registerAsset_names registered
  have names : namesOf pass'.view = nameAsset (namesOf pass.view) p.reg.asset_id ticker := by
    refine Prod.ext tickers (funext fun id => ?_)
    dsimp only [namesOf, nameAsset, tickersOf]
    rw [policies, OrdMap.get?_insert, Function.update_apply]
    split_ifs
    · rw [Option.map_some, named]
    · rfl
  obtain ⟨mirrors, reverted⟩ := kept.mirrors.name old free
  exact kept.log _ (names ▸ mirrors) record (names ▸ reverted)

theorem NamesKept.settle (kept : NamesKept start pass)
    (settled : settleSupply txs pass id = .ok pass') : NamesKept start pass' := by
  unfold settleSupply at settled
  cases known : pass.view.policies.get? id with
  | none =>
    rw [known] at settled
    cases settled
    exact kept
  | some e =>
    rw [known] at settled
    obtain ⟨_, _, settled⟩ := bind_eq_ok.mp settled
    cases settled
    have has : tickersOf pass.view.policies id = some e.ticker := by
      rw [tickersOf, known]
      rfl
    -- The totals leave the ticker of the entry alone.
    have names : ∀ settled : AssetRegistryEntry, settled.ticker = e.ticker →
        namesOf { pass.view with policies := pass.view.policies.insert id settled } = namesOf pass.view := by
      intro settled same
      refine Prod.ext rfl (funext fun other => ?_)
      dsimp only [namesOf]
      by_cases own : other = id
      · rw [own, has, tickersOf, OrdMap.get?_insert_self, Option.map_some, same]
      · rw [tickersOf, OrdMap.get?_insert_of_ne _ _ _ own, ← tickersOf]
    have totals : (e.settle (supplyDelta txs id)).ticker = e.ticker := by
      unfold AssetRegistryEntry.settle
      split_ifs <;> rfl
    by_cases recorded : pass.undo.reg_undo.any fun u => u.asset_id = id
    · refine kept.of_same (names _ totals) ?_
      show (if _ then pass.undo else _).reg_undo = _
      rw [if_pos recorded]
    · refine NamesKept.log (i := id) kept (some e) ((names _ totals).symm ▸ kept.mirrors) ?_ ?_
      · show (if _ then pass.undo else _).reg_undo = _
        rw [if_neg recorded]
      · exact (congrArg (fun now => revertNames now id (some e.ticker)) (names _ totals)).trans
          (kept.mirrors.revert_self has)

theorem NamesKept.transaction (kept : NamesKept start pass)
    (connected : connectAssetTx ctx pass (tx, coins) = .ok pass') : NamesKept start pass' := by
  obtain ⟨_, _, collected, _, published, _, _, connected⟩ := connectAssetTx_eq_ok connected
  obtain ⟨_, _, _, rfl⟩ := collectExtensions_collects _ _ collected
  obtain ⟨_, _, _, rfl⟩ := publishScalars_publishes _ _ published
  exact foldlM_keeps (fun _ _ _ _ kept stepped => NamesKept.register kept stepped) connected
    (kept.of_same rfl rfl)

theorem namesOf_creditFees (fees : List FeeUndoEntry) (view : CCoinsView) :
    namesOf (creditFees fees view) = namesOf view := by
  refine Prod.ext rfl (funext fun id => ?_)
  dsimp only [namesOf, tickersOf]
  rw [creditFees_get?, Option.map_map]
  rfl

theorem connectAssets_names {view view' : CCoinsView} {undo undo' : CBlockUndo}
    (fresh : undo.reg_undo = []) (mirrors : Mirrors (namesOf view))
    (connected : connectAssets ctx txs view undo = .ok (view', undo')) :
    Mirrors (namesOf view') ∧ ∀ other, namesOf other = namesOf view' →
      namesOf (undo'.reg_undo.reverse.foldl revertReg other) = namesOf view := by
  obtain ⟨pass₁, pass₂, first, second, _, rfl, rfl⟩ := connectAssets_eq_ok connected
  have credited := namesOf_creditFees undo.fee_undo view
  have empty : NamesKept (namesOf view) { view := creditFees undo.fee_undo view, undo } := by
    refine ⟨credited ▸ mirrors, fun other same => ?_⟩
    rw [fresh]
    exact same.trans credited
  have middle : NamesKept (namesOf view) pass₁ :=
    foldlM_keeps (fun _ _ _ _ kept stepped => NamesKept.transaction kept stepped) first empty
  have final : NamesKept (namesOf view) pass₂ :=
    foldlM_keeps (fun _ _ _ _ kept stepped => NamesKept.settle kept stepped) second middle
  exact ⟨final.mirrors, final.back⟩

end Passes

theorem namesOf_revertFee (view : CCoinsView) (f : FeeUndoEntry) :
    namesOf (revertFee view f) = namesOf view := by
  refine Prod.ext ?_ (funext fun id => ?_)
  · show (revertFee view f).tickers = view.tickers
    unfold revertFee
    split <;> rfl
  · dsimp only [namesOf, tickersOf]
    rw [revertFee_get?]
    split_ifs
    · rw [Option.map_map]
      rfl
    · rfl

theorem namesOf_revertAssets (undo : CBlockUndo) (view : CCoinsView) :
    namesOf (revertAssets undo view) = namesOf (undo.reg_undo.reverse.foldl revertReg view) := by
  unfold revertAssets
  dsimp only
  rw [UndoLog.foldl_observe revertFee namesOf namesOf_revertFee,
    UndoLog.foldl_observe revertScalar namesOf fun _ _ => rfl,
    UndoLog.foldl_observe revertIcu namesOf fun _ _ => rfl, UndoLog.foldl_observe revertVk namesOf fun _ _ => rfl]

theorem mirrors_empty (bestBlock : Uint256) : Mirrors (namesOf { bestBlock }) := by
  intro ticker id _
  simp [namesOf, tickersOf]

section Reachable

variable {env : ChainEnv} {stack : List ConnectedBlock} {view : CCoinsView}

theorem connectBlock_names {nHeight : Nat} {db : ModelDb} {block : CBlock} {before after : CCoinsView}
    {undo : CBlockUndo} (above : block.getHash env.crypto ≠ env.params.hashGenesisBlock)
    (connected : connectBlock (contextAt env nHeight block) db before block = .ok (after, undo))
    (mirrors : Mirrors (namesOf before)) : Mirrors (namesOf after) ∧ ∀ other, namesOf other = namesOf after →
      namesOf (revertAssets undo other) = namesOf before := by
  obtain ⟨pass, assets, accepted, rfl⟩ := connectBlock_accepted above connected
  have start : Mirrors (namesOf { before with coins := pass.coins }) := mirrors
  obtain ⟨kept, back⟩ := connectAssets_names rfl start accepted.registry
  exact ⟨kept, fun other same => (namesOf_revertAssets undo other).trans (back other same)⟩

theorem names_restored (env : ChainEnv) : Restores env namesOf fun _ => Mirrors where
  genesis := mirrors_empty
  connect := fun _ _ _ _ _ _ above connected mirrors => (connectBlock_names above connected mirrors).1
  back := fun _ _ _ _ _ other above connected mirrors same => (connectBlock_names above connected mirrors).2 other same
  coins := fun _ _ _ => rfl

/-- In every reachable state a ticker is bound to an asset exactly when the asset is registered with
it. So no two entries share a ticker, and no binding outlives its entry. -/
theorem ticker_index_mirrors_registry (env : ChainEnv) (stack : List ConnectedBlock) (view : CCoinsView)
    (reached : Reachable env stack view) : (∀ ticker id, ticker ≠ [] → (view.tickers.get? ⟨ticker⟩ = some id ↔
      ∃ e, view.policies.get? id = some e ∧ e.ticker = ticker)) ∧
    ∀ id id' e e', view.policies.get? id = some e → view.policies.get? id' = some e' →
      e.ticker = e'.ticker → e.ticker ≠ [] → id = id' := by
  have mirrors : Mirrors (namesOf view) := (reached.replaysAs (names_restored env)).invariant (names_restored env)
  have bound : ∀ ticker id, ticker ≠ [] → (view.tickers.get? ⟨ticker⟩ = some id ↔
      ∃ e, view.policies.get? id = some e ∧ e.ticker = ticker) := fun ticker id set =>
    (mirrors ticker id set).trans Option.map_eq_some_iff
  refine ⟨bound, fun id id' e e' found found' same set => ?_⟩
  -- Both are what the one binding of the ticker says.
  have first := (bound e.ticker id set).mpr ⟨e, found, rfl⟩
  have second := (bound e.ticker id' set).mpr ⟨e', found', same.symm⟩
  exact Option.mem_unique first second

end Reachable

open RegChain in
/-- On the regtest chain the ticker of a child is bound to the child's entry and to no other. -/
theorem ticker_index_after_sponsoring : ∃ (sponsored : Node) (stack : List ConnectedBlock)
    (e : AssetRegistryEntry), Reachable env.toChainEnv stack sponsored.state.coinsTip ∧
      sponsored.state.coinsTip.tickers.get? ⟨childTicker⟩ = some 8 ∧
      sponsored.state.coinsTip.policies.get? 8 = some e ∧ e.ticker = childTicker ∧
      ∀ id e', sponsored.state.coinsTip.policies.get? id = some e' → e'.ticker = childTicker → id = 8 := by
  obtain ⟨base, _, _, ⟨registered, sponsored, day⟩, _⟩ := laterDays_exist
  obtain ⟨steps, _, height, chain⟩ := base.connectChain
  obtain ⟨height, chain⟩ := day.registers.step height chain
  obtain ⟨height, chain⟩ := day.sponsors.step height chain
  obtain ⟨stack, _, reached⟩ := chain.reachable
  obtain ⟨bound, unique⟩ := ticker_index_mirrors_registry env.toChainEnv stack _ reached
  obtain ⟨e, known, named⟩ := (bound childTicker 8 (by decide)).mp day.bound
  exact ⟨sponsored, stack, e, reached, day.bound, known, named, fun id e' found same =>
    unique id 8 e' e found known (same.trans named.symm) (by rw [same]; decide)⟩

end TensorCash
