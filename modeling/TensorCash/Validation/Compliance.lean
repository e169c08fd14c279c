import TensorCash.Assets.Conservation
import TensorCash.Validation.RegChain

/-! A regulated asset is spent under one proof about every coin's key, if the registration in sight
asks for it. -/

namespace TensorCash

open Checked

def EffectiveKycPolicy.historicalKey (policy : EffectiveKycPolicy) (i : Nat) : Uint256 :=
  match policy.compliance_root_history_vk[i]? with
  | some vk => if vk = 0 then policy.vk_commitment else vk
  | none => policy.vk_commitment

inductive AdmissibleRoot (policy : EffectiveKycPolicy) (nSpendHeight : Nat) : Bytes → Uint256 → Prop where
  | active : AdmissibleRoot policy nSpendHeight (uint256ToBytesBE policy.compliance_root_commit)
      policy.vk_commitment
  | historical {hist : ComplianceRootHistory} {i : Nat}
      (listed : policy.compliance_root_history[i]? = some hist)
      (begun : hist.activation_height ≤ nSpendHeight)
      (fresh : (nSpendHeight : Int) - hist.activation_height ≤ castInt policy.max_root_age) :
      AdmissibleRoot policy nSpendHeight (uint256ToBytesBE hist.root_commit) (policy.historicalKey i)

theorem admissibleRoot_of_matchRoot {policy : EffectiveKycPolicy} {nSpendHeight : Nat}
    {root_elem : Bytes} {commitment : Uint256}
    (found : matchRoot policy nSpendHeight root_elem = some commitment) :
    AdmissibleRoot policy nSpendHeight root_elem commitment := by
  unfold matchRoot at found
  split_ifs at found with same
  · cases found
    rw [same]
    exact .active
  · obtain ⟨⟨hist, i⟩, searched, key⟩ := Option.map_eq_some_iff.mp found
    -- The entry that the search stopped at has its place in the history and has passed the test.
    have listed := List.mk_mem_zipIdx_iff_getElem?.mp (List.mem_of_find?_eq_some searched)
    have passed := List.find?_some searched
    simp only [Bool.and_eq_true, decide_eq_true_eq] at passed
    obtain ⟨⟨rfl, begun⟩, fresh⟩ := passed
    have made : policy.historicalKey i = commitment := key
    rw [← made]
    exact .historical listed begun fresh

structure SpendProved (env : ChainEnv) (view : CCoinsView) (nSpendHeight : Nat) (tx : CTransaction)
    (found : List Coin) (id : Uint256) (policy : EffectiveKycPolicy) (payload : ZkProofPayload)
    (commitment : Uint256) : Prop where
  only : proofsOf tx id = [payload]
  asset : publicInput payload.public_inputs 1 = uint256ToBytesBE id
  root : AdmissibleRoot policy nSpendHeight (publicInput payload.public_inputs 2) commitment
  verified : ∃ vk anchor, view.vks.get? commitment = some vk ∧
    env.groth16 payload.proof payload.public_inputs vk policy.max_root_age nSpendHeight anchor = .OK
  /-- The public inputs hold the two halves of the key of each coin. -/
  keys : ∀ coin ∈ found, ∀ tag, parseAssetTag coin.out.vExt = some tag → tag.id = id →
    34 ≤ coin.out.scriptPubKey.length ∧ coin.out.scriptPubKey.take 2 = [0x51, 0x20] ∧
      publicInput payload.public_inputs 4 = List.replicate 16 0 ++ (coin.out.scriptPubKey.drop 2).take 16 ∧
      publicInput payload.public_inputs 5 = List.replicate 16 0 ++ (coin.out.scriptPubKey.drop 18).take 16

section Spend

variable {env : ChainEnv} {view : CCoinsView} {nSpendHeight : Nat} {tx : CTransaction}
  {coins : List Coin} {id : Uint256} {policy : EffectiveKycPolicy}

theorem mem_tagged : id ∈ (tagsOf (coins.map Coin.out)).map AssetTag.id ↔
    ∃ coin ∈ coins, ∃ tag, parseAssetTag coin.out.vExt = some tag ∧ tag.id = id := by
  simp only [tagsOf, List.filterMap_map, List.mem_map, List.mem_filterMap, Function.comp_apply]
  grind

theorem mem_assetInputs {inputs : List (CTxIn × Coin)} {i : CTxIn} {coin : Coin} {tag : AssetTag}
    (member : (i, coin) ∈ inputs) (tagged : parseAssetTag coin.out.vExt = some tag)
    (same : tag.id = id) : ∃ index, (index, i, coin) ∈ assetInputs inputs id := by
  obtain ⟨index, inside, at_⟩ := List.getElem_of_mem member
  refine ⟨index, List.mem_filterMap.mpr ⟨((i, coin), index), ?_, ?_⟩⟩
  · rw [List.mk_mem_zipIdx_iff_getElem?, List.getElem?_eq_getElem inside, at_]
  · simp [tagged, same]

theorem exists_input_of_mem {coin : Coin} (same : tx.vin.length = coins.length)
    (member : coin ∈ coins) : ∃ i, (i, coin) ∈ tx.vin.zip coins := by
  have second : (tx.vin.zip coins).map Prod.snd = coins := List.map_snd_zip (by omega)
  rw [← second, List.mem_map] at member
  obtain ⟨⟨i, coin⟩, member, rfl⟩ := member
  exact ⟨i, member⟩

theorem VerifyError.eq_ok_of_accepted {verdict : VerifyError} (accepted : (match verdict.reason with
      | none => (.ok ⟨⟩ : Except String Unit)
      | some reason => .error reason) = .ok ⟨⟩) : verdict = .OK := by
  cases verdict <;> first | rfl | cases accepted

theorem spendProved_of_checks (same : tx.vin.length = coins.length)
    (layout : checkKycLayout env tx (tx.vin.zip coins) id policy = .ok ⟨⟩)
    (proof : checkKycProof env view nSpendHeight tx (tx.vin.zip coins) id policy = .ok ⟨⟩)
    (touched : assetInputs (tx.vin.zip coins) id ≠ []) : ∃ payload commitment,
      SpendProved env view nSpendHeight tx coins id policy payload commitment := by
  -- The layout check counts the proofs.
  have single : (proofsOf tx id).length ≤ 1 := by
    unfold checkKycLayout at layout
    obtain ⟨_, layout⟩ := require_bind_eq_ok.mp layout
    simp only [if_neg touched] at layout
    split_ifs at layout
    · simp only [bind_eq_ok, require_eq_ok] at layout
      obtain ⟨_, _, _, _, _, _, _, _, _, _, single⟩ := layout
      exact single
    · simp only [bind_eq_ok, require_eq_ok] at layout
      obtain ⟨_, _, _, _, _, _, _, _, single⟩ := layout
      exact single
  unfold checkKycProof at proof
  rw [if_neg touched] at proof
  obtain ⟨payload, first, proof⟩ := bind_eq_ok.mp proof
  obtain ⟨_, _, proof⟩ := bind_eq_ok.mp proof
  obtain ⟨_, _, proof⟩ := bind_eq_ok.mp proof
  obtain ⟨_, asset, proof⟩ := bind_eq_ok.mp proof
  obtain ⟨_, _, proof⟩ := bind_eq_ok.mp proof
  obtain ⟨_, _, proof⟩ := bind_eq_ok.mp proof
  obtain ⟨commitment, admitted, proof⟩ := bind_eq_ok.mp proof
  obtain ⟨_, _, matched⟩ := bind_eq_ok.mp admitted
  obtain ⟨vk, stored, proof⟩ := bind_eq_ok.mp proof
  obtain ⟨_, _, proof⟩ := bind_eq_ok.mp proof
  obtain ⟨_, keys, proof⟩ := bind_eq_ok.mp proof
  refine ⟨payload, commitment, ?_, require_eq_ok.mp asset, admissibleRoot_of_matchRoot (demand_eq_ok.mp matched),
    ⟨vk, _, demand_eq_ok.mp stored, VerifyError.eq_ok_of_accepted proof⟩, ?_⟩
  · -- At most one proof, and the first of them is the payload.
    have head := demand_eq_ok.mp first
    rcases listed : proofsOf tx id with _ | ⟨only, _ | ⟨second, rest⟩⟩
    · rw [listed] at head
      cases head
    · rw [listed] at head
      rw [Option.some.inj head]
    · rw [listed] at single
      exact absurd single (by simp)
  · intro coin member tag tagged named
    obtain ⟨i, paired⟩ := exists_input_of_mem same member
    obtain ⟨index, listed⟩ := mem_assetInputs paired tagged named
    have bound := forM_eq_ok.mp keys _ listed
    simp only [checkOutputKey, require_bind_eq_ok, require_eq_ok] at bound
    exact ⟨bound.1.1, bound.1.2, bound.2.1, bound.2.2⟩

end Spend

/-- The entry whose identity source is in force. -/
def kycSource (view : CCoinsView) (spent vout : List CTxOut) (id : Uint256)
    (entry : AssetRegistryEntry) : AssetRegistryEntry :=
  match governingReg spent vout id with
  | some reg => inFlightEntry view id reg
  | none => entry

/-- The registration in sight of a transaction, if there is one, has the bit that compliance is
required. -/
def RegAsksKyc (spent vout : List CTxOut) (id : Uint256) : Prop :=
  ∀ reg, governingReg spent vout id = some reg → hasBits reg.kyc_flags KYC_REQUIRED = true

structure RepeatsIdentity (entry now : AssetRegistryEntry) : Prop where
  vk : now.zk_vk_commitment = entry.zk_vk_commitment
  root : now.compliance_root_commit = entry.compliance_root_commit
  age : now.max_root_age = entry.max_root_age
  delegate : now.compliance_delegate_asset_id = entry.compliance_delegate_asset_id

section Source

variable {view : CCoinsView} {spent vout : List CTxOut} {id : Uint256} {entry : AssetRegistryEntry}
  {policy : TxAssetPolicy}

theorem resolveTxPolicy_kyc
    (resolved : resolveTxPolicy view (regsOf vout) (regsOf spent) id = .ok policy)
    (known : view.policies.get? id = some entry) (regulated : entry.has_kyc = true) :
    (RegAsksKyc spent vout id → resolveKyc view id (kycSource view spent vout id entry) = .ok policy.kyc) ∧
      (¬ RegAsksKyc spent vout id → policy.kyc = none) := by
  unfold kycSource RegAsksKyc
  cases governs : governingReg spent vout id with
  | some reg =>
    have read := (resolveTxPolicy_of_reg governs resolved).2
    by_cases asks : hasBits reg.kyc_flags KYC_REQUIRED = true
    · rw [if_pos asks] at read
      exact ⟨fun _ => read, fun silent => absurd (fun _ same => Option.some.inj same ▸ asks) silent⟩
    · rw [if_neg asks] at read
      exact ⟨fun asked => absurd (asked reg rfl) asks, fun _ => read⟩
  | none =>
    -- Without a registration in sight the registry decides.
    unfold governingReg at governs
    simp only [resolveTxPolicy, governs, known, regulated, if_pos] at resolved
    obtain ⟨kyc, made, done⟩ := bind_eq_ok.mp resolved
    cases done
    exact ⟨fun _ => made, fun silent => absurd (fun _ none => by cases none) silent⟩

theorem kycSource_cases (view : CCoinsView) (spent vout : List CTxOut) (id : Uint256)
    (entry : AssetRegistryEntry) : kycSource view spent vout id entry = entry ∨
      (kycSource view spent vout id entry).compliance_root_history = [] := by
  unfold kycSource
  cases governingReg spent vout id with
  | none => exact .inl rfl
  | some reg => exact .inr rfl

theorem kycSource_has_kyc (regulated : entry.has_kyc = true) :
    (kycSource view spent vout id entry).has_kyc = true := by
  unfold kycSource
  cases governingReg spent vout id with
  | none => exact regulated
  | some reg => rfl

theorem resolveKyc_required {kyc : Option EffectiveKycPolicy}
    (resolved : resolveKyc view id entry = .ok kyc) (regulated : entry.has_kyc = true) :
    ∃ policy, kyc = some policy ∧ policy.required = true := by
  unfold resolveKyc at resolved
  cases made : resolveEffectiveKycPolicy id entry
      (delegateSource view id entry.compliance_delegate_asset_id) with
  | error reason => rw [made] at resolved; cases resolved
  | ok policy =>
    rw [made] at resolved
    refine ⟨policy, (Except.ok.inj resolved).symm, ?_⟩
    -- Either way the bit is copied from the entry.
    unfold resolveEffectiveKycPolicy at made
    split_ifs at made
    · rw [← Except.ok.inj made]
      exact regulated
    · cases source : delegateSource view id entry.compliance_delegate_asset_id with
      | none => rw [source] at made; cases made
      | some origin =>
        rw [source] at made
        dsimp only at made
        split_ifs at made
        rw [← Except.ok.inj made]
        exact regulated

theorem AdmissibleRoot.of_repeats {now : AssetRegistryEntry} {policy : EffectiveKycPolicy}
    {nSpendHeight : Nat} {root_elem : Bytes} {commitment : Uint256}
    (repeats : RepeatsIdentity entry now) (bare : now.compliance_root_history = [])
    (resolved : resolveKyc view id now = .ok (some policy))
    (admitted : AdmissibleRoot policy nSpendHeight root_elem commitment) :
    ∃ stored, resolveKyc view id entry = .ok (some stored) ∧
      AdmissibleRoot stored nSpendHeight root_elem commitment := by
  unfold resolveKyc at resolved ⊢
  rw [repeats.delegate] at resolved
  cases made : resolveEffectiveKycPolicy id now
      (delegateSource view id entry.compliance_delegate_asset_id) with
  | error reason => rw [made] at resolved; cases resolved
  | ok found =>
    rw [made] at resolved
    obtain rfl := Option.some.inj (Except.ok.inj resolved)
    unfold resolveEffectiveKycPolicy at made ⊢
    rw [repeats.delegate] at made
    split_ifs at made ⊢ with own self
    · -- The asset's own identity: only the active root is admitted, and it is the stored one.
      cases made
      refine ⟨_, rfl, ?_⟩
      cases admitted with
      | active =>
        dsimp only
        rw [repeats.root, repeats.vk]
        exact .active
      | historical listed begun fresh =>
        dsimp only at listed
        rw [bare] at listed
        cases listed
    · -- A delegated identity: both follow the same source, under the same window.
      cases source : delegateSource view id entry.compliance_delegate_asset_id with
      | none => rw [source] at made; cases made
      | some origin =>
        rw [source] at made
        dsimp only at made ⊢
        split_ifs at made ⊢
        cases made
        refine ⟨_, rfl, ?_⟩
        cases admitted with
        | active => exact .active
        | historical listed begun fresh =>
          dsimp only at fresh
          rw [repeats.age] at fresh
          exact .historical listed begun fresh

end Source

section Block

variable {ctx : BlockContext} {db : ModelDb} {view next : CCoinsView} {block : CBlock}
  {undo : CBlockUndo} {tx : CTransaction} {found : List Coin} {id : Uint256}
  {entry : AssetRegistryEntry}

theorem checkTxAssets_kyc {env : ChainEnv} {nSpendHeight : Nat} {coins : List Coin}
    (checked : checkTxAssets env view nSpendHeight tx coins = .ok ⟨⟩)
    (moved : id ∈ (tagsOf (coins.map Coin.out) ++ tagsOf tx.vout).map AssetTag.id) :
    ∃ kyc, checkTxAsset view (coins.map Coin.out) tx.vout id = .ok (id, kyc) ∧
      ∀ policy, kyc = some policy → policy.required = true →
        checkKycLayout env tx (tx.vin.zip coins) id policy = .ok ⟨⟩ ∧
          checkKycProof env view nSpendHeight tx (tx.vin.zip coins) id policy = .ok ⟨⟩ := by
  simp only [checkTxAssets, bind_eq_ok, require_eq_ok] at checked
  obtain ⟨_, _, _, _, _, _, _, _, policies, run, _, layouts, _, proofs, _⟩ := checked
  obtain ⟨⟨named, kyc⟩, listed, stepped⟩ := mapM_step_of_mem run (mem_sortedIds.mpr moved)
  have asset := stepped
  simp only [checkTxAsset, bind_eq_ok] at asset
  obtain ⟨_, _, _, _, made⟩ := asset
  obtain rfl := (Prod.mk.inj (Except.ok.inj made)).1
  refine ⟨kyc, stepped, fun policy some_ required => ?_⟩
  -- A required policy is among those that both passes go through.
  have regulated : (id, policy) ∈ policies.filterMap fun p =>
      (p.2.filter EffectiveKycPolicy.required).map fun policy => (p.1, policy) := by
    refine List.mem_filterMap.mpr ⟨(id, kyc), listed, ?_⟩
    simp [some_, required]
  exact ⟨forM_eq_ok.mp layouts _ regulated, forM_eq_ok.mp proofs _ regulated⟩

theorem connectTxs_checked {vtx : List CTransaction} {pass pass' : CoinsPass}
    (connected : vtx.foldlM (connectTx ctx db view) pass = .ok pass')
    (member : (tx, found) ∈ blockSpends ctx.env.crypto ctx.nHeight pass.coins vtx)
    (plain : tx.isCoinBase = false) :
    ∃ coins fee, checkTxInputs ctx.env { view with coins } ctx.nHeight tx = .ok (found, fee) := by
  induction vtx generalizing pass with
  | nil => cases member
  | cons head rest ih =>
    rw [List.foldlM_cons] at connected
    obtain ⟨mid, stepped, connected⟩ := bind_eq_ok.mp connected
    obtain ⟨spent, accepted⟩ := connectTx_accepted stepped
    rw [blockSpends, List.mem_cons] at member
    rcases member with here | later
    · obtain ⟨rfl, coins⟩ := Prod.mk.inj here
      obtain ⟨fee, checked, _⟩ := accepted.spend plain
      -- The coins of the list are those that the check returned.
      rw [plain, (checkTxInputs_eq_ok checked).1] at coins
      exact ⟨pass.coins, fee, coins ▸ checked⟩
    · rw [← accepted.coins] at later
      exact ih connected later

/-- Transactions of an accepted block that spend coins of a regulated asset: a proof is asked for
exactly when the registration in sight, if any, requires compliance. Then there is one, verified
under the key of an admitted root and about the key of every coin. -/
theorem spend_proved_iff_asked (above : ctx.blockHash ≠ ctx.env.params.hashGenesisBlock)
    (connected : connectBlock ctx db view block = .ok (next, undo))
    (member : (tx, found) ∈ blockSpends ctx.env.crypto ctx.nHeight view.coins block.vtx)
    (plain : tx.isCoinBase = false) (tagged : id ∈ (tagsOf (found.map Coin.out)).map AssetTag.id)
    (known : view.policies.get? id = some entry) (regulated : entry.has_kyc = true) : let spent := found.map Coin.out
    (RegAsksKyc spent tx.vout id ↔ ∃ policy, checkTxAsset view spent tx.vout id = .ok (id, some policy)) ∧
      (RegAsksKyc spent tx.vout id → ∃ policy payload commitment,
        resolveKyc view id (kycSource view spent tx.vout id entry) = .ok (some policy) ∧
          SpendProved ctx.env view ctx.nHeight tx found id policy payload commitment ∧
          (RepeatsIdentity entry (kycSource view spent tx.vout id entry) →
            ∃ stored, resolveKyc view id entry = .ok (some stored) ∧
              AdmissibleRoot stored ctx.nHeight (publicInput payload.public_inputs 2) commitment)) := by
  intro spent
  obtain ⟨pass, assets, accepted, _⟩ := connectBlock_accepted above connected
  obtain ⟨coins, fee, checked⟩ := connectTxs_checked accepted.coins member plain
  obtain ⟨inputs, rules⟩ := checkTxInputs_eq_ok checked
  have moved : id ∈ (tagsOf spent ++ tagsOf tx.vout).map AssetTag.id := by
    rw [List.map_append, List.mem_append]
    exact .inl tagged
  -- The registry that the check reads is that of the block's start.
  have rules : checkTxAssets ctx.env view ctx.nHeight tx found = .ok ⟨⟩ := rules
  obtain ⟨kyc, asset, proofs⟩ := checkTxAssets_kyc rules moved
  have policy := asset
  simp only [checkTxAsset, bind_eq_ok] at policy
  obtain ⟨policy, resolved, _, _, made⟩ := policy
  obtain rfl := (Prod.mk.inj (Except.ok.inj made)).2
  obtain ⟨asks, silent⟩ := resolveTxPolicy_kyc resolved known regulated
  by_cases asked : RegAsksKyc spent tx.vout id
  · have source := asks asked
    obtain ⟨effective, same, required⟩ := resolveKyc_required source (kycSource_has_kyc regulated)
    rw [same] at asset source
    refine ⟨iff_of_true asked ⟨effective, asset⟩, fun _ => ?_⟩
    obtain ⟨layout, proof⟩ := proofs effective same required
    have lengths := (forall₂_of_inputCoins inputs).length_eq
    -- The asset has an input, so neither check was skipped.
    obtain ⟨coin, listed, tag, parsed, named⟩ := mem_tagged.mp tagged
    obtain ⟨i, paired⟩ := exists_input_of_mem lengths listed
    obtain ⟨index, touched⟩ := mem_assetInputs paired parsed named
    obtain ⟨payload, commitment, proved⟩ := spendProved_of_checks lengths layout proof
      (List.ne_nil_of_mem touched)
    refine ⟨effective, payload, commitment, source, proved, fun repeats => ?_⟩
    rcases kycSource_cases view spent tx.vout id entry with registry | bare
    · rw [registry] at source
      exact ⟨effective, source, proved.root⟩
    · exact proved.root.of_repeats repeats bare source
  · rw [silent asked] at asset
    refine ⟨iff_of_false asked ?_, fun wanted => absurd wanted asked⟩
    rintro ⟨effective, other⟩
    cases asset.symm.trans other

end Block

section OnRegChain

open RegChain Codec

def verifyingEnv : ChainEnv := { env.toChainEnv with groth16 := fun _ _ _ _ _ _ => .OK }

def rootedEntry : AssetRegistryEntry where
  has_kyc := true
  zk_vk_commitment := crypto.hash vkPayload
  compliance_root_commit := 5

def keyedCoin : Coin := ⟨⟨5000, [0x51, 0x20] ++ List.replicate 32 9, buildAssetTag 7 100⟩, 0, false⟩

def keyedProof : ZkProofPayload where
  asset_id := 7
  proof := List.replicate 192 1
  public_inputs := uint256ToBytesBE (computeChainSeparator verifyingEnv) ++ uint256ToBytesBE 7 ++
    uint256ToBytesBE 5 ++ uint256ToBytesBE 0 ++ (List.replicate 16 0 ++ List.replicate 16 9) ++
    (List.replicate 16 0 ++ List.replicate 16 9)

def provedMove : CTransaction :=
  signedSpend [⟨1, 0⟩] [units 100, ⟨0, [OP_RETURN], buildTlv ZK_PROOF_PAYLOAD
    (keyedProof.asset_id.bytes ++ serBytes keyedProof.proof ++ serBytes keyedProof.public_inputs)⟩]

def regulatedView : CCoinsView :=
  { start.coinsTip with
    coins := (∅ : OrdMap COutPoint Coin).insert ⟨1, 0⟩ keyedCoin
    policies := (∅ : OrdMap Uint256 AssetRegistryEntry).insert 7 rootedEntry
    vks := (∅ : OrdMap Uint256 Bytes).insert (crypto.hash vkPayload) vkPayload }

/-- A spend with a proof under the stored root, without a registration in sight. -/
theorem spend_proved_on_regChain : ∃ next undo payload commitment,
    connectBlock (contextAt verifyingEnv 1 (Node.fresh.signed provedMove)) start.modelDb regulatedView
      (Node.fresh.signed provedMove) = .ok (next, undo) ∧
    RegAsksKyc [keyedCoin.out] provedMove.vout 7 ∧ proofsOf provedMove 7 = [payload] ∧
    ∃ stored, resolveKyc regulatedView 7 rootedEntry = .ok (some stored) ∧
      AdmissibleRoot stored 1 (publicInput payload.public_inputs 2) commitment := by
  obtain ⟨⟨next, undo⟩, connected⟩ : ∃ result,
      connectBlock (contextAt verifyingEnv 1 (Node.fresh.signed provedMove)) start.modelDb
        regulatedView (Node.fresh.signed provedMove) = .ok result := by
    have accepted : (connectBlock (contextAt verifyingEnv 1 (Node.fresh.signed provedMove))
        start.modelDb regulatedView (Node.fresh.signed provedMove)).isOk = true := by decide +kernel
    generalize connectBlock _ _ _ _ = outcome at accepted ⊢
    cases outcome with
    | ok result => exact ⟨result, rfl⟩
    | error failure => cases accepted
  have bare : governingReg [keyedCoin.out] provedMove.vout 7 = none := by decide +kernel
  have asked : RegAsksKyc [keyedCoin.out] provedMove.vout 7 := by
    intro reg governs
    rw [bare] at governs
    cases governs
  have source : kycSource regulatedView [keyedCoin.out] provedMove.vout 7 rootedEntry =
      rootedEntry := by
    rw [kycSource, bare]
  obtain ⟨policy, payload, commitment, _, proved, stored⟩ := (spend_proved_iff_asked
    (by decide +kernel) connected
    (show (provedMove, [keyedCoin]) ∈ blockSpends crypto 1 regulatedView.coins
      (Node.fresh.signed provedMove).vtx by decide +kernel)
    (by decide +kernel) (by decide +kernel)
    (show regulatedView.policies.get? 7 = some rootedEntry by decide +kernel) rfl).2 asked
  refine ⟨next, undo, payload, commitment, connected, asked, proved.only, stored ?_⟩
  rw [show kycSource regulatedView ([keyedCoin].map Coin.out) provedMove.vout 7 rootedEntry = rootedEntry from source]
  exact ⟨rfl, rfl, rfl, rfl⟩

/-- Units of a regulated asset move beside its credential without a proof: the registration has
flags of compliance, but not the bit that is asked for. -/
theorem spend_without_proof : ∃ (issued moved : Node) (found : List Coin) (e : AssetRegistryEntry)
    (undo : CBlockUndo), (issued.signed kycMove).getHash crypto ≠ env.params.hashGenesisBlock ∧
    connectBlock (contextAt env.toChainEnv issued.state.chain.length (issued.signed kycMove))
      issued.state.modelDb issued.state.coinsTip (issued.signed kycMove) = .ok (moved.state.coinsTip, undo) ∧
    (kycMove, found) ∈ issued.spends kycMove ∧ kycMove.isCoinBase = false ∧
    7 ∈ (tagsOf (found.map Coin.out)).map AssetTag.id ∧
    issued.state.coinsTip.policies.get? 7 = some e ∧ e.has_kyc = true ∧ proofsOf kycMove 7 = [] := by
  obtain ⟨_, _, _, _, _, registered, issued, moved, day⟩ := laterDays_exist
  obtain ⟨above, undo, connected⟩ := day.moves.connected
  obtain ⟨found, member, outs⟩ := day.moves.spends
  obtain ⟨e, known, terms, _⟩ := Node.holds_eq_true day.issued_terms
  refine ⟨issued, moved, found, e, undo, above, connected, member, by decide +kernel, ?_, known,
    congrArg EntryTerms.has_kyc terms, by decide +kernel⟩
  rw [outs]
  decide +kernel

end OnRegChain

end TensorCash
