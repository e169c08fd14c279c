import TensorCash.Validation.RegChain

/-! `Consensus::CheckTxInputs` conserves every asset, credentials and policies apart. -/

namespace TensorCash

open Checked

/-- The bits of the last registration made, else of the first spent, else of the registry. -/
def effectivePolicyBits (view : CCoinsView) (spent vout : List CTxOut) (id : Uint256) : Option UInt32 :=
  ((regsOf vout).reverse.find? fun r => r.asset_id = id).map IssuerReg.policy_bits <|>
    ((regsOf spent).find? fun r => r.asset_id = id).map IssuerReg.policy_bits <|>
      (view.policies.get? id).map AssetRegistryEntry.policy_bits

section Check

variable {view : CCoinsView} {spent vout : List CTxOut} {id : Uint256} {policy : TxAssetPolicy}

theorem hasBits_of_known {bits mask : UInt32} (full : hasBits 0xFFFFFFFF mask = true)
    (known : bits ≠ 0xFFFFFFFF → hasBits bits mask = true) : hasBits bits mask = true := by
  by_cases same : bits = 0xFFFFFFFF
  · rw [same]
    exact full
  · exact known same

def governingReg (spent vout : List CTxOut) (id : Uint256) : Option IssuerReg :=
  ((regsOf vout).reverse.find? fun r => r.asset_id = id) <|>
    ((regsOf spent).find? fun r => r.asset_id = id)

theorem resolveTxPolicy_of_reg {reg : IssuerReg} (governs : governingReg spent vout id = some reg)
    (resolved : resolveTxPolicy view (regsOf vout) (regsOf spent) id = .ok policy) :
    policy.policy_bits = reg.policy_bits ∧ if hasBits reg.kyc_flags KYC_REQUIRED then
        resolveKyc view id (inFlightEntry view id reg) = .ok policy.kyc
      else policy.kyc = none := by
  unfold governingReg at governs
  simp only [resolveTxPolicy, governs] at resolved
  split_ifs at resolved ⊢ with asks
  · obtain ⟨kyc, made, done⟩ := bind_eq_ok.mp resolved
    cases done
    exact ⟨rfl, made⟩
  · obtain ⟨kyc, made, done⟩ := bind_eq_ok.mp resolved
    cases done
    exact ⟨rfl, (Except.ok.inj made).symm⟩

theorem governingReg_of_issuer (vout : List CTxOut) (issuer : ∃ r ∈ regsOf spent, r.asset_id = id) :
    ∃ reg, governingReg spent vout id = some reg := by
  unfold governingReg
  cases (regsOf vout).reverse.find? fun r => r.asset_id = id with
  | some reg => exact ⟨reg, rfl⟩
  | none =>
    -- The search through the spent coins cannot miss it.
    obtain ⟨r, member, same⟩ := issuer
    cases inside : (regsOf spent).find? fun r => r.asset_id = id with
    | some reg => exact ⟨reg, rfl⟩
    | none =>
      have missed := List.find?_eq_none.mp inside r member
      simp [same] at missed

theorem resolveTxPolicy_bits
    (resolved : resolveTxPolicy view (regsOf vout) (regsOf spent) id = .ok policy)
    (issuer : ∃ r ∈ regsOf spent, r.asset_id = id) :
    effectivePolicyBits view spent vout id = some policy.policy_bits := by
  obtain ⟨reg, governs⟩ := governingReg_of_issuer vout issuer
  rw [(resolveTxPolicy_of_reg governs resolved).1]
  unfold governingReg at governs
  unfold effectivePolicyBits
  -- The same two searches, read for the bits.
  cases outside : (regsOf vout).reverse.find? fun r => r.asset_id = id with
  | some found =>
    rw [outside] at governs
    cases governs
    rfl
  | none =>
    rw [outside] at governs
    have inside : (regsOf spent).find? (fun r => r.asset_id = id) = some reg := governs
    rw [inside]
    rfl

theorem checkAssetDelta_eq_ok {issuer_auth : Bool} {families : UInt16} {d : Int}
    (checked : checkAssetDelta policy issuer_auth families d = .ok ⟨⟩) :
    (0 < d → issuer_auth = true ∧ hasBits policy.policy_bits MINT_ALLOWED = true) ∧
      (d < 0 → issuer_auth = true ∧ hasBits policy.policy_bits BURN_ALLOWED = true) := by
  unfold checkAssetDelta at checked
  -- Nothing to show for an unchanged supply; each direction has its own two guards.
  refine ⟨fun mint => ?_, fun burn => ?_⟩
  · rw [if_neg mint.ne', if_pos mint] at checked
    simp only [require_bind_eq_ok, ne_eq] at checked
    exact ⟨checked.1, hasBits_of_known (by decide) checked.2.1⟩
  · rw [if_neg burn.ne, if_neg (not_lt.mpr burn.le)] at checked
    simp only [require_bind_eq_ok, ne_eq] at checked
    exact ⟨checked.1, hasBits_of_known (by decide) checked.2.1⟩

variable {env : ChainEnv} {nSpendHeight : Nat} {tx : CTransaction} {coins : List Coin} {fee : Int}

theorem checkTxAssets_asset (checked : checkTxAssets env view nSpendHeight tx coins = .ok ⟨⟩)
    (moved : id ∈ (tagsOf (coins.map Coin.out) ++ tagsOf tx.vout).map AssetTag.id) :
    ∃ result, checkTxAsset view (coins.map Coin.out) tx.vout id = .ok result := by
  simp only [checkTxAssets, bind_eq_ok, require_eq_ok] at checked
  obtain ⟨_, _, _, _, _, _, _, _, policies, run, _⟩ := checked
  obtain ⟨result, _, stepped⟩ := mapM_step_of_mem run (mem_sortedIds.mpr moved)
  exact ⟨result, stepped⟩

/-- An accepted transaction keeps the units of every asset, unless it spends a coin with a
registration of the asset. Then more units need a policy that allows minting, and fewer one that
allows burning. -/
theorem checkTxInputs_conserves
    (accepted : checkTxInputs env view nSpendHeight tx = .ok (coins, fee)) (id : Uint256) :
    let spent := coins.map Coin.out
    inputCoins view.coins tx = some coins ∧ ((¬ ∃ r ∈ regsOf spent, r.asset_id = id) →
        unitsOf id (tagsOf tx.vout) = unitsOf id (tagsOf spent)) ∧
      (unitsOf id (tagsOf spent) < unitsOf id (tagsOf tx.vout) →
        ∃ bits, effectivePolicyBits view spent tx.vout id = some bits ∧ hasBits bits MINT_ALLOWED = true) ∧
      (unitsOf id (tagsOf tx.vout) < unitsOf id (tagsOf spent) →
        ∃ bits, effectivePolicyBits view spent tx.vout id = some bits ∧ hasBits bits BURN_ALLOWED = true) := by
  intro spent
  obtain ⟨inputs, assets⟩ := checkTxInputs_eq_ok accepted
  -- What the check of this asset says of its exact difference, whether the asset moves or not.
  obtain ⟨mints, burns⟩ : (0 < assetDelta spent tx.vout id → (∃ r ∈ regsOf spent, r.asset_id = id) ∧ ∃ bits,
          effectivePolicyBits view spent tx.vout id = some bits ∧ hasBits bits MINT_ALLOWED = true) ∧
      (assetDelta spent tx.vout id < 0 → (∃ r ∈ regsOf spent, r.asset_id = id) ∧ ∃ bits,
          effectivePolicyBits view spent tx.vout id = some bits ∧ hasBits bits BURN_ALLOWED = true) := by
    by_cases moved : id ∈ (tagsOf spent ++ tagsOf tx.vout).map AssetTag.id
    · obtain ⟨result, checked⟩ := checkTxAssets_asset assets moved
      simp only [checkTxAsset, bind_eq_ok] at checked
      obtain ⟨policy, resolved, _, delta, _⟩ := checked
      obtain ⟨mint, burn⟩ := checkAssetDelta_eq_ok delta
      refine ⟨fun more => ?_, fun fewer => ?_⟩
      · obtain ⟨issuer, allowed⟩ := mint more
        have credential : ∃ r ∈ regsOf spent, r.asset_id = id := by simpa using issuer
        exact ⟨credential, _, resolveTxPolicy_bits resolved credential, allowed⟩
      · obtain ⟨issuer, allowed⟩ := burn fewer
        have credential : ∃ r ∈ regsOf spent, r.asset_id = id := by simpa using issuer
        exact ⟨credential, _, resolveTxPolicy_bits resolved credential, allowed⟩
    · have still := assetDelta_eq_zero moved
      exact ⟨fun more => by omega, fun fewer => by omega⟩
  unfold assetDelta at mints burns
  refine ⟨inputs, fun plain => ?_, fun more => ?_, fun fewer => ?_⟩
  · -- A difference in either direction would need a credential.
    by_contra differ
    rcases Nat.lt_or_gt_of_ne differ with fewer | more
    · exact plain (burns (by omega)).1
    · exact plain (mints (by omega)).1
  · exact (mints (by omega)).2
  · exact (burns (by omega)).2

end Check

open RegChain in
/-- The issue of units beside the credential of the asset: the policy in force allows it. -/
theorem checkTxInputs_conserves_issue :
    let coins : List Coin := [⟨credential changedReg, 102, false⟩, ⟨payAnyone 1000000000, 102, false⟩]
    let view : CCoinsView := { bestBlock := 0, coins := addCoins (rotation.txid crypto) rotation 102 ∅ }
    checkTxInputs env.toChainEnv view 103 issue = .ok (coins, 999999000) ∧
      unitsOf 7 (tagsOf issue.vout) = 2 ^ 62 ∧ unitsOf 7 (tagsOf (coins.map Coin.out)) = 0 ∧
      ∃ bits, effectivePolicyBits view (coins.map Coin.out) issue.vout 7 = some bits ∧
        hasBits bits MINT_ALLOWED = true := by
  intro coins view
  have accepted : checkTxInputs env.toChainEnv view 103 issue = .ok (coins, 999999000) := by
    decide +kernel
  have made : unitsOf 7 (tagsOf issue.vout) = 2 ^ 62 := by decide +kernel
  have spent : unitsOf 7 (tagsOf (coins.map Coin.out)) = 0 := by decide +kernel
  refine ⟨accepted, made, spent, (checkTxInputs_conserves accepted 7).2.2.1 ?_⟩
  rw [made, spent]
  decide

end TensorCash
