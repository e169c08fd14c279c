import TensorCash.Wallet.FundedInputs

/-! The builders of `wallet/scalar_note_pair.cpp` with their checks. Ids, the scripts of a lot and
control blocks are parameters. -/

namespace TensorCash

open Checked Codec Settlement Funding

namespace ScalarNotes

def kScalarNotePairDescriptorVersion : UInt8 := 1
def ISSUER_PUBLISHED : UInt8 := 0x00
def CHAIN_INTRINSIC : UInt8 := 0x01
def PAYOFF_STRIKE : UInt8 := 0x00
def PAYOFF_REALIZED : UInt8 := 0x01

structure ScalarNotePairTerms where
  descriptor_version : UInt8 := kScalarNotePairDescriptorVersion
  source_type : UInt8 := ISSUER_PUBLISHED
  payoff_mode : UInt8 := PAYOFF_STRIKE
  loss_direction : UInt8 := 0
  underlying_asset_id : Uint256
  feed_id : UInt32 := 0
  fixing_ref : UInt64 := 0
  publication_deadline_height : UInt32 := 0
  settle_lock_height : UInt32
  scalar_format_id : UInt16
  strike : Uint256
  fallback_scalar : Uint256
  lambda_q : UInt32
  collateral_asset_id : Uint256
  vault_im : UInt64
  long_token_id : Uint256
  short_token_id : Uint256
  lot_count : UInt32
  series_salt : Uint256 := 0

structure ScalarNoteLot where
  long_sink_spk : CScript
  long_pot_spk : CScript
  long_pot_leaf : CScript
  short_sink_spk : CScript
  short_pot_spk : CScript
  short_pot_leaf : CScript
  settle_leaf : CScript
  unwind_leaf : CScript
  vault_spk : CScript

/-- How ids, scripts and control blocks of a pair are derived. -/
structure NoteBook where
  /-- `DeriveScalarNotePairTokenIds`. -/
  tokenIds : ScalarNotePairTerms → Uint256 × Uint256
  /-- `ComputeScalarNotePairId`. -/
  pairId : ScalarNotePairTerms → Uint256
  /-- `DeriveScalarNoteLot`. -/
  deriveLot : ScalarNotePairTerms → Uint256 → UInt32 → ScalarNoteLot
  /-- The control block of a pot leaf, if the tree is complete and has one. -/
  potControl : CScript → Option (Option Bytes)
  unwindControl : CScript → CScript → Option (Option Bytes)

def ScalarNotePairTerms.nativeCollateral (t : ScalarNotePairTerms) : Bool := t.collateral_asset_id = 0

def checkFeed (t : ScalarNotePairTerms) : Except BuildError PUnit := do
  need (t.descriptor_version = kScalarNotePairDescriptorVersion) "unsupported descriptor_version"
  need (t.source_type = CHAIN_INTRINSIC ∨ t.source_type = ISSUER_PUBLISHED) "invalid source_type"
  need (¬ (t.source_type = CHAIN_INTRINSIC ∧ t.underlying_asset_id ≠ 0))
    "CHAIN_INTRINSIC requires a zero underlying_asset_id"
  need (¬ (t.source_type = ISSUER_PUBLISHED ∧ t.underlying_asset_id = 0))
    "ISSUER_PUBLISHED requires a non-zero underlying_asset_id"
  need (t.payoff_mode = PAYOFF_STRIKE ∨ t.payoff_mode = PAYOFF_REALIZED) "invalid payoff_mode"
  need (t.loss_direction = 0x00 ∨ t.loss_direction = 0x01) "invalid loss_direction"
  need (isKnownScalarFormat t.scalar_format_id) "unknown scalar_format_id"
  need (decodeScalarValue t.scalar_format_id t.strike).isSome
    "strike not canonical for scalar_format_id"
  need (decodeScalarValue t.scalar_format_id t.fallback_scalar).isSome
    "fallback_scalar not canonical for scalar_format_id"

def checkLots (book : NoteBook) (t : ScalarNotePairTerms) : Except BuildError PUnit := do
  need (t.lot_count ≠ 0) "lot_count must be > 0"
  need (t.lambda_q ≠ 0) "lambda_q must be non-zero"
  need (¬ t.vault_im < MIN_SETTLE_OUTPUT.toUInt64) "vault_im below MIN_SETTLE_OUTPUT"
  need (¬ (t.long_token_id = 0 ∨ t.short_token_id = 0)) "token ids L/S must be non-zero"
  need (t.long_token_id ≠ t.short_token_id) "token ids L and S must differ"
  need (¬ (t.long_token_id = t.collateral_asset_id ∨ t.short_token_id = t.collateral_asset_id))
    "token ids must differ from the collateral asset id"
  need ((t.long_token_id, t.short_token_id) = book.tokenIds t)
    "token ids L/S do not match the canonical derivation"
  need (¬ t.settle_lock_height < 1) "settle_lock_height must be >= 1"
  need (¬ t.settle_lock_height.toNat ≥ LOCKTIME_THRESHOLD)
    "settle_lock_height must be a block height (< LOCKTIME_THRESHOLD)"

def checkTotal (t : ScalarNotePairTerms) : Except BuildError PUnit := do
  need (¬ t.lot_count.toNat > (2 ^ 64 - 1) / t.vault_im.toNat)
    "total collateral (lot_count * vault_im) overflows uint64"
  let total ← uint64 (t.lot_count.toNat * t.vault_im.toNat)
  need (¬ (t.nativeCollateral ∧ ((t.vault_im.toNat : Int) > MAX_MONEY ∨ (total : Int) > MAX_MONEY)))
    "native total collateral out of MoneyRange"

def validateScalarNotePairTerms (book : NoteBook) (t : ScalarNotePairTerms) : Except BuildError PUnit := do
  checkFeed t
  checkLots book t
  checkTotal t

structure ValidTerms (t : ScalarNotePairTerms) : Prop where
  margin : 546 ≤ t.vault_im.toNat
  long_set : t.long_token_id ≠ 0
  short_set : t.short_token_id ≠ 0
  differ : t.long_token_id ≠ t.short_token_id
  long_other : t.long_token_id ≠ t.collateral_asset_id
  short_other : t.short_token_id ≠ t.collateral_asset_id
  total : t.lot_count.toNat * t.vault_im.toNat < 2 ^ 64
  native_total : t.collateral_asset_id = 0 →
    t.vault_im.toNat ≤ 2100000000000000 ∧ t.lot_count.toNat * t.vault_im.toNat ≤ 2100000000000000

theorem validateTerms_safe (book : NoteBook) (t : ScalarNotePairTerms) :
    Safe (fun _ => ValidTerms t) (validateScalarNotePairTerms book t) := by
  have feed : Safe (fun _ => True) (checkFeed t) := by
    iterate 8 refine .need_bind fun _ => ?_
    exact (Safe.need _).mono fun _ _ => trivial
  have lots : Safe (fun _ => 546 ≤ t.vault_im.toNat ∧ ¬ (t.long_token_id = 0 ∨ t.short_token_id = 0) ∧
      t.long_token_id ≠ t.short_token_id ∧
      ¬ (t.long_token_id = t.collateral_asset_id ∨ t.short_token_id = t.collateral_asset_id))
      (checkLots book t) := by
    refine .need_bind fun _ => .need_bind fun _ => .need_bind fun margin => ?_
    refine .need_bind fun set => .need_bind fun differ => .need_bind fun other => ?_
    refine .need_bind fun _ => .need_bind fun _ => (Safe.need _).mono fun _ _ => ?_
    refine ⟨?_, set, differ, other⟩
    rw [UInt64.lt_iff_toNat_lt, not_lt] at margin
    exact margin
  refine .bind feed fun _ _ => .bind lots fun _ ⟨margin, set, differ, other⟩ => ?_
  rw [not_or] at set other
  refine .need_bind fun fits => ?_
  have total : t.lot_count.toNat * t.vault_im.toNat < 2 ^ 64 := by
    have product := Nat.mul_le_of_le_div _ _ _ (not_lt.mp fits)
    omega
  refine .uint64_bind total ((Safe.need _).mono fun _ money => ?_)
  refine ⟨margin, set.1, set.2, differ, other.1, other.2, total, fun zero => ?_⟩
  simp only [ScalarNotePairTerms.nativeCollateral, zero, decide_true, true_and, not_or, not_lt] at money
  have most : MAX_MONEY = 2100000000000000 := by decide
  omega

def verifyIssuerIcu (icu : CTxOut) (expected_asset_id : Uint256) (N : UInt32) (side : String) :
    Except BuildError PUnit := do
  let reg ← demand (parseIssuerReg icu.vExt) (.refused (side ++ " ICU input does not carry an IssuerReg"))
  need (reg.asset_id = expected_asset_id) (side ++ " ICU asset_id != committed token id")
  need (reg.policy_bits = MINT_ALLOWED) (side ++
    " token policy_bits must be exactly MINT_ALLOWED (no burn/KYC/TFR/collateral-safe bits)")
  need (reg.kyc_flags = 0) (side ++ " token must have kyc_flags == 0")
  need (reg.tfr_flags = 0) (side ++ " token must have tfr_flags == 0")
  need (reg.icu_flags = 0) (side ++ " token must have icu_flags == 0 (no WRAP_REQUIRED)")
  -- Families that are not set stand for the default.
  need ((if reg.allowed_spk_families = 0 then SPK_DEFAULT_ALLOWED else reg.allowed_spk_families) = SPK_DEFAULT_ALLOWED)
    (side ++ " token allowed_spk_families must be the default coupon set (P2WPKH|P2WSH|P2TR)")
  need (reg.issuance_cap_units.toNat = N.toNat) (side ++ " issuance_cap_units != lot_count")
  need (reg.decimals = 0) (side ++ " asset must have decimals 0")
  need (reg.policy_quorum_bps = 0) (side ++ " governance quorum must be 0 (immutable)")

theorem assetID_of_issuerReg {out : CTxOut} (carries : (parseIssuerReg out.vExt).isSome = true) :
    out.assetID = none := by
  have typed : parseTyped ASSET_TAG out.vExt = none := by
    cases single : parseSingleTLV out.vExt with
    | none => simp [parseTyped, single]
    | some record =>
      obtain ⟨type, value⟩ := record
      by_cases reg : type = ISSUER_REG
      · simp [parseTyped, single, reg, show ISSUER_REG ≠ ASSET_TAG by decide]
      · simp [parseIssuerReg, parseTyped, single, reg] at carries
  simp [CTxOut.assetID, typed]

theorem verifyIssuerIcu_safe {icu : CTxOut} {id : Uint256} {N : UInt32} {side : String} :
    Safe (fun _ => (parseIssuerReg icu.vExt).isSome = true) (verifyIssuerIcu icu id N side) := by
  refine .demand_bind fun reg parsed => ?_
  iterate 8 refine .need_bind fun _ => ?_
  exact (Safe.need _).mono fun _ _ => by simp [parsed]

def mintSpkInDefaultFamily (spk : CScript) : Bool :=
  let fam := spkFamily (solver spk)
  fam ≠ 0 && fam &&& SPK_DEFAULT_ALLOWED = fam

def moneyTexts : MoneyTexts where
  addend := "amount out of MoneyRange"
  total := "summed amount out of MoneyRange"

def collateralTexts : TokenTexts where
  untagged := "collateral input is not asset-tagged"
  other := "collateral input carries a different asset"
  zero := "collateral input carries zero units"
  overflow := "collateral unit sum overflow"

structure ScalarNotePairIssuanceInputs where
  long_icu : FundedOutput
  short_icu : FundedOutput
  collateral_inputs : List FundedOutput
  native_inputs : List FundedOutput

def takeCollateral (terms : ScalarNotePairTerms) (inputs : List FundedOutput) (needed : Nat) (t : Tally) :
    Except BuildError (Nat × Tally) :=
  if terms.nativeCollateral then do
    need inputs.isEmpty "native collateral takes no collateral_inputs"
    .ok (0, t)
  else do
    let collateral ← accumulateTokenInputs collateralTexts moneyTexts inputs terms.collateral_asset_id t
    need (¬ collateral.1 < needed) "insufficient collateral C for N vaults"
    .ok collateral

structure IssuanceScan where
  l_succ : Nat := 0
  s_succ : Nat := 0
  l_minted : Nat := 0
  s_minted : Nat := 0
  /-- The vaults that have been matched. -/
  funded : List CScript := []

def IssuanceScan.fund (s : IssuanceScan) (spk : CScript) : Except BuildError IssuanceScan := do
  need (spk ∉ s.funded) "duplicate vault output"
  .ok { s with funded := s.funded ++ [spk] }

def scanTag (terms : ScalarNotePairTerms) (vaults : List CScript) (s : IssuanceScan) (o : CTxOut)
    (aid : Uint256) (amt : UInt64) : Except BuildError IssuanceScan :=
  if aid = terms.long_token_id then do
    let l_minted ← addUnits "AssetTag(L) output sum overflow" s.l_minted amt
    .ok { s with l_minted }
  else if aid = terms.short_token_id then do
    let s_minted ← addUnits "AssetTag(S) output sum overflow" s.s_minted amt
    .ok { s with s_minted }
  else if ¬ terms.nativeCollateral ∧ aid = terms.collateral_asset_id ∧ o.scriptPubKey ∈ vaults ∧
      amt = terms.vault_im ∧ o.nValue.toInt ≥ kMinAssetOutputDust then s.fund o.scriptPubKey
  else .ok s

def scanOutput (terms : ScalarNotePairTerms) (vaults : List CScript) (s : IssuanceScan) (o : CTxOut) :
    Except BuildError IssuanceScan :=
  match parseIssuerReg o.vExt with
  | some reg =>
    .ok (if reg.asset_id = terms.long_token_id then { s with l_succ := s.l_succ + 1 }
      else if reg.asset_id = terms.short_token_id then { s with s_succ := s.s_succ + 1 } else s)
  | none =>
    match o.assetID, o.assetAmount with
    | some aid, some amt => scanTag terms vaults s o aid amt
    | _, _ =>
      -- A vault of native collateral has the margin as its value and no tag.
      if ¬ o.hasAssetTLV ∧ terms.nativeCollateral ∧ o.nValue.toInt = terms.vault_im.toNat ∧
          o.scriptPubKey ∈ vaults then s.fund o.scriptPubKey
      else .ok s

def vaultScripts (book : NoteBook) (terms : ScalarNotePairTerms) (pair_id : Uint256) : List CScript :=
  (List.range terms.lot_count.toNat).map fun i => (book.deriveLot terms pair_id (UInt32.ofNat i)).vault_spk

def validateScalarNotePairIssuanceTx (book : NoteBook) (terms : ScalarNotePairTerms) (pair_id : Uint256)
    (tx : CTransaction) : Except BuildError PUnit := do
  validateScalarNotePairTerms book terms
  need (pair_id = book.pairId terms) "pair_id does not match terms"
  let N := terms.lot_count.toNat
  let vaults := vaultScripts book terms pair_id
  need (vaults.dedup.length = N) "internal: derived vault scriptPubKey collision"
  let scan ← tx.vout.foldlM (scanOutput terms vaults) {}
  need (scan.l_succ = 1) "expected exactly one L IssuerReg successor"
  need (scan.s_succ = 1) "expected exactly one S IssuerReg successor"
  need (scan.l_minted = N)
    ("minted L units (" ++ toString scan.l_minted ++ ") != lot_count (" ++ toString N ++ ")")
  need (scan.s_minted = N)
    ("minted S units (" ++ toString scan.s_minted ++ ") != lot_count (" ++ toString N ++ ")")
  need (scan.funded.length = N)
    ("funded vaults (" ++ toString scan.funded.length ++ ") != lot_count (" ++ toString N ++ ")")

def issuanceFixed (l_bond s_bond dust : Int) (N : Nat) (vault_native_each : Int) (has_c_change : Bool) :
    Except BuildError Int := do
  let out ← addMoney moneyTexts 0 l_bond
  let out ← addMoney moneyTexts out s_bond
  let out ← addMoney moneyTexts out dust
  let out ← addMoney moneyTexts out dust
  need (¬ (vault_native_each ≠ 0 ∧ (N : Int) > MAX_MONEY / vault_native_each))
    "vault native funding overflow"
  let funding ← int64 (N * vault_native_each)
  let out ← addMoney moneyTexts out funding
  if has_c_change then addMoney moneyTexts out dust else .ok out

def successor (icu : CTxOut) (spk : CScript) : CTxOut := { icu with scriptPubKey := spk }

def vaultOutputs (terms : ScalarNotePairTerms) (vaults : List CScript) (vault_native_each : Int) :
    List CTxOut :=
  vaults.map fun spk =>
    if terms.nativeCollateral then native vault_native_each spk
    else tagged vault_native_each spk terms.collateral_asset_id terms.vault_im.toNat

def buildScalarNotePairIssuance (book : NoteBook) (terms : ScalarNotePairTerms) (pair_id : Uint256)
    (inputs : ScalarNotePairIssuanceInputs)
    (long_icu_successor_spk short_icu_successor_spk : CScript)
    (issuer_token_spk change_spk : CScript) (vault_native_sats fee dust : Int) :
    Except BuildError CTransaction := do
  validateScalarNotePairTerms book terms
  need (pair_id = book.pairId terms) "pair_id does not match terms"
  need (MoneyRange fee) "fee out of MoneyRange"
  need (¬ (dust < kMinAssetOutputDust ∨ ¬ MoneyRange dust)) "dust below floor or out of MoneyRange"
  let N := terms.lot_count.toNat
  need (¬ (¬ terms.nativeCollateral ∧ (vault_native_sats < kMinAssetOutputDust ∨ ¬ MoneyRange vault_native_sats)))
    "vault_native_sats below dust or out of MoneyRange"
  verifyIssuerIcu inputs.long_icu.txout terms.long_token_id terms.lot_count "long"
  verifyIssuerIcu inputs.short_icu.txout terms.short_token_id terms.lot_count "short"
  need (inputs.long_icu.outpoint ≠ inputs.short_icu.outpoint)
    "long and short ICU are the same outpoint"
  need (mintSpkInDefaultFamily issuer_token_spk)
    "issuer_token_spk is not in the coupon family set (mint would be rejected as asset-spk-not-allowed)"
  let native_in ← addMoney moneyTexts 0 inputs.long_icu.txout.nValue.toInt
  let native_in ← addMoney moneyTexts native_in inputs.short_icu.txout.nValue.toInt
  let collateral_needed ← uint64 (N * terms.vault_im.toNat)
  let collateral ← takeCollateral terms inputs.collateral_inputs collateral_needed
    ⟨[inputs.long_icu.outpoint, inputs.short_icu.outpoint], native_in⟩
  let collateral_change := if terms.nativeCollateral then 0 else collateral.1 - collateral_needed
  let has_c_change : Bool := collateral_change > 0
  let tally ← accumulateNativeInputs moneyTexts inputs.native_inputs collateral.2
  need (¬ 2 + (if terms.nativeCollateral then 0 else N) + (if has_c_change then 1 else 0) >
      kDefaultMaxAssetsPerTx) "too many asset outputs for one issuance tx (64 cap)"
  need (¬ 2 + 2 + N + (if has_c_change then 1 else 0) + 1 > MAX_COVENANT_TX_OUTPUTS)
    "too many outputs for one issuance tx"
  let vault_native_each : Int := if terms.nativeCollateral then terms.vault_im.toNat else vault_native_sats
  let native_out_fixed ← issuanceFixed inputs.long_icu.txout.nValue.toInt
    inputs.short_icu.txout.nValue.toInt dust N vault_native_each has_c_change
  let native_change ← leftOver tally.native_in native_out_fixed fee
    "native inputs do not cover bonds + vault funding + dust + fee"
    "native change would be dust; add native input or raise fee"
  let tx := assemble
    (unsigned [inputs.long_icu, inputs.short_icu] ++ unsigned inputs.collateral_inputs ++ unsigned inputs.native_inputs)
    ([successor inputs.long_icu.txout long_icu_successor_spk,
        successor inputs.short_icu.txout short_icu_successor_spk] ++
      ([tagged dust issuer_token_spk terms.long_token_id N, tagged dust issuer_token_spk terms.short_token_id N] ++
        vaultOutputs terms (vaultScripts book terms pair_id) vault_native_each ++ (if has_c_change then
          [tagged dust change_spk terms.collateral_asset_id collateral_change] else []) ++
        leftOverOutput native_change change_spk))
  (validateScalarNotePairIssuanceTx book terms pair_id tx).mapError
    (.within "internal: built issuance tx fails ValidateScalarNotePairIssuanceTx: ")
  .ok tx

def potTexts : TokenTexts where
  untagged := ""
  other := "pot carries the wrong collateral asset"
  zero := "pot carries zero collateral"
  overflow := "collateral sum overflow"

def ScalarNoteLot.side (lot : ScalarNoteLot) (long : Bool) : PotLot :=
  if long then ⟨lot.long_sink_spk, lot.long_pot_spk, lot.long_pot_leaf⟩
  else ⟨lot.short_sink_spk, lot.short_pot_spk, lot.short_pot_leaf⟩

def NoteBook.potRules (book : NoteBook) (terms : ScalarNotePairTerms) (pair_id : Uint256)
    (redeem_long : Bool) : PotRules where
  lot_count := terms.lot_count
  derive i := (book.deriveLot terms pair_id i).side redeem_long
  collateral out units :=
    if terms.nativeCollateral then do
      need (¬ out.hasAssetTLV) "native pot is asset-tagged"
      .ok units
    else addTokens potTexts terms.collateral_asset_id out units
  control := book.potControl
  money := moneyTexts

def collateralPayout (terms : ScalarNotePairTerms) (dust : Int) (spk : CScript) (units : Nat) : List CTxOut :=
  if terms.nativeCollateral then [] else [tagged dust spk terms.collateral_asset_id units]

def ScalarNotePairTerms.tokenId (terms : ScalarNotePairTerms) (long : Bool) : Uint256 :=
  if long then terms.long_token_id else terms.short_token_id

def buildScalarNoteRedemption (book : NoteBook) (terms : ScalarNotePairTerms) (pair_id : Uint256)
    (redeem_long : Bool) (pots : List RedemptionPot) (token_inputs native_inputs : List FundedOutput)
    (holder_spk : CScript) (fee dust : Int) : Except BuildError CTransaction := do
  validateScalarNotePairTerms book terms
  need (pair_id = book.pairId terms) "pair_id does not match terms"
  let k := pots.length
  need (k ≠ 0) "no pots to redeem"
  need (¬ token_inputs.isEmpty) "no token inputs"
  need (MoneyRange fee) "fee out of MoneyRange"
  need (¬ (dust < kMinAssetOutputDust ∨ ¬ MoneyRange dust)) "dust below floor or out of MoneyRange"
  let token_id := terms.tokenId redeem_long
  let pass ← (book.potRules terms pair_id redeem_long).spendAll pots
  let tokens ← accumulateTokenInputs tokenTexts moneyTexts token_inputs token_id pass.tally
  let m := tokens.1
  need (¬ m < k) "insufficient token units for the requested pots"
  let tally ← accumulateNativeInputs moneyTexts native_inputs tokens.2
  let asset_outputs := k + (if m > k then 1 else 0) + if terms.nativeCollateral then 0 else 1
  need (¬ asset_outputs > kDefaultMaxAssetsPerTx) "too many asset outputs for one tx (64 cap)"
  need (¬ asset_outputs + 1 > MAX_COVENANT_TX_OUTPUTS) "too many outputs for one redemption tx"
  let asset_out_dust ← addMoneyTimes moneyTexts dust asset_outputs 0
  let native_sweep ← leftOver tally.native_in fee asset_out_dust
    "inputs do not cover fee + per-output dust"
    "native sweep would be dust; add native input or raise fee"
  .ok (assemble (pass.vin ++ unsigned token_inputs ++ unsigned native_inputs)
    (retired dust token_id (pass.lots.map PotLot.sink_spk) ++ tokenChange dust holder_spk token_id m k ++
      collateralPayout terms dust holder_spk pass.collateral_in ++ leftOverOutput native_sweep holder_spk))

def checkNoteVault (terms : ScalarNotePairTerms) (lot : ScalarNoteLot) (vault : CTxOut) :
    Except BuildError PUnit := do
  need (vault.scriptPubKey = lot.vault_spk) "vault UTXO does not match the derived lot vault"
  if terms.nativeCollateral then do
    need (¬ vault.hasAssetTLV) "native vault is asset-tagged"
    need (¬ (vault.nValue.toInt < 0 ∨ vault.nValue.toUInt64 ≠ terms.vault_im))
      "native vault value != vault_im"
  else do
    need (vault.assetID = some terms.collateral_asset_id) "vault carries the wrong collateral asset"
    need (vault.assetAmount = some terms.vault_im) "vault collateral != vault_im"

def buildScalarUnwind (book : NoteBook) (terms : ScalarNotePairTerms) (pair_id : Uint256)
    (lot_index : UInt32) (vault : FundedOutput)
    (long_token_inputs short_token_inputs native_inputs : List FundedOutput) (holder_spk : CScript)
    (fee dust : Int) : Except BuildError CTransaction := do
  validateScalarNotePairTerms book terms
  need (pair_id = book.pairId terms) "pair_id does not match terms"
  need (¬ lot_index ≥ terms.lot_count) "lot_index out of range"
  need (MoneyRange fee) "fee out of MoneyRange"
  need (¬ (dust < kMinAssetOutputDust ∨ ¬ MoneyRange dust)) "dust below floor or out of MoneyRange"
  need (¬ (long_token_inputs.isEmpty ∨ short_token_inputs.isEmpty))
    "unwind needs both L and S token inputs"
  let lot := book.deriveLot terms pair_id lot_index
  checkNoteVault terms lot vault.txout
  let native_in ← addMoney moneyTexts 0 vault.txout.nValue.toInt
  let long ← accumulateTokenInputs tokenTexts moneyTexts long_token_inputs terms.long_token_id
    ⟨[vault.outpoint], native_in⟩
  need (¬ long.1 < 1) "unwind needs at least 1 L unit"
  let short ← accumulateTokenInputs tokenTexts moneyTexts short_token_inputs terms.short_token_id long.2
  need (¬ short.1 < 1) "unwind needs at least 1 S unit"
  let tally ← accumulateNativeInputs moneyTexts native_inputs short.2
  let spend ← demand (book.unwindControl lot.settle_leaf lot.unwind_leaf)
    (.refused "vault builder incomplete")
  let control ← demand spend (.refused "could not reconstruct unwind control block")
  let asset_outputs := 2 + (if long.1 > 1 then 1 else 0) + (if short.1 > 1 then 1 else 0) +
    if terms.nativeCollateral then 0 else 1
  need (¬ asset_outputs > kDefaultMaxAssetsPerTx) "too many asset outputs for one tx (64 cap)"
  need (¬ asset_outputs + 1 > MAX_COVENANT_TX_OUTPUTS) "too many outputs for one unwind tx"
  let asset_out_dust ← addMoneyTimes moneyTexts dust asset_outputs 0
  let native_sweep ← leftOver tally.native_in fee asset_out_dust
    "inputs do not cover fee + per-output dust"
    "native sweep would be dust; add native input or raise fee"
  .ok (assemble (txIn vault.outpoint [lot.unwind_leaf, control] ::
      (unsigned long_token_inputs ++ unsigned short_token_inputs ++ unsigned native_inputs))
    (retired dust terms.long_token_id [lot.long_sink_spk] ++ retired dust terms.short_token_id [lot.short_sink_spk] ++
      tokenChange dust holder_spk terms.long_token_id long.1 1 ++
      tokenChange dust holder_spk terms.short_token_id short.1 1 ++
      collateralPayout terms dust holder_spk terms.vault_im.toNat ++ leftOverOutput native_sweep holder_spk))

def heldCollateral (terms : ScalarNotePairTerms) (units : Nat) (id : Uint256) : Nat :=
  if terms.nativeCollateral then 0 else if id = terms.collateral_asset_id then units else 0

variable {dust each : Int} {terms : ScalarNotePairTerms}

theorem Carriers.collateral {spk : CScript} {units : Nat} (range : MoneyRange dust = true)
    (fits : units < 2 ^ 64) :
    Carriers dust (if terms.nativeCollateral then 0 else 1) (heldCollateral terms units)
      (collateralPayout terms dust spk units) := by
  unfold collateralPayout heldCollateral
  split_ifs with native
  · exact .none dust
  · exact .one range (by simpa [ScalarNotePairTerms.nativeCollateral] using native) fits

theorem collateralPayout_spk {spk : CScript} {units : Nat} :
    ∀ o ∈ collateralPayout terms dust spk units, o.scriptPubKey = spk := by
  intro o member
  unfold collateralPayout at member
  split_ifs at member
  · cases member
  · rw [List.mem_singleton.mp member]
    rfl

/-- A redemption or unwinding: one unit of a token to each sink, the rest to the holder. -/
structure Retires (spent : List FundedOutput) (sinks : List (CScript × Uint256)) (holder_spk : CScript)
    (fee dust : Int) (tx : CTransaction) : Prop where
  balanced : Balanced spent fee (fun _ => 0) tx
  outputs : ∃ rest, tx.vout = (sinks.map fun s => tagged dust s.1 s.2 1) ++ rest ∧
    ∀ o ∈ rest, o.scriptPubKey = holder_spk
  floor : ∀ o ∈ tx.vout, kMinAssetOutputDust ≤ o.nValue.toInt

def IsNative (o : CTxOut) : Prop := parseIssuerReg o.vExt = none ∧ o.hasAssetTLV = false

/-- An issuance: new units of each token for the lots, and the credentials with their values. -/
structure Issues (terms : ScalarNotePairTerms) (inputs : ScalarNotePairIssuanceInputs)
    (long_spk short_spk : CScript) (fee : Int) (tx : CTransaction) : Prop where
  balanced : Balanced
    (inputs.long_icu :: inputs.short_icu :: (inputs.collateral_inputs ++ inputs.native_inputs)) fee
    (fun id => if id = terms.long_token_id ∨ id = terms.short_token_id then terms.lot_count.toNat else 0) tx
  outputs : ∃ rest, tx.vout = successor inputs.long_icu.txout long_spk ::
      successor inputs.short_icu.txout short_spk :: rest ∧ ∀ o ∈ rest, kMinAssetOutputDust ≤ o.nValue.toInt
  floor : ∀ o ∈ tx.vout, IsNative o → kMinAssetOutputDust ≤ o.nValue.toInt

theorem noteRedemption_safe (book : NoteBook) (terms : ScalarNotePairTerms) (pair_id : Uint256)
    (redeem_long : Bool) (pots : List RedemptionPot) (token_inputs native_inputs : List FundedOutput)
    (holder_spk : CScript) (fee dust : Int) : Safe (fun tx =>
        Retires (pots.map RedemptionPot.pot ++ token_inputs ++ native_inputs)
          (pots.map fun rp => (((book.deriveLot terms pair_id rp.lot_index).side redeem_long).sink_spk,
            terms.tokenId redeem_long)) holder_spk fee dust tx ∧ (pots.map RedemptionPot.lot_index).Nodup)
      (buildScalarNoteRedemption book terms pair_id redeem_long pots token_inputs native_inputs
        holder_spk fee dust) := by
  refine .bind (validateTerms_safe book terms) fun _ valid => .need_bind fun _ => ?_
  refine .need_bind fun some_pot => .need_bind fun _ => .need_bind fun fee_range => ?_
  refine .need_bind fun dust_range => ?_
  rw [not_or, not_lt, not_not] at dust_range
  obtain ⟨floor, dust_range⟩ := dust_range
  have passed : Safe (PotPass.Covers (book.potRules terms pair_id redeem_long) (heldCollateral terms) pots)
      ((book.potRules terms pair_id redeem_long).spendAll pots) := by
    refine PotRules.spendAll_safe (fun id => by simp [heldCollateral]) fun out units fits => ?_
    unfold NoteBook.potRules heldCollateral
    dsimp only
    split_ifs with native
    · refine .bind untagged_safe fun _ plain => .ok ⟨fits, fun id => ?_⟩
      rw [unitsOn_untagged plain]
    · exact (addTokens_safe fits).mono fun sum added => ⟨added.1, added.2.2⟩
  refine .bind passed fun pass pots_done => ?_
  refine .bind (accumulateTokenInputs_safe pots_done.covers) fun tokens ⟨covered, fits, set⟩ => ?_
  refine .need_bind fun enough => ?_
  refine .bind (accumulateNativeInputs_safe covered) fun tally covers => ?_
  refine .need_bind fun _ => .need_bind fun _ => ?_
  refine .bind (addMoneyTimes_safe (by decide)) fun total ⟨product, range⟩ => ?_
  refine .bind (leftOver_safe covers.range fee_range range) fun rest ⟨swept, low, high, clean⟩ => .ok ?_
  have set := set (by omega)
  have sinks := Carriers.retired dust_range set (pass.lots.map PotLot.sink_spk)
  have change : Carriers dust _ _
      (tokenChange dust holder_spk (terms.tokenId redeem_long) tokens.1 pots.length) :=
    .tokenChange dust_range set enough fits
  have payout : Carriers dust _ _ (collateralPayout terms dust holder_spk pass.collateral_in) :=
    Carriers.collateral dust_range pots_done.fits
  have count : (pass.lots.map PotLot.sink_spk).length = pots.length := by simp [pots_done.lots]
  rw [count] at sinks
  have revealed : (pass.vin ++ unsigned token_inputs ++ unsigned native_inputs).map CTxIn.prevout =
      outpointsOf (pots.map RedemptionPot.pot ++ token_inputs ++ native_inputs) := by
    simp [pots_done.revealed, prevouts_unsigned]
  rw [Int.zero_add] at product
  obtain ⟨balanced, above⟩ := balanced_of_carriers covers revealed
    ((sinks.append change).append payout)
    (fun id => by split_ifs <;> omega) floor (product ▸ swept) low high clean
  refine ⟨⟨balanced, ⟨tokenChange dust holder_spk (terms.tokenId redeem_long) tokens.1 pots.length ++
    collateralPayout terms dust holder_spk pass.collateral_in ++ leftOverOutput rest holder_spk, ?_, ?_⟩,
    above⟩, pots_done.distinct⟩
  · simp [assemble, retired, pots_done.lots, NoteBook.potRules, Function.comp_def]
  · intro o member
    simp only [List.mem_append] at member
    rcases member with (change | payout) | swept
    · exact tokenChange_spk o change
    · exact collateralPayout_spk o payout
    · exact leftOverOutput_spk o swept

theorem checkNoteVault_safe {lot : ScalarNoteLot} {vault : CTxOut} :
    Safe (fun _ => ∀ id, unitsOn id vault = heldCollateral terms terms.vault_im.toNat id)
      (checkNoteVault terms lot vault) := by
  refine .need_bind fun _ => ?_
  unfold heldCollateral
  split_ifs with native
  · refine .need_bind fun plain => (Safe.need _).mono fun _ _ id => ?_
    rw [unitsOn_untagged (assetID_eq_none plain)]
  · refine .need_bind fun named => (Safe.need _).mono fun _ amount id => ?_
    rw [unitsOn, named, amount]
    by_cases same : id = terms.collateral_asset_id
    · simp [same]
    · simp [same, Ne.symm same]

theorem unwind_safe (book : NoteBook) (terms : ScalarNotePairTerms) (pair_id : Uint256)
    (lot_index : UInt32) (vault : FundedOutput)
    (long_token_inputs short_token_inputs native_inputs : List FundedOutput) (holder_spk : CScript)
    (fee dust : Int) :
    Safe
      (Retires (vault :: (long_token_inputs ++ short_token_inputs ++ native_inputs))
         [((book.deriveLot terms pair_id lot_index).long_sink_spk, terms.long_token_id),
          ((book.deriveLot terms pair_id lot_index).short_sink_spk, terms.short_token_id)]
         holder_spk fee dust)
      (buildScalarUnwind book terms pair_id lot_index vault long_token_inputs short_token_inputs
         native_inputs holder_spk fee dust) := by
  refine .bind (validateTerms_safe book terms) fun _ valid => .need_bind fun _ => ?_
  refine .need_bind fun _ => .need_bind fun fee_range => .need_bind fun dust_range => ?_
  rw [not_or, not_lt, not_not] at dust_range
  obtain ⟨floor, dust_range⟩ := dust_range
  refine .need_bind fun _ => .bind checkNoteVault_safe fun _ margin => ?_
  refine .bind (addMoney_safe (by decide)) fun native_in made => ?_
  obtain ⟨added, range, _⟩ := made
  have start : Tally.Covers ⟨[vault.outpoint], native_in⟩ [vault]
      (heldCollateral terms terms.vault_im.toNat) :=
    { seen := rfl
      once := by simp [outpointsOf]
      value := by simp [added, outputsOf]
      range := range
      units := fun id => by simp [outputsOf, margin] }
  refine .bind (accumulateTokenInputs_safe start) fun long made => ?_
  obtain ⟨covered, long_fits, _⟩ := made
  refine .need_bind fun long_some => ?_
  refine .bind (accumulateTokenInputs_safe covered) fun short made => ?_
  obtain ⟨covered, short_fits, _⟩ := made
  refine .need_bind fun short_some => ?_
  refine .bind (accumulateNativeInputs_safe covered) fun tally covers => ?_
  refine .demand_bind fun spend _ => .demand_bind fun control _ => ?_
  refine .need_bind fun _ => .need_bind fun _ => ?_
  refine .bind (addMoneyTimes_safe (by decide)) fun total made => ?_
  obtain ⟨product, range⟩ := made
  refine .bind (leftOver_safe covers.range fee_range range) fun rest made => ?_
  obtain ⟨swept, low, high, clean⟩ := made
  refine .ok ?_
  rw [Int.zero_add] at product
  have sinks := (Carriers.retired dust_range valid.long_set
    [(book.deriveLot terms pair_id lot_index).long_sink_spk]).append
      (Carriers.retired dust_range valid.short_set
        [(book.deriveLot terms pair_id lot_index).short_sink_spk])
  have long_change : Carriers dust _ _ (tokenChange dust holder_spk terms.long_token_id long.1 1) :=
    .tokenChange dust_range valid.long_set long_some long_fits
  have short_change : Carriers dust _ _ (tokenChange dust holder_spk terms.short_token_id short.1 1) :=
    .tokenChange dust_range valid.short_set short_some short_fits
  have payout : Carriers dust _ _ (collateralPayout terms dust holder_spk terms.vault_im.toNat) :=
    Carriers.collateral dust_range terms.vault_im.toNat_lt
  have revealed : (txIn vault.outpoint [(book.deriveLot terms pair_id lot_index).unwind_leaf, control] ::
      (unsigned long_token_inputs ++ unsigned short_token_inputs ++ unsigned native_inputs)).map
        CTxIn.prevout = outpointsOf ([vault] ++ long_token_inputs ++ short_token_inputs ++ native_inputs) := by
    simp [prevouts_unsigned, outpointsOf, txIn]
  obtain ⟨balanced, above⟩ := balanced_of_carriers covers revealed
    (((sinks.append long_change).append short_change).append payout)
    (fun id => by
      simp only [List.length_singleton]
      split_ifs <;> omega) floor (product ▸ swept) low high clean
  refine ⟨by simpa using balanced, ⟨tokenChange dust holder_spk terms.long_token_id long.1 1 ++
    tokenChange dust holder_spk terms.short_token_id short.1 1 ++
    collateralPayout terms dust holder_spk terms.vault_im.toNat ++ leftOverOutput rest holder_spk,
    by simp [assemble, retired], ?_⟩, above⟩
  intro o member
  simp only [List.mem_append] at member
  rcases member with ((long_change | short_change) | payout) | swept
  · exact tokenChange_spk o long_change
  · exact tokenChange_spk o short_change
  · exact collateralPayout_spk o payout
  · exact leftOverOutput_spk o swept

theorem takeCollateral_safe {inputs spent : List FundedOutput} {needed : Nat}
    {t : Tally} (covers : t.Covers spent fun _ => 0) :
    Safe (fun r => r.2.Covers (spent ++ inputs) (heldCollateral terms r.1) ∧ r.1 < 2 ^ 64 ∧
        (terms.nativeCollateral = false → needed ≤ r.1)) (takeCollateral terms inputs needed t) := by
  unfold takeCollateral
  split_ifs with native
  · refine .need_bind fun empty => .ok ⟨?_, by simp, by simp [native]⟩
    rw [List.isEmpty_iff.mp empty, List.append_nil]
    exact covers.congr fun id => by simp [heldCollateral]
  · refine .bind (accumulateTokenInputs_safe covers) fun collateral ⟨covered, fits, _⟩ => ?_
    refine .need_bind fun enough => .ok ⟨?_, fits, fun _ => not_lt.mp enough⟩
    exact covered.congr fun id => by simp [heldCollateral, native]

theorem issuanceFixed_safe {l_bond s_bond : Int} {N : Nat} {has_c_change : Bool} (low : 0 ≤ each) :
    Safe (fun out => out = l_bond + s_bond + 2 * dust + N * each + (if has_c_change then dust else 0) ∧
        MoneyRange out = true) (issuanceFixed l_bond s_bond dust N each has_c_change) := by
  have most : MAX_MONEY = 2100000000000000 := by decide
  refine .bind (addMoney_safe (by decide)) fun one ⟨first, range, _⟩ => ?_
  refine .bind (addMoney_safe range) fun two ⟨second, range, _⟩ => ?_
  refine .bind (addMoney_safe range) fun three ⟨third, range, _⟩ => ?_
  refine .bind (addMoney_safe range) fun four ⟨fourth, range, _⟩ => ?_
  refine .need_bind fun fits => ?_
  have funding : 0 ≤ (N : Int) * each ∧ (N : Int) * each ≤ 2100000000000000 := by
    refine ⟨Int.mul_nonneg (Int.natCast_nonneg _) low, ?_⟩
    rcases eq_or_lt_of_le low with zero | above
    · simp [← zero]
    · rw [not_and, not_lt, most] at fits
      exact (Int.le_ediv_iff_mul_le above).mp (fits (ne_of_gt above))
  refine .int64_bind (by omega) (by omega) ?_
  refine .bind (addMoney_safe range) fun five ⟨fifth, range, _⟩ => ?_
  split_ifs with change
  · refine (addMoney_safe range).mono fun six ⟨sixth, range, _⟩ => ⟨?_, range⟩
    rw [sixth, fifth, fourth, third, second, first]
    ring
  · refine .ok ⟨?_, range⟩
    rw [fifth, fourth, third, second, first]
    ring

theorem validateIssuance_safe (book : NoteBook) (terms : ScalarNotePairTerms) (pair_id : Uint256)
    (tx : CTransaction) : Safe (fun _ => True) (validateScalarNotePairIssuanceTx book terms pair_id tx) := by
  refine .bind (validateTerms_safe book terms) fun _ _ => .need_bind fun _ => .need_bind fun _ => ?_
  have funded : ∀ (s : IssuanceScan) spk, s.l_minted < 2 ^ 64 ∧ s.s_minted < 2 ^ 64 →
      Safe (fun s : IssuanceScan => s.l_minted < 2 ^ 64 ∧ s.s_minted < 2 ^ 64) (s.fund spk) :=
    fun s spk small => .need_bind fun _ => .ok small
  have added : ∀ text units amt, units < 2 ^ 64 → Safe (· < 2 ^ 64) (addUnits text units amt) := by
    intro text units amt small
    refine .need_bind fun room => (Safe.uint64 (by omega)).mono ?_
    rintro _ rfl
    omega
  have scanned : Safe (fun s : IssuanceScan => s.l_minted < 2 ^ 64 ∧ s.s_minted < 2 ^ 64)
      (tx.vout.foldlM (scanOutput terms (vaultScripts book terms pair_id)) {}) := by
    refine .foldlM (P := fun _ (s : IssuanceScan) => s.l_minted < 2 ^ 64 ∧ s.s_minted < 2 ^ 64) ?_
      (by decide)
    intro done o s small
    unfold scanOutput scanTag
    split
    · split_ifs <;> exact .ok small
    · split
      · split_ifs
        · exact .bind (added _ _ _ small.1) fun _ fits => .ok ⟨fits, small.2⟩
        · exact .bind (added _ _ _ small.2) fun _ fits => .ok ⟨small.1, fits⟩
        · exact funded s _ small
        · exact .ok small
      · split_ifs
        · exact funded s _ small
        · exact .ok small
  refine .bind scanned fun scan _ => ?_
  iterate 4 refine .need_bind fun _ => ?_
  exact (Safe.need _).mono fun _ _ => trivial

theorem vaultOutputs_spec (vaults : List CScript) (low : 0 ≤ each) (high : each ≤ 2100000000000000) :
    nativeValue (vaultOutputs terms vaults each) = vaults.length * each ∧
      (∀ id, unitsIn id (vaultOutputs terms vaults each) =
        heldCollateral terms (vaults.length * terms.vault_im.toNat) id) ∧
      ∀ o ∈ vaultOutputs terms vaults each, o.nValue.toInt = each := by
  have length : (vaultOutputs terms vaults each).length = vaults.length := by simp [vaultOutputs]
  have value : ∀ o ∈ vaultOutputs terms vaults each, o.nValue.toInt = each := by
    intro o member
    obtain ⟨spk, _, rfl⟩ := List.mem_map.mp member
    split_ifs <;> exact value_of_fits low high
  refine ⟨by rw [nativeValue_of_all value, length], fun id => ?_, value⟩
  have units : ∀ o ∈ vaultOutputs terms vaults each, unitsOn id o = heldCollateral terms terms.vault_im.toNat id := by
    intro o member
    obtain ⟨spk, _, rfl⟩ := List.mem_map.mp member
    unfold heldCollateral
    split_ifs with native same
    · exact unitsOn_untagged (native_untagged each spk) id
    · rw [unitsOn_tagged (by simpa [ScalarNotePairTerms.nativeCollateral] using native)
        terms.vault_im.toNat_lt, if_pos same]
    · rw [unitsOn_tagged (by simpa [ScalarNotePairTerms.nativeCollateral] using native)
        terms.vault_im.toNat_lt, if_neg same]
  rw [unitsIn_of_all units, length]
  unfold heldCollateral
  split_ifs <;> simp

theorem Carriers.change {terms : ScalarNotePairTerms} {dust : Int} {spk : CScript} {change : Nat}
    (range : MoneyRange dust = true) (fits : change < 2 ^ 64)
    (none_native : terms.nativeCollateral = true → change = 0) :
    Carriers dust (if change > 0 then 1 else 0) (heldCollateral terms change)
      (if change > 0 then [tagged dust spk terms.collateral_asset_id change] else []) := by
  split_ifs with some_left
  · have asset : terms.nativeCollateral = false := by
      rw [Bool.eq_false_iff]
      intro native
      exact absurd (none_native native) (by omega)
    have one : Carriers dust 1 _ [tagged dust spk terms.collateral_asset_id change] :=
      .one range (by simpa [ScalarNotePairTerms.nativeCollateral] using asset) fits
    exact ⟨one.value, fun id => by simp [one.units, heldCollateral, asset], one.each⟩
  · have nothing := Carriers.none dust
    refine ⟨nothing.value, fun id => ?_, nothing.each⟩
    have zero : change = 0 := by omega
    simp [heldCollateral, zero]

theorem issues_of_tally {inputs : ScalarNotePairIssuanceInputs}
    {vaults : List CScript} {long_spk short_spk issuer_token_spk change_spk : CScript}
    {fee rest : Int} {tally : Tally} {collateral change : Nat} (valid : ValidTerms terms)
    (long_reg : (parseIssuerReg inputs.long_icu.txout.vExt).isSome = true)
    (short_reg : (parseIssuerReg inputs.short_icu.txout.vExt).isSome = true) (covers : tally.Covers
      (inputs.long_icu :: inputs.short_icu :: (inputs.collateral_inputs ++ inputs.native_inputs))
      (heldCollateral terms collateral)) (lots : vaults.length = terms.lot_count.toNat)
    (range : MoneyRange dust = true) (floor : kMinAssetOutputDust ≤ dust)
    (each_low : kMinAssetOutputDust ≤ each) (each_high : each ≤ 2100000000000000)
    (change_fits : change < 2 ^ 64) (returned : ∀ id, heldCollateral terms collateral id =
      heldCollateral terms (terms.lot_count.toNat * terms.vault_im.toNat) id + heldCollateral terms change id)
    (none_native : terms.nativeCollateral = true → change = 0)
    (swept : tally.native_in = inputs.long_icu.txout.nValue.toInt + inputs.short_icu.txout.nValue.toInt +
      2 * dust + terms.lot_count.toNat * each + (if change > 0 then dust else 0) + fee + rest)
    (low : 0 ≤ rest) (high : rest ≤ 2100000000000000) (clean : 0 < rest → kMinAssetOutputDust ≤ rest) :
    Issues terms inputs long_spk short_spk fee (assemble
      (unsigned [inputs.long_icu, inputs.short_icu] ++ unsigned inputs.collateral_inputs ++
        unsigned inputs.native_inputs)
      ([successor inputs.long_icu.txout long_spk, successor inputs.short_icu.txout short_spk] ++
        ([tagged dust issuer_token_spk terms.long_token_id terms.lot_count.toNat,
            tagged dust issuer_token_spk terms.short_token_id terms.lot_count.toNat] ++
          vaultOutputs terms vaults each ++
          (if change > 0 then [tagged dust change_spk terms.collateral_asset_id change] else []) ++
          leftOverOutput rest change_spk))) := by
  have few : terms.lot_count.toNat < 2 ^ 64 := lt_trans terms.lot_count.toNat_lt (by decide)
  have mints : Carriers dust 2 _ [tagged dust issuer_token_spk terms.long_token_id terms.lot_count.toNat,
      tagged dust issuer_token_spk terms.short_token_id terms.lot_count.toNat] :=
    (Carriers.one range valid.long_set few).append (.one range valid.short_set few)
  have back : Carriers dust _ _ (if change > 0 then
      [tagged dust change_spk terms.collateral_asset_id change] else []) :=
    Carriers.change range change_fits none_native
  obtain ⟨vault_value, vault_units, vault_each⟩ :=
    @vaultOutputs_spec each terms vaults (le_trans (by decide) each_low) each_high
  rw [lots] at vault_value vault_units
  obtain ⟨rest_value, rest_units, rest_each⟩ := @leftOverOutput_spec change_spk rest low high clean
  have others : ∀ o ∈ [tagged dust issuer_token_spk terms.long_token_id terms.lot_count.toNat,
      tagged dust issuer_token_spk terms.short_token_id terms.lot_count.toNat] ++ vaultOutputs terms vaults each ++
        (if change > 0 then [tagged dust change_spk terms.collateral_asset_id change] else []) ++
        leftOverOutput rest change_spk, kMinAssetOutputDust ≤ o.nValue.toInt := by
    intro o member
    simp only [List.mem_append] at member
    rcases member with ((mint | vault) | change) | last
    · rw [mints.each o mint]
      exact floor
    · rw [vault_each o vault]
      exact each_low
    · rw [back.each o change]
      exact floor
    · exact rest_each o last
  have revealed : (unsigned [inputs.long_icu, inputs.short_icu] ++ unsigned inputs.collateral_inputs ++
      unsigned inputs.native_inputs).map CTxIn.prevout = outpointsOf
        (inputs.long_icu :: inputs.short_icu :: (inputs.collateral_inputs ++ inputs.native_inputs)) := by
    simp [prevouts_unsigned, outpointsOf]
  have icus : ∀ id, unitsIn id [successor inputs.long_icu.txout long_spk,
      successor inputs.short_icu.txout short_spk] = 0 := by
    intro id
    have long_plain : (successor inputs.long_icu.txout long_spk).assetID = none := assetID_of_issuerReg long_reg
    have short_plain : (successor inputs.short_icu.txout short_spk).assetID = none := assetID_of_issuerReg short_reg
    simp [unitsOn_untagged long_plain, unitsOn_untagged short_plain]
  refine ⟨⟨revealed, ?_, ?_, ?_⟩, ⟨_, rfl, others⟩, ?_⟩
  · exact revealed ▸ covers.once
  · rw [← covers.value, swept, assemble]
    simp only [nativeValue_append, mints.value, vault_value, back.value, rest_value, nativeValue_cons,
      nativeValue_nil, successor]
    split_ifs <;> push_cast <;> ring
  · intro id
    rw [covers.units, returned, assemble]
    simp only [unitsIn_append, icus, mints.units, vault_units, back.units, rest_units]
    have differ := valid.differ
    by_cases long : id = terms.long_token_id
    · simp [long, differ]
      omega
    · by_cases short : id = terms.short_token_id
      · simp [short, Ne.symm differ]
        omega
      · simp [long, short]
  · intro o member plain
    rcases List.mem_append.mp member with icu | other
    · -- The successors carry their registrations on.
      simp only [List.mem_cons, List.not_mem_nil, or_false] at icu
      rcases icu with rfl | rfl
      · exact absurd plain.1 (Option.isSome_iff_ne_none.mp long_reg)
      · exact absurd plain.1 (Option.isSome_iff_ne_none.mp short_reg)
    · exact others o other

theorem issuance_safe (book : NoteBook) (terms : ScalarNotePairTerms) (pair_id : Uint256)
    (inputs : ScalarNotePairIssuanceInputs) (long_icu_successor_spk short_icu_successor_spk : CScript)
    (issuer_token_spk change_spk : CScript) (vault_native_sats fee dust : Int) :
    Safe (Issues terms inputs long_icu_successor_spk short_icu_successor_spk fee)
      (buildScalarNotePairIssuance book terms pair_id inputs long_icu_successor_spk
        short_icu_successor_spk issuer_token_spk change_spk vault_native_sats fee dust) := by
  refine .bind (validateTerms_safe book terms) fun _ valid => .need_bind fun _ => ?_
  refine .need_bind fun fee_range => .need_bind fun dust_range => .need_bind fun carrier => ?_
  rw [not_or, not_lt, not_not] at dust_range
  obtain ⟨floor, dust_range⟩ := dust_range
  refine .bind verifyIssuerIcu_safe fun _ long_reg => .bind verifyIssuerIcu_safe fun _ short_reg => ?_
  refine .need_bind fun differ => .need_bind fun _ => ?_
  refine .bind (addMoney_safe (by decide)) fun one made => ?_
  obtain ⟨first, range, _⟩ := made
  refine .bind (addMoney_safe range) fun native_in made => ?_
  obtain ⟨second, range, _⟩ := made
  have long_plain := assetID_of_issuerReg long_reg
  have short_plain := assetID_of_issuerReg short_reg
  have start : Tally.Covers ⟨[inputs.long_icu.outpoint, inputs.short_icu.outpoint], native_in⟩
      [inputs.long_icu, inputs.short_icu] fun _ => 0 :=
    { seen := rfl
      once := by simp [outpointsOf, differ]
      value := by simp [second, first, outputsOf]
      range := range
      units := fun id => by
        simp [outputsOf, unitsOn_untagged long_plain, unitsOn_untagged short_plain] }
  refine .uint64_bind valid.total ?_
  refine .bind (takeCollateral_safe start) fun collateral made => ?_
  obtain ⟨covered, fits, enough⟩ := made
  refine .bind (accumulateNativeInputs_safe covered) fun tally covers => ?_
  refine .need_bind fun _ => .need_bind fun _ => ?_
  -- What a vault is funded with, in either kind of collateral.
  obtain ⟨each, each_eq⟩ : ∃ each : Int, each =
      if terms.nativeCollateral then (terms.vault_im.toNat : Int) else vault_native_sats := ⟨_, rfl⟩
  have each_range : kMinAssetOutputDust ≤ each ∧ each ≤ 2100000000000000 := by
    have margin := valid.margin
    rw [each_eq]
    split_ifs with native
    · have total := valid.native_total (by simpa [ScalarNotePairTerms.nativeCollateral] using native)
      simp only [kMinAssetOutputDust]
      omega
    · simp only [native, Bool.false_eq_true, not_false_eq_true, true_and, not_or, not_lt, not_not] at carrier
      exact ⟨carrier.1, (money_fits carrier.2).2⟩
  obtain ⟨change, change_eq⟩ : ∃ change : Nat, change = if terms.nativeCollateral then 0
      else collateral.1 - terms.lot_count.toNat * terms.vault_im.toNat := ⟨_, rfl⟩
  have change_range : change < 2 ^ 64 ∧ (terms.nativeCollateral = true → change = 0) := by
    rw [change_eq]
    split_ifs with native
    · exact ⟨by simp, fun _ => rfl⟩
    · exact ⟨by omega, fun yes => absurd yes native⟩
  simp only [← each_eq, ← change_eq, decide_eq_true_eq]
  have above_zero : 0 ≤ each := le_trans (by decide) each_range.1
  refine .bind (issuanceFixed_safe above_zero) fun fixed made => ?_
  obtain ⟨sum, fixed_range⟩ := made
  refine .bind (leftOver_safe covers.range fixed_range fee_range) fun rest made => ?_
  obtain ⟨swept, low, high, clean⟩ := made
  refine .bind ((validateIssuance_safe book terms pair_id _).within _) fun _ _ => .ok ?_
  have covers : tally.Covers
      (inputs.long_icu :: inputs.short_icu :: (inputs.collateral_inputs ++ inputs.native_inputs))
      (heldCollateral terms collateral.1) := by simpa using covers
  refine issues_of_tally valid long_reg short_reg covers (by simp [vaultScripts]) dust_range floor
    each_range.1 each_range.2 change_range.1 (fun id => ?_) change_range.2 ?_ low high clean
  · unfold heldCollateral
    split_ifs with native same
    · rfl
    · have asset := enough (by simpa using native)
      rw [change_eq, if_neg native]
      omega
    · rfl
  · rw [swept, sum]
    simp only [decide_eq_true_eq]

/-- **Note-pair builders balance.** No sum leaves its type. What is built spends no outpoint twice
and pays exactly the fee; units go out as they came in, apart from one of each token for every
issued lot, and a retired lot sends one to its sink. No native output is below the floor. -/
theorem scalarBuilders_balance (book : NoteBook) (terms : ScalarNotePairTerms) (pair_id : Uint256)
    (spk : CScript) (fee dust : Int) : (∀ inputs long_spk short_spk token_spk vault_native_sats,
      buildScalarNotePairIssuance book terms pair_id inputs long_spk short_spk token_spk spk
        vault_native_sats fee dust ≠ .error .overflow ∧
      ∀ tx, buildScalarNotePairIssuance book terms pair_id inputs long_spk short_spk token_spk spk
          vault_native_sats fee dust = .ok tx → Issues terms inputs long_spk short_spk fee tx) ∧
    (∀ redeem_long pots token_inputs native_inputs,
      buildScalarNoteRedemption book terms pair_id redeem_long pots token_inputs native_inputs spk fee
        dust ≠ .error .overflow ∧
      ∀ tx, buildScalarNoteRedemption book terms pair_id redeem_long pots token_inputs native_inputs spk
          fee dust = .ok tx → Retires (pots.map RedemptionPot.pot ++ token_inputs ++ native_inputs)
          (pots.map fun rp => (((book.deriveLot terms pair_id rp.lot_index).side redeem_long).sink_spk,
            terms.tokenId redeem_long)) spk fee dust tx ∧ (pots.map RedemptionPot.lot_index).Nodup) ∧
    ∀ lot_index vault long_token_inputs short_token_inputs native_inputs,
      buildScalarUnwind book terms pair_id lot_index vault long_token_inputs short_token_inputs
        native_inputs spk fee dust ≠ .error .overflow ∧
      ∀ tx, buildScalarUnwind book terms pair_id lot_index vault long_token_inputs short_token_inputs
          native_inputs spk fee dust = .ok tx →
        Retires (vault :: (long_token_inputs ++ short_token_inputs ++ native_inputs))
          [((book.deriveLot terms pair_id lot_index).long_sink_spk, terms.long_token_id),
            ((book.deriveLot terms pair_id lot_index).short_sink_spk, terms.short_token_id)]
          spk fee dust tx := by
  refine ⟨?_, ?_, ?_⟩
  · intro inputs long_spk short_spk token_spk vault_native_sats
    exact issuance_safe book terms pair_id inputs long_spk short_spk token_spk spk vault_native_sats fee
      dust
  · intro redeem_long pots token_inputs native_inputs
    exact noteRedemption_safe book terms pair_id redeem_long pots token_inputs native_inputs spk fee dust
  · intro lot_index vault long_token_inputs short_token_inputs native_inputs
    exact unwind_safe book terms pair_id lot_index vault long_token_inputs short_token_inputs
      native_inputs spk fee dust

def bareNotes : NoteBook where
  tokenIds _ := (8, 9)
  pairId _ := 5
  deriveLot _ _ _ := ⟨[1], [2], [3], [4], [5], [6], [7], [8], [9]⟩
  potControl _ := some (some [0xc0])
  unwindControl _ _ := some (some [0xc0])

def twoNotes : ScalarNotePairTerms where
  underlying_asset_id := 3
  settle_lock_height := 200
  scalar_format_id := 1
  strike := 0
  fallback_scalar := 0
  lambda_q := 1
  collateral_asset_id := 0
  vault_im := 10000
  long_token_id := 8
  short_token_id := 9
  lot_count := 2

/-- A vault is unwound with one unit of three of the first token and the only unit of the second. -/
theorem scalarBuilders_balance_unwind : ∃ tx,
    buildScalarUnwind bareNotes twoNotes 5 1 ⟨⟨1, 0⟩, native 10000 [9]⟩ [⟨⟨2, 0⟩, tagged 546 [] 8 3⟩]
        [⟨⟨3, 0⟩, tagged 546 [] 9 1⟩] [] [] 100 546 = .ok tx ∧ ∀ o ∈ tx.vout, kMinAssetOutputDust ≤ o.nValue.toInt := by
  have built : (buildScalarUnwind bareNotes twoNotes 5 1 ⟨⟨1, 0⟩, native 10000 [9]⟩
      [⟨⟨2, 0⟩, tagged 546 [] 8 3⟩] [⟨⟨3, 0⟩, tagged 546 [] 9 1⟩] [] [] 100 546).isOk = true := by
    decide +kernel
  cases run : buildScalarUnwind bareNotes twoNotes 5 1 ⟨⟨1, 0⟩, native 10000 [9]⟩
      [⟨⟨2, 0⟩, tagged 546 [] 8 3⟩] [⟨⟨3, 0⟩, tagged 546 [] 9 1⟩] [] [] 100 546 with
  | error failure =>
    rw [run] at built
    cases built
  | ok tx =>
    have balance := (scalarBuilders_balance bareNotes twoNotes 5 [] 100 546).2.2 1
      ⟨⟨1, 0⟩, native 10000 [9]⟩ [⟨⟨2, 0⟩, tagged 546 [] 8 3⟩] [⟨⟨3, 0⟩, tagged 546 [] 9 1⟩] []
    exact ⟨tx, rfl, (balance.2 tx run).floor⟩

end ScalarNotes

end TensorCash
