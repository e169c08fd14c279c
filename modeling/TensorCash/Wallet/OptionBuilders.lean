import TensorCash.Wallet.FundedInputs

/-! `BuildOptionRedemption` and `BuildOptionBuyback` next to `OP_OUTPUTMATCH_ASSET`. Keys, ids,
trees and the terms' check are parameters. -/

namespace TensorCash

open Checked Codec Settlement Funding

namespace OptionSeries

def OP_OUTPUTMATCH_ASSET : UInt8 := 0xb8
def OP_CHECKSIGVERIFY : UInt8 := 0xad

def isSpendableScriptFamily (script : CScript) : Bool :=
  solver script ∈ [.WITNESS_V1_TAPROOT, .WITNESS_V0_SCRIPTHASH, .WITNESS_V0_KEYHASH]

def outputFits (tapMatch : CScript → Uint256) (script_hash : Uint256) (native_only : Bool)
    (asset_id : Option Uint256) (amount : UInt64) (out : CTxOut) : Bool :=
  isSpendableScriptFamily out.scriptPubKey && tapMatch out.scriptPubKey = script_hash &&
    if native_only then !out.hasAssetTLV && out.nValue.toUInt64 = amount
    else
      out.hasAssetTLV && asset_id.isSome && out.assetID = asset_id && out.assetAmount = some amount

def outputMatches (tapMatch : CScript → Uint256) (vout : Option (List CTxOut)) (script_hash : Uint256)
    (native_only : Bool) (asset_id : Option Uint256) (amount : UInt64) : OutputsVerdict where
  ok := (vout.getD []).any (outputFits tapMatch script_hash native_only asset_id amount)
  has_context := !(vout.getD []).isEmpty

def opOutputMatchAsset (tapMatch : CScript → Uint256) (tx : Spending) (sigversion : EvalVersion)
    (s : Machine) : Except String Machine :=
  if sigversion ≠ .TAPSCRIPT then .error "SCRIPT_ERR_TAPSCRIPT_ONLY"
  else
    match s.stack.reverse with
    | vch_amount :: vch_asset_id :: vch_hash :: below => do
      require (vch_amount.length = 8 ∧ vch_asset_id.length = 32 ∧ vch_hash.length = 32)
        "SCRIPT_ERR_INVALID_OPERAND_SIZE"
      require (leNat vch_amount ≠ 0) "SCRIPT_ERR_AMOUNT_OUT_OF_RANGE"
      let verdict := outputMatches tapMatch tx.vout (uint256OfBytes vch_hash) false
        (some (uint256OfBytes vch_asset_id)) (UInt64.ofNat (leNat vch_amount))
      require verdict.has_context "SCRIPT_ERR_UNKNOWN_ERROR"
      .ok { s with stack := below.reverse ++ [if verdict.ok then [1] else []] }
    | _ => .error "SCRIPT_ERR_INVALID_STACK_OPERATION"

def withOutputMatch (tapMatch : CScript → Uint256) (tx : Spending)
    (base : Interpreter (Option FixingContext) Machine) : Interpreter (Option FixingContext) Machine :=
  { base with
    plain := fun flags sigversion opcode push s =>
      if opcode = OP_OUTPUTMATCH_ASSET then opOutputMatchAsset tapMatch tx sigversion s
      else base.plain flags sigversion opcode push s }

def oneUnitLE : Bytes := leBytes 8 1

def buildOptionPotLeaf (tapMatch : CScript → Uint256) (asset_id : Uint256) (sink_spk : CScript) : CScript :=
  pushOf (tapMatch sink_spk).bytes ++ (pushOf asset_id.bytes ++ (pushOf oneUnitLE ++ [OP_OUTPUTMATCH_ASSET]))

def buildOptionBuybackLeaf (tapMatch : CScript → Uint256) (writer_key : XOnlyPubKey)
    (asset_id : Uint256) (sink_spk : CScript) : CScript :=
  pushOf writer_key.bytes ++ OP_CHECKSIGVERIFY :: (pushOf (tapMatch sink_spk).bytes ++ (pushOf asset_id.bytes ++
      (pushOf oneUnitLE ++ [OP_OUTPUTMATCH_ASSET])))

section Run

variable {env : SettleEnv} {tx : Spending} {base : Interpreter (Option FixingContext) Machine}
  {ctx : Option FixingContext} {flags : ScriptFlags} {execdata : ExecData} {fuel : Nat}
  {rest : CScript} {tapMatch : CScript → Uint256}

theorem evalLoop_outputMatch {asset_id hash : Uint256}
    (matched : outputMatches tapMatch tx.vout hash false (some asset_id) 1 = ⟨true, true⟩) :
    evalLoop (settleVm env tx (withOutputMatch tapMatch tx base)) ctx flags .TAPSCRIPT execdata
        (fuel + 1) (OP_OUTPUTMATCH_ASSET :: rest) (ofStack [hash.bytes, asset_id.bytes, oneUnitLE]) =
      evalLoop (settleVm env tx (withOutputMatch tapMatch tx base)) ctx flags .TAPSCRIPT execdata
        fuel rest (ofStack [[1]]) := by
  have ordinary : isCovenantOp flags OP_OUTPUTMATCH_ASSET = false :=
    isCovenantOp_eq_false (by decide) (by decide) (by decide)
  refine evalLoop_opcode (by decide) (by decide) ordinary ?_ (by decide)
  unfold evalPlain
  rw [if_neg (by simp [ofStack]), if_neg (by decide), if_neg (by decide), if_neg (by decide), if_neg (by decide)]
  dsimp only [withOutputMatch]
  rw [if_pos rfl]
  have one : leNat oneUnitLE = 1 := by decide
  simp only [opOutputMatchAsset, ofStack, List.reverse_cons, List.reverse_nil, List.nil_append,
    List.cons_append, one, uint256OfBytes_bytes, UInt64.ofNat_one, matched]
  rfl

theorem condition_succeeds {asset_id : Uint256} {sink_spk : CScript} (v1 : execdata.witness_version = 1)
    (matched : outputMatches tapMatch tx.vout (tapMatch sink_spk) false (some asset_id) 1 = ⟨true, true⟩) :
    evalScript (settleVm env tx (withOutputMatch tapMatch tx base)) ctx flags .TAPSCRIPT execdata
      (buildOptionPotLeaf tapMatch asset_id sink_spk) [] = .ok [[1]] := by
  have unit_size : oneUnitLE.length = 8 := by decide
  have length : 4 ≤ (buildOptionPotLeaf tapMatch asset_id sink_spk).length := by
    have first : (pushOf (tapMatch sink_spk).bytes).length = 33 := by
      rw [pushOf, if_pos (by rw [Uint256.bytes_length]; decide), List.length_cons, Uint256.bytes_length]
    rw [buildOptionPotLeaf, List.length_append, first]
    omega
  have run : evalLoop (settleVm env tx (withOutputMatch tapMatch tx base)) ctx flags .TAPSCRIPT execdata
      (buildOptionPotLeaf tapMatch asset_id sink_spk).length
      (buildOptionPotLeaf tapMatch asset_id sink_spk) (ofStack []) = .ok (ofStack [[1]]) := by
    obtain ⟨n, length⟩ := Nat.exists_eq_add_of_le' length
    rw [length]
    unfold buildOptionPotLeaf
    refine (evalLoop_operand (by simp) (by simp) (by simp)).trans ?_
    refine (evalLoop_operand (by simp) (by simp) (by simp)).trans ?_
    refine (evalLoop_operand (by omega) (by omega) (by simp)).trans ?_
    refine (evalLoop_outputMatch matched).trans ?_
    rw [evalLoop]
  unfold evalScript
  have started : (settleVm env tx (withOutputMatch tapMatch tx base)).start .TAPSCRIPT execdata [] = ofStack [] := by
    dsimp only [settleVm]
    rw [v1]
    rfl
  rw [if_neg (by simp), bind_eq_ok, started]
  exact ⟨ofStack [[1]], run, rfl⟩

end Run

theorem solver_p2tr (key : XOnlyPubKey) : solver (p2tr key.bytes) = .WITNESS_V1_TAPROOT := by
  have direct : pushOf key.bytes = 32 :: key.bytes := by
    rw [pushOf, if_pos (by rw [key.size]; decide), key.size]
    rfl
  have length : (p2tr key.bytes).length = 34 := by
    rw [p2tr, direct, List.length_cons, List.length_cons, key.size]
  have other : isPayToScriptHash (p2tr key.bytes) = false := by
    rw [isPayToScriptHash, length]
    rfl
  have program : isWitnessProgram (p2tr key.bytes) = some (1, key.bytes) := by
    rw [p2tr, direct] at length ⊢
    rw [isWitnessProgram, if_neg (by omega), if_neg (by decide), if_pos (by rw [key.size]; rfl)]
    rfl
  rw [solver, other, program]
  simp [key.size]

theorem outputMatches_of_retired {tapMatch : CScript → Uint256} {vout : List CTxOut}
    {key : XOnlyPubKey} {asset_id : Uint256} (dust : Int) (set : asset_id ≠ 0)
    (member : tagged dust (p2tr key.bytes) asset_id 1 ∈ vout) :
    outputMatches tapMatch (some vout) (tapMatch (p2tr key.bytes)) false (some asset_id) 1 =
      ⟨true, true⟩ := by
  obtain ⟨named, amount⟩ : (tagged dust (p2tr key.bytes) asset_id 1).assetID = some asset_id ∧ _ := tagged_read set
  have fits : outputFits tapMatch (tapMatch (p2tr key.bytes)) false (some asset_id) 1
      (tagged dust (p2tr key.bytes) asset_id 1) = true := by
    simp only [outputFits, isSpendableScriptFamily, CTxOut.hasAssetTLV, named, amount]
    simp [tagged, solver_p2tr]
  have context : vout.isEmpty = false := by
    cases vout with
    | nil => cases member
    | cons _ _ => rfl
  have found : vout.any (outputFits tapMatch (tapMatch (p2tr key.bytes)) false (some asset_id) 1) = true :=
    List.any_eq_true.mpr ⟨_, member, fits⟩
  rw [outputMatches, Option.getD_some, found, context]
  rfl

/-- What the derivation of a series' lots calls, next to what the settlement calls. -/
structure OptionBook extends OptionCode where
  /-- `ValidateOptionSeriesTerms` without a limit of the chain. -/
  validateTerms : OptionSeriesTerms → Except String Unit
  /-- The leaf set is `OPTION_LEAFSET_SETTLE_BUYBACK`; its byte is part of the metadata. -/
  hasBuyback : OptionSeriesTerms → Bool
  /-- `DeriveOptionSink`. -/
  sinkKey : Uint256 → UInt32 → XOnlyPubKey
  /-- The control block of a pot leaf, if the tree is complete and has one. -/
  potControl : CScript → Option (Option Bytes)
  buybackControl : CScript → CScript → Option (Option Bytes)
  /-- `ComputeTapMatch`. -/
  tapMatch : CScript → Uint256

def OptionBook.sink (book : OptionBook) (series_id : Uint256) (i : UInt32) : CScript :=
  p2tr (book.sinkKey series_id i).bytes

structure OptionLot where
  sink_spk : CScript
  pot_spk : CScript
  pot_leaf : CScript
  vault_spk : CScript
  settle_leaf : CScript
  /-- Empty when the series settles only. -/
  buyback_leaf : CScript
  record : DifficultyContractRecord

def OptionBook.deriveLot (book : OptionBook) (t : OptionSeriesTerms) (series_id : Uint256)
    (i : UInt32) : OptionLot :=
  let sink_spk := book.sink series_id i
  let record := deriveOptionLot book.toOptionCode t series_id i
  { sink_spk
    pot_leaf := buildOptionPotLeaf book.tapMatch series_id sink_spk
    pot_spk := p2tr (book.potKey series_id i).bytes
    record
    settle_leaf := buildDifficultyLeafScript record t.writerShort
    buyback_leaf :=
      if book.hasBuyback t then buildOptionBuybackLeaf book.tapMatch t.writer_key series_id sink_spk
      else []
    vault_spk := book.vaultSpk t i record }

def moneyTexts : MoneyTexts where
  addend := "input amount out of MoneyRange"
  total := "summed input amount out of MoneyRange"

def OptionBook.potRules (book : OptionBook) (terms : OptionSeriesTerms) (series_id : Uint256) : PotRules where
  lot_count := terms.lot_count
  derive i :=
    let lot := book.deriveLot terms series_id i
    ⟨lot.sink_spk, lot.pot_spk, lot.pot_leaf⟩
  collateral out units := do
    need (¬ out.hasAssetTLV) "pot UTXO is asset-tagged (pots are native-only)"
    .ok units
  control := book.potControl
  money := moneyTexts

def buildOptionRedemption (book : OptionBook) (terms : OptionSeriesTerms) (pots : List RedemptionPot)
    (token_inputs native_inputs : List FundedOutput) (holder_spk : CScript) (fee dust : Int) :
    Except BuildError CTransaction := do
  let k := pots.length
  need (k ≠ 0) "no pots to redeem"
  need (¬ token_inputs.isEmpty) "no token inputs"
  need (MoneyRange fee) "fee out of MoneyRange"
  need (¬ (dust < kMinAssetOutputDust ∨ ¬ MoneyRange dust)) "dust below floor or out of MoneyRange"
  (book.validateTerms terms).mapError BuildError.refused
  let series_id := book.seriesId terms
  let pass ← (book.potRules terms series_id).spendAll pots
  let tokens ← accumulateTokenInputs tokenTexts moneyTexts token_inputs series_id pass.tally
  let m := tokens.1
  need (¬ m < k) "insufficient token units for the requested pots"
  let tally ← accumulateNativeInputs moneyTexts native_inputs tokens.2
  let asset_outputs := k + if m > k then 1 else 0
  need (¬ asset_outputs > kDefaultMaxAssetsPerTx)
    "too many asset outputs for one tx (64 assets-per-tx cap)"
  need (¬ asset_outputs + 1 > MAX_COVENANT_TX_OUTPUTS)
    "too many outputs for one redemption tx (128-output cap)"
  let asset_out_dust ← int64 (asset_outputs * dust)
  need (MoneyRange asset_out_dust) "aggregate output dust out of MoneyRange"
  let native_sweep ← leftOver tally.native_in fee asset_out_dust
    "native inputs do not cover fee + per-output dust"
    "native sweep would be dust; add native input or raise fee"
  .ok (assemble (pass.vin ++ unsigned token_inputs ++ unsigned native_inputs)
    (retired dust series_id (pass.lots.map PotLot.sink_spk) ++
      tokenChange dust holder_spk series_id m k ++ leftOverOutput native_sweep holder_spk))

def checkVault (terms : OptionSeriesTerms) (lot : OptionLot) (vault : CTxOut) : Except BuildError PUnit := do
  need (¬ lot.buyback_leaf.isEmpty) "lot has no buy-back leaf (settle-only series)"
  need (vault.scriptPubKey = lot.vault_spk) "vault UTXO does not match the derived lot vault"
  need (¬ vault.hasAssetTLV) "vault UTXO is asset-tagged (vaults are native-only)"
  need (vault.nValue = (lot.record.terms.leg terms.writerShort).im)
    "vault value does not match the per-lot IM"

def buildOptionBuyback (book : OptionBook) (terms : OptionSeriesTerms) (lot_index : UInt32)
    (vault : FundedOutput) (token_inputs native_inputs : List FundedOutput) (writer_spk : CScript)
    (fee dust : Int) : Except BuildError CTransaction := do
  (book.validateTerms terms).mapError BuildError.refused
  need (¬ lot_index ≥ terms.lot_count) "lot_index out of range"
  need (MoneyRange fee) "fee out of MoneyRange"
  need (¬ (dust < kMinAssetOutputDust ∨ ¬ MoneyRange dust)) "dust below floor or out of MoneyRange"
  let series_id := book.seriesId terms
  let lot := book.deriveLot terms series_id lot_index
  checkVault terms lot vault.txout
  let native_in ← addMoney moneyTexts 0 vault.txout.nValue.toInt
  let tokens ← accumulateTokenInputs tokenTexts moneyTexts token_inputs series_id
    ⟨[vault.outpoint], native_in⟩
  let m := tokens.1
  need (¬ m < 1) "buy-back needs at least 1 repurchased unit"
  let tally ← accumulateNativeInputs moneyTexts native_inputs tokens.2
  let spend ← demand (book.buybackControl lot.settle_leaf lot.buyback_leaf)
    (.refused "option vault builder incomplete")
  let control ← demand spend (.refused "could not reconstruct buy-back control block")
  let asset_out_dust ← int64 ((1 + if m > 1 then 1 else 0 : Nat) * dust)
  need (MoneyRange asset_out_dust) "aggregate output dust out of MoneyRange"
  let native_sweep ← leftOver tally.native_in fee asset_out_dust
    "native inputs do not cover fee + per-output dust"
    "native sweep would be dust; add native input or raise fee"
  -- The empty element holds the place of the writer's signature.
  .ok (assemble (txIn vault.outpoint [[], lot.buyback_leaf, control] ::
      (unsigned token_inputs ++ unsigned native_inputs))
    (retired dust series_id [lot.sink_spk] ++ tokenChange dust writer_spk series_id m 1 ++
      leftOverOutput native_sweep writer_spk))

def ConditionHolds (book : OptionBook) (series_id : Uint256) (sink_spk : CScript) (tx : CTransaction) : Prop :=
  ∀ (env : SettleEnv) (base : Interpreter (Option FixingContext) Machine) (ctx : Option FixingContext)
    (flags : ScriptFlags) (execdata : ExecData) (nIn : Nat) (amount : Int64), execdata.witness_version = 1 →
    evalScript (settleVm env (spendingOf tx nIn amount)
        (withOutputMatch book.tapMatch (spendingOf tx nIn amount) base)) ctx flags .TAPSCRIPT execdata
      (buildOptionPotLeaf book.tapMatch series_id sink_spk) [] = .ok [[1]]

/-- What both builders promise: fee, units, outputs in their order, and every lot's condition. -/
structure Redeems (book : OptionBook) (series_id : Uint256) (spent : List FundedOutput)
    (lots : List UInt32) (spk : CScript) (fee dust : Int) (tx : CTransaction) : Prop where
  balanced : Balanced spent fee (fun _ => 0) tx
  outputs : ∃ sweep, tx.vout = (lots.map fun i => tagged dust (book.sink series_id i) series_id 1) ++
      tokenChange dust spk series_id (unitsIn series_id (outputsOf spent)) lots.length ++ leftOverOutput sweep spk
  tokens : lots.length ≤ unitsIn series_id (outputsOf spent)
  floor : ∀ o ∈ tx.vout, kMinAssetOutputDust ≤ o.nValue.toInt
  condition : ∀ i ∈ lots, ConditionHolds book series_id (book.sink series_id i) tx

theorem redeems_of_tally {book : OptionBook} {series_id : Uint256} {spent : List FundedOutput}
    {lots : List UInt32} {spk : CScript} {fee dust rest : Int} {tally : Tally} {m : Nat}
    {vin : List CTxIn} {left : List CTxOut}
    (covers : tally.Covers spent fun id => if id = series_id then m else 0) (set : series_id ≠ 0)
    (fits : m < 2 ^ 64) (enough : ¬ m < lots.length) (range : MoneyRange dust = true)
    (floor : kMinAssetOutputDust ≤ dust) (inputs : vin.map CTxIn.prevout = outpointsOf spent)
    (swept :
       tally.native_in =
         fee + ((lots.length + if m > lots.length then 1 else 0 : Nat) * dust) + rest)
    (low : 0 ≤ rest) (high : rest ≤ 2100000000000000)
    (clean : 0 < rest → kMinAssetOutputDust ≤ rest)
    (shape :
       left =
         retired dust series_id (lots.map fun i => book.sink series_id i) ++
           tokenChange dust spk series_id m lots.length ++ leftOverOutput rest spk) :
    Redeems book series_id spent lots spk fee dust (assemble vin left) := by
  have sinks := Carriers.retired range set (lots.map fun i => book.sink series_id i)
  have change : Carriers dust _ _ (tokenChange dust spk series_id m lots.length) := .tokenChange range set enough fits
  have units : unitsIn series_id (outputsOf spent) = m := by simp [covers.units]
  have same_sinks : retired dust series_id (lots.map fun i => book.sink series_id i) =
      lots.map fun i => tagged dust (book.sink series_id i) series_id 1 := by
    simp [retired]
  subst shape
  obtain ⟨balanced, above⟩ := balanced_of_carriers covers inputs (sinks.append change)
    (fun id => by
      by_cases same : id = series_id
      · simp only [same, if_true, List.length_map]
        omega
      · simp [same])
    floor (by simpa using swept) low high clean
  exact
    { balanced := balanced
      outputs := ⟨rest, by rw [units, ← same_sinks]; rfl⟩
      tokens := by omega
      floor := above
      condition := by
        intro i member env base ctx flags execdata nIn amount v1
        refine condition_succeeds v1 (outputMatches_of_retired dust set ?_)
        refine List.mem_append_left _ (List.mem_append_left _ ?_)
        rw [same_sinks]
        exact List.mem_map.mpr ⟨i, member, rfl⟩ }

theorem redemption_safe (book : OptionBook) (terms : OptionSeriesTerms) (pots : List RedemptionPot)
    (token_inputs native_inputs : List FundedOutput) (holder_spk : CScript) (fee dust : Int) : Safe (fun tx =>
        Redeems book (book.seriesId terms) (pots.map RedemptionPot.pot ++ token_inputs ++ native_inputs)
          (pots.map RedemptionPot.lot_index) holder_spk fee dust tx ∧ (pots.map RedemptionPot.lot_index).Nodup ∧
        (tx.vin.take pots.length).map (fun i => i.scriptWitness[0]?) = pots.map fun rp =>
          some (buildOptionPotLeaf book.tapMatch (book.seriesId terms) (book.sink (book.seriesId terms) rp.lot_index)))
      (buildOptionRedemption book terms pots token_inputs native_inputs holder_spk fee dust) := by
  refine .need_bind fun some_pot => .need_bind fun _ => .need_bind fun fee_range => ?_
  refine .need_bind fun dust_range => ?_
  rw [not_or, not_lt, not_not] at dust_range
  obtain ⟨floor, dust_range⟩ := dust_range
  refine .bind (.mapError _) fun _ _ => ?_
  -- Pots hold no units, so the account of assets starts empty.
  have passed : Safe (PotPass.Covers (book.potRules terms (book.seriesId terms)) (fun _ _ => 0) pots)
      ((book.potRules terms (book.seriesId terms)).spendAll pots) := by
    refine PotRules.spendAll_safe (fun _ => rfl) fun out units fits => ?_
    refine .bind untagged_safe fun _ plain => .ok ⟨fits, fun id => ?_⟩
    rw [unitsOn_untagged plain]
  refine .bind passed fun pass pots_done => ?_
  refine .bind (accumulateTokenInputs_safe pots_done.covers) fun tokens ⟨covered, fits, set⟩ => ?_
  refine .need_bind fun enough => ?_
  refine .bind (accumulateNativeInputs_safe covered) fun tally covers => ?_
  refine .need_bind fun few => .need_bind fun _ => ?_
  have fits_type := product_fits (not_lt.mp few) dust_range
  refine .int64_bind fits_type.1 fits_type.2 (.need_bind fun total => ?_)
  refine .bind (leftOver_safe covers.range fee_range total) fun rest ⟨swept, low, high, clean⟩ => .ok ?_
  refine ⟨?_, pots_done.distinct, ?_⟩
  · have covered : tally.Covers (pots.map RedemptionPot.pot ++ token_inputs ++ native_inputs)
        fun id => if id = book.seriesId terms then tokens.1 else 0 := covers.congr fun id => by simp
    have paid : tally.native_in = fee + (((pots.map RedemptionPot.lot_index).length +
        if tokens.1 > (pots.map RedemptionPot.lot_index).length then 1 else 0 : Nat) * dust) + rest := by
      simpa using swept
    refine redeems_of_tally covered (set (by omega)) fits (by simpa using enough) dust_range floor ?_
      paid low high clean ?_
    · simp [pots_done.revealed, prevouts_unsigned]
    · simp [pots_done.lots, OptionBook.potRules, OptionBook.deriveLot, Function.comp_def]
  · simp only [assemble, List.append_assoc]
    exact pots_done.first_leaves _

theorem buyback_safe (book : OptionBook) (terms : OptionSeriesTerms) (lot_index : UInt32)
    (vault : FundedOutput) (token_inputs native_inputs : List FundedOutput) (writer_spk : CScript)
    (fee dust : Int) : Safe (fun tx =>
        Redeems book (book.seriesId terms) (vault :: (token_inputs ++ native_inputs)) [lot_index]
          writer_spk fee dust tx ∧ tx.vin.head?.map (fun i => i.scriptWitness[1]?) =
          some (some (pushOf terms.writer_key.bytes ++ OP_CHECKSIGVERIFY ::
            buildOptionPotLeaf book.tapMatch (book.seriesId terms) (book.sink (book.seriesId terms) lot_index))))
      (buildOptionBuyback book terms lot_index vault token_inputs native_inputs writer_spk fee dust) := by
  refine .bind (.mapError _) fun _ _ => .need_bind fun _ => .need_bind fun fee_range => ?_
  refine .need_bind fun dust_range => ?_
  rw [not_or, not_lt, not_not] at dust_range
  obtain ⟨floor, dust_range⟩ := dust_range
  have checked : Safe (fun _ => vault.txout.assetID = none ∧
      (book.deriveLot terms (book.seriesId terms) lot_index).buyback_leaf.isEmpty = false)
      (checkVault terms (book.deriveLot terms (book.seriesId terms) lot_index) vault.txout) := by
    refine .need_bind fun leaf => .need_bind fun _ => .need_bind fun plain => ?_
    refine .mono (.need _) fun _ _ => ⟨assetID_eq_none plain, by simpa using leaf⟩
  refine .bind checked fun _ made => ?_
  obtain ⟨plain, leaf⟩ := made
  refine .bind (addMoney_safe (by decide)) fun native_in made => ?_
  obtain ⟨added, range, _⟩ := made
  have start : Tally.Covers ⟨[vault.outpoint], native_in⟩ [vault] fun _ => 0 :=
    { seen := rfl
      once := by simp [outpointsOf]
      value := by simp [added, outputsOf]
      range := range
      units := fun id => by simp [outputsOf, unitsOn_untagged plain] }
  refine .bind (accumulateTokenInputs_safe start) fun tokens made => ?_
  obtain ⟨covered, fits, set⟩ := made
  refine .need_bind fun enough => ?_
  refine .bind (accumulateNativeInputs_safe covered) fun tally covers => ?_
  refine .demand_bind fun spend _ => .demand_bind fun control _ => ?_
  have few : (1 + if tokens.1 > 1 then 1 else 0) ≤ 64 := by split_ifs <;> decide
  have fits_type := product_fits few dust_range
  refine .int64_bind fits_type.1 fits_type.2 (.need_bind fun total => ?_)
  refine .bind (leftOver_safe covers.range fee_range total) fun rest made => ?_
  obtain ⟨swept, low, high, clean⟩ := made
  refine .ok ?_
  constructor
  · have covered : tally.Covers (vault :: (token_inputs ++ native_inputs))
        fun id => if id = book.seriesId terms then tokens.1 else 0 := by
      simpa using covers.congr fun id => by simp
    refine redeems_of_tally covered (set (by omega)) fits enough dust_range floor ?_ swept low high clean ?_
    · simp [prevouts_unsigned, outpointsOf, txIn]
    · simp [OptionBook.deriveLot]
  · have shape : (book.deriveLot terms (book.seriesId terms) lot_index).buyback_leaf =
        pushOf terms.writer_key.bytes ++ OP_CHECKSIGVERIFY :: buildOptionPotLeaf book.tapMatch (book.seriesId terms)
            (book.sink (book.seriesId terms) lot_index) := by
      unfold OptionBook.deriveLot at leaf ⊢
      dsimp only at leaf ⊢
      split_ifs at leaf ⊢ with offered
      · rfl
      · exact absurd leaf (by simp)
    simp [assemble, txIn, shape]

/-- **Redemptions and buy-backs balance and satisfy their covenants.** No sum leaves its type. What
is built pays exactly the fee, spends no outpoint twice and keeps every asset's units: one to each
lot's sink, the rest to the caller. No output is below the floor, and every revealed leaf runs to
true. -/
theorem optionBuilders_balance (book : OptionBook) (terms : OptionSeriesTerms)
    (token_inputs native_inputs : List FundedOutput) (spk : CScript) (fee dust : Int) : (∀ pots,
      buildOptionRedemption book terms pots token_inputs native_inputs spk fee dust ≠ .error .overflow ∧
      ∀ tx, buildOptionRedemption book terms pots token_inputs native_inputs spk fee dust = .ok tx →
        Redeems book (book.seriesId terms) (pots.map RedemptionPot.pot ++ token_inputs ++ native_inputs)
          (pots.map RedemptionPot.lot_index) spk fee dust tx ∧ (pots.map RedemptionPot.lot_index).Nodup ∧
        (tx.vin.take pots.length).map (fun i => i.scriptWitness[0]?) = pots.map fun rp =>
          some (buildOptionPotLeaf book.tapMatch (book.seriesId terms)
            (book.sink (book.seriesId terms) rp.lot_index))) ∧ ∀ lot_index vault,
      buildOptionBuyback book terms lot_index vault token_inputs native_inputs spk fee dust ≠ .error .overflow ∧
      ∀ tx, buildOptionBuyback book terms lot_index vault token_inputs native_inputs spk fee dust = .ok tx →
        Redeems book (book.seriesId terms) (vault :: (token_inputs ++ native_inputs)) [lot_index] spk
          fee dust tx ∧ tx.vin.head?.map (fun i => i.scriptWitness[1]?) =
          some (some (pushOf terms.writer_key.bytes ++ OP_CHECKSIGVERIFY ::
            buildOptionPotLeaf book.tapMatch (book.seriesId terms) (book.sink (book.seriesId terms) lot_index))) := by
  constructor
  · intro pots
    exact redemption_safe book terms pots token_inputs native_inputs spk fee dust
  · intro lot_index vault
    exact buyback_safe book terms lot_index vault token_inputs native_inputs spk fee dust

def bareBook : OptionBook :=
  { bareCode with
    seriesId := fun _ => 7
    validateTerms := fun _ => .ok ⟨⟩
    hasBuyback := fun _ => true
    sinkKey := fun _ _ => keyOf 4
    potControl := fun _ => some (some [0xc0])
    buybackControl := fun _ _ => some (some [0xc0])
    tapMatch := fun _ => 9 }

def twoLots : OptionSeriesTerms where
  direction := .CALL
  strike_nbits := 0x207fffff
  fixing_height := 1
  settle_lock_height := 200
  lot_im_sats := 10000
  lambda_q := 1
  writer_key := keyOf 5
  lot_count := 2
  metadata := []

def pot (lot : UInt32) : RedemptionPot := ⟨lot, ⟨⟨1, lot⟩, native 10000 (p2tr (keyOf 3).bytes)⟩⟩

def threeTokens : FundedOutput := ⟨⟨2, 0⟩, tagged 546 [] 7 3⟩

/-- Two pots are redeemed with two units of three. -/
theorem optionBuilders_balance_two : ∃ tx,
    buildOptionRedemption bareBook twoLots [pot 0, pot 1] [threeTokens] [] [] 100 546 = .ok tx ∧
      ∀ o ∈ tx.vout, kMinAssetOutputDust ≤ o.nValue.toInt := by
  have built : (buildOptionRedemption bareBook twoLots [pot 0, pot 1] [threeTokens] [] [] 100 546).isOk = true := by
    decide +kernel
  cases run : buildOptionRedemption bareBook twoLots [pot 0, pot 1] [threeTokens] [] [] 100 546 with
  | error failure =>
    rw [run] at built
    cases built
  | ok tx =>
    have balance := (optionBuilders_balance bareBook twoLots [threeTokens] [] [] 100 546).1 [pot 0, pot 1]
    exact ⟨tx, rfl, (balance.2 tx run).1.floor⟩

end OptionSeries

end TensorCash
