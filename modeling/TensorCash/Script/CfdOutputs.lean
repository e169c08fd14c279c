import TensorCash.Consensus.CheckBlock
import TensorCash.Consensus.DifficultyCfd
import TensorCash.Lib.Matching

/-! `VerifyDiffCfdOutputs` and `VerifyScalarCfdOutputs` bind every leg of a settlement to an output
of its own. -/

namespace TensorCash

open Matching

def CTxOut.hasAssetTLV (out : CTxOut) : Bool := out.assetID.isSome

def CTxOut.assetAmount (out : CTxOut) : Option UInt64 := do
  let value ← parseTyped ASSET_TAG out.vExt
  let (id, rest) ← takeUint256 value
  let (amount, _) ← takeUInt64 rest
  if id = 0 then none else some amount

structure OutputsVerdict where
  ok : Bool
  has_context : Bool
deriving DecidableEq

/-- One scan of the outputs for every leg, which skips what is consumed. -/
def bindLegs {ρ : Type} (fits : ρ → CTxOut → Bool) (vout : Option (List CTxOut))
    (required : List ρ) : OutputsVerdict :=
  match required, vout with
  | [], _ => ⟨true, false⟩
  | _ :: _, none => ⟨false, false⟩
  | _ :: _, some outs => ⟨bindAll fits outs [] required, true⟩

def diffLegFits (leg : Int64 × CScript) (out : CTxOut) : Bool :=
  !out.hasAssetTLV && out.nValue = leg.1 && out.scriptPubKey = leg.2

def verifyDiffCfdOutputs (vout : Option (List CTxOut)) (required : List (Int64 × CScript)) : OutputsVerdict :=
  bindLegs diffLegFits vout required

def scalarLegFits (collateral_asset_id : Option Uint256) (asset_dust_floor : Int64)
    (leg : UInt64 × CScript) (out : CTxOut) : Bool :=
  out.scriptPubKey = leg.2 && match collateral_asset_id with
    | none => !out.hasAssetTLV && !(out.nValue < 0) && out.nValue.toUInt64 = leg.1
    | some id =>
      out.hasAssetTLV && out.assetID = some id && out.assetAmount = some leg.1 && asset_dust_floor ≤ out.nValue

def verifyScalarCfdOutputs (vout : Option (List CTxOut)) (required : List (UInt64 × CScript))
    (collateral_asset_id : Option Uint256) (asset_dust_floor : Int64) : OutputsVerdict :=
  bindLegs (scalarLegFits collateral_asset_id asset_dust_floor) vout required

def PaysDiffLeg (leg : Int64 × CScript) (out : CTxOut) : Prop :=
  out.scriptPubKey = leg.2 ∧ out.assetID = none ∧ out.nValue = leg.1

def PaysScalarLeg (collateral : Option Uint256) (dust : Int64) (leg : UInt64 × CScript) (out : CTxOut) : Prop :=
  out.scriptPubKey = leg.2 ∧ match collateral with
    | none => out.assetID = none ∧ out.nValue.toInt = leg.1.toNat
    | some id => out.assetID = some id ∧ out.assetAmount = some leg.1 ∧ dust ≤ out.nValue

def LegsPaid {ρ : Type} (pays : ρ → CTxOut → Prop) (vout : List CTxOut) (required : List ρ) : Prop :=
  ∃ picks : List Nat, picks.Nodup ∧
    List.Forall₂ (fun leg idx => ∃ out, vout[idx]? = some out ∧ pays leg out) required picks

theorem toUInt64_eq_iff {value : Int64} {amount : UInt64} :
    (¬ value < 0 ∧ value.toUInt64 = amount) ↔ value.toInt = amount.toNat := by
  have words : value.toUInt64.toNat = (value.toInt % 2 ^ 64).toNat := by
    rw [← Int64.toNat_toBitVec, ← Int64.toInt_toBitVec, BitVec.toInt_eq_toNat_bmod]
    have small := value.toBitVec.isLt
    rw [Int.bmod_def]
    split_ifs <;> omega
  -- A negative value would be a word of 2 ^ 63 or more, but it is refused before.
  have range := value.toInt_lt
  have least := value.le_toInt
  have small := amount.toNat_lt
  rw [Int64.lt_iff_toInt_lt, Int64.toInt_zero, ← UInt64.toNat_inj, words]
  omega

variable {out : CTxOut} {collateral : Option Uint256} {dust : Int64}

theorem diffLegFits_iff {leg : Int64 × CScript} : diffLegFits leg out = true ↔ PaysDiffLeg leg out := by
  simp only [diffLegFits, PaysDiffLeg, CTxOut.hasAssetTLV, Bool.and_eq_true, decide_eq_true_eq,
    Bool.not_eq_true', Option.isSome_eq_false_iff, Option.isNone_iff_eq_none]
  exact ⟨fun ⟨⟨asset, value⟩, script⟩ => ⟨script, asset, value⟩, fun ⟨script, asset, value⟩ => ⟨⟨asset, value⟩, script⟩⟩

theorem scalarLegFits_iff {leg : UInt64 × CScript} :
    scalarLegFits collateral dust leg out = true ↔ PaysScalarLeg collateral dust leg out := by
  cases collateral with
  | none =>
    simp only [scalarLegFits, PaysScalarLeg, CTxOut.hasAssetTLV, Bool.and_eq_true,
      decide_eq_true_eq, Bool.not_eq_true', Option.isSome_eq_false_iff, Option.isNone_iff_eq_none,
      decide_eq_false_iff_not, ← toUInt64_eq_iff, and_assoc]
  | some id =>
    simp only [scalarLegFits, PaysScalarLeg, CTxOut.hasAssetTLV, Bool.and_eq_true, decide_eq_true_eq]
    constructor
    · rintro ⟨script, ⟨⟨_, asset⟩, amount⟩, floor⟩
      exact ⟨script, asset, amount, floor⟩
    · rintro ⟨script, asset, amount, floor⟩
      exact ⟨script, ⟨⟨by rw [asset]; rfl, asset⟩, amount⟩, floor⟩

theorem PaysDiffLeg.unique {first second : Int64 × CScript}
    (pays : PaysDiffLeg first out) (pays' : PaysDiffLeg second out) : first = second :=
  Prod.ext (pays.2.2.symm.trans pays'.2.2) (pays.1.symm.trans pays'.1)

theorem PaysScalarLeg.unique
    {first second : UInt64 × CScript} (pays : PaysScalarLeg collateral dust first out)
    (pays' : PaysScalarLeg collateral dust second out) : first = second := by
  refine Prod.ext ?_ (pays.1.symm.trans pays'.1)
  cases collateral with
  | none =>
    have same : (first.1.toNat : Int) = second.1.toNat := pays.2.2.symm.trans pays'.2.2
    exact UInt64.toNat_inj.mp (Int.ofNat_inj.mp same)
  | some id => exact Option.mem_unique pays.2.2.1 pays'.2.2.1

section Loop

variable {ρ : Type} {fits : ρ → CTxOut → Bool} {pays : ρ → CTxOut → Prop}
  (reads : ∀ leg out, fits leg out = true ↔ pays leg out)
  (unique : ∀ first second out, pays first out → pays second out → first = second)
include reads unique

theorem exclusive_of_unique : Exclusive fits := by
  intro first second item one two other suits
  -- An output that both legs fit makes them one leg.
  obtain rfl := unique _ _ _ ((reads _ _).mp one) ((reads _ _).mp two)
  exact suits

theorem bindLegs_iff (vout : List CTxOut) (required : List ρ) :
    (bindLegs fits (some vout) required).ok = true ↔ LegsPaid pays vout required := by
  have positions : ∀ picks, Assigned fits vout required picks ↔ picks.Nodup ∧
      List.Forall₂ (fun leg idx => ∃ out, vout[idx]? = some out ∧ pays leg out) required picks := by
    intro picks
    unfold Assigned FitsAt
    simp only [reads]
  have search : bindAll fits vout [] required = true ↔ ∃ picks, Assigned fits vout required picks :=
    bindAll_iff (exclusive_of_unique reads unique)
  simp only [positions] at search
  -- Without legs the outputs are not looked at.
  cases required with
  | nil => exact ⟨fun _ => ⟨[], List.nodup_nil, .nil⟩, fun _ => rfl⟩
  | cons leg rest => exact search

theorem bindLegs_perm {vout vout' : List CTxOut} (perm : vout.Perm vout') (required : List ρ) :
    bindLegs fits (some vout) required = bindLegs fits (some vout') required := by
  cases required with
  | nil => rfl
  | cons leg rest => rw [bindLegs, bindLegs, bindAll_perm (exclusive_of_unique reads unique) perm]

theorem bindLegs_twice {vout : List CTxOut} {leg : ρ}
    (bound : (bindLegs fits (some vout) [leg, leg]).ok = true) :
    ∃ (i j : Nat) (out out' : CTxOut),
      i ≠ j ∧ vout[i]? = some out ∧ vout[j]? = some out' ∧ pays leg out ∧ pays leg out' := by
  -- The picks are a list of two different places.
  obtain ⟨picks, distinct, each⟩ := (bindLegs_iff reads unique vout [leg, leg]).mp bound
  obtain _ | ⟨⟨out, at_, first⟩, each⟩ := each
  obtain _ | ⟨⟨out', at_', second⟩, each⟩ := each
  cases each
  rename_i i j
  refine ⟨i, j, out, out', ?_, at_, at_', first, second⟩
  simpa using distinct

end Loop

/-- Settlement matching is sound and complete: both matchers succeed exactly when the legs can be
assigned to distinct outputs that pay them, in any order of the outputs. -/
theorem settlement_matching_exact (collateral : Option Uint256) (dust : Int64) :
    (∀ vout required, (verifyScalarCfdOutputs (some vout) required collateral dust).ok = true ↔
      LegsPaid (PaysScalarLeg collateral dust) vout required) ∧
    (∀ vout required, (verifyDiffCfdOutputs (some vout) required).ok = true ↔
      LegsPaid PaysDiffLeg vout required) ∧
    (∀ vout vout' : List CTxOut, vout.Perm vout' → ∀ required,
      verifyScalarCfdOutputs (some vout) required collateral dust =
        verifyScalarCfdOutputs (some vout') required collateral dust) ∧
    (∀ vout vout' : List CTxOut, vout.Perm vout' → ∀ required,
      verifyDiffCfdOutputs (some vout) required = verifyDiffCfdOutputs (some vout') required) ∧
    (∀ vout leg, (verifyScalarCfdOutputs (some vout) [leg, leg] collateral dust).ok = true →
      ∃ (i j : Nat) (out out' : CTxOut), i ≠ j ∧ vout[i]? = some out ∧ vout[j]? = some out' ∧
        PaysScalarLeg collateral dust leg out ∧ PaysScalarLeg collateral dust leg out') ∧
    ∀ vout leg, (verifyDiffCfdOutputs (some vout) [leg, leg]).ok = true →
      ∃ (i j : Nat) (out out' : CTxOut), i ≠ j ∧ vout[i]? = some out ∧ vout[j]? = some out' ∧
        PaysDiffLeg leg out ∧ PaysDiffLeg leg out' := by
  have scalar : ∀ leg out, scalarLegFits collateral dust leg out = true ↔
      PaysScalarLeg collateral dust leg out := fun _ _ => scalarLegFits_iff
  have diff : ∀ leg out, diffLegFits leg out = true ↔ PaysDiffLeg leg out := fun _ _ => diffLegFits_iff
  have scalar_unique : ∀ first second out, PaysScalarLeg collateral dust first out →
      PaysScalarLeg collateral dust second out → first = second := fun _ _ _ => PaysScalarLeg.unique
  have diff_unique : ∀ first second out, PaysDiffLeg first out → PaysDiffLeg second out →
      first = second := fun _ _ _ => PaysDiffLeg.unique
  exact ⟨bindLegs_iff scalar scalar_unique, bindLegs_iff diff diff_unique,
    fun _ _ perm => bindLegs_perm scalar scalar_unique perm, fun _ _ perm => bindLegs_perm diff diff_unique perm,
    fun _ _ => bindLegs_twice scalar scalar_unique, fun _ _ => bindLegs_twice diff diff_unique⟩

/-- Two legs of 600 to one key, paid by the two outputs in either order. -/
theorem settlement_matching_two_legs :
    (verifyDiffCfdOutputs (some [⟨600, [OP_1], []⟩, ⟨700, [OP_1], []⟩, ⟨600, [OP_1], []⟩])
        [(600, [OP_1]), (600, [OP_1])]).ok = true ∧
      LegsPaid PaysDiffLeg [⟨600, [OP_1], []⟩, ⟨700, [OP_1], []⟩, ⟨600, [OP_1], []⟩]
        [(600, [OP_1]), (600, [OP_1])] := by
  have bound : (verifyDiffCfdOutputs (some [⟨600, [OP_1], []⟩, ⟨700, [OP_1], []⟩, ⟨600, [OP_1], []⟩])
      [(600, [OP_1]), (600, [OP_1])]).ok = true := by decide
  exact ⟨bound, ((settlement_matching_exact none 546).2.1 _ _).mp bound⟩

end TensorCash
