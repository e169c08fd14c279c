import TensorCash.Consensus.ScalarCfd

/-! `consensus/difficulty_cfd.{h,cpp}`. Targets fall when the difficulty rises, so directions are
those of the scalar contract reversed. -/

namespace TensorCash

def MIN_SETTLE_OUTPUT : Int64 := 546

structure DiffCfdPayout where
  payout_owner : UInt64
  payout_cp : UInt64
deriving DecidableEq

def splitDiffMargin (num realized_target : ArithUint256) (lambda_q : UInt32) (vault_im : UInt64) :
    DiffCfdPayout :=
  let lhs := widen num * BitVec.ofNat 512 lambda_q.toNat
  let denom_scaled := widen realized_target <<< 16
  let payout_cp : UInt64 :=
    if denom_scaled ≤ lhs then vault_im
    else ⟨getLow64 (lhs * BitVec.ofNat 512 vault_im.toNat / denom_scaled)⟩
  let payout_owner := vault_im - payout_cp
  let min_out := MIN_SETTLE_OUTPUT.toUInt64
  if payout_cp ≠ 0 ∧ payout_cp < min_out then ⟨vault_im, 0⟩
  else if payout_owner ≠ 0 ∧ payout_owner < min_out then ⟨0, vault_im⟩
  else ⟨payout_owner, payout_cp⟩

def computeDiffCfdPayout (strike_target realized_target : ArithUint256) (lambda_q : UInt32)
    (vault_im : UInt64) (short_leg : Bool) : Option DiffCfdPayout :=
  if lambda_q = 0 then none
  else if vault_im < MIN_SETTLE_OUTPUT.toUInt64 then none
  else if realized_target = 0 then none
  -- A short leg loses when the difficulty rises, so when the target falls below the strike.
  else if ¬ (if short_leg then realized_target < strike_target else strike_target < realized_target) then
    some ⟨vault_im, 0⟩
  else
    let num :=
      if short_leg then strike_target - realized_target else realized_target - strike_target
    some (splitDiffMargin num realized_target lambda_q vault_im)

def ScalarCfdPayout.asDiff (payout : ScalarCfdPayout) : DiffCfdPayout := ⟨payout.payout_owner, payout.payout_cp⟩

theorem splitDiffMargin_eq (num realized_target : ArithUint256) (lambda_q : UInt32) (vault_im : UInt64) :
    splitDiffMargin num realized_target lambda_q vault_im =
      (splitScalarMargin num realized_target lambda_q vault_im MIN_SETTLE_OUTPUT.toUInt64).asDiff := by
  unfold splitDiffMargin splitScalarMargin
  -- The counterparty's raw leg is the same number on both sides; only the dust code is compared.
  generalize (if widen realized_target <<< 16 ≤ widen num * BitVec.ofNat 512 lambda_q.toNat then vault_im
    else (⟨getLow64 (widen num * BitVec.ofNat 512 lambda_q.toNat * BitVec.ofNat 512 vault_im.toNat /
      widen realized_target <<< 16)⟩ : UInt64)) = payout_cp
  dsimp only
  split_ifs <;> rfl

/-- The difficulty contract is the scalar contract on the targets, with the direction reversed and
the realized target as the denominator. -/
theorem diff_payout_is_scalar_payout (strike_target realized_target : ArithUint256)
    (realized : realized_target ≠ 0) (lambda_q : UInt32) (vault_im : UInt64) (short_leg : Bool) :
    computeDiffCfdPayout strike_target realized_target lambda_q vault_im short_leg =
      (computeScalarCfdPayout strike_target realized_target .REALIZED lambda_q vault_im (!short_leg)
        MIN_SETTLE_OUTPUT.toUInt64).map ScalarCfdPayout.asDiff := by
  unfold computeDiffCfdPayout computeScalarCfdPayout
  -- A difficulty fixing of zero is refused; the scalar contract liquidates there.
  rw [if_neg realized]
  simp only [apply_ite (Option.map ScalarCfdPayout.asDiff), Option.map_some, Option.map_none,
    splitDiffMargin_eq, ScalarLossDenominator.pick]
  -- Both directions: the comparisons and the differences trade places with the flag.
  cases short_leg <;> rfl

/-- A target twice the strike costs a long leg of the difficulty contract half of its margin. -/
theorem diff_payout_is_scalar_payout_doubled :
    (200 : ArithUint256) ≠ 0 ∧
    computeDiffCfdPayout 100 200 0x10000 2000 false =
      (computeScalarCfdPayout 100 200 .REALIZED 0x10000 2000 (!false)
         MIN_SETTLE_OUTPUT.toUInt64).map ScalarCfdPayout.asDiff :=
  ⟨by decide, diff_payout_is_scalar_payout 100 200 (by decide) 0x10000 2000 false⟩

end TensorCash
