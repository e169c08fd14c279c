import TensorCash.Validation.RegChain
import Mathlib.Algebra.BigOperators.Intervals

/-! What `GetBlockSubsidy` pays over all heights under the epoch schedule. -/

namespace TensorCash

open Finset

def rewardAt (reward : Int) (epoch_len nHeight : Nat) : Int := epochReward nHeight nHeight reward epoch_len

def nextEpochLen (epoch_len : Nat) : Nat := min (epoch_len * 2) EPOCH_CAP_LEN

def mintedBy : Nat → Int → Nat → Int
  | 0, _, _ => 0
  | epochs + 1, reward, epoch_len => epoch_len * reward + mintedBy epochs (reward * 3 / 5) (nextEpochLen epoch_len)

def blocksIn : Nat → Nat → Nat
  | 0, _ => 0
  | epochs + 1, epoch_len => epoch_len + blocksIn epochs (nextEpochLen epoch_len)

def rewardBehind : Nat → Int → Int
  | 0, reward => reward
  | epochs + 1, reward => rewardBehind epochs (reward * 3 / 5)

section Walk

variable {reward : Int} {epoch_len : Nat}

theorem nextEpochLen_pos (long : 0 < epoch_len) : 0 < nextEpochLen epoch_len := by
  unfold nextEpochLen EPOCH_CAP_LEN
  omega

theorem epochReward_succ (fuel remaining : Nat) : epochReward (fuel + 1) remaining reward epoch_len =
      if epoch_len ≤ remaining ∧ 0 < reward then
        epochReward fuel (remaining - epoch_len) (reward * 3 / 5) (nextEpochLen epoch_len)
      else reward := rfl

theorem epochReward_fuel {fuel nHeight : Nat} (long : 0 < epoch_len) (enough : nHeight ≤ fuel) :
    epochReward fuel nHeight reward epoch_len = rewardAt reward epoch_len nHeight := by
  unfold rewardAt
  -- The induction is on the blocks that remain: an epoch takes at least one of them.
  induction nHeight using Nat.strong_induction_on generalizing fuel reward epoch_len with
  | _ nHeight ih =>
    cases nHeight with
    | zero =>
      cases fuel with
      | zero => rfl
      | succ fuel =>
        rw [epochReward_succ, if_neg (by omega)]
        rfl
    | succ height =>
      obtain ⟨fuel, rfl⟩ : ∃ less, fuel = less + 1 := ⟨fuel - 1, by omega⟩
      rw [epochReward_succ, epochReward_succ]
      by_cases walks : epoch_len ≤ height + 1 ∧ 0 < reward
      · have shorter : height + 1 - epoch_len < height + 1 := by omega
        rw [if_pos walks, if_pos walks, ih _ shorter (nextEpochLen_pos long) (by omega : height + 1 - epoch_len ≤ fuel),
          ih _ shorter (nextEpochLen_pos long) (by omega : height + 1 - epoch_len ≤ height)]
      · rw [if_neg walks, if_neg walks]

theorem rewardAt_of_lt {nHeight : Nat} (inside : nHeight < epoch_len) :
    rewardAt reward epoch_len nHeight = reward := by
  unfold rewardAt
  cases nHeight with
  | zero => rfl
  | succ height => rw [epochReward_succ, if_neg (by omega)]

theorem rewardAt_zero_reward (epoch_len nHeight : Nat) : rewardAt 0 epoch_len nHeight = 0 := by
  unfold rewardAt
  cases nHeight <;> simp [epochReward]

theorem rewardAt_add (long : 0 < epoch_len) (positive : 0 ≤ reward) (nHeight : Nat) :
    rewardAt reward epoch_len (epoch_len + nHeight) =
      rewardAt (reward * 3 / 5) (nextEpochLen epoch_len) nHeight := by
  obtain ⟨less, height⟩ : ∃ less, epoch_len + nHeight = less + 1 := ⟨epoch_len + nHeight - 1, by omega⟩
  rcases eq_or_lt_of_le positive with rfl | positive
  · simp [rewardAt_zero_reward]
  · rw [rewardAt, height, epochReward_succ, if_pos ⟨by omega, positive⟩]
    have rest : less + 1 - epoch_len = nHeight := by omega
    rw [rest]
    exact epochReward_fuel (nextEpochLen_pos long) (by omega)

theorem decay_bounds (positive : 0 ≤ reward) : 0 ≤ reward * 3 / 5 ∧ reward * 3 / 5 ≤ reward := by
  omega

theorem rewardAt_bounds (long : 0 < epoch_len) (positive : 0 ≤ reward) (nHeight : Nat) :
    0 ≤ rewardAt reward epoch_len nHeight ∧ rewardAt reward epoch_len nHeight ≤ reward := by
  induction nHeight using Nat.strong_induction_on generalizing reward epoch_len with
  | _ nHeight ih =>
    by_cases inside : nHeight < epoch_len
    · rw [rewardAt_of_lt inside]
      exact ⟨positive, le_rfl⟩
    · -- The height falls behind the first epoch, so the rest of the walk is shorter.
      obtain ⟨rest, rfl⟩ := Nat.exists_eq_add_of_le (Nat.le_of_not_lt inside)
      obtain ⟨lower, decays⟩ := decay_bounds positive
      obtain ⟨least, most⟩ := ih rest (by omega) (nextEpochLen_pos long) lower
      rw [rewardAt_add long positive]
      exact ⟨least, most.trans decays⟩

theorem rewardAt_antitone (long : 0 < epoch_len) (positive : 0 ≤ reward) {low high : Nat}
    (below : low ≤ high) : rewardAt reward epoch_len high ≤ rewardAt reward epoch_len low := by
  induction low using Nat.strong_induction_on generalizing reward epoch_len high with
  | _ low ih =>
    by_cases inside : low < epoch_len
    · rw [rewardAt_of_lt inside]
      exact (rewardAt_bounds long positive high).2
    · obtain ⟨rest, rfl⟩ := Nat.exists_eq_add_of_le (Nat.le_of_not_lt inside)
      obtain ⟨further, rfl⟩ := Nat.exists_eq_add_of_le (show epoch_len ≤ high by omega)
      rw [rewardAt_add long positive, rewardAt_add long positive]
      exact ih rest (by omega) (nextEpochLen_pos long) (decay_bounds positive).1 (by omega)

theorem sum_rewardAt_add (long : 0 < epoch_len) (positive : 0 ≤ reward) (count : Nat) :
    ∑ h ∈ range (epoch_len + count), rewardAt reward epoch_len h = epoch_len * reward +
        ∑ h ∈ range count, rewardAt (reward * 3 / 5) (nextEpochLen epoch_len) h := by
  rw [sum_range_add]
  congr 1
  · rw [sum_congr rfl fun h member => rewardAt_of_lt (mem_range.mp member)]
    simp
  · exact sum_congr rfl fun h _ => rewardAt_add long positive h

theorem sum_rewardAt_blocksIn (epochs : Nat) (long : 0 < epoch_len) (positive : 0 ≤ reward) :
    ∑ h ∈ range (blocksIn epochs epoch_len),
      rewardAt reward epoch_len h = mintedBy epochs reward epoch_len := by
  induction epochs generalizing reward epoch_len with
  | zero => simp [blocksIn, mintedBy]
  | succ epochs ih =>
    rw [blocksIn, sum_rewardAt_add long positive, mintedBy, ih (nextEpochLen_pos long) (decay_bounds positive).1]

theorem sum_rewardAt_le (epochs : Nat) (long : 0 < epoch_len) (positive : 0 ≤ reward)
    (gone : rewardBehind epochs reward = 0) (count : Nat) :
    ∑ h ∈ range count, rewardAt reward epoch_len h ≤ mintedBy epochs reward epoch_len := by
  induction epochs generalizing reward epoch_len count with
  | zero =>
    obtain rfl : reward = 0 := gone
    simp [rewardAt_zero_reward, mintedBy]
  | succ epochs ih =>
    have later := ih (nextEpochLen_pos long) (decay_bounds positive).1 gone
    rcases Nat.lt_or_ge count epoch_len with inside | behind
    · -- Only a part of the first epoch is paid.
      have part : ∑ h ∈ range count, rewardAt reward epoch_len h = count * reward := by
        rw [sum_congr rfl fun h member => rewardAt_of_lt ((mem_range.mp member).trans inside)]
        simp
      have rest : 0 ≤ mintedBy epochs (reward * 3 / 5) (nextEpochLen epoch_len) := by
        simpa using later 0
      have whole : (count : Int) * reward ≤ epoch_len * reward := Int.mul_le_mul_of_nonneg_right (by omega) positive
      rw [part, mintedBy]
      omega
    · obtain ⟨further, rfl⟩ := Nat.exists_eq_add_of_le behind
      rw [sum_rewardAt_add long positive, mintedBy]
      exact Int.add_le_add_left (later further) _

end Walk

def EXPECTED_TOTAL : Int := 2118415303530240

def PAID_EPOCHS : Nat := 48

theorem rewardBehind_schedule : rewardBehind PAID_EPOCHS INITIAL_REWARD = 0 := by decide +kernel

theorem mintedBy_schedule : mintedBy PAID_EPOCHS INITIAL_REWARD EPOCH_START_LEN = EXPECTED_TOTAL := by
  rfl

theorem schedule_starts : 0 < EPOCH_START_LEN ∧ 0 ≤ INITIAL_REWARD ∧ INITIAL_REWARD ≤ MAX_MONEY := by
  decide

theorem getBlockSubsidy_eq_rewardAt {params : Params} (enabled : params.tensor_subsidy = true)
    (nHeight : Nat) : getBlockSubsidy nHeight params = rewardAt INITIAL_REWARD EPOCH_START_LEN nHeight := by
  rw [getBlockSubsidy, if_pos enabled, rewardAt]

/-- Under the epoch schedule the subsidy never grows, is in the money range, and pays at most the
expected total, which is paid in the end and is above `MAX_MONEY`. -/
theorem tensor_subsidy_total (params : Params) (enabled : params.tensor_subsidy = true) :
    (∀ low high, low ≤ high → getBlockSubsidy high params ≤ getBlockSubsidy low params) ∧
      (∀ nHeight, MoneyRange (getBlockSubsidy nHeight params) = true) ∧
      (∀ n, ∑ h ∈ range (n + 1), getBlockSubsidy h params ≤ EXPECTED_TOTAL) ∧
      ∑ h ∈ range (28553524 + 1), getBlockSubsidy h params = EXPECTED_TOTAL ∧ MAX_MONEY < EXPECTED_TOTAL := by
  obtain ⟨long, positive, small⟩ := schedule_starts
  simp only [getBlockSubsidy_eq_rewardAt enabled]
  refine ⟨fun low high below => rewardAt_antitone long positive below, fun nHeight => ?_, fun n => ?_, ?_, by decide⟩
  · obtain ⟨least, most⟩ := rewardAt_bounds long positive nHeight
    simp [MoneyRange, least, most.trans small]
  · rw [← mintedBy_schedule]
    exact sum_rewardAt_le PAID_EPOCHS long positive rewardBehind_schedule (n + 1)
  · have blocks : blocksIn PAID_EPOCHS EPOCH_START_LEN = 28553524 + 1 := by rfl
    rw [← blocks, sum_rewardAt_blocksIn PAID_EPOCHS long positive, mintedBy_schedule]

/-- The schedule is the one of the regression-test chain, for instance. -/
theorem tensor_subsidy_total_reg : (tensorRegParams 0).tensor_subsidy = true ∧
      ∀ n, ∑ h ∈ range (n + 1), getBlockSubsidy h (tensorRegParams 0) ≤ EXPECTED_TOTAL :=
  ⟨rfl, (tensor_subsidy_total (tensorRegParams 0) rfl).2.2.1⟩

/-- Eighteen epochs pay more than the money range holds. -/
theorem subsidy_exceeds_max_money : (tensorRegParams 0).tensor_subsidy = true ∧
    MAX_MONEY < ∑ h ∈ range (6588724 + 1), getBlockSubsidy h (tensorRegParams 0) := by
  obtain ⟨long, positive, _⟩ := schedule_starts
  have blocks : blocksIn 18 EPOCH_START_LEN = 6588724 + 1 := by rfl
  have paid : MAX_MONEY < mintedBy 18 INITIAL_REWARD EPOCH_START_LEN := by decide
  refine ⟨rfl, ?_⟩
  have enabled : (tensorRegParams 0).tensor_subsidy = true := rfl
  simp only [getBlockSubsidy_eq_rewardAt enabled]
  rw [← blocks, sum_rewardAt_blocksIn 18 long positive]
  exact paid

end TensorCash
