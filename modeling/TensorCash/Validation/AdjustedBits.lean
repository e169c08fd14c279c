import TensorCash.Validation.Retarget

/-! `CreateNewBlock` and `ContextualCheckBlock` scale the target by the model's difficulty; nothing
keeps it above zero. -/

namespace TensorCash

open Checked

def ChainType.modelDifficultyNormalizer (_ : ChainType) : Nat := 1000000

def createAdjBits (env : NodeEnv) (db : ModelDb) (block : CBlock) : UInt32 :=
  if block.pow.model_identifier = [] then block.nBits
  else match db.models.get? (block.pow.getModelHash env.crypto) with
    | none => block.nBits
    | some record =>
      if 0 < record.metadata.difficulty then
        match deriveTarget block.nBits env.params.powLimit with
        | none => block.nBits
        | some base =>
          let norm := env.params.ModelDifficultyNormalizer
          getCompact (adjustedTarget env.params.powLimit (if norm = 0 then 1 else norm) base
            record.metadata.difficulty.toNat)
      else block.nBits

variable {limit norm base diff target : Nat}

theorem saturated_eq (pos : 0 < diff) (norm_pos : 0 < norm)
    (above : norm ≤ limit) : (let whole := if limit / norm < base / diff then limit else base / diff * norm
     if 0 < base % diff * norm / diff then
       if limit - base % diff * norm / diff < whole then limit
       else whole + base % diff * norm / diff
     else whole) = min limit (base * norm / diff) := by
  rw [div_first base norm diff pos]
  have extra := remainder_lt base pos norm_pos
  generalize base % diff * norm / diff = share at extra ⊢
  have saturates : limit / norm < base / diff ↔ limit < base / diff * norm := Nat.div_lt_iff_lt_mul norm_pos
  simp only [saturates]
  generalize base / diff * norm = whole
  by_cases beyond : limit < whole
  · simp only [if_pos beyond]
    split_ifs <;> omega
  · simp only [if_neg beyond]
    split_ifs <;> omega

theorem adjustedTarget_eq (pos : 0 < diff) (short : diff < 2 ^ 63)
    (norm_pos : 0 < norm) (factor : norm < 2 ^ 32) (above : 2 ^ 64 ≤ limit) (fits : limit < 2 ^ 255)
    (inside : base ≤ limit) : adjustedTarget limit norm base diff = min limit (base * norm / diff) := by
  rw [← saturated_eq pos norm_pos (by omega)]
  have product : base / diff * diff ≤ base := Nat.div_mul_le_self base diff
  have remainder : base % diff = base - base / diff * diff := by
    rw [Nat.mul_comm]
    exact Nat.mod_eq_sub_mul_div
  have rest := Nat.mod_lt base pos
  have rem : (base + 2 ^ 256 - base / diff * diff % 2 ^ 256) % 2 ^ 256 % 2 ^ 64 = base % diff := by
    rw [Nat.mod_eq_of_lt (show base / diff * diff < 2 ^ 256 by omega)]
    omega
  have term : base % diff * norm < 2 ^ 128 := by
    calc base % diff * norm < 2 ^ 63 * 2 ^ 32 := Nat.mul_lt_mul'' (by omega) factor
      _ < 2 ^ 128 := by decide
  have extra := remainder_lt base pos norm_pos
  simp only [adjustedTarget, rem, Nat.mod_eq_of_lt term, Nat.mod_eq_of_lt factor, ne_eq, norm_pos.ne',
    pos.ne', not_false_iff, true_and, if_true]
  generalize base % diff * norm / diff = share at extra ⊢
  have low : share % 2 ^ 64 = share := Nat.mod_eq_of_lt (by omega)
  have under : (limit + 2 ^ 256 - share) % 2 ^ 256 = limit - share := by omega
  -- The product is taken only where it stays within the limit.
  have whole : (if limit / norm < base / diff then limit else base / diff * norm % 2 ^ 256) =
      if limit / norm < base / diff then limit else base / diff * norm := by
    split_ifs with beyond
    · rfl
    · rw [Nat.div_lt_iff_lt_mul norm_pos] at beyond
      exact Nat.mod_eq_of_lt (by omega)
  rw [low, under, whole]
  generalize (if limit / norm < base / diff then limit else base / diff * norm) = main
  split_ifs with some_left saturated
  · rfl
  · rw [Nat.mod_eq_of_lt (show main + share < 2 ^ 256 by omega)]
  · rfl

theorem maxAdjustedTarget_eq {params : Params} (pos : 0 < diff) (short : diff < 2 ^ 63)
    (norm_pos : 0 < params.ModelDifficultyNormalizer)
    (factor : params.ModelDifficultyNormalizer < 2 ^ 32) (above : 2 ^ 64 ≤ params.powLimit)
    (fits : params.powLimit < 2 ^ 255) (inside : base ≤ params.powLimit) :
    maxAdjustedTarget params base diff =
      min params.powLimit (base * params.ModelDifficultyNormalizer / diff) := by
  simp only [maxAdjustedTarget, if_neg norm_pos.ne']
  exact adjustedTarget_eq pos short norm_pos factor above fits inside

theorem deriveTarget_bounds {nBits : UInt32}
    (derived : deriveTarget nBits limit = some target) : 0 < target ∧ target ≤ limit := by
  simp only [deriveTarget] at derived
  split at derived
  · cases derived
  · rename_i fine
    cases derived
    simp only [Bool.or_eq_true, decide_eq_true_eq, not_or, not_lt] at fine
    exact ⟨Nat.pos_of_ne_zero fine.1.1.2, fine.2⟩

theorem deriveTarget_getCompact (inside : target ≤ limit) (fits : limit < 2 ^ 255) :
    deriveTarget (getCompact target) limit = if target = 0 then none else some (compactFloor target) := by
  simp only [deriveTarget, setCompact_getCompact (show target < 2 ^ 256 by omega)]
  rcases Nat.eq_zero_or_pos target with rfl | pos
  · simp [compactFloor]
  · have kept := compactFloor_pos pos
    have rounded := compactFloor_le target
    rw [if_neg pos.ne', if_neg]
    simp only [Bool.or_eq_true, decide_eq_true_eq, Bool.false_eq_true, false_or, or_false, not_or, not_lt]
    omega

/-- For every chain, valid target and registered difficulty: the bound of the check is the exact
ratio within the limit, and the miner's block passes, with a positive target within the bound, just
when the ratio is not below one. -/
theorem adjustedBits_validate (chain : ChainType) {env : NodeEnv} {db : ModelDb} {block : CBlock}
    {record : ModelRecord} {base : Nat} (limit : env.params.powLimit = chain.powLimit)
    (norm : env.params.ModelDifficultyNormalizer = chain.modelDifficultyNormalizer)
    (target : deriveTarget block.nBits env.params.powLimit = some base) (named : block.pow.model_identifier ≠ [])
    (registered : db.models.get? (block.pow.getModelHash env.crypto) = some record)
    (pos : 0 < record.metadata.difficulty) (int64 : record.metadata.difficulty < 2 ^ 63) :
    (maxAdjustedTarget env.params base record.metadata.difficulty.toNat = min chain.powLimit
          (base * chain.modelDifficultyNormalizer / record.metadata.difficulty.toNat) ∧
      adjustedTarget chain.powLimit chain.modelDifficultyNormalizer base
          record.metadata.difficulty.toNat = maxAdjustedTarget env.params base record.metadata.difficulty.toNat) ∧
    (((∃ adjusted, deriveTarget (createAdjBits env db block) env.params.powLimit = some adjusted ∧
          0 < adjusted ∧ adjusted ≤ maxAdjustedTarget env.params base record.metadata.difficulty.toNat) ∧
        checkAdjustedBits env db { block with nAdjBits := createAdjBits env db block } = .ok ⟨⟩) ↔
      record.metadata.difficulty.toNat ≤ base * chain.modelDifficultyNormalizer) := by
  obtain ⟨above, below⟩ := chain.powLimit_bounds
  obtain ⟨_, inside⟩ := deriveTarget_bounds target
  have unit : env.params.ModelDifficultyNormalizer = 1000000 := norm
  have diff_pos : 0 < record.metadata.difficulty.toNat := by omega
  have bound : maxAdjustedTarget env.params base record.metadata.difficulty.toNat = _ :=
    maxAdjustedTarget_eq diff_pos (by omega) (by rw [unit]; decide) (by rw [unit]; decide)
      (by rw [limit]; exact above) (by rw [limit]; exact below) inside
  have machine : maxAdjustedTarget env.params base record.metadata.difficulty.toNat =
      adjustedTarget env.params.powLimit env.params.ModelDifficultyNormalizer base
        record.metadata.difficulty.toNat := by
    simp only [maxAdjustedTarget, if_neg (show env.params.ModelDifficultyNormalizer ≠ 0 by rw [unit]; decide)]
  have created : createAdjBits env db block =
      getCompact (maxAdjustedTarget env.params base record.metadata.difficulty.toNat) := by
    simp only [createAdjBits, if_neg named, registered, if_pos pos, target, maxAdjustedTarget]
  have within : maxAdjustedTarget env.params base record.metadata.difficulty.toNat ≤
      env.params.powLimit := by
    rw [bound]
    exact min_le_left _ _
  have derived := deriveTarget_getCompact within (by rw [limit]; exact below)
  rw [← created] at derived
  refine ⟨⟨by rw [bound, limit, norm], by rw [machine, ← limit, ← norm]⟩, ?_⟩
  rw [← norm]
  -- The ratio is below one just when the bound is zero: the limit itself is far above it.
  have zero : maxAdjustedTarget env.params base record.metadata.difficulty.toNat = 0 ↔
      ¬ record.metadata.difficulty.toNat ≤ base * env.params.ModelDifficultyNormalizer := by
    rw [bound, not_le, ← Nat.div_eq_zero_iff_lt diff_pos]
    omega
  constructor
  · rintro ⟨⟨adjusted, found, _, _⟩, _⟩
    by_contra large
    rw [derived, if_pos (zero.mpr large)] at found
    cases found
  · intro enough
    have nonzero : ¬ maxAdjustedTarget env.params base record.metadata.difficulty.toNat = 0 :=
      fun none_left => zero.mp none_left enough
    rw [if_neg nonzero] at derived
    refine ⟨⟨_, derived, compactFloor_pos (by omega), compactFloor_le _⟩, ?_⟩
    simp only [checkAdjustedBits, target, derived, demand, registered, if_neg named]
    simp only [bind, Except.bind, require, if_pos pos, if_pos (compactFloor_le _)]

open RegChain in
def easyBlock (nBits : UInt32) : CBlock := { genesis with nBits }

open RegChain in
def oneModel (difficulty : Int) : ModelDb :=
  { models := (∅ : OrdMap Uint256 ModelRecord).insert (pow.getModelHash crypto)
      { metadata := { difficulty } } }

open RegChain in
/-- The test chain's own target, for a model of twice the unit. -/
theorem adjustedBits_validate_twice : checkAdjustedBits env.toNodeEnv (oneModel 2000000) { easyBlock 0x207fffff with
        nAdjBits := createAdjBits env.toNodeEnv (oneModel 2000000) (easyBlock 0x207fffff) } = .ok ⟨⟩ := by
  have target : deriveTarget (easyBlock 0x207fffff).nBits env.params.powLimit =
      some (0x7fffff * 2 ^ (8 * 29)) := by decide +kernel
  have registered : (oneModel 2000000).models.get?
      ((easyBlock 0x207fffff).pow.getModelHash env.toNodeEnv.crypto) =
        some { metadata := { difficulty := 2000000 } } := by decide +kernel
  exact ((adjustedBits_validate (.tensorReg false) (by decide +kernel) (by decide +kernel) target
    (by decide +kernel) registered (by decide) (by decide)).2.mpr (by decide +kernel)).2

open RegChain in
/-- At the target one, a model one above the unit leaves the miner with the target zero, which
validation refuses. -/
theorem adjustedBits_vanish : deriveTarget 0x01010000 env.params.powLimit = some 1 ∧
      createAdjBits env.toNodeEnv (oneModel 1000001) (easyBlock 0x01010000) = 0 ∧
      checkAdjustedBits env.toNodeEnv (oneModel 1000001) { easyBlock 0x01010000 with
          nAdjBits := createAdjBits env.toNodeEnv (oneModel 1000001) (easyBlock 0x01010000) } =
        .error (.invalid .BLOCK_INVALID_HEADER "bad-diff-target") := by
  decide +kernel

end TensorCash
