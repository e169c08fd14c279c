import TensorCash.Validation.HeaderIndex

/-! The division comes before the multiplication, so that nothing wraps; the compact form rounds
down and keeps the order. -/

namespace TensorCash

variable {size target : Nat}

/-- The chains of `kernel/chainparams.cpp`; the last option of the two test chains is the
operator's. -/
inductive ChainType where
  | main | tensorMain | testNet | testNet4 | sigNet
  | regTest (enforce_bip94 : Bool)
  | tensorTest
  | tensorReg (enforce_bip94 : Bool)
deriving DecidableEq

namespace ChainType

def powLimit : ChainType → Nat
  | main | testNet | testNet4 => 0x00000000ffffffffffffffffffffffffffffffffffffffffffffffffffffffff
  | tensorMain | regTest _ | tensorTest | tensorReg _ =>
    0x7fffffffffffffffffffffffffffffffffffffffffffffffffffffffffffffff
  | sigNet => 0x00000377ae000000000000000000000000000000000000000000000000000000

def headerParams : ChainType → HeaderParams
  | main | tensorMain | sigNet => {}
  | testNet => { fPowAllowMinDifficultyBlocks := true }
  | testNet4 => { fPowAllowMinDifficultyBlocks := true, enforce_BIP94 := true }
  | tensorTest => { fPowAllowMinDifficultyBlocks := true, fPowNoRetargeting := true }
  | regTest enforce_bip94 | tensorReg enforce_bip94 =>
    { nPowTargetTimespan := 24 * 60 * 60
      fPowAllowMinDifficultyBlocks := true
      fPowNoRetargeting := true
      enforce_BIP94 := enforce_bip94 }

theorem powLimit_bounds (chain : ChainType) : 2 ^ 64 ≤ chain.powLimit ∧ chain.powLimit < 2 ^ 255 := by
  cases chain <;> decide +revert

theorem timespan_bounds (chain : ChainType) : 0 < chain.headerParams.nPowTargetTimespan ∧
      chain.headerParams.nPowTargetTimespan * 4 < 2 ^ 32 := by
  cases chain <;> decide +revert

end ChainType

/-- `PermittedDifficultyTransition`: whether bits may follow others. -/
def permittedDifficultyTransition (params : Params) (w : HeaderParams) (height : Nat)
    (old_nbits new_nbits : UInt32) : Bool :=
  if w.fPowAllowMinDifficultyBlocks then true
  else if height % w.difficultyAdjustmentInterval = 0 then
    let smallest_timespan := w.nPowTargetTimespan / 4
    let largest_timespan := w.nPowTargetTimespan * 4
    let observed_new_target := (setCompact new_nbits).1
    let old_target := (setCompact old_nbits).1
    let largest_difficulty_target := retargetSafe old_target largest_timespan w.nPowTargetTimespan params.powLimit
    let maximum_new_target := (setCompact (getCompact largest_difficulty_target)).1
    let smallest_difficulty_target := retargetSafe old_target smallest_timespan w.nPowTargetTimespan params.powLimit
    let minimum_new_target := (setCompact (getCompact smallest_difficulty_target)).1
    ¬ maximum_new_target < observed_new_target ∧ ¬ observed_new_target < minimum_new_target
  else old_nbits = new_nbits

theorem div_first (old actual target : Nat) (pos : 0 < target) :
    old * actual / target = old / target * actual + old % target * actual / target := by
  have split : old * actual = target * (old / target * actual) + old % target * actual := by
    conv_lhs => rw [← Nat.div_add_mod old target]
    ring
  rw [split, Nat.mul_add_div pos]

theorem remainder_lt (old : Nat) {factor divisor : Nat} (pos : 0 < divisor) (factor_pos : 0 < factor) :
    old % divisor * factor / divisor < factor := by
  rw [Nat.div_lt_iff_lt_mul pos, Nat.mul_comm factor]
  exact Nat.mul_lt_mul_of_pos_right (Nat.mod_lt _ pos) factor_pos

/-- `RetargetSafe` is the exact ratio within the limit, for times of 32 bits and a limit above
them. -/
theorem retargetSafe_eq {old actual limit : Nat} (pos : 0 < target) (short : target < 2 ^ 32)
    (factor : actual < 2 ^ 32) (above : 2 ^ 64 ≤ limit) (fits : limit < 2 ^ 255) :
    retargetSafe old actual target limit = min limit (old * actual / target) := by
  have remainder : old - old / target * target = old % target := by
    rw [Nat.mul_comm]
    exact (Nat.mod_eq_sub_mul_div).symm
  have low : old % target % 2 ^ 64 = old % target :=
    Nat.mod_eq_of_lt (lt_trans (Nat.mod_lt _ pos) (lt_trans short (by decide)))
  rw [div_first old actual target pos]
  simp only [retargetSafe, if_neg pos.ne', remainder, low, Nat.mod_eq_of_lt factor]
  rcases Nat.eq_zero_or_pos actual with rfl | running
  · simp
  -- The remainder's share is below the factor, so that it fits in 64 bits and under the limit.
  have extra := remainder_lt old pos running
  generalize old % target * actual / target = share at extra ⊢
  have saturates : limit / actual < old / target ↔ limit < old / target * actual := Nat.div_lt_iff_lt_mul running
  by_cases beyond : limit < old / target * actual
  · rw [if_pos ⟨running.ne', saturates.mpr beyond⟩]
    omega
  · rw [if_neg fun h => beyond (saturates.mp h.2)]
    generalize old / target * actual = whole at beyond ⊢
    rw [Nat.mod_eq_of_lt (show whole < 2 ^ 256 by omega), Nat.mod_eq_of_lt (show share < 2 ^ 64 by omega)]
    have under : (limit + 2 ^ 256 - share) % 2 ^ 256 = limit - share := by omega
    rw [under]
    split_ifs with over_limit
    · omega
    · rw [Nat.mod_eq_of_lt (show whole + share < 2 ^ 256 by omega)]

def compactShift (target : Nat) : Nat := 8 * ((Nat.log2 target + 1) / 8 - 2)

def compactFloor (target : Nat) : Nat := target / 2 ^ compactShift target * 2 ^ compactShift target

/-- A compact target as a number: a mantissa without its sign bit, and a number of bytes. -/
structure CompactForm (nCompact : UInt32) (target mantissa size : Nat) : Prop where
  word : nCompact.toNat = mantissa + size * 2 ^ 24
  unsigned : mantissa < 2 ^ 23
  small : size ≤ 3 → mantissa / 2 ^ (8 * (3 - size)) = target
  large : 3 < size → mantissa * 2 ^ (8 * (size - 3)) = target
  bound : size ≤ 32 ∨ size = 33 ∧ mantissa < 2 ^ 16

theorem byteSize_bounds (pos : target ≠ 0) (is : size = (Nat.log2 target + 1 + 7) / 8) :
    2 ^ (8 * (size - 1)) ≤ target ∧ target < 2 ^ (8 * size) := by
  constructor
  · exact le_trans (Nat.pow_le_pow_right (by decide) (by omega)) (Nat.log2_self_le pos)
  · exact lt_of_lt_of_le (Nat.lt_log2_self) (Nat.pow_le_pow_right (by decide) (by omega))

theorem log2_of_between {bits : Nat} (low : 2 ^ bits ≤ target) (high : target < 2 ^ (bits + 1)) :
    Nat.log2 target = bits := by
  have pos : target ≠ 0 := by
    rintro rfl
    exact absurd low (Nat.not_le.mpr (Nat.two_pow_pos bits))
  have above := (Nat.le_log2 pos).mpr low
  have below := (Nat.log2_lt pos).mpr high
  omega

theorem CompactForm.ofNat {mantissa : Nat} (unsigned : mantissa < 2 ^ 23)
    (small : size ≤ 3 → mantissa / 2 ^ (8 * (3 - size)) = target)
    (large : 3 < size → mantissa * 2 ^ (8 * (size - 3)) = target)
    (bound : size ≤ 32 ∨ size = 33 ∧ mantissa < 2 ^ 16) :
    CompactForm (UInt32.ofNat (mantissa + size * 2 ^ 24)) target mantissa size where
  word := by
    rw [UInt32.toNat_ofNat']
    exact Nat.mod_eq_of_lt (by omega)
  unsigned := unsigned
  small := small
  large := large
  bound := bound

theorem getCompact_of_size {f : Nat} (pos : target ≠ 0) (is : (Nat.log2 target + 1 + 7) / 8 = size)
    (short : size ≤ 3) (fills : 2 ^ (8 * (3 - size)) = f) :
    getCompact target = if target * f / 2 ^ 23 % 2 =
      1 then UInt32.ofNat (target * f / 2 ^ 8 + (size + 1) * 2 ^ 24) else UInt32.ofNat
        (target * f + size * 2 ^ 24) := by
  simp only [getCompact, if_neg pos, is, if_pos short, fills]

theorem getCompact_small (pos : target ≠ 0) (small : target < 2 ^ 24) :
    ∃ mantissa size, CompactForm (getCompact target) (compactFloor target) mantissa size := by
  obtain ⟨low, high⟩ := byteSize_bounds pos rfl
  have length := (Nat.log2_lt pos).mpr small
  -- Up to 23 bits nothing is dropped.
  have whole : target < 2 ^ 23 → compactFloor target = target := by
    intro below
    have : Nat.log2 target < 23 := (Nat.log2_lt pos).mpr below
    have shift : compactShift target = 0 := by
      unfold compactShift
      omega
    rw [compactFloor, shift, Nat.pow_zero, Nat.div_one, Nat.mul_one]
  obtain size | size | size : (Nat.log2 target + 1 + 7) / 8 = 1 ∨ (Nat.log2 target + 1 + 7) / 8 = 2 ∨
      (Nat.log2 target + 1 + 7) / 8 = 3 := by omega
  -- One, two or three bytes, and for each the mantissa with and without its top bit.
  · rw [size] at high
    rw [getCompact_of_size pos size (by decide) (f := 65536) rfl, whole (by omega)]
    split_ifs with signed
    · exact ⟨_, _, CompactForm.ofNat (by omega) (by omega) (by omega) (by omega)⟩
    · exact ⟨_, _, CompactForm.ofNat (by omega) (by omega) (by omega) (by omega)⟩
  · rw [size] at high
    rw [getCompact_of_size pos size (by decide) (f := 256) rfl, whole (by omega)]
    split_ifs with signed
    · exact ⟨_, _, CompactForm.ofNat (by omega) (by omega) (by omega) (by omega)⟩
    · exact ⟨_, _, CompactForm.ofNat (by omega) (by omega) (by omega) (by omega)⟩
  · rw [getCompact_of_size pos size (by decide) (f := 1) rfl]
    split_ifs with signed
    · have shift : compactShift target = 8 := by
        have : Nat.log2 target = 23 := log2_of_between (by omega) small
        rw [compactShift, this]
      rw [compactFloor, shift]
      exact ⟨_, _, CompactForm.ofNat (by omega) (by omega) (by omega) (by omega)⟩
    · rw [whole (by omega)]
      exact ⟨_, _, CompactForm.ofNat (by omega) (by omega) (by omega) (by omega)⟩

theorem getCompact_large (large : 2 ^ 24 ≤ target) (fits : target < 2 ^ 256) :
    ∃ mantissa size, CompactForm (getCompact target) (compactFloor target) mantissa size := by
  have pos : target ≠ 0 := by omega
  obtain ⟨low, high⟩ := byteSize_bounds pos rfl
  obtain ⟨extra, size⟩ : ∃ extra, (Nat.log2 target + 1 + 7) / 8 = extra + 4 := by
    refine ⟨(Nat.log2 target + 1 + 7) / 8 - 4, ?_⟩
    have := (Nat.le_log2 pos).mpr large
    omega
  have within : extra + 4 ≤ 32 := by
    have := (Nat.log2_lt pos).mpr fits
    omega
  rw [size] at low high
  -- The mantissa is what stands above the dropped bytes.
  have top : target / 2 ^ (8 * (extra + 1)) < 2 ^ 24 := by
    rw [Nat.div_lt_iff_lt_mul (Nat.two_pow_pos _), ← Nat.pow_add]
    exact lt_of_lt_of_eq high (congrArg _ (by omega))
  have mantissa : getCompact target = if target / 2 ^ (8 * (extra + 1)) / 2 ^ 23 % 2 = 1 then
        UInt32.ofNat (target / 2 ^ (8 * (extra + 2)) + (extra + 5) * 2 ^ 24)
      else UInt32.ofNat (target / 2 ^ (8 * (extra + 1)) + (extra + 4) * 2 ^ 24) := by
    have moved : target / 2 ^ (8 * (extra + 1)) / 2 ^ 8 = target / 2 ^ (8 * (extra + 2)) := by
      rw [Nat.div_div_eq_div_mul, ← Nat.pow_add]
      exact congrArg (target / 2 ^ ·) (by omega)
    simp only [getCompact, if_neg pos, size, if_neg (show ¬ extra + 4 ≤ 3 by omega),
      show extra + 4 - 3 = extra + 1 by omega, moved]
  rw [mantissa]
  split_ifs with signed
  · -- The mantissa has the sign bit, so it moves down one byte.
    have above : 2 ^ (8 * extra + 31) ≤ target := by
      have : 2 ^ 23 ≤ target / 2 ^ (8 * (extra + 1)) := by
        by_contra below
        rw [Nat.div_eq_of_lt (Nat.lt_of_not_le below)] at signed
        exact absurd signed (by decide)
      rw [Nat.le_div_iff_mul_le (Nat.two_pow_pos _), ← Nat.pow_add] at this
      exact le_trans (Nat.pow_le_pow_right (by decide) (by omega)) this
    have length : Nat.log2 target = 8 * extra + 31 := log2_of_between above
      (lt_of_lt_of_eq high (congrArg _ (by omega)))
    have shift : compactShift target = 8 * (extra + 2) := by
      unfold compactShift
      omega
    have short : target / 2 ^ (8 * (extra + 2)) < 2 ^ 16 := by
      rw [Nat.div_lt_iff_lt_mul (Nat.two_pow_pos _), ← Nat.pow_add]
      exact lt_of_lt_of_eq high (congrArg _ (by omega))
    refine ⟨_, _, CompactForm.ofNat (by omega) (by omega) (fun _ => ?_) (by omega)⟩
    rw [compactFloor, shift]
    congr 2
  · have below : target / 2 ^ (8 * (extra + 1)) < 2 ^ 23 := by omega
    have under : target < 2 ^ (8 * extra + 31) := by
      rw [Nat.div_lt_iff_lt_mul (Nat.two_pow_pos _), ← Nat.pow_add] at below
      exact lt_of_lt_of_eq below (congrArg _ (by omega))
    have length : Nat.log2 target < 8 * extra + 31 := (Nat.log2_lt pos).mpr under
    have least : 8 * (extra + 3) ≤ Nat.log2 target := (Nat.le_log2 pos).mpr
      (le_of_eq_of_le (congrArg _ (by omega)) low)
    have shift : compactShift target = 8 * (extra + 1) := by
      unfold compactShift
      omega
    refine ⟨_, _, CompactForm.ofNat below (by omega) (fun _ => ?_) (by omega)⟩
    rw [compactFloor, shift]
    congr 2

theorem getCompact_form (pos : target ≠ 0) (fits : target < 2 ^ 256) :
    ∃ mantissa size, CompactForm (getCompact target) (compactFloor target) mantissa size := by
  rcases Nat.lt_or_ge target (2 ^ 24) with small | large
  · exact getCompact_small pos small
  · exact getCompact_large large fits

theorem CompactForm.setCompact_eq {nCompact : UInt32} {mantissa : Nat}
    (form : CompactForm nCompact target mantissa size) (fits : target < 2 ^ 256) :
    setCompact nCompact = (target, false, false) := by
  obtain ⟨word, unsigned, small, large, bound⟩ := form
  have size_eq : nCompact.toNat / 2 ^ 24 = size := by omega
  have mantissa_eq : nCompact.toNat % 2 ^ 23 = mantissa := by omega
  have sign : nCompact &&& 0x00800000 = 0 := by
    apply UInt32.toNat_inj.mp
    rw [UInt32.toNat_and]
    change nCompact.toNat &&& 2 ^ 23 = 0
    have clear : nCompact.toNat.testBit 23 = false := by
      rw [Nat.testBit_eq_decide_div_mod_eq, decide_eq_false_iff_not]
      omega
    apply Nat.eq_of_testBit_eq
    intro i
    rw [Nat.testBit_and, Nat.testBit_two_pow, Nat.zero_testBit]
    by_cases at_sign : 23 = i
    · rw [← at_sign, clear, Bool.false_and]
    · simp [at_sign]
  have value : (if size ≤ 3 then if size ≤ 3 then mantissa / 2 ^ (8 * (3 - size)) else mantissa
      else (if size ≤ 3 then mantissa / 2 ^ (8 * (3 - size)) else mantissa) *
        2 ^ (8 * (size - 3)) % 2 ^ 256) = target := by
    split_ifs with short
    · exact small short
    · rw [large (by omega), Nat.mod_eq_of_lt fits]
  simp only [setCompact, size_eq, mantissa_eq, value, sign, Prod.mk.injEq, true_and]
  refine ⟨by simp, ?_⟩
  -- The mantissa of the largest size has one byte less.
  by_cases short : size ≤ 3
  · simp only [if_pos short]
    rw [Bool.and_eq_false_iff]
    right
    simp only [Bool.or_eq_false_iff, Bool.and_eq_false_iff, decide_eq_false_iff_not]
    omega
  · simp only [if_neg short]
    rw [Bool.and_eq_false_iff]
    right
    simp only [Bool.or_eq_false_iff, Bool.and_eq_false_iff, decide_eq_false_iff_not]
    omega

theorem compactFloor_le (target : Nat) : compactFloor target ≤ target := Nat.div_mul_le_self _ _

theorem setCompact_getCompact (fits : target < 2 ^ 256) :
    setCompact (getCompact target) = (compactFloor target, false, false) := by
  rcases Nat.eq_zero_or_pos target with rfl | pos
  · decide
  · obtain ⟨mantissa, size, form⟩ := getCompact_form pos.ne' fits
    exact form.setCompact_eq (lt_of_le_of_lt (compactFloor_le target) fits)

theorem pow_compactShift_le (dropped : compactShift target ≠ 0) : 2 ^ (compactShift target + 15) ≤ target := by
  have pos : target ≠ 0 := by
    rintro rfl
    exact dropped (by decide)
  refine le_trans (Nat.pow_le_pow_right (by decide) ?_) (Nat.log2_self_le pos)
  unfold compactShift at dropped ⊢
  omega

theorem compactFloor_mono {small large : Nat} (le : small ≤ large) :
    compactFloor small ≤ compactFloor large := by
  rcases Nat.eq_zero_or_pos small with rfl | pos
  · exact le_of_eq_of_le (by decide) (Nat.zero_le _)
  have lengths : Nat.log2 small ≤ Nat.log2 large :=
    (Nat.le_log2 (by omega)).mpr (le_trans (Nat.log2_self_le pos.ne') le)
  rcases Nat.eq_or_lt_of_le
      (show compactShift small ≤ compactShift large by unfold compactShift; omega) with same | fewer
  · unfold compactFloor
    rw [same]
    exact Nat.mul_le_mul_right _ (Nat.div_le_div_right le)
  -- Where the larger one drops more, a power that it keeps whole lies between the two.
  · have above : 2 ^ (compactShift large + 15) ≤ compactFloor large := by
      have kept : 2 ^ (compactShift large + 15) ≤ large := pow_compactShift_le (by omega)
      unfold compactFloor
      have quotient : 2 ^ 15 ≤ large / 2 ^ compactShift large := by
        rw [Nat.le_div_iff_mul_le (Nat.two_pow_pos _), ← Nat.pow_add, Nat.add_comm]
        exact kept
      calc 2 ^ (compactShift large + 15) = 2 ^ 15 * 2 ^ compactShift large := by
            rw [← Nat.pow_add, Nat.add_comm]
        _ ≤ _ := Nat.mul_le_mul_right _ quotient
    have below : small < 2 ^ (compactShift large + 15) := by
      refine lt_of_lt_of_le Nat.lt_log2_self (Nat.pow_le_pow_right (by decide) ?_)
      unfold compactShift at fewer ⊢
      omega
    exact le_trans (compactFloor_le small) (le_trans below.le above)

theorem compactFloor_pos (pos : 0 < target) : 0 < compactFloor target := by
  rcases Nat.eq_zero_or_pos (compactShift target) with whole | dropped
  · simpa [compactFloor, whole] using pos
  · refine Nat.mul_pos (Nat.div_pos ?_ (Nat.two_pow_pos _)) (Nat.two_pow_pos _)
    exact le_trans (Nat.pow_le_pow_right (by decide) (by omega)) (pow_compactShift_le dropped.ne')

/-- `RetargetSafe` as its callers use it is the exact ratio within the limit, and the adjusted bits
are a permitted transition. -/
theorem retarget_exact_and_permitted (chain : ChainType) : (∀ old_target actual : Nat, old_target < 2 ^ 256 →
      chain.headerParams.nPowTargetTimespan / 4 ≤ actual → actual ≤ chain.headerParams.nPowTargetTimespan * 4 →
      retargetSafe old_target actual chain.headerParams.nPowTargetTimespan chain.powLimit =
        min chain.powLimit (old_target * actual / chain.headerParams.nPowTargetTimespan)) ∧
    ∀ (params : Params) (path : IndexPath), params.powLimit = chain.powLimit →
      chain.headerParams.fPowAllowMinDifficultyBlocks = false →
      chain.headerParams.fPowNoRetargeting = false → chain.headerParams.enforce_BIP94 = false →
      (path.nHeight + 1) % chain.headerParams.difficultyAdjustmentInterval = 0 →
      permittedDifficultyTransition params chain.headerParams (path.nHeight + 1) path.last.nBits
        (calculateNextWorkRequired params chain.headerParams path) = true := by
  obtain ⟨above, below⟩ := chain.powLimit_bounds
  obtain ⟨pos, factor⟩ := chain.timespan_bounds
  have exact_at : ∀ old_target actual, actual ≤ chain.headerParams.nPowTargetTimespan * 4 →
      retargetSafe old_target actual chain.headerParams.nPowTargetTimespan chain.powLimit =
        min chain.powLimit (old_target * actual / chain.headerParams.nPowTargetTimespan) :=
    fun old_target actual high => retargetSafe_eq pos (by omega) (by omega) above below
  refine ⟨fun old_target actual _ _ high => exact_at old_target actual high, ?_⟩
  intro params path limit strict retargets regular adjusts
  generalize chain.headerParams = w at *
  simp only [permittedDifficultyTransition, calculateNextWorkRequired, strict, retargets, regular, adjusts,
    limit, Bool.false_eq_true, if_false, if_true]
  generalize (setCompact path.last.nBits).1 = old
  generalize spans : min (max ((path.last.nTime.toNat : Int) -
    (path.ancestor (w.difficultyAdjustmentInterval - 1)).nTime.toNat) (w.nPowTargetTimespan / 4 : Nat))
    (w.nPowTargetTimespan * 4 : Nat) = span
  -- The time is clamped to a quarter and four times of the timespan.
  have low : w.nPowTargetTimespan / 4 ≤ span.toNat := by omega
  have high : span.toNat ≤ w.nPowTargetTimespan * 4 := by omega
  have fits : ∀ actual, min chain.powLimit (old * actual / w.nPowTargetTimespan) < 2 ^ 256 := by
    intro actual
    exact lt_of_le_of_lt (min_le_left _ _) (by omega)
  have grows : ∀ {short long}, short ≤ long → compactFloor (min chain.powLimit (old * short / w.nPowTargetTimespan)) ≤
        compactFloor (min chain.powLimit (old * long / w.nPowTargetTimespan)) := by
    intro short long le
    apply compactFloor_mono
    exact min_le_min_left _ (Nat.div_le_div_right (Nat.mul_le_mul_left _ le))
  rw [exact_at old _ high, exact_at old _ le_rfl, exact_at old _ (by omega)]
  simp only [setCompact_getCompact (fits _), decide_eq_true_eq, not_lt]
  exact ⟨grows high, grows low⟩

open RegChain in
/-- Four times the timespan at a target of the main chain, and an adjustment after a period of one
header repeated. -/
theorem retarget_exact_and_permitted_main :
    retargetSafe (2 ^ 247) (14 * 24 * 60 * 60 * 4) (14 * 24 * 60 * 60) (2 ^ 255 - 1) = 2 ^ 249 ∧
      permittedDifficultyTransition env.params {} 2016 genesis.nBits
        (calculateNextWorkRequired env.params {}
          ⟨genesis.toCBlockHeader, List.replicate 2015 genesis.toCBlockHeader⟩) = true := by
  obtain ⟨ratio, permitted⟩ := retarget_exact_and_permitted .tensorMain
  constructor
  · exact (ratio (2 ^ 247) (14 * 24 * 60 * 60 * 4) (by decide) (by decide) (by decide)).trans (by decide)
  · have adjusts := permitted env.params
      ⟨genesis.toCBlockHeader, List.replicate 2015 genesis.toCBlockHeader⟩ rfl rfl rfl rfl
    simp only [IndexPath.nHeight, List.length_replicate] at adjusts
    exact adjusts (by decide)

end TensorCash
