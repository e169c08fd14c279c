import TensorCash.Assets.Registry
import Mathlib.Data.Nat.Bitwise
import Mathlib.Order.Monotone.Basic
import Mathlib.Tactic.Ring

/-! `consensus/scalar_cfd.{h,cpp}`. The 512-bit accumulators are machine words here; that they hold
every product is proved. -/

namespace TensorCash

def scalarCfdFixingBuried (publication_height context_height maturity_depth : Int) : Bool :=
  if publication_height < 0 ∨ maturity_depth < 0 then false
  else publication_height < context_height ∧ publication_height + maturity_depth ≤ context_height

structure ResolvedScalar where
  scalar : Uint256
  scalar_format_id : UInt16
  is_fallback : Bool
deriving DecidableEq

structure FixingTerms where
  underlying_asset_id : Uint256
  feed_id : UInt32
  fixing_ref : UInt64
  publication_deadline_height : UInt32
  fallback_scalar : Uint256
  leaf_scalar_format_id : UInt16
deriving DecidableEq

abbrev ScalarReader := Uint256 → UInt32 → UInt64 → Option ScalarRecord

def FixingTerms.usable (terms : FixingTerms) (context_height maturity_depth : Int)
    (real : ScalarRecord) : Bool :=
  real.scalar_format_id = terms.leaf_scalar_format_id &&
    (real.publication_height : Int) ≤ terms.publication_deadline_height.toNat &&
    scalarCfdFixingBuried real.publication_height context_height maturity_depth

def resolveScalarFixing (terms : FixingTerms) (context_height maturity_depth fallback_grace : Int)
    (reader : ScalarReader) : Option ResolvedScalar :=
  let effective_grace := max (max fallback_grace 0) (max maturity_depth 0)
  match (reader terms.underlying_asset_id terms.feed_id terms.fixing_ref).filter
      (terms.usable context_height maturity_depth) with
  | some real => some ⟨real.scalar, real.scalar_format_id, false⟩
  | none =>
    if terms.publication_deadline_height.toNat + effective_grace ≤ context_height then
      some ⟨terms.fallback_scalar, terms.leaf_scalar_format_id, true⟩
    else none

/-- A feed along one chain: fixed records, each with the first height that sees it. -/
structure ScalarFeed where
  record : ScalarReader
  firstContext : Uint256 → UInt32 → UInt64 → Int
  not_early : ∀ {asset feed epoch r}, record asset feed epoch = some r →
    (r.publication_height : Int) ≤ firstContext asset feed epoch

/-- Every record is seen from the height on top of its publication on, as `ConnectBlock` has it. -/
def ScalarFeed.Prompt (feed : ScalarFeed) : Prop :=
  ∀ asset id epoch r, feed.record asset id epoch = some r →
    feed.firstContext asset id epoch ≤ r.publication_height + 1

def ScalarFeed.reader (feed : ScalarFeed) (context_height : Int) : ScalarReader :=
  fun asset id epoch =>
    if feed.firstContext asset id epoch ≤ context_height then feed.record asset id epoch else none

section Fixing

variable {terms : FixingTerms} {maturity_depth fallback_grace low high : Int}

theorem scalarCfdFixingBuried_iff {publication_height context_height : Int} :
    scalarCfdFixingBuried publication_height context_height maturity_depth = true ↔
      0 ≤ publication_height ∧ 0 ≤ maturity_depth ∧ publication_height < context_height ∧
        publication_height + maturity_depth ≤ context_height := by
  unfold scalarCfdFixingBuried
  split_ifs with negative
  · simp only [false_iff]
    omega
  · simp only [decide_eq_true_eq]
    omega

variable {real : ScalarRecord}

theorem FixingTerms.usable_later (later : low ≤ high)
    (usable : terms.usable low maturity_depth real = true) : terms.usable high maturity_depth real = true := by
  simp only [FixingTerms.usable, Bool.and_eq_true, scalarCfdFixingBuried_iff] at usable ⊢
  refine ⟨usable.1, ?_⟩
  omega

theorem FixingTerms.usable_of_fallback (deep : 1 ≤ maturity_depth)
    (opened : terms.publication_deadline_height.toNat + max (max fallback_grace 0)
      (max maturity_depth 0) ≤ low) (usable : terms.usable high maturity_depth real = true) :
    terms.usable low maturity_depth real = true ∧ (real.publication_height : Int) + 1 ≤ low := by
  simp only [FixingTerms.usable, Bool.and_eq_true, decide_eq_true_eq, scalarCfdFixingBuried_iff]
    at usable ⊢
  obtain ⟨⟨format, in_time⟩, _⟩ := usable
  -- The grace is at least the maturity, so the deadline itself is buried at the lower height.
  refine ⟨⟨⟨format, in_time⟩, ?_⟩, ?_⟩ <;> omega

theorem ScalarFeed.reader_eq_some {feed : ScalarFeed} {asset : Uint256} {id : UInt32} {epoch : UInt64}
    : feed.reader low asset id epoch = some real ↔
      feed.firstContext asset id epoch ≤ low ∧ feed.record asset id epoch = some real := by
  unfold ScalarFeed.reader
  split_ifs with seen <;> simp [seen]

theorem resolveScalarFixing_later (feed : ScalarFeed) (prompt : feed.Prompt)
    (deep : 1 ≤ maturity_depth) (later : low ≤ high) {value : ResolvedScalar}
    (resolved :
       resolveScalarFixing terms low maturity_depth fallback_grace (feed.reader low) = some value) :
    resolveScalarFixing terms high maturity_depth fallback_grace (feed.reader high) =
      some value := by
  unfold resolveScalarFixing at resolved ⊢
  split at resolved
  · next real found =>
    -- The published scalar was used: the record is still there and still buried.
    obtain ⟨read, usable⟩ := Option.filter_eq_some_iff.mp found
    obtain ⟨seen, record⟩ := ScalarFeed.reader_eq_some.mp read
    have again : (feed.reader high terms.underlying_asset_id terms.feed_id terms.fixing_ref).filter
        (terms.usable high maturity_depth) = some real :=
      Option.filter_eq_some_iff.mpr ⟨ScalarFeed.reader_eq_some.mpr ⟨seen.trans later, record⟩,
        FixingTerms.usable_later later usable⟩
    rw [again]
    exact resolved
  · next absent =>
    -- The fallback was used: a record that could be used now could have been used then.
    simp only at resolved ⊢
    split_ifs at resolved with opened
    have still : (feed.reader high terms.underlying_asset_id terms.feed_id terms.fixing_ref).filter
        (terms.usable high maturity_depth) = none := by
      by_contra present
      obtain ⟨real, found⟩ := Option.ne_none_iff_exists'.mp present
      obtain ⟨read, usable⟩ := Option.filter_eq_some_iff.mp found
      obtain ⟨_, record⟩ := ScalarFeed.reader_eq_some.mp read
      obtain ⟨usable, above⟩ := FixingTerms.usable_of_fallback deep opened usable
      have seen := (prompt _ _ _ _ record).trans above
      rw [Option.filter_eq_some_iff.mpr ⟨ScalarFeed.reader_eq_some.mpr ⟨seen, record⟩, usable⟩]
        at absent
      cases absent
    rw [still, if_pos (opened.trans later)]
    exact resolved

end Fixing

/-- **Scalar fixings are final** on a feed that shows its records promptly: a resolved value is the
value at every greater height. -/
theorem scalar_fixing_final (feed : ScalarFeed) (prompt : feed.Prompt) (terms : FixingTerms)
    (maturity_depth : Int) (deep : 1 ≤ maturity_depth) (fallback_grace : Int) :
    (∀ (low high : Int) (value : ResolvedScalar), low ≤ high →
      resolveScalarFixing terms low maturity_depth fallback_grace (feed.reader low) = some value →
      resolveScalarFixing terms high maturity_depth fallback_grace (feed.reader high) = some value) ∧
    ∀ (here there : Int) (value other : ResolvedScalar),
      resolveScalarFixing terms here maturity_depth fallback_grace (feed.reader here) = some value →
      resolveScalarFixing terms there maturity_depth fallback_grace (feed.reader there) = some other →
      value = other := by
  refine ⟨fun low high value later resolved => resolveScalarFixing_later feed prompt deep later resolved, ?_⟩
  intro here there value other resolved again
  rcases le_total here there with later | later
  · have carried := resolveScalarFixing_later feed prompt deep later resolved
    exact Option.mem_unique carried again
  · have carried := resolveScalarFixing_later feed prompt deep later again
    exact Option.mem_unique resolved carried

/-- One record, published at height 10, which is seen from a height of at least that on. -/
def oneRecordFeed (seen : Nat) : ScalarFeed where
  record asset feed epoch := if asset = 7 ∧ feed = 0 ∧ epoch = 1 then some ⟨42, 10, 1⟩ else none
  firstContext _ _ _ := max 10 seen
  not_early := by
    intro asset feed epoch r known
    split_ifs at known with key
    cases known
    exact le_max_left _ _

/-- With a maturity of six blocks and no grace, height 10 is settled on from height 16 on. -/
theorem scalar_fixing_final_oneRecord : (oneRecordFeed 11).Prompt ∧
      resolveScalarFixing ⟨7, 0, 1, 12, 0, 1⟩ 16 6 0 ((oneRecordFeed 11).reader 16) = some ⟨42, 1, false⟩ ∧
      resolveScalarFixing ⟨7, 0, 1, 12, 0, 1⟩ 500 6 0 ((oneRecordFeed 11).reader 500) =
        some ⟨42, 1, false⟩ := by
  have prompt : (oneRecordFeed 11).Prompt := by
    intro asset feed epoch r known
    simp only [oneRecordFeed] at known ⊢
    split_ifs at known with key
    cases known
    decide
  have resolved : resolveScalarFixing ⟨7, 0, 1, 12, 0, 1⟩ 16 6 0 ((oneRecordFeed 11).reader 16) =
      some ⟨42, 1, false⟩ := by decide
  exact ⟨prompt, resolved, (scalar_fixing_final (oneRecordFeed 11) prompt ⟨7, 0, 1, 12, 0, 1⟩ 6
    (by decide) 0).1 16 500 _ (by decide) resolved⟩

/-- A record that is seen only when the fallback has been used changes the value. -/
theorem scalar_fixing_not_final_when_late :
    resolveScalarFixing ⟨7, 0, 1, 12, 0, 1⟩ 20 6 0 ((oneRecordFeed 100).reader 20) = some ⟨0, 1, true⟩ ∧
      resolveScalarFixing ⟨7, 0, 1, 12, 0, 1⟩ 100 6 0 ((oneRecordFeed 100).reader 100) =
        some ⟨42, 1, false⟩ := by
  decide

abbrev ArithUint256 := BitVec 256

abbrev BaseUint512 := BitVec 512

def getLow64 {width : Nat} (x : BitVec width) : BitVec 64 := x.setWidth 64

def widen (x : ArithUint256) : BaseUint512 :=
  ([0, 1, 2, 3].foldl (fun (state : BaseUint512 × ArithUint256) (word : Nat) =>
    let piece : BaseUint512 := (getLow64 state.2).setWidth 512 <<< (64 * word)
    (state.1 ||| piece, state.2 >>> 64)) (0, x)).1

inductive ScalarLossDenominator where
  | STRIKE
  | REALIZED
deriving DecidableEq

def ScalarLossDenominator.pick (strike realized : ArithUint256) : ScalarLossDenominator → ArithUint256
  | .STRIKE => strike
  | .REALIZED => realized

structure ScalarCfdPayout where
  payout_owner : UInt64
  payout_cp : UInt64
deriving DecidableEq

def splitScalarMargin (num denom : ArithUint256) (lambda_q : UInt32)
    (vault_im min_settle_output : UInt64) : ScalarCfdPayout :=
  let lhs := widen num * BitVec.ofNat 512 lambda_q.toNat
  let denom_scaled := widen denom <<< 16
  let payout_cp : UInt64 :=
    if denom_scaled ≤ lhs then vault_im
    else ⟨getLow64 (lhs * BitVec.ofNat 512 vault_im.toNat / denom_scaled)⟩
  let payout_owner := vault_im - payout_cp
  -- A leg below the minimum goes to the other one.
  if payout_cp ≠ 0 ∧ payout_cp < min_settle_output then ⟨vault_im, 0⟩
  else if payout_owner ≠ 0 ∧ payout_owner < min_settle_output then ⟨0, vault_im⟩
  else ⟨payout_owner, payout_cp⟩

def computeScalarCfdPayout (strike realized : ArithUint256) (denominator : ScalarLossDenominator)
    (lambda_q : UInt32) (vault_im : UInt64) (short_leg : Bool) (min_settle_output : UInt64) :
    Option ScalarCfdPayout :=
  if lambda_q = 0 then none
  else if vault_im < min_settle_output then none
  else
    let denom := denominator.pick strike realized
    -- A short leg loses when the scalar rises above the strike, a long leg when it falls below.
    if ¬ (if short_leg then strike < realized else realized < strike) then some ⟨vault_im, 0⟩
    else
      let num := if short_leg then realized - strike else strike - realized
      some (splitScalarMargin num denom lambda_q vault_im min_settle_output)

def exactLoss (im leverage difference denom : Nat) : Nat :=
  if denom = 0 then im else min im (im * leverage * difference / (2 ^ 16 * denom))

def dustRule (im minimum loss : Nat) : Nat × Nat :=
  if loss ≠ 0 ∧ loss < minimum then (im, 0)
  else if im - loss ≠ 0 ∧ im - loss < minimum then (0, im)
  else (im - loss, loss)

def adverseMove (strike realized : Nat) (short_leg : Bool) : Nat :=
  if short_leg then realized - strike else strike - realized

def scalarLoss (strike realized denom leverage im : Nat) (short_leg : Bool) : Nat :=
  if adverseMove strike realized short_leg = 0 then 0
  else exactLoss im leverage (adverseMove strike realized short_leg) denom

theorem mod_accumulator {n bits : Nat} (small : n < 2 ^ bits) (fits : bits ≤ 512) : n % 2 ^ 512 = n :=
  Nat.mod_eq_of_lt (small.trans_le (Nat.pow_le_pow_right (by decide) fits))

theorem widen_toNat (x : ArithUint256) : (widen x).toNat = x.toNat := by
  have copied : widen x = x.setWidth 512 := by
    -- Bit by bit: each of the four words lands where it was taken from.
    apply BitVec.eq_of_getLsbD_eq
    intro i bound
    simp only [widen, getLow64, List.foldl_cons, List.foldl_nil, BitVec.getLsbD_or,
      BitVec.getLsbD_shiftLeft, BitVec.getLsbD_setWidth, BitVec.getLsbD_ushiftRight]
    rcases Nat.lt_or_ge i 64 with first | first
    · simp [first, bound, show i < 128 by omega, show i < 192 by omega]
    · rcases Nat.lt_or_ge i 128 with second | second
      · simp [bound, second, show ¬ i < 64 by omega, show i < 192 by omega,
          show 64 + (i - 64) = i by omega, show i - 64 < 64 by omega, show i - 64 < 512 by omega]
      · rcases Nat.lt_or_ge i 192 with third | third
        · simp [bound, third, show ¬ i < 64 by omega, show ¬ i < 128 by omega,
            show ¬ i - 64 < 64 by omega, show i - 128 < 64 by omega, show i - 128 < 512 by omega,
            show 64 + (64 + (i - 128)) = i by omega]
        · rcases Nat.lt_or_ge i 256 with fourth | fourth
          · simp [bound, show ¬ i < 64 by omega, show ¬ i < 128 by omega, show ¬ i < 192 by omega,
              show ¬ i - 64 < 64 by omega, show ¬ i - 128 < 64 by omega, show i - 192 < 64 by omega,
              show i - 192 < 512 by omega, show 64 + (64 + (64 + (i - 192))) = i by omega]
          · have out : x.getLsbD i = false := BitVec.getLsbD_of_ge x i fourth
            simp [out, show ¬ i - 64 < 64 by omega, show ¬ i - 128 < 64 by omega,
              show ¬ i - 192 < 64 by omega, show ¬ i < 64 by omega]
  rw [copied, BitVec.toNat_setWidth, mod_accumulator x.isLt (by decide)]

theorem lhs_toNat (num : ArithUint256) (lambda_q : UInt32) :
    (widen num * BitVec.ofNat 512 lambda_q.toNat).toNat = num.toNat * lambda_q.toNat := by
  have small : num.toNat * lambda_q.toNat < 2 ^ 288 := by
    have product := Nat.mul_lt_mul'' num.isLt lambda_q.toNat_lt
    rwa [← Nat.pow_add] at product
  rw [BitVec.toNat_mul, widen_toNat, BitVec.toNat_ofNat,
    mod_accumulator lambda_q.toNat_lt (by decide), mod_accumulator small (by decide)]

theorem denom_scaled_toNat (denom : ArithUint256) : (widen denom <<< 16).toNat = denom.toNat * 2 ^ 16 := by
  have small : denom.toNat * 2 ^ 16 < 2 ^ 272 := by
    have product := Nat.mul_lt_mul_of_pos_right denom.isLt (Nat.two_pow_pos 16)
    rwa [← Nat.pow_add] at product
  rw [BitVec.toNat_shiftLeft, widen_toNat, Nat.shiftLeft_eq, mod_accumulator small (by decide)]

theorem numer_toNat (num : ArithUint256) (lambda_q : UInt32) (vault_im : UInt64) :
    (widen num * BitVec.ofNat 512 lambda_q.toNat * BitVec.ofNat 512 vault_im.toNat).toNat =
      num.toNat * lambda_q.toNat * vault_im.toNat := by
  have small : num.toNat * lambda_q.toNat * vault_im.toNat < 2 ^ 352 := by
    have product := Nat.mul_lt_mul'' (Nat.mul_lt_mul'' num.isLt lambda_q.toNat_lt) vault_im.toNat_lt
    rwa [← Nat.pow_add, ← Nat.pow_add] at product
  rw [BitVec.toNat_mul, lhs_toNat, BitVec.toNat_ofNat,
    mod_accumulator vault_im.toNat_lt (by decide), mod_accumulator small (by decide)]

/-- The quotient of a loss below the margin is at most the margin, so its low word is all of it. -/
theorem quotient_toNat {num denom : ArithUint256} {lambda_q : UInt32} (vault_im : UInt64)
    (partly : num.toNat * lambda_q.toNat < denom.toNat * 2 ^ 16) :
    (getLow64 (widen num * BitVec.ofNat 512 lambda_q.toNat * BitVec.ofNat 512 vault_im.toNat /
        (widen denom <<< 16))).toNat = num.toNat * lambda_q.toNat * vault_im.toNat / (denom.toNat * 2 ^ 16) ∧
    num.toNat * lambda_q.toNat * vault_im.toNat / (denom.toNat * 2 ^ 16) ≤ vault_im.toNat := by
  have bounded : num.toNat * lambda_q.toNat * vault_im.toNat / (denom.toNat * 2 ^ 16) ≤
      vault_im.toNat := by
    rw [Nat.div_le_iff_le_mul_add_pred (by omega)]
    have part := Nat.mul_le_mul_right vault_im.toNat partly.le
    omega
  refine ⟨?_, bounded⟩
  rw [getLow64, BitVec.toNat_setWidth, BitVec.toNat_udiv, numer_toNat, denom_scaled_toNat]
  exact Nat.mod_eq_of_lt (bounded.trans_lt vault_im.toNat_lt)

theorem payout_cp_toNat (num denom : ArithUint256) (lambda_q : UInt32) (vault_im : UInt64) :
    (if widen denom <<< 16 ≤ widen num * BitVec.ofNat 512 lambda_q.toNat then vault_im
      else (⟨getLow64 (widen num * BitVec.ofNat 512 lambda_q.toNat *
        BitVec.ofNat 512 vault_im.toNat / (widen denom <<< 16))⟩ : UInt64)).toNat =
      exactLoss vault_im.toNat lambda_q.toNat num.toNat denom.toNat := by
  have product : vault_im.toNat * lambda_q.toNat * num.toNat = num.toNat * lambda_q.toNat * vault_im.toNat := by ring
  have scaled : 2 ^ 16 * denom.toNat = denom.toNat * 2 ^ 16 := Nat.mul_comm _ _
  unfold exactLoss
  rw [product, scaled]
  simp only [BitVec.le_def, lhs_toNat, denom_scaled_toNat]
  split_ifs with whole none none
  · rfl
  · -- The raw fraction is at least one, so the quotient is at least the margin.
    have most : vault_im.toNat ≤ num.toNat * lambda_q.toNat * vault_im.toNat / (denom.toNat * 2 ^ 16) := by
      rw [Nat.le_div_iff_mul_le (by omega), Nat.mul_comm]
      exact Nat.mul_le_mul_right _ whole
    rw [Nat.min_eq_left most]
  · -- A zero denominator is never above a positive loss.
    rw [none, Nat.zero_mul] at whole
    omega
  · obtain ⟨low, bounded⟩ := quotient_toNat vault_im (Nat.lt_of_not_le whole)
    rw [Nat.min_eq_right bounded]
    exact low

theorem exactLoss_le (im leverage difference denom : Nat) : exactLoss im leverage difference denom ≤ im := by
  unfold exactLoss
  split_ifs
  · exact le_rfl
  · exact Nat.min_le_left _ _

def ScalarCfdPayout.legs (payout : ScalarCfdPayout) : Nat × Nat :=
  (payout.payout_owner.toNat, payout.payout_cp.toNat)

theorem dust_legs {vault_im payout_cp min_settle_output : UInt64} (part : payout_cp ≤ vault_im) :
    (if payout_cp ≠ 0 ∧ payout_cp < min_settle_output then (⟨vault_im, 0⟩ : ScalarCfdPayout)
      else if vault_im - payout_cp ≠ 0 ∧ vault_im - payout_cp < min_settle_output then ⟨0, vault_im⟩
      else ⟨vault_im - payout_cp, payout_cp⟩).legs =
        dustRule vault_im.toNat min_settle_output.toNat payout_cp.toNat := by
  have owner : (vault_im - payout_cp).toNat = vault_im.toNat - payout_cp.toNat := UInt64.toNat_sub_of_le _ _ part
  have nonzero : ∀ x : UInt64, x ≠ 0 ↔ x.toNat ≠ 0 := fun x => by
    rw [ne_eq, ← UInt64.toNat_inj, UInt64.toNat_zero]
  unfold dustRule
  simp only [nonzero, UInt64.lt_iff_toNat_lt, owner]
  split_ifs
  · rfl
  · rfl
  · rw [ScalarCfdPayout.legs, owner]

theorem splitScalarMargin_legs (num denom : ArithUint256) (lambda_q : UInt32)
    (vault_im min_settle_output : UInt64) :
    (splitScalarMargin num denom lambda_q vault_im min_settle_output).legs =
      dustRule vault_im.toNat min_settle_output.toNat
        (exactLoss vault_im.toNat lambda_q.toNat num.toNat denom.toNat) := by
  have cp := payout_cp_toNat num denom lambda_q vault_im
  unfold splitScalarMargin
  rw [← cp]
  apply dust_legs
  rw [UInt64.le_iff_toNat_le, cp]
  exact exactLoss_le _ _ _ _

theorem exactLoss_mono (im leverage denom : Nat) {small large : Nat} (grows : small ≤ large) :
    exactLoss im leverage small denom ≤ exactLoss im leverage large denom := by
  unfold exactLoss
  split_ifs
  · exact le_rfl
  · exact min_le_min_left im (Nat.div_le_div_right (Nat.mul_le_mul_left _ grows))

theorem dustRule_antitone {im minimum small large : Nat} (enough : minimum ≤ im)
    (grows : small ≤ large) (bounded : large ≤ im) :
    (dustRule im minimum large).1 ≤ (dustRule im minimum small).1 := by
  unfold dustRule
  split_ifs <;> simp only <;> omega

theorem dustRule_legs {im minimum loss : Nat} (enough : minimum ≤ im) (bounded : loss ≤ im) :
    (dustRule im minimum loss).1 + (dustRule im minimum loss).2 = im ∧
      ((dustRule im minimum loss).1 = 0 ∨ minimum ≤ (dustRule im minimum loss).1) ∧
      ((dustRule im minimum loss).2 = 0 ∨ minimum ≤ (dustRule im minimum loss).2) := by
  unfold dustRule
  split_ifs
  · exact ⟨Nat.add_zero _, .inr enough, .inl rfl⟩
  · exact ⟨Nat.zero_add _, .inl rfl, .inr enough⟩
  · refine ⟨?_, ?_, ?_⟩ <;> simp only <;> omega

section Payout

variable {strike realized : ArithUint256} {lambda_q : UInt32} {vault_im min_settle_output : UInt64}
  {short_leg : Bool}

theorem adverse_num (adverse : if short_leg then strike < realized else realized < strike) :
    (if short_leg then realized - strike else strike - realized).toNat =
        adverseMove strike.toNat realized.toNat short_leg ∧ 0 < adverseMove strike.toNat realized.toNat short_leg := by
  cases short_leg with
  | true =>
    simp only [if_true, BitVec.lt_def, adverseMove] at adverse ⊢
    rw [BitVec.toNat_sub_of_le (BitVec.le_def.mpr adverse.le)]
    exact ⟨rfl, by omega⟩
  | false =>
    simp only [Bool.false_eq_true, if_false, BitVec.lt_def, adverseMove] at adverse ⊢
    rw [BitVec.toNat_sub_of_le (BitVec.le_def.mpr adverse.le)]
    exact ⟨rfl, by omega⟩

theorem adverseMove_eq_zero
    (favourable : ¬ if short_leg then strike < realized else realized < strike) :
    adverseMove strike.toNat realized.toNat short_leg = 0 := by
  cases short_leg <;> simp [BitVec.lt_def, adverseMove] at favourable ⊢ <;> omega

theorem computeScalarCfdPayout_legs (leveraged : lambda_q ≠ 0)
    (enough : min_settle_output ≤ vault_im) (strike realized : ArithUint256)
    (denominator : ScalarLossDenominator) (short_leg : Bool) :
    ∃ payout, computeScalarCfdPayout strike realized denominator lambda_q vault_im short_leg
        min_settle_output = some payout ∧ payout.legs = dustRule vault_im.toNat min_settle_output.toNat
        (scalarLoss strike.toNat realized.toNat (denominator.pick strike realized).toNat lambda_q.toNat
          vault_im.toNat short_leg) := by
  unfold computeScalarCfdPayout
  rw [if_neg leveraged, if_neg (UInt64.not_lt.mpr enough)]
  by_cases adverse : if short_leg then strike < realized else realized < strike
  · obtain ⟨num, moved⟩ := adverse_num adverse
    have loss : scalarLoss strike.toNat realized.toNat (denominator.pick strike realized).toNat
        lambda_q.toNat vault_im.toNat short_leg = _ := if_neg moved.ne'
    simp only [adverse, not_true_eq_false, if_false]
    exact ⟨_, rfl, by rw [splitScalarMargin_legs, num, loss]⟩
  · simp only [adverse, not_false_eq_true, if_true]
    have loss : scalarLoss strike.toNat realized.toNat (denominator.pick strike realized).toNat
        lambda_q.toNat vault_im.toNat short_leg = 0 := if_pos (adverseMove_eq_zero adverse)
    rw [loss]
    have whole := UInt64.le_iff_toNat_le.mp enough
    refine ⟨_, rfl, ?_⟩
    simp [ScalarCfdPayout.legs, dustRule, Nat.not_lt.mpr whole]

theorem scalarLoss_le (strike realized denom leverage im : Nat) (short_leg : Bool) :
    scalarLoss strike realized denom leverage im short_leg ≤ im := by
  unfold scalarLoss
  split_ifs
  · exact Nat.zero_le _
  · exact exactLoss_le _ _ _ _

theorem scalarLoss_mono {strike realized other denom leverage im : Nat}
    (further : adverseMove strike realized short_leg ≤ adverseMove strike other short_leg) :
    scalarLoss strike realized denom leverage im short_leg ≤
      scalarLoss strike other denom leverage im short_leg := by
  unfold scalarLoss
  split_ifs with still moved
  · exact le_rfl
  · exact Nat.zero_le _
  · omega
  · exact exactLoss_mono im leverage denom further

end Payout

/-- Scalar payouts are exact. Every margin of at least the minimum is paid out by the loss in
unbounded integers under the dust rule; no leg is dust, the accumulators hold every product, and the
owner's leg follows the position's direction. -/
theorem scalar_payout_exact (strike : ArithUint256) (denominator : ScalarLossDenominator)
    (lambda_q : UInt32) (vault_im : UInt64) (short_leg : Bool) (min_settle_output : UInt64)
    (leveraged : lambda_q ≠ 0) (enough : min_settle_output ≤ vault_im) :
    (∀ realized, ∃ payout, computeScalarCfdPayout strike realized denominator lambda_q vault_im
        short_leg min_settle_output = some payout ∧ payout.legs = dustRule vault_im.toNat min_settle_output.toNat
        (scalarLoss strike.toNat realized.toNat (denominator.pick strike realized).toNat lambda_q.toNat
          vault_im.toNat short_leg) ∧ payout.payout_owner.toNat + payout.payout_cp.toNat = vault_im.toNat ∧
      (payout.payout_owner = 0 ∨ min_settle_output ≤ payout.payout_owner) ∧
      (payout.payout_cp = 0 ∨ min_settle_output ≤ payout.payout_cp)) ∧ (∀ num denom : ArithUint256,
      let lhs := widen num * BitVec.ofNat 512 lambda_q.toNat
      let denom_scaled := widen denom <<< 16
      lhs.toNat = num.toNat * lambda_q.toNat ∧ denom_scaled.toNat = denom.toNat * 2 ^ 16 ∧
      (lhs * BitVec.ofNat 512 vault_im.toNat).toNat = lhs.toNat * vault_im.toNat ∧ (lhs < denom_scaled →
        (getLow64 (lhs * BitVec.ofNat 512 vault_im.toNat / denom_scaled)).toNat =
          lhs.toNat * vault_im.toNat / denom_scaled.toNat)) ∧
    (denominator = .STRIKE → ∀ low high paid paid', low ≤ high →
      computeScalarCfdPayout strike low denominator lambda_q vault_im short_leg min_settle_output = some paid →
      computeScalarCfdPayout strike high denominator lambda_q vault_im short_leg min_settle_output =
        some paid' → if short_leg then paid'.payout_owner ≤ paid.payout_owner
      else paid.payout_owner ≤ paid'.payout_owner) := by
  have whole := UInt64.le_iff_toNat_le.mp enough
  have legs := fun realized => computeScalarCfdPayout_legs leveraged enough strike realized denominator short_leg
  refine ⟨fun realized => ?_, fun num denom => ?_, ?_⟩
  · obtain ⟨payout, computed, exact_legs⟩ := legs realized
    have split := dustRule_legs whole (scalarLoss_le strike.toNat realized.toNat
      (denominator.pick strike realized).toNat lambda_q.toNat vault_im.toNat short_leg)
    rw [← exact_legs] at split
    have zero : ∀ x : UInt64, x = 0 ↔ x.toNat = 0 := fun x => by
      rw [← UInt64.toNat_inj, UInt64.toNat_zero]
    refine ⟨payout, computed, exact_legs, split.1, ?_, ?_⟩
    · rw [zero, UInt64.le_iff_toNat_le]
      exact split.2.1
    · rw [zero, UInt64.le_iff_toNat_le]
      exact split.2.2
  · refine ⟨lhs_toNat num lambda_q, denom_scaled_toNat denom, ?_, fun partly => ?_⟩
    · rw [numer_toNat, lhs_toNat]
    · rw [BitVec.lt_def, lhs_toNat, denom_scaled_toNat] at partly
      rw [lhs_toNat, denom_scaled_toNat]
      exact (quotient_toNat vault_im partly).1
  · rintro rfl low high paid paid' rises paid_low paid_high
    obtain ⟨payout, computed, low_legs⟩ := legs low
    obtain rfl := Option.mem_unique computed paid_low
    obtain ⟨payout', computed', high_legs⟩ := legs high
    obtain rfl := Option.mem_unique computed' paid_high
    have rises := BitVec.le_def.mp rises
    have low_owner := congrArg Prod.fst low_legs
    have high_owner := congrArg Prod.fst high_legs
    simp only [ScalarCfdPayout.legs] at low_owner high_owner
    -- The owner's leg falls with the loss, and the loss grows with the adverse move.
    cases short_leg with
    | true =>
      simp only [if_true, UInt64.le_iff_toNat_le, low_owner, high_owner]
      refine dustRule_antitone whole (scalarLoss_mono ?_) (scalarLoss_le _ _ _ _ _ _)
      simp only [adverseMove, if_true]
      omega
    | false =>
      simp only [Bool.false_eq_true, if_false, UInt64.le_iff_toNat_le, low_owner, high_owner]
      refine dustRule_antitone whole (scalarLoss_mono ?_) (scalarLoss_le _ _ _ _ _ _)
      simp only [adverseMove, Bool.false_eq_true, if_false]
      omega

/-- A long leg at single leverage on a margin of 1000, with a strike of 100. -/
theorem scalar_payout_exact_long : (0x10000 : UInt32) ≠ 0 ∧ (546 : UInt64) ≤ 1000 ∧
      ∃ payout, computeScalarCfdPayout 100 30 .STRIKE 0x10000 1000 false 546 = some payout ∧
        payout.legs = dustRule 1000 546 (scalarLoss 100 30 100 0x10000 1000 false) := by
  obtain ⟨payout, computed, legs, _⟩ :=
    (scalar_payout_exact 100 .STRIKE 0x10000 1000 false 546 (by decide) (by decide)).1 30
  exact ⟨by decide, by decide, payout, computed, legs⟩

end TensorCash
