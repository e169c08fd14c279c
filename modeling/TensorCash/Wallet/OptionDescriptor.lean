import TensorCash.Assets.Readers
import TensorCash.Wallet.DifficultySettlement

/-! The descriptor of an option series in `wallet/option_series.cpp`, whose hash is the series'
id. -/

namespace TensorCash.OptionSeries

open Checked Codec Settlement

def kOptionDescriptorVersion : UInt8 := 1
def kOptionDescriptorVersionDirectional : UInt8 := 2
def OPTION_ISSUANCE_SELF : UInt8 := 0
def OPTION_ISSUANCE_BILATERAL : UInt8 := 1
def OPTION_LEAFSET_SETTLE_ONLY : UInt8 := 0
def OPTION_LEAFSET_SETTLE_BUYBACK : UInt8 := 1
def OPTION_DIRECTION_CALL : UInt8 := 0
def OPTION_DIRECTION_PUT : UInt8 := 1

structure Terms where
  descriptor_version : UInt8
  issuance_mode : UInt8
  leaf_set : UInt8
  writer_key : XOnlyPubKey
  strike_nbits : UInt32
  fixing_height : UInt32
  settle_lock_height : UInt32
  lambda_q : UInt32
  lot_im_sats : Int64
  lot_count : UInt32
  reference_premium_sats : Int64
  series_salt : Uint256
  direction : UInt8

def serializeOptionDescriptor (t : Terms) : Bytes :=
  [t.descriptor_version] ++ ([t.issuance_mode] ++ ([t.leaf_set] ++ (t.writer_key.bytes ++
    (serUInt32 t.strike_nbits ++ (serUInt32 t.fixing_height ++ (serUInt32 t.settle_lock_height ++
    (serUInt32 t.lambda_q ++ (serInt64 t.lot_im_sats ++ (serUInt32 t.lot_count ++
    (serInt64 t.reference_premium_sats ++ (t.series_salt.bytes ++
    -- The first version is frozen at 103 bytes and means a call.
    if kOptionDescriptorVersionDirectional ≤ t.descriptor_version then [t.direction] else [])))))))))))

def takeInt64 (s : Bytes) : Option (Int64 × Bytes) := (takeUInt64 s).map fun (x, rest) => (x.toInt64, rest)

def takeKey (s : Bytes) : Option (XOnlyPubKey × Bytes) :=
  if size : (s.take 32).length = 32 then some (⟨s.take 32, size⟩, s.drop 32) else none

def parseOptionSeriesDescriptor (d : Bytes) : Option Terms := do
  if d.length ≠ 103 ∧ d.length ≠ 104 then none
  let has_direction := d.length = 104
  let (descriptor_version, p) ← takeUInt8 d
  if has_direction ∧ descriptor_version < kOptionDescriptorVersionDirectional then none
  if ¬ has_direction ∧ kOptionDescriptorVersionDirectional ≤ descriptor_version then none
  let (issuance_mode, p) ← takeUInt8 p
  let (leaf_set, p) ← takeUInt8 p
  let (writer_key, p) ← takeKey p
  let (strike_nbits, p) ← takeUInt32 p
  let (fixing_height, p) ← takeUInt32 p
  let (settle_lock_height, p) ← takeUInt32 p
  let (lambda_q, p) ← takeUInt32 p
  let (lot_im_sats, p) ← takeInt64 p
  let (lot_count, p) ← takeUInt32 p
  let (reference_premium_sats, p) ← takeInt64 p
  let (series_salt, p) ← takeUint256 p
  let (direction, _) ← if has_direction then takeUInt8 p else some (OPTION_DIRECTION_CALL, p)
  if has_direction ∧ direction ≠ OPTION_DIRECTION_CALL ∧ direction ≠ OPTION_DIRECTION_PUT then none
  some {
    descriptor_version, issuance_mode, leaf_set, writer_key, strike_nbits, fixing_height, settle_lock_height
    lambda_q, lot_im_sats, lot_count, reference_premium_sats, series_salt, direction }

section Validate

variable (isFullyValid : XOnlyPubKey → Bool) (nums_h none_key : XOnlyPubKey)
  (lotValidate : DifficultyContractTerms → Except String Unit)

/-- The checks of the fields; the economics are left to `lot.Validate`. -/
def validateOptionSeriesTerms (t : Terms) : Except String Unit := do
  require (t.descriptor_version = kOptionDescriptorVersion ∨ t.descriptor_version = kOptionDescriptorVersionDirectional)
    "unsupported descriptor_version"
  require (t.direction = OPTION_DIRECTION_CALL ∨ t.direction = OPTION_DIRECTION_PUT) "invalid direction"
  require (¬ (t.direction ≠ OPTION_DIRECTION_CALL ∧ t.descriptor_version < kOptionDescriptorVersionDirectional))
    "put direction requires descriptor_version 2"
  require (t.issuance_mode = OPTION_ISSUANCE_SELF ∨ t.issuance_mode = OPTION_ISSUANCE_BILATERAL)
    "invalid issuance_mode"
  require (t.leaf_set = OPTION_LEAFSET_SETTLE_ONLY ∨ t.leaf_set = OPTION_LEAFSET_SETTLE_BUYBACK) "invalid leaf_set"
  require (isFullyValid t.writer_key) "writer_key is not a valid x-only point"
  require (t.lot_count ≠ 0) "lot_count must be > 0"
  require (¬ t.lot_im_sats < MIN_SETTLE_OUTPUT) "lot_im_sats below MIN_SETTLE_OUTPUT"
  require (MoneyRange t.lot_im_sats.toInt) "lot_im_sats out of MoneyRange"
  require (¬ (t.reference_premium_sats < 0 ∨ !MoneyRange t.reference_premium_sats.toInt))
    "reference_premium_sats out of MoneyRange"
  require (t.lot_count.toNat ≤ MAX_MONEY.toNat / t.lot_im_sats.toInt.toNat)
    "total collateral (lot_count * lot_im_sats) exceeds MAX_MONEY"
  let none_leg : DifficultyLegTerms := ⟨0, 0, 0, none_key, none_key⟩
  let writer_leg : DifficultyLegTerms := ⟨t.lot_im_sats, 0, t.lambda_q, t.writer_key, nums_h⟩
  lotValidate {
    kind := .OPTION, strike_nbits := t.strike_nbits, fixing_height := t.fixing_height
    settle_lock_height := t.settle_lock_height, premium := MIN_SETTLE_OUTPUT
    short_leg := if t.direction = OPTION_DIRECTION_CALL then writer_leg else none_leg
    long_leg := if t.direction = OPTION_DIRECTION_CALL then none_leg else writer_leg }

def computeOptionSeriesId (hash : Bytes → Uint256) (t : Terms) : Uint256 := hash (serializeOptionDescriptor t)

end Validate

section Readers

variable {s rest : Bytes}

theorem takeInt64_eq_some {x : Int64} : takeInt64 s = some (x, rest) ↔ s = serInt64 x ++ rest := by
  simp only [takeInt64, Option.map_eq_some_iff, Prod.exists, Prod.mk.injEq, takeUInt64_eq_some, serInt64]
  constructor
  · rintro ⟨n, _, rfl, rfl, rfl⟩
    rfl
  · rintro rfl
    exact ⟨x.toUInt64, rest, rfl, rfl, rfl⟩

theorem takeKey_eq_some {key : XOnlyPubKey} : takeKey s = some (key, rest) ↔ s = key.bytes ++ rest := by
  obtain ⟨bytes, size⟩ := key
  unfold takeKey
  constructor
  · intro read
    split_ifs at read with long
    cases read
    exact (List.take_append_drop 32 s).symm
  · rintro rfl
    have front : (bytes ++ rest).take 32 = bytes := List.take_left' size
    have back : (bytes ++ rest).drop 32 = rest := List.drop_left' size
    simp only [front, back, size, dif_pos]

end Readers

/-- What a descriptor can say: only the later versions have a direction. -/
def Terms.Expressible (t : Terms) : Prop :=
  (t.direction = OPTION_DIRECTION_CALL ∨ t.direction = OPTION_DIRECTION_PUT) ∧
    (t.descriptor_version < kOptionDescriptorVersionDirectional → t.direction = OPTION_DIRECTION_CALL)

theorem serializeOptionDescriptor_length (t : Terms) : (serializeOptionDescriptor t).length =
    if kOptionDescriptorVersionDirectional ≤ t.descriptor_version then 104 else 103 := by
  have key := t.writer_key.size
  split_ifs with late <;> simp [serializeOptionDescriptor, late, key, serUInt32, serInt64, serUInt64]

/-- An accepted string has a known length, so nothing is left behind the last field. -/
theorem serialize_of_parse {d : Bytes} {t : Terms} (accepted : parseOptionSeriesDescriptor d = some t) :
    t.Expressible ∧ d = serializeOptionDescriptor t := by
  unfold parseOptionSeriesDescriptor at accepted
  obtain ⟨length, r0⟩ := refuse_bind.mp accepted
  obtain ⟨version, _, rfl, r1⟩ := byte_take.mp r0
  obtain ⟨late, r2⟩ := refuse_bind.mp r1
  obtain ⟨early, r3⟩ := refuse_bind.mp r2
  obtain ⟨mode, _, rfl, r4⟩ := byte_take.mp r3
  obtain ⟨leaf_set, _, rfl, r5⟩ := byte_take.mp r4
  obtain ⟨key, _, rfl, r6⟩ := (take_bind takeKey_eq_some).mp r5
  obtain ⟨strike, _, rfl, r7⟩ := uint32_take.mp r6
  obtain ⟨fixing, _, rfl, r8⟩ := uint32_take.mp r7
  obtain ⟨settle, _, rfl, r9⟩ := uint32_take.mp r8
  obtain ⟨lambda, _, rfl, r10⟩ := uint32_take.mp r9
  obtain ⟨im, _, rfl, r11⟩ := (take_bind takeInt64_eq_some).mp r10
  obtain ⟨count, _, rfl, r12⟩ := uint32_take.mp r11
  obtain ⟨premium, _, rfl, r13⟩ := (take_bind takeInt64_eq_some).mp r12
  obtain ⟨salt, p, rfl, r14⟩ := hash_take.mp r13
  obtain ⟨⟨direction, rest⟩, chosen, r15⟩ := choice_bind.mp r14
  obtain ⟨known, r16⟩ := refuse_bind.mp r15
  cases r16
  clear r0 r1 r2 r3 r4 r5 r6 r7 r8 r9 r10 r11 r12 r13 r14 r15
  have key_size := key.size
  simp only [serUInt32, serInt64, serUInt64, List.length_append, List.length_cons, List.length_nil, leBytes_length,
    Uint256.bytes_length, key_size] at length late early chosen known
  split_ifs at chosen with directional
  · obtain rfl := takeUInt8_eq_some.mp chosen
    have from_second : kOptionDescriptorVersionDirectional ≤ version :=
      UInt8.not_lt.mp fun first => late ⟨directional, first⟩
    rw [List.singleton_append, List.length_cons] at directional
    obtain rfl := List.eq_nil_of_length_eq_zero (by omega : rest.length = 0)
    have direction_known : direction = OPTION_DIRECTION_CALL ∨ direction = OPTION_DIRECTION_PUT := by
      by_contra other
      exact known ⟨rfl, not_or.mp other⟩
    refine ⟨⟨direction_known, fun first => absurd first (UInt8.not_lt.mpr from_second)⟩, ?_⟩
    rw [serializeOptionDescriptor, if_pos from_second, List.append_nil]
  · cases chosen
    have first : ¬ kOptionDescriptorVersionDirectional ≤ version := fun second => early ⟨directional, second⟩
    obtain rfl := List.eq_nil_of_length_eq_zero (by omega : p.length = 0)
    refine ⟨⟨.inl rfl, fun _ => rfl⟩, ?_⟩
    rw [serializeOptionDescriptor, if_neg first]

theorem parse_serialize {t : Terms} (expressible : t.Expressible) :
    parseOptionSeriesDescriptor (serializeOptionDescriptor t) = some t := by
  have length := serializeOptionDescriptor_length t
  have directional : (serializeOptionDescriptor t).length = 104 ↔
      kOptionDescriptorVersionDirectional ≤ t.descriptor_version := by
    rw [length]
    split_ifs with late <;> simp [late]
  unfold parseOptionSeriesDescriptor
  refine refuse_bind.mpr ⟨?_, byte_take.mpr ⟨_, _, rfl, refuse_bind.mpr ⟨?_, refuse_bind.mpr ⟨?_,
    byte_take.mpr ⟨_, _, rfl, byte_take.mpr ⟨_, _, rfl,
    (take_bind takeKey_eq_some).mpr ⟨_, _, rfl, uint32_take.mpr ⟨_, _, rfl,
    uint32_take.mpr ⟨_, _, rfl, uint32_take.mpr ⟨_, _, rfl,
    uint32_take.mpr ⟨_, _, rfl, (take_bind takeInt64_eq_some).mpr ⟨_, _, rfl,
    uint32_take.mpr ⟨_, _, rfl, (take_bind takeInt64_eq_some).mpr ⟨_, _, rfl, hash_take.mpr ⟨_, _, rfl, choice_bind.mpr
      ⟨(t.direction, []), ?_, refuse_bind.mpr ⟨?_, rfl⟩⟩⟩⟩⟩⟩⟩⟩⟩⟩⟩⟩⟩⟩⟩⟩⟩
  · rw [length]
    split_ifs <;> decide
  · rintro ⟨late, first⟩
    exact UInt8.not_lt.mpr (directional.mp late) first
  · rintro ⟨early, second⟩
    exact early (directional.mpr second)
  · simp only [directional]
    split_ifs with late
    · rfl
    · rw [expressible.2 (UInt8.not_le.mp late)]
  · rintro ⟨_, not_call, not_put⟩
    exact expressible.1.elim not_call not_put

/-- Terms and their descriptors determine each other. -/
theorem optionDescriptor_identifies (isFullyValid : XOnlyPubKey → Bool) (nums_h none_key : XOnlyPubKey)
    (lotValidate : DifficultyContractTerms → Except String Unit) (hash : Bytes → Uint256) :
    (∀ t, validateOptionSeriesTerms isFullyValid nums_h none_key lotValidate t = .ok () →
      parseOptionSeriesDescriptor (serializeOptionDescriptor t) = some t) ∧
    (∀ d t, parseOptionSeriesDescriptor d = some t → d = serializeOptionDescriptor t) ∧
    ∀ t t', validateOptionSeriesTerms isFullyValid nums_h none_key lotValidate t = .ok () →
      validateOptionSeriesTerms isFullyValid nums_h none_key lotValidate t' = .ok () → t ≠ t' →
      serializeOptionDescriptor t ≠ serializeOptionDescriptor t' ∧
        computeOptionSeriesId hash t = hash (serializeOptionDescriptor t) ∧
        computeOptionSeriesId hash t' = hash (serializeOptionDescriptor t') := by
  have round (t) (valid : validateOptionSeriesTerms isFullyValid nums_h none_key lotValidate t = .ok ()) :
      parseOptionSeriesDescriptor (serializeOptionDescriptor t) = some t := by
    simp only [validateOptionSeriesTerms, require_bind_eq_ok] at valid
    obtain ⟨_, known, put, _⟩ := valid
    refine parse_serialize ⟨known, fun first => ?_⟩
    by_contra other
    exact put ⟨other, first⟩
  refine ⟨round, fun d t accepted => (serialize_of_parse accepted).2, fun t t' valid valid' other => ?_⟩
  refine ⟨fun same => other ?_, rfl, rfl⟩
  exact Option.some.inj ((round t valid).symm.trans ((congrArg _ same).trans (round t' valid')))

def salted (series_salt : Uint256) : Terms where
  descriptor_version := kOptionDescriptorVersionDirectional
  issuance_mode := OPTION_ISSUANCE_SELF
  leaf_set := OPTION_LEAFSET_SETTLE_ONLY
  writer_key := keyOf 2
  strike_nbits := startBits
  fixing_height := 10
  settle_lock_height := 110
  lambda_q := 65536
  lot_im_sats := 1000
  lot_count := 1
  reference_premium_sats := 0
  series_salt
  direction := OPTION_DIRECTION_PUT

/-- Two series of puts differ in their salt only. -/
theorem optionDescriptor_identifies_salted :
    serializeOptionDescriptor (salted 1) ≠ serializeOptionDescriptor (salted 2) :=
  ((optionDescriptor_identifies plainEnv.isFullyValid (keyOf 3) (keyOf 0)
    (DifficultyContractTerms.validate plainEnv startLimit) fun _ => 0).2.2 (salted 1) (salted 2)
    (by decide +kernel) (by decide +kernel)
    fun same => absurd (congrArg Terms.series_salt same) (by decide)).1

end TensorCash.OptionSeries
