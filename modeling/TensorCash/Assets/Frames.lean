import TensorCash.Assets.Readers

/-! The frame of an extension is read in three places: `ValidateSingleTLV` of
`primitives/transaction.h`, and `ParseSingleTLV` of `assets/asset.cpp` and of
`primitives/transaction.cpp`. -/

namespace TensorCash.Frames

open Codec

/-- `p[0] | p[1] << 8 | …` in 64 bits, the first byte at place `i`. -/
def orShifted : Nat → Bytes → UInt64
  | _, [] => 0
  | i, b :: rest => b.toUInt64 <<< UInt64.ofNat (8 * i) ||| orShifted (i + 1) rest

/-- A length of some bytes that must not fit a shorter form. -/
def longLength (width : Nat) (least : UInt64) (p : Bytes) : Option UInt64 :=
  if p.length < width then none
  else if orShifted 0 (p.take width) < least then none
  else some (orShifted 0 (p.take width))

def readCompactSizeFrom : Bytes → Option (UInt64 × Bytes)
  | [] => none
  | ch :: p =>
    if ch < 253 then some (ch.toUInt64, p)
    else if ch = 253 then (longLength 2 253 p).map (·, p.drop 2)
    else if ch = 254 then (longLength 4 0x10000 p).map (·, p.drop 4)
    else (longLength 8 0x100000000 p).map (·, p.drop 8)

/-- The text that both `.cpp` files have. -/
def frame : Bytes → Option (UInt8 × Bytes)
  | type :: ch :: p =>
    (readCompactSizeFrom (ch :: p)).bind fun (len, p) =>
      if UInt64.ofNat p.length ≠ len then none else some (type, p.take len.toNat)
  | _ => none

def Asset.parseSingleTLV : Bytes → Option (UInt8 × Bytes) := frame

def Transaction.parseSingleTLV : Bytes → Option (UInt8 × Bytes) := frame

/-- The sum of the header and the length wraps at 64 bits. -/
def validateSingleTLV (v : Bytes) : Bool :=
  match v with
  | _ :: ch :: p =>
    let sized (varlen : Nat) (len : UInt64) : Bool := UInt64.ofNat v.length = UInt64.ofNat (1 + varlen) + len
    if ch < 253 then sized 1 ch.toUInt64
    else if ch = 253 then (longLength 2 253 p).any (sized 3)
    else if ch = 254 then (longLength 4 0x10000 p).any (sized 5)
    else (longLength 8 0x100000000 p).any (sized 9)
  | _ => false

theorem toNat_orShifted {i : Nat} {bytes : Bytes} (room : i + bytes.length ≤ 8) :
    (orShifted i bytes).toNat = 256 ^ i * leNat bytes := by
  induction bytes generalizing i with
  | nil => rfl
  | cons b rest ih =>
    rw [List.length_cons] at room
    -- The byte lies below all that is shifted further, so that the or is a sum.
    have below : b.toNat <<< (8 * i) < 2 ^ (8 * (i + 1)) := by
      rw [Nat.shiftLeft_eq, Nat.mul_add, Nat.pow_add, Nat.mul_comm]
      exact Nat.mul_lt_mul_of_pos_left b.toNat_lt (Nat.two_pow_pos _)
    have fits : b.toNat <<< (8 * i) < 2 ^ 64 := below.trans_le (Nat.pow_le_pow_right (by decide) (by omega))
    rw [orShifted, UInt64.toNat_or, ih (by omega), UInt64.toNat_shiftLeft, UInt8.toNat_toUInt64,
      UInt64.toNat_ofNat_of_lt' (show 8 * i < 2 ^ 64 by omega), Nat.mod_eq_of_lt (show 8 * i < 64 by omega),
      Nat.mod_eq_of_lt fits, Nat.or_comm, show 256 ^ (i + 1) = 2 ^ (8 * (i + 1)) by rw [Nat.pow_mul],
      ← Nat.two_pow_add_eq_or_of_lt below, Nat.shiftLeft_eq, leNat, Nat.pow_mul, Nat.pow_mul, Nat.pow_succ]
    simp only [Nat.mul_add, Nat.mul_assoc]
    rw [Nat.add_comm, Nat.mul_comm b.toNat]

theorem longLength_eq {width : Nat} (room : width ≤ 8) (least : UInt64) (p : Bytes) :
    (longLength width least p).map (·, p.drop width) = ((readLE width p).bind fun q =>
      if q.1 < least.toNat then none else some q).map fun (n, rest) => (UInt64.ofNat n, rest) := by
  unfold longLength readLE
  split_ifs with short less
  · rfl
  all_goals
    have number : (orShifted 0 (p.take width)).toNat = leNat (p.take width) := by
      rw [toNat_orShifted (by rw [List.length_take]; omega), Nat.pow_zero, Nat.one_mul]
    rw [UInt64.lt_iff_toNat_lt] at less
    simpa [← number] using less

theorem readCompactSizeFrom_eq (s : Bytes) : readCompactSizeFrom s =
    (readCompactSize false s).map fun (n, rest) => (UInt64.ofNat n, rest) := by
  cases s with
  | nil => rfl
  | cons ch p =>
    have small : ch < 253 ↔ ch.toNat < 253 := UInt8.lt_iff_toNat_lt
    simp only [readCompactSizeFrom, readCompactSize, small, Bool.false_and, Bool.false_eq_true, if_false]
    split_ifs
    · simp
    all_goals rw [longLength_eq (by decide)]; simp

theorem frame_eq {v : Bytes} (small : v.length < 2 ^ 64) : frame v = TensorCash.parseSingleTLV v := by
  match v with
  | [] => rfl
  | [_] => rfl
  | type :: ch :: p =>
    rw [frame, TensorCash.parseSingleTLV, readCompactSizeFrom_eq]
    rcases read : readCompactSize false (ch :: p) with _ | ⟨len, value⟩
    · rfl
    · obtain ⟨whole, len_small⟩ := readCompactSize_eq_some.mp read
      have value_small : value.length < 2 ^ 64 := by
        have := congrArg List.length whole
        simp only [List.length_cons, List.length_append] at this small
        omega
      have same : UInt64.ofNat value.length = UInt64.ofNat len ↔ value.length = len := by
        rw [← UInt64.toNat_inj, UInt64.toNat_ofNat_of_lt' value_small, UInt64.toNat_ofNat_of_lt' len_small]
      simp only [Option.map_some, Option.bind_some, ne_eq, same, UInt64.toNat_ofNat_of_lt' len_small, ite_not]
      split_ifs with exact_length
      · rw [← exact_length, List.take_length]
      · rfl

theorem validateSingleTLV_eq (v : Bytes) : validateSingleTLV v = (frame v).isSome := by
  match v with
  | [] => rfl
  | [_] => rfl
  | type :: ch :: p =>
    have sized (width : Nat) (len : UInt64) (long : width ≤ p.length) :
        decide (UInt64.ofNat (p.length + 1 + 1) = UInt64.ofNat (1 + (1 + width)) + len) =
          decide (UInt64.ofNat (p.drop width).length = len) := by
      rw [decide_eq_decide, List.length_drop, show p.length + 1 + 1 = 1 + (1 + width) + (p.length - width) by omega,
        UInt64.ofNat_add, UInt64.add_right_inj]
    have long (width : Nat) (least : UInt64) : (longLength width least p).any (fun len =>
        decide (UInt64.ofNat (p.length + 1 + 1) = UInt64.ofNat (1 + (1 + width)) + len)) =
        (((longLength width least p).map (·, p.drop width)).bind fun (len, p) =>
          if UInt64.ofNat p.length ≠ len then none else some (type, p.take len.toNat)).isSome := by
      unfold longLength
      split_ifs with short less
      · rfl
      · rfl
      · simp only [Option.any_some, Option.map_some, Option.bind_some, sized width _ (by omega)]
        split_ifs <;> simp_all
    simp only [validateSingleTLV, frame, readCompactSizeFrom, List.length_cons]
    split_ifs
    · refine (sized 0 ch.toUInt64 (Nat.zero_le _)).trans ?_
      simp only [List.drop_zero, Option.bind_some]
      split_ifs <;> simp_all
    · exact long 2 253
    · exact long 4 0x10000
    · exact long 8 0x100000000

/-- All readers of frames agree on every extension that an output may carry. -/
theorem framers_agree (v : Bytes) (small : v.length ≤ MAX_OUEXT_SIZE_PER_OUTPUT) :
    validateSingleTLV v = (Asset.parseSingleTLV v).isSome ∧
    Transaction.parseSingleTLV v = Asset.parseSingleTLV v ∧
    ∀ type value, Asset.parseSingleTLV v = some (type, value) ↔ v = buildTlv type value := by
  have fits : v.length < 2 ^ 64 := by
    unfold MAX_OUEXT_SIZE_PER_OUTPUT at small
    omega
  refine ⟨validateSingleTLV_eq v, rfl, fun type value => ?_⟩
  have typed : parseTyped type v = some value ↔ TensorCash.parseSingleTLV v = some (type, value) := by
    simp [parseTyped, Option.bind_eq_some_iff]
  rw [Asset.parseSingleTLV, frame_eq fits, ← typed, parseTyped_eq_some]
  refine and_iff_left_of_imp fun whole => ?_
  have := congrArg List.length whole
  simp only [buildTlv, serBytes, List.length_cons, List.length_append] at this
  omega

theorem framers_agree_short :
    validateSingleTLV [0x01, 2, 7, 8] = (Asset.parseSingleTLV [0x01, 2, 7, 8]).isSome :=
  (framers_agree [0x01, 2, 7, 8] (by decide)).1

end TensorCash.Frames
