import TensorCash.Assets.Readers

/-! A fixing is thirty-two bytes, in the byte order and the width that its format names. -/

namespace TensorCash

open Codec

def scalarLayout (scalar_format_id : UInt16) : Option (Nat × Bool) :=
  if scalar_format_id = 0x0001 then some (256, false)
  else if scalar_format_id = 0x0002 then some (256, true)
  else if scalar_format_id = 0x0010 then some (64, false)
  else if scalar_format_id = 0x0011 then some (64, true)
  else if scalar_format_id = 0x0012 then some (128, false)
  else if scalar_format_id = 0x0013 then some (128, true)
  else none

def encodeScalarToWire (scalar_format_id : UInt16) (numeric_value : Uint256) : Option Uint256 := do
  let (width, big_endian) ← scalarLayout scalar_format_id
  if ¬ leNat numeric_value.bytes < 2 ^ width then none
  some (if big_endian then uint256OfBytes numeric_value.bytes.reverse else numeric_value)

def arithToUint256 (value : Nat) : Uint256 := uint256OfBytes (leBytes 32 value)

theorem isKnownScalarFormat_iff (format : UInt16) :
    isKnownScalarFormat format = true ↔ ∃ layout, scalarLayout format = some layout := by
  unfold isKnownScalarFormat scalarLayout
  split_ifs <;> simp_all

def inOrder (big_endian : Bool) (word : Uint256) : Uint256 :=
  if big_endian then uint256OfBytes word.bytes.reverse else word

theorem inOrder_inOrder (big_endian : Bool) (word : Uint256) :
    inOrder big_endian (inOrder big_endian word) = word := by
  cases big_endian with
  | false => rfl
  | true => simp [inOrder, bytes_uint256OfBytes, uint256OfBytes_bytes]

theorem leNat_bytes_lt (word : Uint256) : leNat word.bytes < 2 ^ 256 := by
  simpa using leNat_lt word.bytes

theorem arithToUint256_leNat (word : Uint256) : arithToUint256 (leNat word.bytes) = word := by
  have digits := leBytes_leNat word.bytes
  rw [Uint256.bytes_length] at digits
  rw [arithToUint256, digits, uint256OfBytes_bytes]

theorem leNat_arithToUint256 {value : Nat} (small : value < 2 ^ 256) :
    leNat (arithToUint256 value).bytes = value := by
  rw [arithToUint256, bytes_uint256OfBytes (leBytes_length _ _), leNat_leBytes]
  exact Nat.mod_eq_of_lt small

variable {format : UInt16} {width : Nat} {big_endian : Bool}

theorem scalarLayout_width
    (layout : scalarLayout format = some (width, big_endian)) : width ≤ 256 := by
  unfold scalarLayout at layout
  split_ifs at layout <;> cases layout <;> decide

theorem decodeScalarValue_eq
    (layout : scalarLayout format = some (width, big_endian)) (raw : Uint256) : decodeScalarValue format raw =
      if leNat (inOrder big_endian raw).bytes < 2 ^ width then some (leNat (inOrder big_endian raw).bytes)
      else none := by
  have big : leNat (inOrder true raw).bytes = raw.val := by
    rw [inOrder, if_pos rfl, bytes_uint256OfBytes (by simp), Uint256.bytes, List.reverse_reverse, leNat_leBytes]
    exact Nat.mod_eq_of_lt (by simp)
  have whole (order : Bool) := leNat_bytes_lt (inOrder order raw)
  unfold scalarLayout at layout
  unfold decodeScalarValue
  split_ifs at layout with first second third fourth fifth sixth <;> cases layout
  · rw [if_pos first, if_pos (whole false)]
    rfl
  · simp [second, big]
  · simp [third, inOrder]
  · simp [fourth, big]
  · simp [fifth, inOrder]
  · simp [sixth, big]

/-- Every number of a format's width has one encoding, and a publication that breaks no other rule
is taken exactly when its bytes are read. -/
theorem scalars_have_one_wire_form {format : UInt16} (known : isKnownScalarFormat format = true) :
    ∃ width big_endian, scalarLayout format = some (width, big_endian) ∧
      (∀ value < 2 ^ width, ∃ wire, encodeScalarToWire format (arithToUint256 value) = some wire ∧
        decodeScalarValue format wire = some value) ∧ (∀ raw value, decodeScalarValue format raw = some value →
        encodeScalarToWire format (arithToUint256 value) = some raw) ∧
      ∀ raw epoch head, epoch ≠ 0 → head ≠ some 0xFFFFFFFFFFFFFFFF → epoch = (head.map (· + 1)).getD 1 →
        (checkScalarPublication format raw epoch true true true head false = none ↔
          (decodeScalarValue format raw).isSome) := by
  obtain ⟨⟨width, big_endian⟩, layout⟩ := (isKnownScalarFormat_iff format).mp known
  have encodes (word : Uint256) (fits : leNat word.bytes < 2 ^ width) :
      encodeScalarToWire format word = some (inOrder big_endian word) := by
    simp [encodeScalarToWire, layout, fits, inOrder]
  refine ⟨width, big_endian, layout, fun value fits => ?_, fun raw value read => ?_, fun raw epoch head set room next => ?_⟩
  · have number := leNat_arithToUint256
      (fits.trans_le (Nat.pow_le_pow_right (by decide) (scalarLayout_width layout)))
    refine ⟨_, encodes _ (number.symm ▸ fits), ?_⟩
    rw [decodeScalarValue_eq layout, inOrder_inOrder, number, if_pos fits]
  · rw [decodeScalarValue_eq layout] at read
    split_ifs at read with fits
    obtain rfl := Option.some.inj read
    rw [arithToUint256_leNat, encodes _ fits, inOrder_inOrder]
  · unfold checkScalarPublication
    cases decodeScalarValue format raw <;> simp [known, set, room, ← next]

/-- Five in sixty-four big-endian bits. -/
theorem scalars_have_one_wire_form_of_five : ∃ wire, encodeScalarToWire 0x0011 (arithToUint256 5) = some wire ∧
      decodeScalarValue 0x0011 wire = some 5 := by
  obtain ⟨_, _, layout, encodes, _⟩ := scalars_have_one_wire_form (show isKnownScalarFormat 0x0011 = true by decide)
  cases layout
  exact encodes 5 (by decide)

end TensorCash
