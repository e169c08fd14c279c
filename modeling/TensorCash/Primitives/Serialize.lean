import TensorCash.Lib.SelfDelimiting
import Mathlib.Order.Fin.Basic
import Mathlib.Data.UInt

/-! The integer and vector encodings every serialized object is made of. -/

namespace TensorCash

open Codec

def MAX_SIZE : Nat := 0x02000000

/-- A 256-bit blob, ordered as its bytes are: the first byte in memory is the most significant. -/
abbrev Uint256 := Fin (2 ^ 256)

instance (priority := 1100) Uint256.neZero : NeZero (2 ^ 256 : Nat) := ⟨(Nat.two_pow_pos 256).ne'⟩

instance (priority := 1100) Uint256.lawfulBEq : LawfulBEq Uint256 := inferInstance

def Uint256.bytes (h : Uint256) : Bytes := (leBytes 32 h.val).reverse

def serUInt32 (x : UInt32) : Bytes := leBytes 4 x.toNat

def serUInt64 (x : UInt64) : Bytes := leBytes 8 x.toNat

def serInt64 (x : Int64) : Bytes := serUInt64 x.toUInt64

def writeCompactSize (nSize : Nat) : Bytes :=
  if nSize < 253 then [UInt8.ofNat nSize]
  else if nSize ≤ 0xFFFF then 253 :: leBytes 2 nSize
  else if nSize ≤ 0xFFFFFFFF then 254 :: leBytes 4 nSize
  else 255 :: leBytes 8 nSize

def readCompactSize (rangeCheck : Bool) : Bytes → Option (Nat × Bytes)
  | [] => none
  | chSize :: rest => do
    let (nSizeRet, rest) ←
      if chSize.toNat < 253 then some (chSize.toNat, rest)
      else if chSize = 253 then
        (readLE 2 rest).bind fun p => if p.1 < 253 then none else some p
      else if chSize = 254 then
        (readLE 4 rest).bind fun p => if p.1 < 0x10000 then none else some p
      else
        (readLE 8 rest).bind fun p => if p.1 < 0x100000000 then none else some p
    if rangeCheck && nSizeRet > MAX_SIZE then none else some (nSizeRet, rest)

def serBytes (v : Bytes) : Bytes := writeCompactSize v.length ++ v

def serVector {α : Type} (ser : α → Bytes) (v : List α) : Bytes := writeCompactSize v.length ++ v.flatMap ser

def getSizeOfCompactSize (nSize : Nat) : Nat :=
  if nSize < 253 then 1 else if nSize ≤ 0xFFFF then 3 else if nSize ≤ 0xFFFFFFFF then 5 else 9

def sizeBytes (v : Bytes) : Nat := getSizeOfCompactSize v.length + v.length

def sizeVector {α : Type} (size : α → Nat) (v : List α) : Nat :=
  getSizeOfCompactSize v.length + (v.map size).sum

theorem writeCompactSize_length (nSize : Nat) :
    (writeCompactSize nSize).length = getSizeOfCompactSize nSize := by
  unfold writeCompactSize getSizeOfCompactSize
  split_ifs <;> simp

theorem serBytes_length (v : Bytes) : (serBytes v).length = sizeBytes v := by
  simp [serBytes, sizeBytes, writeCompactSize_length]

theorem serVector_length {α : Type} {ser : α → Bytes} {size : α → Nat}
    (each : ∀ x, (ser x).length = size x) (v : List α) : (serVector ser v).length = sizeVector size v := by
  simp [serVector, sizeVector, writeCompactSize_length, List.length_flatMap, each]

@[simp] theorem Uint256.bytes_length (h : Uint256) : h.bytes.length = 32 := by
  simp [Uint256.bytes]

theorem Uint256.bytes_injective : Function.Injective Uint256.bytes := by
  intro a b same
  have words : leBytes 32 a.val = leBytes 32 b.val := List.reverse_injective same
  exact Fin.ext (leBytes_inj (by simp) (by simp) words)

theorem bytes_selfDelimiting : SelfDelimiting (fun _ : Uint256 => True) Uint256.bytes :=
  .of_length 32 (fun h _ => h.bytes_length) (fun _ _ _ _ same => Uint256.bytes_injective same)

theorem serUInt32_selfDelimiting : SelfDelimiting (fun _ : UInt32 => True) serUInt32 :=
  .of_length 4 (fun _ _ => leBytes_length 4 _) (fun a b _ _ same =>
    UInt32.toNat_inj.mp (leBytes_inj (by simpa using a.toNat_lt) (by simpa using b.toNat_lt) same))

theorem serUInt64_selfDelimiting : SelfDelimiting (fun _ : UInt64 => True) serUInt64 :=
  .of_length 8 (fun _ _ => leBytes_length 8 _) (fun a b _ _ same =>
    UInt64.toNat_inj.mp (leBytes_inj (by simpa using a.toNat_lt) (by simpa using b.toNat_lt) same))

theorem serInt64_selfDelimiting : SelfDelimiting (fun _ : Int64 => True) serInt64 :=
  serUInt64_selfDelimiting.comap Int64.toUInt64 (fun _ _ same => Int64.toBitVec_inj.mp (congrArg UInt64.toBitVec same))

theorem readCompactSize_writeCompactSize {nSize : Nat} (small : nSize < 2 ^ 64) (rest : Bytes) :
    readCompactSize false (writeCompactSize nSize ++ rest) = some (nSize, rest) := by
  -- Each form is written exactly for the sizes its reader branch does not call non-canonical.
  unfold writeCompactSize
  split_ifs with one two four
  · have byte : (UInt8.ofNat nSize).toNat = nSize := by simp; omega
    simp [readCompactSize, byte, one]
  · have read := readLE_leBytes (show nSize < 256 ^ 2 by omega) rest
    simp [readCompactSize, read, one]
  · have read := readLE_leBytes (show nSize < 256 ^ 4 by omega) rest
    simp [readCompactSize, read, show ¬ nSize < 0x10000 by omega]
  · have read := readLE_leBytes (show nSize < 256 ^ 8 by omega) rest
    simp [readCompactSize, read, show ¬ nSize < 0x100000000 by omega]

theorem writeCompactSize_selfDelimiting : SelfDelimiting (fun nSize => nSize < 2 ^ 64) writeCompactSize :=
  .of_reader (readCompactSize false) fun _ small => readCompactSize_writeCompactSize small

theorem serBytes_selfDelimiting : SelfDelimiting (fun v : Bytes => v.length < 2 ^ 64) serBytes := by
  intro v w small small' r s same
  have counted := writeCompactSize_selfDelimiting.counted byte_selfDelimiting
  refine counted ⟨small, fun _ _ => trivial⟩ ⟨small', fun _ _ => trivial⟩ ?_
  simpa [serBytes, List.flatMap_singleton'] using same

theorem serVector_selfDelimiting {α : Type} {dom : α → Prop} {ser : α → Bytes} (code : SelfDelimiting dom ser) :
    SelfDelimiting (fun v : List α => v.length < 2 ^ 64 ∧ ∀ a ∈ v, dom a) (serVector ser) :=
  writeCompactSize_selfDelimiting.counted code

end TensorCash
