import TensorCash.Assets.Build

/-! A reader takes a field off exactly the strings that begin with its bytes. -/

namespace Codec

theorem leBytes_leNat (bytes : Bytes) : leBytes bytes.length (leNat bytes) = bytes := by
  induction bytes with
  | nil => rfl
  | cons b rest ih =>
    have low : UInt8.ofNat (b.toNat + 256 * leNat rest) = b := by
      rw [← UInt8.toNat_inj, UInt8.toNat_ofNat']
      have := b.toNat_lt
      omega
    have high : (b.toNat + 256 * leNat rest) / 256 = leNat rest := by
      have := b.toNat_lt
      omega
    rw [List.length_cons, leNat, leBytes, low, high, ih]

theorem leNat_lt (bytes : Bytes) : leNat bytes < 256 ^ bytes.length := by
  induction bytes with
  | nil => simp [leNat]
  | cons b rest ih =>
    have := b.toNat_lt
    rw [leNat, List.length_cons, Nat.pow_succ]
    omega

theorem readLE_eq_some {width x : Nat} {s rest : Bytes} :
    readLE width s = some (x, rest) ↔ s = leBytes width x ++ rest ∧ x < 256 ^ width := by
  constructor
  · intro read
    unfold readLE at read
    split_ifs at read with short
    cases read
    have wide : (s.take width).length = width := by
      rw [List.length_take]
      omega
    have digits := leBytes_leNat (s.take width)
    have below := leNat_lt (s.take width)
    rw [wide] at digits below
    exact ⟨by rw [digits, List.take_append_drop], below⟩
  · rintro ⟨rfl, small⟩
    exact readLE_leBytes small rest

end Codec

namespace TensorCash

open Codec

section Fields

variable {s rest : Bytes}

theorem number_eq_some {α : Type} {width : Nat} {ofNat : Nat → α} {toNat : α → Nat} {x : α}
    (value : ∀ n < 256 ^ width, toNat (ofNat n) = n) (same : ∀ x, ofNat (toNat x) = x)
    (small : ∀ x, toNat x < 256 ^ width) :
    ((readLE width s).map fun (n, rest) => (ofNat n, rest)) = some (x, rest) ↔
      s = leBytes width (toNat x) ++ rest := by
  simp only [Option.map_eq_some_iff, Prod.exists, Prod.mk.injEq, readLE_eq_some]
  constructor
  · rintro ⟨n, _, ⟨rfl, below⟩, rfl, rfl⟩
    rw [value n below]
  · rintro rfl
    exact ⟨toNat x, rest, ⟨rfl, small x⟩, same x, rfl⟩

theorem takeUInt8_eq_some {x : UInt8} : takeUInt8 s = some (x, rest) ↔ s = [x] ++ rest := by
  cases s <;> simp [takeUInt8]

theorem takeUInt16_eq_some {x : UInt16} : takeUInt16 s = some (x, rest) ↔ s = leBytes 2 x.toNat ++ rest :=
  number_eq_some (fun _ => UInt16.toNat_ofNat_of_lt') (fun _ => UInt16.ofNat_toNat) UInt16.toNat_lt

theorem takeUInt32_eq_some {x : UInt32} : takeUInt32 s = some (x, rest) ↔ s = serUInt32 x ++ rest :=
  number_eq_some (fun _ => UInt32.toNat_ofNat_of_lt') (fun _ => UInt32.ofNat_toNat) UInt32.toNat_lt

theorem takeUInt64_eq_some {x : UInt64} : takeUInt64 s = some (x, rest) ↔ s = serUInt64 x ++ rest :=
  number_eq_some (fun _ => UInt64.toNat_ofNat_of_lt') (fun _ => UInt64.ofNat_toNat) UInt64.toNat_lt

theorem takeBytes_eq_some {count : Nat} {v : Bytes} :
    takeBytes count s = some (v, rest) ↔ s = v ++ rest ∧ v.length = count := by
  unfold takeBytes
  split_ifs with short
  · simp only [false_iff, not_and]
    rintro rfl long
    rw [List.length_append] at short
    omega
  · simp only [Option.some.injEq, Prod.mk.injEq]
    constructor
    · rintro ⟨rfl, rfl⟩
      exact ⟨(List.take_append_drop count s).symm, by rw [List.length_take]; omega⟩
    · rintro ⟨rfl, rfl⟩
      exact ⟨List.take_left, List.drop_left⟩

theorem uint256OfBytes_bytes (h : Uint256) : uint256OfBytes h.bytes = h := by
  have value : leNat h.bytes.reverse = h.val := by
    rw [Uint256.bytes, List.reverse_reverse, leNat_leBytes]
    exact Nat.mod_eq_of_lt (by simp)
  rw [uint256OfBytes, value]
  exact Fin.ext (by simp [Fin.ofNat])

theorem bytes_uint256OfBytes {v : Bytes} (wide : v.length = 32) : (uint256OfBytes v).bytes = v := by
  have small := leNat_lt v.reverse
  have digits := leBytes_leNat v.reverse
  rw [List.length_reverse, wide] at small digits
  have value : (uint256OfBytes v).val = leNat v.reverse := Nat.mod_eq_of_lt (by simpa using small)
  rw [Uint256.bytes, value, digits, List.reverse_reverse]

theorem takeUint256_eq_some {h : Uint256} : takeUint256 s = some (h, rest) ↔ s = h.bytes ++ rest := by
  simp only [takeUint256, Option.map_eq_some_iff, Prod.exists, Prod.mk.injEq, takeBytes_eq_some]
  constructor
  · rintro ⟨v, _, ⟨rfl, wide⟩, rfl, rfl⟩
    rw [bytes_uint256OfBytes wide]
  · rintro rfl
    exact ⟨h.bytes, rest, ⟨rfl, h.bytes_length⟩, uint256OfBytes_bytes h, rfl⟩

theorem readCompactSize_eq_some {n : Nat} :
    readCompactSize false s = some (n, rest) ↔ s = writeCompactSize n ++ rest ∧ n < 2 ^ 64 := by
  constructor
  · intro read
    cases s with
    | nil => cases read
    | cons b tail =>
      have byte := b.toNat_lt
      simp only [readCompactSize, Bool.false_and, Bool.false_eq_true, if_false] at read
      unfold writeCompactSize
      split_ifs at read with one two four
      · obtain ⟨rfl, rfl⟩ := by simpa using read
        exact ⟨by rw [if_pos one]; simp, by omega⟩
      all_goals
        simp only [Option.bind_eq_bind, Option.bind_eq_some_iff, Prod.exists, readLE_eq_some] at read
        obtain ⟨_, _, ⟨_, _, ⟨rfl, small⟩, long⟩, done⟩ := read
        split_ifs at long with less
        cases long
        cases done
      · rw [if_neg less, if_pos (by omega), two]
        exact ⟨rfl, by omega⟩
      · rw [if_neg (by omega), if_neg (by omega), if_pos (by omega), four]
        exact ⟨rfl, by omega⟩
      · have last : b = 255 := UInt8.toNat_inj.mp (by
          have two' : b.toNat ≠ 253 := fun same => two (UInt8.toNat_inj.mp same)
          have four' : b.toNat ≠ 254 := fun same => four (UInt8.toNat_inj.mp same)
          show b.toNat = 255
          omega)
        rw [if_neg (by omega), if_neg (by omega), if_neg (by omega), last]
        exact ⟨rfl, by omega⟩
  · rintro ⟨rfl, small⟩
    exact readCompactSize_writeCompactSize small rest

theorem parseTyped_eq_some {type : UInt8} {value : Bytes} :
    parseTyped type s = some value ↔ s = buildTlv type value ∧ value.length < 2 ^ 64 := by
  unfold parseTyped parseSingleTLV buildTlv serBytes
  cases s with
  | nil => simp
  | cons t tail =>
    simp only [Option.bind_eq_some_iff, Prod.exists, readCompactSize_eq_some, List.cons.injEq]
    constructor
    · rintro ⟨_, _, ⟨n, v, ⟨rfl, small⟩, exact⟩, own⟩
      split_ifs at exact with long
      cases exact
      split_ifs at own with typed
      cases own
      exact ⟨⟨typed, by rw [long]⟩, by omega⟩
    · rintro ⟨⟨rfl, rfl⟩, small⟩
      exact ⟨t, value, ⟨value.length, value, ⟨rfl, small⟩, if_pos rfl⟩, if_pos rfl⟩

section Binds

variable {α β : Type} {y : β}

theorem take_bind {take : Bytes → Option (α × Bytes)} {ser : α → Bytes} {f : α × Bytes → Option β}
    (takes : ∀ {v x r}, take v = some (x, r) ↔ v = ser x ++ r) :
    (take s >>= f) = some y ↔ ∃ x rest, s = ser x ++ rest ∧ f (x, rest) = some y := by
  simp only [Option.bind_eq_bind, Option.bind_eq_some_iff, Prod.exists, takes]

theorem byte_take {f : UInt8 × Bytes → Option β} : (takeUInt8 s >>= f) = some y ↔
    ∃ x rest, s = [x] ++ rest ∧ f (x, rest) = some y := take_bind takeUInt8_eq_some

theorem uint16_take {f : UInt16 × Bytes → Option β} : (takeUInt16 s >>= f) = some y ↔
    ∃ x rest, s = leBytes 2 x.toNat ++ rest ∧ f (x, rest) = some y := take_bind takeUInt16_eq_some

theorem uint32_take {f : UInt32 × Bytes → Option β} : (takeUInt32 s >>= f) = some y ↔
    ∃ x rest, s = serUInt32 x ++ rest ∧ f (x, rest) = some y := take_bind takeUInt32_eq_some

theorem uint64_take {f : UInt64 × Bytes → Option β} : (takeUInt64 s >>= f) = some y ↔
    ∃ x rest, s = serUInt64 x ++ rest ∧ f (x, rest) = some y := take_bind takeUInt64_eq_some

theorem hash_take {f : Uint256 × Bytes → Option β} : (takeUint256 s >>= f) = some y ↔
    ∃ x rest, s = x.bytes ++ rest ∧ f (x, rest) = some y := take_bind takeUint256_eq_some

theorem takeBytes_bind {count : Nat} {f : Bytes × Bytes → Option β} : (takeBytes count s >>= f) = some y ↔
    ∃ v rest, s = v ++ rest ∧ v.length = count ∧ f (v, rest) = some y := by
  simp only [Option.bind_eq_bind, Option.bind_eq_some_iff, Prod.exists, takeBytes_eq_some, and_assoc]

theorem compact_bind {f : Nat × Bytes → Option β} : (readCompactSize false s >>= f) = some y ↔
    ∃ n rest, s = writeCompactSize n ++ rest ∧ n < 2 ^ 64 ∧ f (n, rest) = some y := by
  simp only [Option.bind_eq_bind, Option.bind_eq_some_iff, Prod.exists, readCompactSize_eq_some, and_assoc]

theorem refuse_bind {c : Prop} [Decidable c] {f : Unit → Option β} :
    (if c then none >>= f else f ()) = some y ↔ ¬ c ∧ f () = some y := by
  by_cases holds : c <;> simp [holds]

theorem choice_bind {c : Prop} [Decidable c] {a b : Option α} {f : α → Option β} :
    (if c then a >>= f else b >>= f) = some y ↔ ∃ x, (if c then a else b) = some x ∧ f x = some y := by
  by_cases holds : c <;> simp [holds, Option.bind_eq_some_iff]

end Binds

end Fields

end TensorCash
