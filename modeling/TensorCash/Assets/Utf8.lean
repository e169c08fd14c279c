import TensorCash.Assets.Readers

/-! A text is checked by `IsValidUtf8` of `assets/asset.cpp` and taken apart by `DecodeUtf8` of
`assets/icu_payload.cpp`. -/

namespace TensorCash

/-- The next code point of a text that is not empty. -/
def decodeUtf8 : Bytes → Option (Nat × Bytes)
  | [] => none
  | lead :: rest =>
    let low (b : UInt8) : Nat := (b &&& 0x3F).toNat
    if lead < 0x80 then some (lead.toNat, rest)
    else if lead >>> 5 = 0x6 then
      match rest with
      | ch1 :: rest =>
        let cp := (lead &&& 0x1F).toNat <<< 6 ||| low ch1
        if ch1 &&& 0xC0 ≠ 0x80 ∨ cp < 0x80 then none else some (cp, rest)
      | _ => none
    else if lead >>> 4 = 0xE then
      match rest with
      | ch1 :: ch2 :: rest =>
        let cp := (lead &&& 0x0F).toNat <<< 12 ||| low ch1 <<< 6 ||| low ch2
        if ch1 &&& 0xC0 ≠ 0x80 ∨ ch2 &&& 0xC0 ≠ 0x80 ∨ cp < 0x800 ∨ 0xD800 ≤ cp ∧ cp ≤ 0xDFFF then none
        else some (cp, rest)
      | _ => none
    else if lead >>> 3 = 0x1E then
      match rest with
      | ch1 :: ch2 :: ch3 :: rest =>
        let cp := (lead &&& 0x07).toNat <<< 18 ||| low ch1 <<< 12 ||| low ch2 <<< 6 ||| low ch3
        if ch1 &&& 0xC0 ≠ 0x80 ∨ ch2 &&& 0xC0 ≠ 0x80 ∨ ch3 &&& 0xC0 ≠ 0x80 ∨ cp < 0x10000 ∨ 0x10FFFF < cp then
          none
        else some (cp, rest)
      | _ => none
    else none

def encodeUtf8 (cp : Nat) : Bytes :=
  let tail (shift : Nat) : UInt8 := UInt8.ofNat (0x80 ||| (cp >>> shift &&& 0x3F))
  if cp < 0x80 then [UInt8.ofNat cp]
  else if cp < 0x800 then [UInt8.ofNat (0xC0 ||| cp >>> 6), tail 0]
  else if cp < 0x10000 then [UInt8.ofNat (0xE0 ||| cp >>> 12), tail 6, tail 0]
  else [UInt8.ofNat (0xF0 ||| cp >>> 18), tail 12, tail 6, tail 0]

/-- A code point that is not half of a surrogate pair. -/
def IsScalar (cp : Nat) : Prop := cp < 0xD800 ∨ 0xDFFF < cp ∧ cp ≤ 0x10FFFF

theorem forall_byte {P : UInt8 → Prop} (all : ∀ v : Fin 256, P (UInt8.ofNat v)) (c : UInt8) : P c := by
  simpa using all ⟨c.toNat, c.toNat_lt⟩

theorem lead_iff (c : UInt8) : (c &&& 0x80 = 0 ↔ c.toNat < 0x80) ∧
    (c &&& 0xE0 = 0xC0 ↔ 0xC0 ≤ c.toNat ∧ c.toNat < 0xE0) ∧ (c >>> 5 = 0x6 ↔ 0xC0 ≤ c.toNat ∧ c.toNat < 0xE0) ∧
    (c &&& 0xF0 = 0xE0 ↔ 0xE0 ≤ c.toNat ∧ c.toNat < 0xF0) ∧ (c >>> 4 = 0xE ↔ 0xE0 ≤ c.toNat ∧ c.toNat < 0xF0) ∧
    (c &&& 0xF8 = 0xF0 ↔ 0xF0 ≤ c.toNat ∧ c.toNat < 0xF8) ∧ (c >>> 3 = 0x1E ↔ 0xF0 ≤ c.toNat ∧ c.toNat < 0xF8) ∧
    (c &&& 0xC0 = 0x80 ↔ 0x80 ≤ c.toNat ∧ c.toNat < 0xC0) := by
  revert c
  exact forall_byte (by decide +kernel)

theorem low_bits (c : UInt8) : (c &&& 0x3F).toNat = c.toNat % 64 ∧ (c &&& 0x1F).toNat = c.toNat % 32 ∧
    (c &&& 0x0F).toNat = c.toNat % 16 ∧ (c &&& 0x07).toNat = c.toNat % 8 := by
  revert c
  exact forall_byte (by decide +kernel)

theorem continues_iff (c : UInt8) : c &&& 0xC0 = 0x80 ↔ 0x80 ≤ c.toNat ∧ c.toNat < 0xC0 :=
  (lead_iff c).2.2.2.2.2.2.2

variable {b c cp : Nat} {s rest : Bytes}

theorem shift_or (a : Nat) (small : b < 64) : a <<< 6 ||| b = 64 * a + b := by
  rw [← Nat.shiftLeft_add_eq_or_of_lt (i := 6) small, Nat.shiftLeft_eq]
  omega

theorem shift_or₂ (a : Nat) (small : b < 64) (small' : c < 64) :
    a <<< 12 ||| b <<< 6 ||| c = 64 * (64 * a + b) + c := by
  rw [show 12 = 6 + 6 from rfl, Nat.shiftLeft_add, ← Nat.shiftLeft_or_distrib, shift_or _ small', shift_or _ small]

theorem shift_or₃ (a : Nat) {d : Nat} (small : b < 64) (small' : c < 64) (small'' : d < 64) :
    a <<< 18 ||| b <<< 12 ||| c <<< 6 ||| d = 64 * (64 * (64 * a + b) + c) + d := by
  rw [show 18 = 12 + 6 from rfl, Nat.shiftLeft_add, show b <<< 12 = b <<< 6 <<< 6 by rw [← Nat.shiftLeft_add],
    ← Nat.shiftLeft_or_distrib, ← Nat.shiftLeft_or_distrib, shift_or _ small'', shift_or₂ _ small small']

/-- A mark above some low bits is added to them. -/
theorem mark_or (k a : Nat) (small : b < 2 ^ k) : 2 ^ k * a ||| b = 2 ^ k * a + b :=
  (Nat.two_pow_add_eq_or_of_lt small a).symm

/-- The digits of a code point to the base 64, each behind its mark. -/
theorem encodeUtf8_eq (small : cp < 0x110000) :
    encodeUtf8 cp = if cp < 0x80 then [UInt8.ofNat cp] else if cp <
      0x800 then [UInt8.ofNat (0xC0 + cp / 64), UInt8.ofNat (0x80 + cp % 64)] else if cp <
      0x10000 then
        [UInt8.ofNat (0xE0 + cp / 4096), UInt8.ofNat (0x80 + cp / 64 % 64),
         UInt8.ofNat (0x80 + cp % 64)] else
        [UInt8.ofNat (0xF0 + cp / 262144), UInt8.ofNat (0x80 + cp / 4096 % 64),
         UInt8.ofNat (0x80 + cp / 64 % 64), UInt8.ofNat (0x80 + cp % 64)] := by
  have tail (n : Nat) : 0x80 ||| (n &&& 0x3F) = 0x80 + n % 64 := by
    rw [show 0x3F = 2 ^ 6 - 1 from rfl, Nat.and_two_pow_sub_one_eq_mod]
    exact mark_or 6 2 (Nat.mod_lt _ (by decide))
  unfold encodeUtf8
  simp only [tail, Nat.shiftRight_eq_div_pow, Nat.reducePow, Nat.div_one]
  split_ifs with one two three
  · rfl
  · rw [show 0xC0 ||| cp / 64 = 0xC0 + cp / 64 from mark_or 5 6 (by omega)]
  · rw [show 0xE0 ||| cp / 4096 = 0xE0 + cp / 4096 from mark_or 4 14 (by omega)]
  · rw [show 0xF0 ||| cp / 262144 = 0xF0 + cp / 262144 from mark_or 3 30 (by omega)]

section Numbers

variable {lead ch1 ch2 ch3 : UInt8}

theorem sequence₂ :
    (lead &&& 0x1F).toNat <<< 6 ||| (ch1 &&& 0x3F).toNat =
      64 * (lead.toNat % 32) + ch1.toNat % 64 := by
  rw [(low_bits _).1, (low_bits _).2.1, shift_or _ (Nat.mod_lt _ (by decide))]

theorem sequence₃ : (lead &&& 0x0F).toNat <<< 12 ||| (ch1 &&& 0x3F).toNat <<< 6 ||| (ch2 &&& 0x3F).toNat =
    64 * (64 * (lead.toNat % 16) + ch1.toNat % 64) + ch2.toNat % 64 := by
  rw [(low_bits ch1).1, (low_bits ch2).1, (low_bits _).2.2.1,
    shift_or₂ _ (Nat.mod_lt _ (by decide)) (Nat.mod_lt _ (by decide))]

theorem sequence₄ : (lead &&& 0x07).toNat <<< 18 ||| (ch1 &&& 0x3F).toNat <<< 12 ||| (ch2 &&& 0x3F).toNat <<< 6 |||
    (ch3 &&& 0x3F).toNat = 64 * (64 * (64 * (lead.toNat % 8) + ch1.toNat % 64) + ch2.toNat % 64) + ch3.toNat % 64 := by
  rw [(low_bits ch1).1, (low_bits ch2).1, (low_bits ch3).1, (low_bits _).2.2.2,
    shift_or₃ _ (Nat.mod_lt _ (by decide)) (Nat.mod_lt _ (by decide)) (Nat.mod_lt _ (by decide))]

end Numbers

theorem decodeUtf8_sound (read : decodeUtf8 s = some (cp, rest)) :
    IsScalar cp ∧ s = encodeUtf8 cp ++ rest := by
  have byte {b : UInt8} {n : Nat} (same : b.toNat = n) : b = UInt8.ofNat n := by rw [← same, UInt8.ofNat_toNat]
  cases s with
  | nil => cases read
  | cons lead tail =>
    obtain ⟨_, _, two_iff, _, three_iff, _, four_iff, _⟩ := lead_iff lead
    dsimp only [decodeUtf8] at read
    simp only [two_iff, three_iff, four_iff] at read
    split_ifs at read with one two three four
    · cases read
      have small : lead.toNat < 0x80 := UInt8.lt_iff_toNat_lt.mp one
      refine ⟨.inl (by omega), ?_⟩
      rw [encodeUtf8_eq (by omega), if_pos small, UInt8.ofNat_toNat, List.singleton_append]
    all_goals split at read <;> try cases read
    · next ch1 _ =>
      simp only [sequence₂, ne_eq, continues_iff] at read
      split_ifs at read with bad
      cases read
      refine ⟨.inl (by omega), ?_⟩
      rw [encodeUtf8_eq (by omega), if_neg (by omega), if_pos (by omega), ← byte (b := lead) (by omega),
        ← byte (b := ch1) (by omega)]
      rfl
    · next ch1 ch2 _ =>
      simp only [sequence₃, ne_eq, continues_iff] at read
      split_ifs at read with bad
      cases read
      refine ⟨by unfold IsScalar; omega, ?_⟩
      rw [encodeUtf8_eq (by omega), if_neg (by omega), if_neg (by omega), if_pos (by omega),
        ← byte (b := lead) (by omega), ← byte (b := ch1) (by omega), ← byte (b := ch2) (by omega)]
      rfl
    · next ch1 ch2 ch3 _ =>
      simp only [sequence₄, ne_eq, continues_iff] at read
      split_ifs at read with bad
      cases read
      refine ⟨by unfold IsScalar; omega, ?_⟩
      rw [encodeUtf8_eq (by omega), if_neg (by omega), if_neg (by omega), if_neg (by omega),
        ← byte (b := lead) (by omega), ← byte (b := ch1) (by omega), ← byte (b := ch2) (by omega),
        ← byte (b := ch3) (by omega)]
      rfl

theorem decodeUtf8_encodeUtf8 (scalar : IsScalar cp) (rest : Bytes) :
    decodeUtf8 (encodeUtf8 cp ++ rest) = some (cp, rest) := by
  have value {n : Nat} (small : n < 256) : (UInt8.ofNat n).toNat = n := UInt8.toNat_ofNat_of_lt' small
  have one_iff (c : UInt8) : c < 0x80 ↔ c.toNat < 0x80 := UInt8.lt_iff_toNat_lt
  have lead (c : UInt8) := (lead_iff c).2.2
  unfold IsScalar at scalar
  rw [encodeUtf8_eq (by omega)]
  split_ifs with one two three
  · simp only [List.singleton_append, decodeUtf8, one_iff, value (show cp < 256 by omega), one, if_true]
  · have v := value (n := 0xC0 + cp / 64) (by omega)
    have v1 := value (n := 0x80 + cp % 64) (by omega)
    simp only [List.cons_append, List.nil_append, decodeUtf8, one_iff, sequence₂, (lead _).1, continues_iff,
      v, v1, ne_eq]
    rw [if_neg (by omega), if_pos (by omega), if_neg (by omega)]
    congr 2
    omega
  · have v := value (n := 0xE0 + cp / 4096) (by omega)
    have v1 := value (n := 0x80 + cp / 64 % 64) (by omega)
    have v2 := value (n := 0x80 + cp % 64) (by omega)
    simp only [List.cons_append, List.nil_append, decodeUtf8, one_iff, sequence₃, (lead _).1, (lead _).2.2.1,
      continues_iff, v, v1, v2, ne_eq]
    rw [if_neg (by omega), if_neg (by omega), if_pos (by omega), if_neg (by omega)]
    congr 2
    omega
  · have v := value (n := 0xF0 + cp / 262144) (by omega)
    have v1 := value (n := 0x80 + cp / 4096 % 64) (by omega)
    have v2 := value (n := 0x80 + cp / 64 % 64) (by omega)
    have v3 := value (n := 0x80 + cp % 64) (by omega)
    simp only [List.cons_append, List.nil_append, decodeUtf8, one_iff, sequence₄, (lead _).1, (lead _).2.2.1,
      (lead _).2.2.2.2.1, continues_iff, v, v1, v2, v3, ne_eq]
    rw [if_neg (by omega), if_neg (by omega), if_neg (by omega), if_pos (by omega), if_neg (by omega)]
    congr 2
    omega

/-- A step of the check takes the bytes of one code point. -/
theorem utf8Step_eq (c : UInt8) (rest : Bytes) : utf8Step c rest = (decodeUtf8 (c :: rest)).map Prod.snd := by
  obtain ⟨i1, i2, i3, i4, i5, i6, i7, _⟩ := lead_iff c
  have one_iff : c < 0x80 ↔ c.toNat < 0x80 := UInt8.lt_iff_toNat_lt
  simp only [utf8Step, decodeUtf8, i1, i2, i3, i4, i5, i6, i7, one_iff]
  -- One bounds the second byte and the other the code point: as numbers these are the same.
  split_ifs with one two three four
  · rfl
  · rcases rest with _ | ⟨c1, rest⟩
    · rfl
    · simp only [continues_iff, decide_eq_true_eq, sequence₂, UInt8.le_iff_toNat_le, UInt8.reduceToNat, ne_eq]
      split_ifs <;> first | rfl | omega
  · rcases rest with _ | ⟨c1, _ | ⟨c2, rest⟩⟩
    · rfl
    · rfl
    · simp only [decide_eq_true_eq, continues_iff, ne_eq]
      simp only [sequence₃, ← UInt8.toNat_inj, UInt8.le_iff_toNat_le, UInt8.lt_iff_toNat_lt, UInt8.reduceToNat]
      split_ifs <;> first | rfl | omega
  · rcases rest with _ | ⟨c1, _ | ⟨c2, _ | ⟨c3, rest⟩⟩⟩
    · rfl
    · rfl
    · rfl
    · simp only [decide_eq_true_eq, continues_iff, ne_eq]
      simp only [sequence₄, ← UInt8.toNat_inj, UInt8.le_iff_toNat_le, UInt8.lt_iff_toNat_lt, UInt8.reduceToNat]
      split_ifs <;> first | rfl | omega
  · rfl

theorem decodeUtf8_iff :
    decodeUtf8 s = some (cp, rest) ↔ IsScalar cp ∧ s = encodeUtf8 cp ++ rest := by
  refine ⟨decodeUtf8_sound, ?_⟩
  rintro ⟨scalar, rfl⟩
  exact decodeUtf8_encodeUtf8 scalar rest

/-- The code points of a text that is decoded up to its end. -/
def decodeAllFrom : Nat → Bytes → Option (List Nat)
  | _, [] => some []
  | 0, _ :: _ => none
  | fuel + 1, c :: rest =>
    match decodeUtf8 (c :: rest) with
    | some (cp, rest) => (decodeAllFrom fuel rest).map (cp :: ·)
    | none => none

def decodeAll (data : Bytes) : Option (List Nat) := decodeAllFrom data.length data

theorem encodeUtf8_ne_nil (cp : Nat) : encodeUtf8 cp ≠ [] := by
  unfold encodeUtf8
  split_ifs <;> exact List.cons_ne_nil _ _

theorem isValidUtf8From_eq (fuel : Nat) (s : Bytes) :
    isValidUtf8From fuel s = (decodeAllFrom fuel s).isSome := by
  induction fuel generalizing s with
  | zero => cases s <;> rfl
  | succ fuel ih =>
    cases s with
    | nil => rfl
    | cons c rest =>
      rw [isValidUtf8From, decodeAllFrom, utf8Step_eq]
      rcases decodeUtf8 (c :: rest) with _ | ⟨cp, rest⟩
      · rfl
      · simpa using ih rest

-- By induction on the fuel: a code point has at least one byte, so the fuel lasts.
theorem decodeAllFrom_iff {fuel : Nat} (enough : s.length ≤ fuel) {cps : List Nat} :
    decodeAllFrom fuel s = some cps ↔ (∀ cp ∈ cps, IsScalar cp) ∧ s = cps.flatMap encodeUtf8 := by
  induction fuel generalizing s cps with
  | zero =>
    obtain rfl := List.eq_nil_of_length_eq_zero (Nat.le_zero.mp enough)
    cases cps <;> simp [decodeAllFrom, encodeUtf8_ne_nil]
  | succ fuel ih =>
    cases s with
    | nil => cases cps <;> simp [decodeAllFrom, encodeUtf8_ne_nil]
    | cons c rest =>
      have step : decodeAllFrom (fuel + 1) (c :: rest) = some cps ↔
          ∃ cp rest' cps', cps = cp :: cps' ∧ decodeUtf8 (c :: rest) = some (cp, rest') ∧
            decodeAllFrom fuel rest' = some cps' := by
        rw [decodeAllFrom]
        rcases decodeUtf8 (c :: rest) with _ | ⟨cp, rest'⟩
        · simp
        · simp [eq_comm, and_comm]
      rw [step]
      constructor
      · rintro ⟨cp, rest', cps', rfl, read, reads⟩
        obtain ⟨scalar, whole⟩ := decodeUtf8_iff.mp read
        have shorter : rest'.length ≤ fuel := by
          have size := congrArg List.length whole
          have := List.length_pos_iff.mpr (encodeUtf8_ne_nil cp)
          simp only [List.length_cons, List.length_append] at size enough
          omega
        obtain ⟨scalars, rfl⟩ := (ih shorter).mp reads
        exact ⟨List.forall_mem_cons.mpr ⟨scalar, scalars⟩, whole⟩
      · rintro ⟨scalars, whole⟩
        cases cps with
        | nil => cases whole
        | cons cp cps' =>
          obtain ⟨scalar, scalars⟩ := List.forall_mem_cons.mp scalars
          have shorter : (cps'.flatMap encodeUtf8).length ≤ fuel := by
            have size := congrArg List.length whole
            have := List.length_pos_iff.mpr (encodeUtf8_ne_nil cp)
            simp only [List.flatMap_cons, List.length_cons, List.length_append] at size enough
            omega
          exact ⟨cp, _, cps', rfl, decodeUtf8_iff.mpr ⟨scalar, whole⟩, (ih shorter).mpr ⟨scalars, rfl⟩⟩

/-- The check accepts the texts that are made of code points, and these are the texts that can be
decoded. -/
theorem isValidUtf8_exact (data : Bytes) :
    (isValidUtf8 data = true ↔ ∃ cps : List Nat, (∀ cp ∈ cps, IsScalar cp) ∧ data = cps.flatMap encodeUtf8) ∧
      isValidUtf8 data = (decodeAll data).isSome ∧
      (∀ cps : List Nat, decodeAll data = some cps ↔ (∀ cp ∈ cps, IsScalar cp) ∧ data = cps.flatMap encodeUtf8) := by
  have reads (cps : List Nat) : decodeAll data = some cps ↔ (∀ cp ∈ cps, IsScalar cp) ∧ data = cps.flatMap encodeUtf8 :=
    decodeAllFrom_iff (Nat.le_refl data.length)
  refine ⟨?_, isValidUtf8From_eq data.length data, reads⟩
  rw [isValidUtf8, isValidUtf8From_eq, Option.isSome_iff_exists]
  exact exists_congr reads

end TensorCash
