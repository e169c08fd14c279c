import TensorCash.Assets.Readers

/-! The records of `assets/icu_acceptance_record.cpp`: their bytes and the text that a holder
signs. -/

namespace TensorCash

open Codec

def IcuAcceptanceRecord.serializePayload (r : IcuAcceptanceRecord) : Bytes :=
  [r.version] ++ ([r.mode] ++ (leBytes 2 r.flags.toNat ++ (r.asset_id.bytes ++ (r.icu_plain_commit.bytes ++
    (r.holder_prevout_txid.bytes ++ (serUInt32 r.holder_prevout_vout ++ (r.holder_spk_hash.bytes ++
    (serUInt64 r.accepted_units ++ ([r.sig_scheme] ++ (writeCompactSize r.body_refs.length ++
    (r.body_refs.flatMap Uint256.bytes ++ (writeCompactSize r.sig.length ++ r.sig))))))))))))

def buildIcuAcceptanceTLV (r : IcuAcceptanceRecord) : Bytes :=
  buildTlv ICU_ACCEPTANCE_TLV_TYPE r.serializePayload

def hexStr (v : Bytes) : List Char := v.flatMap fun b => [(b.toNat / 16).digitChar, (b.toNat % 16).digitChar]

/-- `GetHex` shows the bytes from the last one on. -/
def Uint256.getHex (h : Uint256) : List Char := hexStr h.bytes.reverse

def joinedRefs : List Uint256 → List Char
  | [] => []
  | [r] => hexStr r.bytes
  | r :: refs => hexStr r.bytes ++ ',' :: joinedRefs refs

def icuAcceptanceRecordSigningMessage (r : IcuAcceptanceRecord) : List Char :=
  "TSC-ICU-ACCEPTANCE-RECORD-1|v".toList ++ (Nat.toDigits 10 r.version.toNat ++ ("|mode=".toList ++
    (Nat.toDigits 10 r.mode.toNat ++ ("|flags=".toList ++ (Nat.toDigits 10 r.flags.toNat ++ ("|asset=".toList ++
    (r.asset_id.getHex ++ ("|doc=".toList ++ (r.icu_plain_commit.getHex ++ ("|prevout=".toList ++
    (r.holder_prevout_txid.getHex ++ (":".toList ++ (Nat.toDigits 10 r.holder_prevout_vout.toNat ++ ("|spk=".toList ++
    (r.holder_spk_hash.getHex ++ ("|units=".toList ++ (Nat.toDigits 10 r.accepted_units.toNat ++ ("|scheme=".toList ++
    (Nat.toDigits 10 r.sig_scheme.toNat ++ ("|bodies=".toList ++ joinedRefs r.body_refs))))))))))))))))))))

section Payload

theorem takeUint256s_eq_some {count : Nat} {s rest : Bytes} {refs : List Uint256} :
    takeUint256s count s = some (refs, rest) ↔
      s = refs.flatMap Uint256.bytes ++ rest ∧ refs.length = count := by
  induction count generalizing s rest refs with
  | zero =>
    rw [takeUint256s, Option.some.injEq, Prod.mk.injEq, List.length_eq_zero_iff]
    constructor
    · rintro ⟨rfl, rfl⟩
      exact ⟨rfl, rfl⟩
    · rintro ⟨rfl, rfl⟩
      exact ⟨rfl, rfl⟩
  | succ count ih =>
    simp only [takeUint256s, Option.bind_eq_bind, Option.bind_eq_some_iff, Prod.exists, takeUint256_eq_some, ih,
      Option.some.injEq, Prod.mk.injEq]
    constructor
    · rintro ⟨r, _, rfl, refs, _, ⟨rfl, rfl⟩, rfl, rfl⟩
      exact ⟨by rw [List.flatMap_cons, List.append_assoc], rfl⟩
    · rintro ⟨rfl, long⟩
      obtain ⟨r, refs, rfl⟩ := List.exists_cons_of_length_eq_add_one long
      exact ⟨r, _, by rw [List.flatMap_cons, List.append_assoc], refs, rest, ⟨rfl, Nat.succ.inj long⟩, rfl, rfl⟩

variable {r : IcuAcceptanceRecord}

theorem validateIcuAcceptanceRecord_parts (valid : validateIcuAcceptanceRecord r = true) :
    r.version = ICU_ACCEPTANCE_RECORD_VERSION ∧ r.sig.length ≤ 64 := by
  simp only [validateIcuAcceptanceRecord, Bool.and_eq_true, decide_eq_true_eq, and_assoc] at valid
  obtain ⟨version, _, _, _, _, _, _, _, _, _, _, _, known⟩ := valid
  refine ⟨version, ?_⟩
  unfold icuAcceptSigLength at known
  split_ifs at known <;> simp at known <;> omega

/-- The payloads that are read are those of the valid records with few references. -/
theorem parseIcuAcceptancePayload_iff {p : Bytes} : parseIcuAcceptancePayload p = some r ↔
      (validateIcuAcceptanceRecord r = true ∧ r.body_refs.length ≤ 4096) ∧ p = r.serializePayload := by
  unfold parseIcuAcceptancePayload
  constructor
  · intro accepted
    obtain ⟨version, _, rfl, r1⟩ := byte_take.mp accepted
    obtain ⟨known, r2⟩ := refuse_bind.mp r1
    obtain ⟨mode, _, rfl, r3⟩ := byte_take.mp r2
    obtain ⟨flags, _, rfl, r4⟩ := uint16_take.mp r3
    obtain ⟨asset, _, rfl, r5⟩ := hash_take.mp r4
    obtain ⟨doc, _, rfl, r6⟩ := hash_take.mp r5
    obtain ⟨txid, _, rfl, r7⟩ := hash_take.mp r6
    obtain ⟨vout, _, rfl, r8⟩ := uint32_take.mp r7
    obtain ⟨spk, _, rfl, r9⟩ := hash_take.mp r8
    obtain ⟨units, _, rfl, r10⟩ := uint64_take.mp r9
    obtain ⟨scheme, _, rfl, r11⟩ := byte_take.mp r10
    obtain ⟨nrefs, _, rfl, _, r12⟩ := compact_bind.mp r11
    obtain ⟨few, r13⟩ := refuse_bind.mp r12
    obtain ⟨⟨refs, _⟩, read, r14⟩ := Option.bind_eq_some_iff.mp r13
    obtain ⟨rfl, rfl⟩ := takeUint256s_eq_some.mp read
    obtain ⟨siglen, _, rfl, _, r15⟩ := compact_bind.mp r14
    obtain ⟨_, r16⟩ := refuse_bind.mp r15
    obtain ⟨sig, _, rfl, rfl, r17⟩ := takeBytes_bind.mp r16
    obtain ⟨used, r18⟩ := refuse_bind.mp r17
    obtain rfl := not_not.mp used
    obtain ⟨valid, same⟩ := Option.ite_none_right_eq_some.mp r18
    cases same
    exact ⟨⟨valid, not_lt.mp few⟩, by rw [List.append_nil]; rfl⟩
  · rintro ⟨⟨valid, few⟩, rfl⟩
    obtain ⟨version, sig⟩ := validateIcuAcceptanceRecord_parts valid
    refine byte_take.mpr ⟨_, _, rfl, refuse_bind.mpr ⟨not_not.mpr version,
      byte_take.mpr ⟨_, _, rfl, uint16_take.mpr ⟨_, _, rfl, hash_take.mpr ⟨_, _, rfl, hash_take.mpr ⟨_, _, rfl,
      hash_take.mpr ⟨_, _, rfl, uint32_take.mpr ⟨_, _, rfl, hash_take.mpr ⟨_, _, rfl, uint64_take.mpr ⟨_, _, rfl,
      byte_take.mpr ⟨_, _, rfl, compact_bind.mpr ⟨_, _, rfl, by omega,
      refuse_bind.mpr ⟨not_lt.mpr few, Option.bind_eq_some_iff.mpr ⟨_, takeUint256s_eq_some.mpr ⟨rfl, rfl⟩,
      compact_bind.mpr ⟨_, _, rfl, by omega, refuse_bind.mpr ⟨by omega,
      takeBytes_bind.mpr ⟨_, [], (List.append_nil _).symm, rfl, refuse_bind.mpr ⟨not_not.mpr rfl,
      if_pos valid⟩⟩⟩⟩⟩⟩⟩⟩⟩⟩⟩⟩⟩⟩⟩⟩⟩⟩

theorem parse_buildIcuAcceptanceTLV {v : Bytes} : parseIcuAcceptanceTLV v = some r ↔
    (validateIcuAcceptanceRecord r = true ∧ r.body_refs.length ≤ 4096) ∧ v = buildIcuAcceptanceTLV r := by
  simp only [parseIcuAcceptanceTLV, Option.bind_eq_some_iff, parseTyped_eq_some, parseIcuAcceptancePayload_iff]
  constructor
  · rintro ⟨_, ⟨rfl, _⟩, valid, rfl⟩
    exact ⟨valid, rfl⟩
  · rintro ⟨valid, rfl⟩
    refine ⟨_, ⟨rfl, ?_⟩, valid, rfl⟩
    have size (n : Nat) : (writeCompactSize n).length ≤ 9 := by
      unfold writeCompactSize
      split_ifs <;> simp
    have refs := size r.body_refs.length
    have sig := size r.sig.length
    have short := (validateIcuAcceptanceRecord_parts valid.1).2
    have few := valid.2
    simp only [IcuAcceptanceRecord.serializePayload, List.length_append, List.length_cons, List.length_nil, serUInt32,
      serUInt64, leBytes_length, Uint256.bytes_length, List.length_flatMap, List.map_const', List.sum_replicate_nat]
    omega

end Payload

section Message

theorem digits_split {n m : Nat} {mark r s : List Char} (other : mark.head?.any (!·.isDigit) = true)
    (same : Nat.toDigits 10 n ++ (mark ++ r) = Nat.toDigits 10 m ++ (mark ++ s)) : n = m ∧ r = s := by
  have digits (k : Nat) : ∀ c ∈ Nat.toDigits 10 k, c.isDigit := fun c =>
    Nat.isDigit_of_mem_toDigits (by decide) (by decide)
  have ends (t : List Char) : ∀ c ∈ (mark ++ t).head?, c.isDigit = false := by cases mark <;> simp_all
  obtain ⟨numbers, rests⟩ := split_letters Char.isDigit (digits n) (digits m) (ends r) (ends s) same
  have values := congrArg (Nat.ofDigitChars 10 · 0) numbers
  simp only [Nat.ofDigitChars_ten_toDigits] at values
  exact ⟨values, List.append_cancel_left rests⟩

theorem hexStr_inj {v w : Bytes} (same : hexStr v = hexStr w) : v = w := by
  have digit : ∀ a b : Fin 16, a.val.digitChar = b.val.digitChar → a = b := by decide
  induction v generalizing w with
  | nil => cases w <;> simp_all [hexStr]
  | cons a v ih =>
    cases w with
    | nil => simp [hexStr] at same
    | cons b w =>
      obtain ⟨high, same⟩ := List.cons.inj same
      obtain ⟨low, same⟩ := List.cons.inj same
      have high := Fin.mk.inj
        (digit ⟨a.toNat / 16, by have := a.toNat_lt; omega⟩ ⟨b.toNat / 16, by have := b.toNat_lt; omega⟩ high)
      have low := Fin.mk.inj (digit ⟨a.toNat % 16, by omega⟩ ⟨b.toNat % 16, by omega⟩ low)
      have byte : a = b := UInt8.toNat_inj.mp (by omega)
      rw [byte, ih same]

theorem hexStr_length (v : Bytes) : (hexStr v).length = 2 * v.length := by
  simp [hexStr, List.length_flatMap, Nat.mul_comm]

theorem hash_split {h k : Uint256} {mark r s : List Char}
    (same : h.getHex ++ (mark ++ r) = k.getHex ++ (mark ++ s)) : h = k ∧ r = s := by
  obtain ⟨digits, rests⟩ := List.append_inj same (by simp [Uint256.getHex, hexStr_length])
  exact ⟨Uint256.bytes_injective (List.reverse_injective (hexStr_inj digits)), List.append_cancel_left rests⟩

theorem joinedRefs_inj : ∀ {refs refs' : List Uint256}, joinedRefs refs = joinedRefs refs' → refs = refs'
  | [], [], _ => rfl
  | [], [_], same | [], _ :: _ :: _, same | [_], [], same | _ :: _ :: _, [], same => by
    have := congrArg List.length same
    simp [joinedRefs, hexStr_length] at this
  | [r], [r'], same => by rw [Uint256.bytes_injective (hexStr_inj same)]
  | [_], _ :: _ :: _, same | _ :: _ :: _, [_], same => by
    have := congrArg List.length same
    simp [joinedRefs, hexStr_length] at this
  | r :: s :: refs, r' :: s' :: refs', same => by
    obtain ⟨first, rests⟩ := List.append_inj same (by simp [hexStr_length])
    rw [Uint256.bytes_injective (hexStr_inj first), joinedRefs_inj (List.cons.inj rests).2]

/-- The signed text determines everything but the signature. -/
theorem signingMessage_inj {r r' : IcuAcceptanceRecord}
    (same : icuAcceptanceRecordSigningMessage r = icuAcceptanceRecordSigningMessage r') :
    { r with sig := r'.sig } = r' := by
  -- A number ends at the mark behind it, a hash after its 64 letters.
  obtain ⟨version, m1⟩ := digits_split rfl (List.append_cancel_left same)
  obtain ⟨mode, m2⟩ := digits_split rfl m1
  obtain ⟨flags, m3⟩ := digits_split rfl m2
  obtain ⟨asset, m4⟩ := hash_split m3
  obtain ⟨doc, m5⟩ := hash_split m4
  obtain ⟨txid, m6⟩ := hash_split m5
  obtain ⟨vout, m7⟩ := digits_split rfl m6
  obtain ⟨spk, m8⟩ := hash_split m7
  obtain ⟨units, m9⟩ := digits_split rfl m8
  obtain ⟨scheme, m10⟩ := digits_split rfl m9
  have refs := joinedRefs_inj m10
  rw [UInt8.toNat_inj] at version mode scheme
  rw [UInt16.toNat_inj] at flags
  rw [UInt32.toNat_inj] at vout
  rw [UInt64.toNat_inj] at units
  cases r
  cases r'
  simp_all

end Message

/-- A record has one encoding, and its signature covers all of the rest. -/
theorem acceptanceRecord_canonical (r r' : IcuAcceptanceRecord) (v : Bytes) :
    (validateIcuAcceptanceRecord r = true → r.body_refs.length ≤ 4096 →
      parseIcuAcceptanceTLV (buildIcuAcceptanceTLV r) = some r) ∧
    (parseIcuAcceptanceTLV v = some r → v = buildIcuAcceptanceTLV r) ∧
    (validateIcuAcceptanceRecord r = true → validateIcuAcceptanceRecord r' = true →
      icuAcceptanceRecordSigningMessage r = icuAcceptanceRecordSigningMessage r' → { r with sig := r'.sig } = r') :=
  ⟨fun valid few => parse_buildIcuAcceptanceTLV.mpr ⟨⟨valid, few⟩, rfl⟩,
    fun accepted => (parse_buildIcuAcceptanceTLV.mp accepted).2, fun _ _ same => signingMessage_inj same⟩

def signedRecord : IcuAcceptanceRecord :=
  ⟨ICU_ACCEPTANCE_RECORD_VERSION, 1, 0, 7, 8, 9, 0, 10, 5, 1, [11], List.replicate 64 1⟩

theorem acceptanceRecord_canonical_signed :
    parseIcuAcceptanceTLV (buildIcuAcceptanceTLV signedRecord) = some signedRecord :=
  (acceptanceRecord_canonical signedRecord signedRecord []).1 (by decide) (by decide)

end TensorCash
