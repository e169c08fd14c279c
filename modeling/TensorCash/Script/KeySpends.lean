import TensorCash.Script.Interpreter
import TensorCash.Validation.RegChain

/-! The single-key branches of `VerifyWitnessProgram`, next to the scan of
`assets/sighash_utils.h`. -/

namespace TensorCash

open Checked

variable {sig : Bytes} {type : UInt8}

structure KeyVerifier where
  /-- `VerifySchnorrSignature` on the digest of a hash type and an annex. -/
  schnorr : Bytes → Bytes → UInt8 → Option Bytes → Bool
  /-- The ECDSA check on the digest of a hash type. -/
  ecdsa : Bytes → Bytes → UInt8 → Bool
  /-- A signature of zeros never verifies. -/
  zeros_refused : ∀ {sig program type annex}, schnorr sig program type annex = true → sig.any (· ≠ 0) = true

def isValidSignatureEncoding (sig : Bytes) : Bool :=
  let at_ (i : Nat) : UInt8 := sig.getD i 0
  let lenR := (at_ 3).toNat
  let lenS := (at_ (5 + lenR)).toNat
  9 ≤ sig.length && sig.length ≤ 73 && at_ 0 = 0x30 && (at_ 1).toNat = sig.length - 3 &&
    5 + lenR < sig.length && lenR + lenS + 7 = sig.length && at_ 2 = 0x02 && lenR ≠ 0 && at_ 4 &&& 0x80 = 0 &&
    !(1 < lenR && at_ 4 = 0 && at_ 5 &&& 0x80 = 0) &&
    at_ (lenR + 4) = 0x02 && lenS ≠ 0 && at_ (lenR + 6) &&& 0x80 = 0 &&
    !(1 < lenS && at_ (lenR + 6) = 0 && at_ (lenR + 7) &&& 0x80 = 0)

def isDefinedHashtype (type : UInt8) : Bool :=
  let nHashType := type &&& ~~~SIGHASH_ANYONECANPAY
  SIGHASH_ALL ≤ nHashType && nHashType ≤ SIGHASH_SINGLE

def checkSignatureEncodingStrict (sig : Bytes) : Bool :=
  sig = [] || (isValidSignatureEncoding sig && isDefinedHashtype (sig.getLast?.getD 0))

def isTaprootHashType (type : UInt8) : Bool := type ≤ 0x03 || (0x81 ≤ type && type ≤ 0x83)

def schnorrHashType (sig : Bytes) : Option UInt8 :=
  if sig.length = 64 then some SIGHASH_DEFAULT
  else if sig.length = 65 then
    let hashtype := sig.getLast?.getD 0
    if hashtype = SIGHASH_DEFAULT then none else some hashtype
  else none

def verifyTaprootKeyPath (keys : KeyVerifier) (program : Bytes) (stack : List Bytes) : Option UInt8 :=
  match splitAnnex stack with
  | ([sig], annex) =>
    (schnorrHashType sig).filter fun hashtype =>
      isTaprootHashType hashtype && keys.schnorr (sig.take 64) program hashtype annex
  | _ => none

/-- A version-0 key-hash program: two elements under any hash type. -/
def verifyWitnessV0KeyHash (c : Crypto) (keys : KeyVerifier) (program : Bytes)
    (stack : List Bytes) : Option UInt8 :=
  match stack with
  | [sig, pubkey] =>
    if c.hash160 pubkey = program ∧ isValidSignatureEncoding sig ∧
        keys.ecdsa sig.dropLast pubkey (sig.getLast?.getD 0) then
      some (sig.getLast?.getD 0)
    else none
  | _ => none

def skipsFirst (stack : List Bytes) : Bool :=
  match stack with
  | (tag :: _) :: _ :: _ => tag = ANNEX_TAG
  | _ => false

def witnessSighashes (env : ChainEnv) (stack : List Bytes) : List UInt8 :=
  stack.filterMap fun e => extractSignatureSighash env e true

theorem inputSighashes_eq (env : ChainEnv) (txin : CTxIn) : inputSighashes env txin =
      ((scriptPushes txin.scriptSig.length txin.scriptSig).filterMap fun e =>
        extractSignatureSighash env e false) ++
      witnessSighashes env (if skipsFirst txin.scriptWitness then txin.scriptWitness.tail
        else txin.scriptWitness) := by
  unfold inputSighashes witnessSighashes skipsFirst
  rcases txin.scriptWitness with _ | ⟨_ | ⟨tag, body⟩, _ | ⟨second, rest⟩⟩
  · rfl
  · rfl
  · rfl
  · split <;> simp_all
  · -- Two elements or more: the tag of the first one decides.
    by_cases annex : tag = ANNEX_TAG
    · subst annex
      rfl
    · simp only [annex, decide_false, Bool.false_eq_true, if_false]
      split
      · next matched => simp_all [ANNEX_TAG]
      · rfl

/-- What the scan reads elsewhere than in the first element of the witness. -/
def otherSighashes (env : ChainEnv) (txin : CTxIn) : List UInt8 :=
  ((scriptPushes txin.scriptSig.length txin.scriptSig).filterMap fun e =>
    extractSignatureSighash env e false) ++ witnessSighashes env txin.scriptWitness.tail

theorem mem_inputSighashes {env : ChainEnv} {txin : CTxIn} {rest : List Bytes}
    (stack : txin.scriptWitness = sig :: rest) : type ∈ inputSighashes env txin ↔
      skipsFirst txin.scriptWitness = false ∧ extractSignatureSighash env sig true = some type ∨
        type ∈ otherSighashes env txin := by
  rw [inputSighashes_eq, otherSighashes, stack, List.tail_cons]
  cases skips : skipsFirst (sig :: rest) with
  | true => simp
  | false =>
    simp only [Bool.false_eq_true, if_false, true_and, List.mem_append, witnessSighashes, List.filterMap_cons]
    -- The first element adds its type, if it has one, in front of the others.
    cases extractSignatureSighash env sig true with
    | none => simp
    | some first =>
      simp only [List.mem_cons, Option.some.injEq]
      rw [or_left_comm, eq_comm]

def looksLikeDer (sig : Bytes) : Bool := sig.length = 64 && checkSignatureEncodingStrict sig

theorem isValidSignatureEncoding_shape (valid : isValidSignatureEncoding sig = true) :
    9 ≤ sig.length ∧ sig.length ≤ 73 ∧ sig.getD 0 0 = 0x30 := by
  simp only [isValidSignatureEncoding, Bool.and_eq_true, decide_eq_true_eq, and_assoc] at valid
  obtain ⟨least, most, tag, _⟩ := valid
  exact ⟨least, most, tag⟩

/-- A version-0 signature with an undefined type that has the size and the type of a Schnorr
signature. -/
def ReadsAsSchnorr (sig : Bytes) (type : UInt8) : Prop :=
  sig.length = 65 ∧ type &&& 0x1f ∈ [SIGHASH_ALL, SIGHASH_NONE, SIGHASH_SINGLE, SIGHASH_DEFAULT] ∨
    sig.length = 64 ∧ type = SIGHASH_DEFAULT

theorem taproot_base (known : isTaprootHashType type = true) :
    type &&& 0x1f ∈ [SIGHASH_ALL, SIGHASH_NONE, SIGHASH_SINGLE, SIGHASH_DEFAULT] := by
  have bytes : ∀ n : Fin 256, isTaprootHashType (UInt8.ofNat n) = true →
      UInt8.ofNat n &&& 0x1f ∈ [SIGHASH_ALL, SIGHASH_NONE, SIGHASH_SINGLE, SIGHASH_DEFAULT] := by
    decide +kernel
  have this := bytes ⟨type.toNat, type.toNat_lt⟩
  rw [UInt8.ofNat_toNat] at this
  exact this known

section Scan

variable {env : ChainEnv} (reads : ∀ e, env.signatureEncoding e = checkSignatureEncodingStrict e)
include reads

theorem extract_schnorr (typed : schnorrHashType sig = some type)
    (known : isTaprootHashType type = true) (nonzero : (sig.take 64).any (· ≠ 0) = true)
    (plain : looksLikeDer sig = false) : extractSignatureSighash env sig true = some type := by
  unfold schnorrHashType at typed
  unfold extractSignatureSighash
  simp only [reads]
  simp only at typed
  split_ifs at typed with short long default_
  · -- Sixty-four bytes: the type is implicit.
    cases typed
    have unstrict : checkSignatureEncodingStrict sig = false := by
      simpa [looksLikeDer, short] using plain
    rw [List.take_of_length_le short.le] at nonzero
    rw [if_neg (by simp [unstrict]), if_neg (by simp [short]), if_pos ⟨trivial, short, nonzero⟩]
  · -- Sixty-five bytes: either way the type is the last byte.
    cases typed
    have base := taproot_base known
    rw [show sig.take 64 = sig.dropLast by rw [List.dropLast_eq_take, long]] at nonzero
    by_cases strict : checkSignatureEncodingStrict sig = true
    · simp [long, strict]
    · rw [if_neg (by simp [strict]), if_pos ⟨trivial, long, base, nonzero⟩]

theorem extract_schnorr_iff (typed : schnorrHashType sig = some type)
    (known : isTaprootHashType type = true) (nonzero : (sig.take 64).any (· ≠ 0) = true) :
    extractSignatureSighash env sig true = some type ↔ looksLikeDer sig = false := by
  refine ⟨fun extracted => ?_, extract_schnorr reads typed known nonzero⟩
  by_contra der
  simp only [looksLikeDer, Bool.not_eq_false, Bool.and_eq_true, decide_eq_true_eq] at der
  obtain ⟨short, strict⟩ := der
  rw [schnorrHashType, if_pos short] at typed
  cases typed
  -- The scan reads the last byte, which is a defined type and so not the default one.
  simp only [extractSignatureSighash, reads] at extracted
  rw [if_pos ⟨by omega, by omega, strict⟩] at extracted
  have defined : isDefinedHashtype (sig.getLast?.getD 0) = true := by
    rcases Bool.or_eq_true_iff.mp strict with empty | both
    · simp [of_decide_eq_true empty] at short
    · exact (Bool.and_eq_true_iff.mp both).2
  rw [Option.some.inj extracted] at defined
  exact absurd defined (by decide)

theorem extract_der_iff (valid : isValidSignatureEncoding sig = true) :
    extractSignatureSighash env sig true = some (sig.getLast?.getD 0) ↔
      isDefinedHashtype (sig.getLast?.getD 0) = true ∨ ReadsAsSchnorr sig (sig.getLast?.getD 0) := by
  obtain ⟨least, most, tag⟩ := isValidSignatureEncoding_shape valid
  have strict : checkSignatureEncodingStrict sig = isDefinedHashtype (sig.getLast?.getD 0) := by
    have some_ : sig ≠ [] := by
      rintro rfl
      simp at least
    simp [checkSignatureEncodingStrict, valid, some_]
  -- Its first byte is the tag of a compound, so that neither reading meets zeros only.
  obtain ⟨body, rfl⟩ : ∃ body, sig = 0x30 :: body := by
    cases sig with
    | nil => simp at least
    | cons first body => exact ⟨body, by rw [show first = 0x30 from tag]⟩
  have long : body ≠ [] := by
    rintro rfl
    simp at least
  have nonzero : (0x30 :: body : Bytes).dropLast.any (· ≠ 0) = true := by
    simp [List.dropLast_cons_of_ne_nil long]
  unfold extractSignatureSighash ReadsAsSchnorr
  simp only [reads, strict, nonzero]
  by_cases defined : isDefinedHashtype ((0x30 :: body : Bytes).getLast?.getD 0) = true
  · simp only [defined, least, most, and_self, if_true, true_or]
  · have undefined : ¬ (9 ≤ (0x30 :: body : Bytes).length ∧ (0x30 :: body : Bytes).length ≤ 73 ∧
        isDefinedHashtype ((0x30 :: body : Bytes).getLast?.getD 0) = true) := fun all => defined all.2.2
    rw [if_neg undefined]
    simp only [defined, Bool.false_eq_true, false_or, true_and, and_true]
    split_ifs with schnorr implicit
    · simp [schnorr]
    · simp only [Option.some.injEq, implicit.1]
      constructor
      · exact fun same => .inr ⟨trivial, same.symm⟩
      · rintro (⟨other, _⟩ | ⟨_, same⟩)
        · exact absurd other (by decide)
        · exact same.symm
    · simp only [false_iff, not_or]
      refine ⟨schnorr, fun short => implicit ⟨short.1, ?_⟩⟩
      simp

end Scan

theorem verifyTaprootKeyPath_eq_some {keys : KeyVerifier} {program : Bytes} {stack : List Bytes}
    (accepted : verifyTaprootKeyPath keys program stack = some type) :
    ∃ (sig : Bytes) (annex : Option Bytes), stack = sig :: annex.toList ∧ schnorrHashType sig = some type ∧
      isTaprootHashType type = true ∧ (sig.take 64).any (· ≠ 0) = true := by
  unfold verifyTaprootKeyPath at accepted
  split at accepted
  · next sig annex split_ =>
    obtain ⟨typed, checks⟩ := Option.filter_eq_some_iff.mp accepted
    obtain ⟨known, verifies⟩ := Bool.and_eq_true_iff.mp checks
    refine ⟨sig, annex, ?_, typed, known, keys.zeros_refused verifies⟩
    -- Whatever was split off was the last element.
    unfold splitAnnex at split_
    split at split_
    · next tag body last =>
      split_ifs at split_ with tagged
      · obtain ⟨front, rfl⟩ := Prod.mk.inj split_
        rw [← List.dropLast_append_getLast? _ last, front]
        rfl
      · obtain ⟨whole, rfl⟩ := Prod.mk.inj split_
        exact whole
    · obtain ⟨whole, rfl⟩ := Prod.mk.inj split_
      exact whole
  · cases accepted

theorem skipsFirst_der {pubkey : Bytes} (valid : isValidSignatureEncoding sig = true) :
    skipsFirst [sig, pubkey] = false := by
  obtain ⟨_, _, tagged⟩ := isValidSignatureEncoding_shape valid
  cases sig with
  | nil => rfl
  | cons tag body =>
    -- It starts with the tag of a compound.
    obtain rfl : tag = 0x30 := tagged
    rfl

theorem binding_of_checkIcuInputs {env : ChainEnv} {inputs : List (CTxIn × Coin)} {i : CTxIn}
    {coin : Coin} {reg : IssuerReg} (checked : checkIcuInputs env inputs = .ok ⟨⟩)
    (member : (i, coin) ∈ inputs) (issuer : parseIssuerReg coin.out.vExt = some reg)
    (seen : type ∈ inputSighashes env i) : isOutputBindingSighash type = true := by
  unfold checkIcuInputs at checked
  have found : (i, reg) ∈ inputs.filterMap fun p =>
      (parseIssuerReg p.2.out.vExt).map fun r => (p.1, r) := List.mem_filterMap.mpr ⟨(i, coin), member, by simp [issuer]⟩
  rw [forM_eq_ok] at checked
  -- The loop over the assets, and in it the loop over the inputs of one asset.
  have of_id := checked reg.asset_id
    (mem_sortedIds.mpr (List.mem_map.mpr ⟨(i, reg), found, rfl⟩))
  rw [forM_eq_ok] at of_id
  have of_input := of_id (i, reg) (List.mem_filter.mpr ⟨found, by simp⟩)
  simp only [require_bind_eq_ok, require_eq_ok, List.all_eq_true] at of_input
  exact of_input.2 type seen

/-- **What the scan makes of a key spend.** It hands over the type of a key path signature exactly
when it does not skip the signature, which must not read as DER if it has no type byte, or reads
that type elsewhere; and a version-0 type exactly when it is defined, or the signature has the size
of a Schnorr signature, or the type is read elsewhere. A credential whose signature is not skipped
is signed over all outputs. -/
theorem scan_sees_key_spends_iff (env : ChainEnv)
    (reads : ∀ e, env.signatureEncoding e = checkSignatureEncodingStrict e) (c : Crypto)
    (keys : KeyVerifier) (program : Bytes) (i : CTxIn) (type : UInt8) :
    (verifyTaprootKeyPath keys program i.scriptWitness = some type →
      (type ∈ inputSighashes env i ↔
        skipsFirst i.scriptWitness = false ∧ (∀ sig ∈ i.scriptWitness.head?, looksLikeDer sig = false) ∨
          type ∈ otherSighashes env i)) ∧
    (verifyWitnessV0KeyHash c keys program i.scriptWitness = some type →
      (type ∈ inputSighashes env i ↔
        (isDefinedHashtype type = true ∨ ∀ sig ∈ i.scriptWitness.head?, ReadsAsSchnorr sig type) ∨
          type ∈ otherSighashes env i)) ∧
    ∀ inputs coin reg, checkIcuInputs env inputs = .ok ⟨⟩ → (i, coin) ∈ inputs →
      parseIssuerReg coin.out.vExt = some reg →
      (verifyTaprootKeyPath keys program i.scriptWitness = some type ∧ skipsFirst i.scriptWitness = false ∨
        verifyWitnessV0KeyHash c keys program i.scriptWitness = some type ∧ isDefinedHashtype type = true) →
      isOutputBindingSighash type = true := by
  have taproot : verifyTaprootKeyPath keys program i.scriptWitness = some type →
      (type ∈ inputSighashes env i ↔
        skipsFirst i.scriptWitness = false ∧ (∀ sig ∈ i.scriptWitness.head?, looksLikeDer sig = false) ∨
          type ∈ otherSighashes env i) := by
    intro accepted
    obtain ⟨sig, annex, stack, typed, known, nonzero⟩ := verifyTaprootKeyPath_eq_some accepted
    rw [mem_inputSighashes stack, extract_schnorr_iff reads typed known nonzero, stack]
    simp
  have keyHash : verifyWitnessV0KeyHash c keys program i.scriptWitness = some type →
      (type ∈ inputSighashes env i ↔
        (isDefinedHashtype type = true ∨ ∀ sig ∈ i.scriptWitness.head?, ReadsAsSchnorr sig type) ∨
          type ∈ otherSighashes env i) := by
    intro accepted
    unfold verifyWitnessV0KeyHash at accepted
    split at accepted
    · next sig pubkey stack =>
      split_ifs at accepted with checks
      cases accepted
      rw [mem_inputSighashes stack, extract_der_iff reads checks.2.1, stack, skipsFirst_der checks.2.1]
      simp
    · cases accepted
  refine ⟨taproot, keyHash, ?_⟩
  rintro inputs coin reg checked member issuer (⟨accepted, kept⟩ | ⟨accepted, defined⟩)
  · obtain ⟨sig, annex, stack, typed, _⟩ := verifyTaprootKeyPath_eq_some accepted
    by_cases der : looksLikeDer sig = true
    · -- A signature without a type byte signs everything, whatever the scan reads.
      have short : sig.length = 64 := by
        simp only [looksLikeDer, Bool.and_eq_true, decide_eq_true_eq] at der
        exact der.1
      rw [schnorrHashType, if_pos short] at typed
      cases typed
      decide
    · refine binding_of_checkIcuInputs checked member issuer ((taproot accepted).mpr (.inl ⟨kept, ?_⟩))
      intro first front
      rw [stack, List.head?_cons] at front
      cases front
      simpa using der
  · exact binding_of_checkIcuInputs checked member issuer ((keyHash accepted).mpr (.inl (.inl defined)))

namespace RegChain

def anyKey : KeyVerifier where
  schnorr sig _ _ _ := sig.any (· ≠ 0)
  ecdsa _ _ _ := true
  zeros_refused := id

def strictEnv : ChainEnv := { env.toChainEnv with signatureEncoding := checkSignatureEncodingStrict }

def keySpend (scriptWitness : List Bytes) : CTxIn :=
  { prevout := ⟨1, 0⟩, scriptSig := [], nSequence := SEQUENCE_FINAL, scriptWitness }

def plainSignature : Bytes := List.replicate 64 1 ++ [SIGHASH_ALL]

def taggedSignature : Bytes := ANNEX_TAG :: List.replicate 63 1 ++ [0x83]

def longAnnex : Bytes := ANNEX_TAG :: List.replicate 63 0

def credentialCoin : Coin := ⟨credential firstReg, 1, false⟩

end RegChain

/-- With an annex, the type of a signature that does not start with the tag is handed over. -/
theorem scan_sees_plain_signature : verifyTaprootKeyPath RegChain.anyKey [] (RegChain.keySpend
        [RegChain.plainSignature, RegChain.longAnnex]).scriptWitness = some SIGHASH_ALL ∧
      SIGHASH_ALL ∈ inputSighashes RegChain.strictEnv
        (RegChain.keySpend [RegChain.plainSignature, RegChain.longAnnex]) := by
  have accepted : verifyTaprootKeyPath RegChain.anyKey [] (RegChain.keySpend
      [RegChain.plainSignature, RegChain.longAnnex]).scriptWitness = some SIGHASH_ALL := by
    decide
  refine ⟨accepted, ((scan_sees_key_spends_iff RegChain.strictEnv (fun _ => rfl) RegChain.crypto
    RegChain.anyKey [] _ SIGHASH_ALL).1 accepted).mpr (.inl ⟨by decide, ?_⟩)⟩
  rintro sig ⟨⟩
  decide

/-- A credential passes although its signature commits to a single input and output: the scan takes
the signature for the annex and the annex for a signature. -/
theorem annex_hides_signature : verifyTaprootKeyPath RegChain.anyKey [] (RegChain.keySpend
        [RegChain.taggedSignature, RegChain.longAnnex]).scriptWitness = some 0x83 ∧
      isOutputBindingSighash 0x83 = false ∧ (0x83 : UInt8) ∉ inputSighashes RegChain.strictEnv
        (RegChain.keySpend [RegChain.taggedSignature, RegChain.longAnnex]) ∧
      (parseIssuerReg RegChain.credentialCoin.out.vExt).isSome = true ∧
      checkIcuInputs RegChain.strictEnv [(RegChain.keySpend
        [RegChain.taggedSignature, RegChain.longAnnex], RegChain.credentialCoin)] = .ok ⟨⟩ := by
  decide +kernel

end TensorCash
