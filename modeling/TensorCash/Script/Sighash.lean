import TensorCash.Consensus.TxInputs
import TensorCash.Models.Parse
import TensorCash.Primitives.TxidBinding

/-! The four digests of `script/interpreter.cpp`, with their messages as byte strings. Precomputed
hashes are computed in place. -/

namespace TensorCash

open Codec

variable {nHashType : UInt32}

def SIGHASH_OUTPUT_MASK : UInt8 := 3
def SIGHASH_INPUT_MASK : UInt8 := 0x80

def uint256ONE : Uint256 := Fin.ofNat _ (2 ^ 248)

def nullTxOut : CTxOut := ⟨-1, [], []⟩

/-- The bytes behind `GetOutputsSHA256`: every output in the form of the transaction, uncounted. -/
def outputsBytes (tx : CTransaction) : Bytes := tx.vout.flatMap (serTxOutWithExt tx.hasOutext)

def singleOutputBytes (tx : CTransaction) (out : CTxOut) : Bytes := serTxOutWithExt tx.hasOutext out

def outputMode (nHashType : UInt32) : UInt32 := nHashType &&& 0x1f

def isSingleMode (nHashType : UInt32) : Bool := outputMode nHashType = 3

def isNoneMode (nHashType : UInt32) : Bool := outputMode nHashType = 2

def isAnyoneCanPay (nHashType : UInt32) : Bool := nHashType &&& 0x80 ≠ 0

def serializeInput (code : Bytes) (nHashType : UInt32) (signed : Bool) (i : CTxIn) : Bytes :=
  i.prevout.serialize ++ (if signed then code else serBytes []) ++
    serUInt32 (if !signed && (isSingleMode nHashType || isNoneMode nHashType) then 0 else i.nSequence)

def messageInputs (code : Bytes) (tx : CTransaction) (nIn : Nat) (nHashType : UInt32) : Bytes :=
  if isAnyoneCanPay nHashType then
    writeCompactSize 1 ++ tx.vin[nIn]?.toList.flatMap (serializeInput code nHashType true)
  else
    writeCompactSize tx.vin.length ++ tx.vin.zipIdx.flatMap fun (i, n) => serializeInput code nHashType (n = nIn) i

/-- The outputs of the message, counted: `SerializeOutput` blanks all but its own in the single
mode. -/
def messageOutputs (tx : CTransaction) (nIn : Nat) (nHashType : UInt32) : Bytes :=
  if isNoneMode nHashType then writeCompactSize 0
  else if isSingleMode nHashType then
    writeCompactSize (nIn + 1) ++ (List.replicate nIn nullTxOut).flatMap (serTxOutWithExt false) ++
      tx.vout[nIn]?.toList.flatMap (singleOutputBytes tx)
  else writeCompactSize tx.vout.length ++ outputsBytes tx

def legacyMessage (code : Bytes) (tx : CTransaction) (nIn : Nat) (nHashType : UInt32) : Bytes :=
  serUInt32 tx.version ++ messageInputs code tx nIn nHashType ++ messageOutputs tx nIn nHashType ++
    serUInt32 tx.nLockTime ++ serUInt32 nHashType

def signatureHashLegacy (c : Crypto) (code : Bytes) (tx : CTransaction) (nIn : Nat)
    (nHashType : UInt32) : Uint256 :=
  if isSingleMode nHashType ∧ tx.vout.length ≤ nIn then uint256ONE
  else c.hash (legacyMessage code tx nIn nHashType)

def prevoutsBytes (tx : CTransaction) : Bytes := tx.vin.flatMap fun i => i.prevout.serialize

def sequencesBytes (tx : CTransaction) : Bytes := tx.vin.flatMap fun i => serUInt32 i.nSequence

def hashOutputs (c : Crypto) (tx : CTransaction) (nIn : Nat) (nHashType : UInt32) : Uint256 :=
  if !isSingleMode nHashType && !isNoneMode nHashType then c.hash (outputsBytes tx)
  else match isSingleMode nHashType, tx.vout[nIn]? with
    | true, some out => c.hash (singleOutputBytes tx out)
    | _, _ => 0

def bip143Message (c : Crypto) (scriptCode : CScript) (amount : Int64) (tx : CTransaction) (nIn : Nat)
    (nHashType : UInt32) : Bytes :=
  let hashPrevouts := if isAnyoneCanPay nHashType then 0 else c.hash (prevoutsBytes tx)
  let hashSequence :=
    if isAnyoneCanPay nHashType || isSingleMode nHashType || isNoneMode nHashType then 0
    else c.hash (sequencesBytes tx)
  serUInt32 tx.version ++ hashPrevouts.bytes ++ hashSequence.bytes ++
    tx.vin[nIn]?.toList.flatMap (fun i => i.prevout.serialize ++ serBytes scriptCode ++
      serInt64 amount ++ serUInt32 i.nSequence) ++
    (hashOutputs c tx nIn nHashType).bytes ++ serUInt32 tx.nLockTime ++ serUInt32 nHashType

def signatureHashWitnessV0 (c : Crypto) (scriptCode : CScript) (amount : Int64) (tx : CTransaction)
    (nIn : Nat) (nHashType : UInt32) : Uint256 := c.hash (bip143Message c scriptCode amount tx nIn nHashType)

inductive SigVersion where
  | TAPROOT
  | TAPSCRIPT
deriving DecidableEq

/-- What the interpreter knows about the input that it runs. -/
structure ScriptExecutionData where
  annex_hash : Option Uint256
  tapleaf_hash : Uint256
  codeseparator_pos : UInt32

def TAPSIGHASH_TAG : Bytes := ascii ['T', 'a', 'p', 'S', 'i', 'g', 'h', 'a', 's', 'h']

def TAPSIGHASH_MLDSA_TAG : Bytes := TAPSIGHASH_TAG ++ ascii ['/', 'M', 'L', '-', 'D', 'S', 'A']

def taprootOutputType (hash_type : UInt8) : UInt8 :=
  if hash_type = SIGHASH_DEFAULT then SIGHASH_ALL else hash_type &&& SIGHASH_OUTPUT_MASK

def taprootMessage (c : Crypto) (execdata : ScriptExecutionData) (spent : List CTxOut)
    (tx_to : CTransaction) (in_pos : Nat) (hash_type : UInt8) (sigversion : SigVersion) : Option Bytes :=
  let output_type := taprootOutputType hash_type
  let anyone := decide (hash_type &&& SIGHASH_INPUT_MASK = SIGHASH_ANYONECANPAY)
  let ext_flag : UInt8 := match sigversion with
    | .TAPROOT => 0
    | .TAPSCRIPT => 1
  if !(hash_type ≤ 0x03 || (0x81 ≤ hash_type && hash_type ≤ 0x83)) then none
  else if output_type = SIGHASH_SINGLE ∧ tx_to.vout.length ≤ in_pos then none
  else some <| [0, hash_type] ++ serUInt32 tx_to.version ++ serUInt32 tx_to.nLockTime ++ (if anyone then []
      else (c.sha256 (prevoutsBytes tx_to)).bytes ++ (c.sha256 (spent.flatMap fun o => serInt64 o.nValue)).bytes ++
        (c.sha256 (spent.flatMap fun o => serBytes o.scriptPubKey)).bytes ++ (c.sha256 (sequencesBytes tx_to)).bytes) ++
    (if output_type = SIGHASH_ALL then (c.sha256 (outputsBytes tx_to)).bytes else []) ++
    [ext_flag * 2 + if execdata.annex_hash.isSome then 1 else 0] ++ (if anyone then
        tx_to.vin[in_pos]?.toList.flatMap (fun i => i.prevout.serialize) ++
        spent[in_pos]?.toList.flatMap (serTxOutWithExt false) ++
        tx_to.vin[in_pos]?.toList.flatMap (fun i => serUInt32 i.nSequence)
      else serUInt32 (UInt32.ofNat in_pos)) ++ execdata.annex_hash.toList.flatMap Uint256.bytes ++
    (if output_type = SIGHASH_SINGLE then
        tx_to.vout[in_pos]?.toList.flatMap fun out => (c.sha256 (singleOutputBytes tx_to out)).bytes
      else []) ++ match sigversion with
    | .TAPROOT => []
    | .TAPSCRIPT => execdata.tapleaf_hash.bytes ++ [0] ++ serUInt32 execdata.codeseparator_pos

def signatureHashSchnorr (c : Crypto) (execdata : ScriptExecutionData) (spent : List CTxOut)
    (tx_to : CTransaction) (in_pos : Nat) (hash_type : UInt8) (sigversion : SigVersion) : Option Uint256 :=
  (taprootMessage c execdata spent tx_to in_pos hash_type sigversion).map
    (c.taggedHash TAPSIGHASH_TAG)

def signatureHashMLDSA (c : Crypto) (execdata : ScriptExecutionData) (spent : List CTxOut)
    (tx_to : CTransaction) (in_pos : Nat) (hash_type : UInt8) (sigversion : SigVersion) : Option Uint256 :=
  (taprootMessage c execdata spent tx_to in_pos hash_type sigversion).map
    (c.taggedHash TAPSIGHASH_MLDSA_TAG)

/-- A form of digest with everything that it takes beside the transaction and the input. -/
inductive Signing where
  | legacy (code : Bytes) (nHashType : UInt32)
  | witnessV0 (scriptCode : CScript) (amount : Int64) (nHashType : UInt32)
  | schnorr (execdata : ScriptExecutionData) (spent : List CTxOut) (hash_type : UInt8)
      (sigversion : SigVersion)
  | mldsa (execdata : ScriptExecutionData) (spent : List CTxOut) (hash_type : UInt8)
      (sigversion : SigVersion)

def Signing.digest (c : Crypto) (tx : CTransaction) (nIn : Nat) : Signing → Option Uint256
  | .legacy code nHashType => some (signatureHashLegacy c code tx nIn nHashType)
  | .witnessV0 scriptCode amount nHashType => some (signatureHashWitnessV0 c scriptCode amount tx nIn nHashType)
  | .schnorr execdata spent hash_type sigversion => signatureHashSchnorr c execdata spent tx nIn hash_type sigversion
  | .mldsa execdata spent hash_type sigversion => signatureHashMLDSA c execdata spent tx nIn hash_type sigversion

def Signing.isSingle : Signing → Bool
  | .legacy _ nHashType | .witnessV0 _ _ nHashType => isSingleMode nHashType
  | .schnorr _ _ hash_type _ | .mldsa _ _ hash_type _ => hash_type = 0x03 || hash_type = 0x83

/-- The bytes hashed when a signature covers all outputs. Only the legacy form counts them. -/
def Signing.outputs (tx : CTransaction) : Signing → Bytes
  | .legacy _ _ => writeCompactSize tx.vout.length ++ outputsBytes tx
  | _ => outputsBytes tx

theorem serTxOutWithExt_ne_nil (includeExt : Bool) (o : CTxOut) : serTxOutWithExt includeExt o ≠ [] := by
  intro empty
  have length := congrArg List.length empty
  simp only [serTxOutWithExt, serInt64, serUInt64, List.length_append, leBytes_length, List.length_nil] at length
  omega

theorem hasOutext_congr {t u : CTransaction} (same : t.vout = u.vout) : t.hasOutext = u.hasOutext := by
  unfold CTransaction.hasOutext
  rw [same]

/-- Two transactions with the same hashed output bytes have the same outputs if and only if both or
neither carry an output extension; only the legacy form says how many there are. -/
theorem outputs_bind_iff_same_form (form : Signing) {t u : CTransaction}
    (count : t.vout.length < 2 ^ 64) (count' : u.vout.length < 2 ^ 64)
    (range : ∀ o ∈ t.vout, o.Representable) (range' : ∀ o ∈ u.vout, o.Representable)
    (same : form.outputs t = form.outputs u) : t.vout = u.vout ↔ t.hasOutext = u.hasOutext := by
  refine ⟨hasOutext_congr, fun same_form => ?_⟩
  have code := serTxOutWithExt_selfDelimiting t.hasOutext
  have inside : ∀ o ∈ t.vout, o.Representable ∧ (t.hasOutext = false → o.vExt = []) :=
    fun o member => ⟨range o member, fun none => vExt_eq_nil_of_hasOutext none member⟩
  have inside' : ∀ o ∈ u.vout, o.Representable ∧ (t.hasOutext = false → o.vExt = []) :=
    fun o member => ⟨range' o member, fun none => vExt_eq_nil_of_hasOutext (same_form ▸ none) member⟩
  -- Without a count the lists end together, because no output is written as nothing.
  have uncounted (plain : outputsBytes t = outputsBytes u) : t.vout = u.vout := by
    unfold outputsBytes at plain
    rw [← same_form] at plain
    exact code.flatMap_inj (fun o _ => serTxOutWithExt_ne_nil _ o) inside inside' plain
  cases form with
  | legacy =>
    obtain ⟨_, plain⟩ := writeCompactSize_selfDelimiting count count' same
    exact uncounted plain
  | witnessV0 => exact uncounted same
  | schnorr => exact uncounted same
  | mldsa => exact uncounted same

/-- Signing does not change the outputs, so they are determined under every form. -/
theorem outputs_bind_recordTx :
    (fun form : Signing => form.outputs recordTx) = (fun form => form.outputs signedRecordTx) ∧
      recordTx.vout = signedRecordTx.vout := by
  have range : ∀ o ∈ recordTx.vout, o.Representable := by
    simp [recordTx, CTxOut.Representable]
  have same (form : Signing) : form.outputs recordTx = form.outputs signedRecordTx := by
    cases form <;> rfl
  exact ⟨funext same, (outputs_bind_iff_same_form (.legacy [] 1) (by decide) (by decide) range range
    (same _)).mpr rfl⟩

/-- Two payments with well-formed records or none, that differ in their outputs only and are hashed
from the same bytes under every form. -/
theorem outputs_of_record_and_shadow :
    (∀ o ∈ recordTx.vout ++ shadowTx.vout, o.vExt = [] ∨ validateSingleTLV o.vExt = true) ∧
      { recordTx with vout := shadowTx.vout } = shadowTx ∧
      (fun form : Signing => form.outputs recordTx) = (fun form => form.outputs shadowTx) ∧
      recordTx.vout ≠ shadowTx.vout := by
  refine ⟨by decide, rfl, ?_, by decide⟩
  have plain : outputsBytes recordTx = outputsBytes shadowTx := by decide
  funext form
  cases form with
  | legacy =>
    show writeCompactSize 2 ++ outputsBytes recordTx = writeCompactSize 2 ++ outputsBytes shadowTx
    rw [plain]
  | witnessV0 => exact plain
  | schnorr => exact plain
  | mldsa => exact plain

def Signing.hashed (c : Crypto) (tx : CTransaction) (nIn : Nat) : Signing → List Bytes
  | .legacy code nHashType =>
    let message := legacyMessage code tx nIn nHashType
    [message, (c.sha256 message).bytes]
  | .witnessV0 scriptCode amount nHashType =>
    let message := bip143Message c scriptCode amount tx nIn nHashType
    let outputs := tx.vout[nIn]?.toList.map (singleOutputBytes tx)
    [message, (c.sha256 message).bytes] ++ outputs ++ outputs.map fun o => (c.sha256 o).bytes
  | .schnorr execdata spent hash_type sigversion =>
    let tag := c.sha256 TAPSIGHASH_TAG
    (taprootMessage c execdata spent tx nIn hash_type sigversion).toList.map
        (fun message => tag.bytes ++ tag.bytes ++ message) ++ tx.vout[nIn]?.toList.map (singleOutputBytes tx)
  | .mldsa execdata spent hash_type sigversion =>
    let tag := c.sha256 TAPSIGHASH_MLDSA_TAG
    (taprootMessage c execdata spent tx nIn hash_type sigversion).toList.map
        (fun message => tag.bytes ++ tag.bytes ++ message) ++ tx.vout[nIn]?.toList.map (singleOutputBytes tx)

def Signing.Apart (c : Crypto) (form : Signing) (t u : CTransaction) (nIn : Nat) : Prop :=
  ∀ x ∈ form.hashed c t nIn, ∀ y ∈ form.hashed c u nIn, c.sha256 x = c.sha256 y → x = y

section Single

variable {c : Crypto} {t : CTransaction} {w : List CTxOut} {nIn : Nat} {out : CTxOut}

theorem singleOutputBytes_inj {u : CTransaction}
    (same : singleOutputBytes t out = singleOutputBytes u out) : t.hasOutext = u.hasOutext := by
  have lengths := congrArg List.length same
  unfold singleOutputBytes serTxOutWithExt at lengths
  have positive : 0 < (serBytes out.vExt).length := by
    rw [serBytes, List.length_append, writeCompactSize]
    split_ifs <;> simp
  cases left : t.hasOutext <;> cases right : u.hasOutext <;>
    simp only [left, right, List.length_append, if_true, if_false, List.length_nil, Bool.false_eq_true] at lengths ⊢
  · omega
  · omega

theorem hash_inj_of_apart {x y : Bytes} (outer : c.sha256 (c.sha256 x).bytes = c.sha256 (c.sha256 y).bytes →
      (c.sha256 x).bytes = (c.sha256 y).bytes)
    (inner : c.sha256 x = c.sha256 y → x = y) (same : c.hash x = c.hash y) : x = y :=
  inner (Uint256.bytes_injective (outer same))

theorem isNoneMode_of_single (single : isSingleMode nHashType = true) : isNoneMode nHashType = false := by
  simp only [isSingleMode, decide_eq_true_eq] at single
  simp [isNoneMode, single]

variable {v : List CTxOut} (here : v[nIn]? = some out) (there : w[nIn]? = some out)

include here there

theorem legacyMessage_single_iff (single : isSingleMode nHashType = true) (code : Bytes) :
    legacyMessage code { t with vout := v } nIn nHashType = legacyMessage code { t with vout := w } nIn nHashType ↔
      singleOutputBytes { t with vout := v } out = singleOutputBytes { t with vout := w } out := by
  have outputs {v : List CTxOut} (present : v[nIn]? = some out) :
      messageOutputs { t with vout := v } nIn nHashType = writeCompactSize (nIn + 1) ++
        (List.replicate nIn nullTxOut).flatMap (serTxOutWithExt false) ++
          singleOutputBytes { t with vout := v } out := by
    simp [messageOutputs, isNoneMode_of_single single, single, present]
  unfold legacyMessage
  rw [outputs here, outputs there]
  simp only [messageInputs, List.append_cancel_right_eq, List.append_cancel_left_eq]

theorem bip143Message_single_iff (single : isSingleMode nHashType = true) (scriptCode : CScript) (amount : Int64) :
    bip143Message c scriptCode amount { t with vout := v } nIn nHashType =
        bip143Message c scriptCode amount { t with vout := w } nIn nHashType ↔
      c.hash (singleOutputBytes { t with vout := v } out) = c.hash (singleOutputBytes { t with vout := w } out) := by
  have outputs {v : List CTxOut} (present : v[nIn]? = some out) : hashOutputs c { t with vout := v } nIn nHashType =
        c.hash (singleOutputBytes { t with vout := v } out) := by
    simp [hashOutputs, isNoneMode_of_single single, single, present]
  unfold bip143Message
  rw [outputs here, outputs there]
  simp only [prevoutsBytes, sequencesBytes, List.append_cancel_right_eq, List.append_cancel_left_eq,
    Uint256.bytes_injective.eq_iff]

theorem taprootMessage_single_iff {hash_type : UInt8}
    (single : (hash_type = 0x03 || hash_type = 0x83) = true) (execdata : ScriptExecutionData)
    (spent : List CTxOut) (sigversion : SigVersion) :
    taprootMessage c execdata spent { t with vout := v } nIn hash_type sigversion =
        taprootMessage c execdata spent { t with vout := w } nIn hash_type sigversion ↔
      c.sha256 (singleOutputBytes { t with vout := v } out) =
        c.sha256 (singleOutputBytes { t with vout := w } out) := by
  have known : (!(hash_type ≤ 0x03 || (0x81 ≤ hash_type && hash_type ≤ 0x83))) = false ∧
      taprootOutputType hash_type = SIGHASH_SINGLE := by
    rcases Bool.or_eq_true_iff.mp single with low | high
    · obtain rfl := of_decide_eq_true low
      decide
    · obtain rfl := of_decide_eq_true high
      decide
  have inside : ¬ v.length ≤ nIn := Nat.not_le.mpr (List.getElem?_eq_some_iff.mp here).1
  have inside' : ¬ w.length ≤ nIn := Nat.not_le.mpr (List.getElem?_eq_some_iff.mp there).1
  have other : ¬ SIGHASH_SINGLE = SIGHASH_ALL := by decide
  unfold taprootMessage
  simp only [known.1, other, known.2, inside, inside', here, there, and_false, if_false,
    Bool.false_eq_true, if_true, Option.toList_some, List.flatMap_singleton, Option.some.injEq,
    prevoutsBytes, sequencesBytes, List.append_cancel_right_eq, List.append_cancel_left_eq,
    Uint256.bytes_injective.eq_iff]

omit here there

theorem signatureHashLegacy_of_present (present : v[nIn]? = some out) (code : Bytes) :
    signatureHashLegacy c code { t with vout := v } nIn nHashType =
      c.hash (legacyMessage code { t with vout := v } nIn nHashType) := by
  have inside := (List.getElem?_eq_some_iff.mp present).1
  exact if_neg fun missing => absurd inside (Nat.not_lt.mpr missing.2)

theorem taggedHash_inj_of_apart {tag : Bytes} {m m' : Option Bytes}
    (apart : ∀ x ∈ m.toList.map (fun x => (c.sha256 tag).bytes ++ (c.sha256 tag).bytes ++ x),
       ∀ y ∈ m'.toList.map (fun x => (c.sha256 tag).bytes ++ (c.sha256 tag).bytes ++ x),
         c.sha256 x = c.sha256 y → x = y)
    (same : m.map (c.taggedHash tag) = m'.map (c.taggedHash tag)) : m = m' := by
  cases m with
  | none =>
    cases m' with
    | none => rfl
    | some y => cases same
  | some x =>
    cases m' with
    | none => cases same
    | some y =>
      have strings := apart _ (List.mem_singleton.mpr rfl) _ (List.mem_singleton.mpr rfl)
        (Option.some.inj same)
      rw [List.append_cancel_left strings]

/-- A single-output digest survives any change of later outputs that keeps their form. And where the
hash function tells messages apart, it changes whenever the form does. -/
theorem single_digest_iff_same_form (c : Crypto) {form : Signing} (single : form.isSingle = true)
    {t : CTransaction} {w : List CTxOut} {nIn : Nat} (inside : nIn < t.vout.length)
    (agree : w.take (nIn + 1) = t.vout.take (nIn + 1)) :
    (t.hasOutext = ({ t with vout := w } : CTransaction).hasOutext →
      form.digest c t nIn = form.digest c { t with vout := w } nIn) ∧
    (form.Apart c t { t with vout := w } nIn → form.digest c t nIn = form.digest c { t with vout := w } nIn →
        t.hasOutext = ({ t with vout := w } : CTransaction).hasOutext) := by
  obtain ⟨out, here⟩ : ∃ out, t.vout[nIn]? = some out := ⟨_, List.getElem?_eq_getElem inside⟩
  have there : w[nIn]? = some out := by
    rw [← here, ← List.getElem?_take_of_lt (Nat.lt_succ_self nIn), agree,
      List.getElem?_take_of_lt (Nat.lt_succ_self nIn)]
  have bytes (same : t.hasOutext = ({ t with vout := w } : CTransaction).hasOutext) :
      singleOutputBytes t out = singleOutputBytes { t with vout := w } out := by
    unfold singleOutputBytes
    rw [same]
  constructor
  · -- The same form gives the same bytes, and all that is built from them.
    intro same
    cases form with
    | legacy code nHashType =>
      have message := (legacyMessage_single_iff here there single code).mpr (bytes same)
      simp only [Signing.digest]
      rw [signatureHashLegacy_of_present there, ← message]
      exact congrArg some (signatureHashLegacy_of_present here code)
    | witnessV0 scriptCode amount nHashType =>
      have message := (bip143Message_single_iff (c := c) here there single scriptCode amount).mpr
        (congrArg c.hash (bytes same))
      exact congrArg (fun m => some (c.hash m)) message
    | schnorr execdata spent hash_type sigversion =>
      have message := (taprootMessage_single_iff (c := c) here there single execdata spent
        sigversion).mpr (congrArg c.sha256 (bytes same))
      exact congrArg (Option.map (c.taggedHash TAPSIGHASH_TAG)) message
    | mldsa execdata spent hash_type sigversion =>
      have message := (taprootMessage_single_iff (c := c) here there single execdata spent
        sigversion).mpr (congrArg c.sha256 (bytes same))
      exact congrArg (Option.map (c.taggedHash TAPSIGHASH_MLDSA_TAG)) message
  · -- Back from the digest to the message, and from the message to the bytes of the output.
    intro apart same
    refine singleOutputBytes_inj (?_ : singleOutputBytes t out = _)
    cases form with
    | legacy code nHashType =>
      have digests := Option.some.inj same
      rw [signatureHashLegacy_of_present there] at digests
      have message := hash_inj_of_apart (apart _ (by simp [Signing.hashed]) _ (by simp [Signing.hashed]))
        (apart _ (by simp [Signing.hashed]) _ (by simp [Signing.hashed]))
        ((signatureHashLegacy_of_present here code).symm.trans digests)
      exact (legacyMessage_single_iff here there single code).mp message
    | witnessV0 scriptCode amount nHashType =>
      have message := hash_inj_of_apart (apart _ (by simp [Signing.hashed]) _ (by simp [Signing.hashed]))
        (apart _ (by simp [Signing.hashed]) _ (by simp [Signing.hashed])) (Option.some.inj same)
      have outputs := (bip143Message_single_iff here there single scriptCode amount).mp message
      exact hash_inj_of_apart
        (apart _ (by simp [Signing.hashed, here]) _ (by simp [Signing.hashed, there]))
        (apart _ (by simp [Signing.hashed, here]) _ (by simp [Signing.hashed, there])) outputs
    | schnorr execdata spent hash_type sigversion
    | mldsa execdata spent hash_type sigversion =>
      have message := taggedHash_inj_of_apart
        (fun x inside y inside' => apart x (List.mem_append_left _ inside) y
          (List.mem_append_left _ inside')) same
      have outputs := (taprootMessage_single_iff here there single execdata spent sigversion).mp message
      exact apart _ (by simp [Signing.hashed, here]) _ (by simp [Signing.hashed, there]) outputs

end Single

def polynomialCrypto : Crypto where
  sha256 bytes := Fin.ofNat _ (bytes.foldl (fun acc x => acc * 257 + x.toNat + 1) 0)
  hash160 bytes := bytes.take 20
  isFullyValid bytes := bytes.length = 33

def singlePayment : CTransaction where
  version := 2
  vin := [⟨⟨1, 0⟩, [], 0xFFFFFFFF, []⟩]
  vout := [⟨1000, [0x51], []⟩]
  nLockTime := 0

def singleSignings : List Signing :=
  [.legacy [1, 0xAC] 0x83, .witnessV0 [0xAC] 2000 0x03,
    .schnorr ⟨none, 0, 0xFFFFFFFF⟩ [⟨2000, [0x51], []⟩] 0x83 .TAPROOT,
    .mldsa ⟨none, 7, 0xFFFFFFFF⟩ [⟨2000, [0x51], []⟩] 0x03 .TAPSCRIPT]

/-- Another plain output leaves every digest as it is. -/
theorem single_digest_of_plain_output :
    singleSignings.map (fun form => form.digest polynomialCrypto singlePayment 0) =
      singleSignings.map fun form => form.digest polynomialCrypto
        { singlePayment with vout := [⟨1000, [0x51], []⟩, ⟨5, [0x51], []⟩] } 0 := by
  refine List.map_congr_left fun form member => ?_
  have single : ∀ form ∈ singleSignings, form.isSingle = true := by decide
  exact (single_digest_iff_same_form polynomialCrypto (single form member)
    (show 0 < singlePayment.vout.length by decide)
    (show List.take 1 [(⟨1000, [0x51], []⟩ : CTxOut), ⟨5, [0x51], []⟩] = _ from rfl)).1 rfl

/-- Another output with an extension changes every digest. -/
theorem single_digest_of_extended_output : singleSignings.all (fun form => form.isSingle && decide
      (form.digest polynomialCrypto singlePayment 0 ≠ form.digest polynomialCrypto
        { singlePayment with vout := [⟨1000, [0x51], []⟩, ⟨5, [0x51], [0x7F, 1, 0]⟩] } 0)) = true := by
  decide +kernel

end TensorCash
