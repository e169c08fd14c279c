import TensorCash.Primitives.Transaction
import Mathlib.Algebra.Order.BigOperators.Group.List

/-! What the hashed bytes of a transaction determine about it. -/

namespace TensorCash

open Codec

def CTxIn.unsigned (i : CTxIn) : COutPoint × Bytes × UInt32 := (i.prevout, i.scriptSig, i.nSequence)

def CTxIn.InReaderRange (i : CTxIn) : Prop := i.scriptSig.length ≤ MAX_SIZE

/-- An output as the reader accepts it: at most one record of bounded size. -/
structure CTxOut.InReaderRange (o : CTxOut) : Prop where
  script : o.scriptPubKey.length ≤ MAX_SIZE
  extSize : o.vExt.length ≤ MAX_OUEXT_SIZE_PER_OUTPUT
  record : o.vExt = [] ∨ validateSingleTLV o.vExt = true

structure CTransaction.InReaderRange (tx : CTransaction) : Prop where
  vin : tx.vin.length ≤ MAX_SIZE
  inputs : ∀ i ∈ tx.vin, i.InReaderRange
  vout : tx.vout.length ≤ MAX_SIZE
  outputs : ∀ o ∈ tx.vout, o.InReaderRange
  extTotal : (tx.vout.map fun o => o.vExt.length).sum ≤ MAX_OUEXT_BYTES_PER_TX

theorem COutPoint.serialize_selfDelimiting :
    SelfDelimiting (fun _ : COutPoint => True) COutPoint.serialize := by
  have pair := bytes_selfDelimiting.append (fun _ _ => serUInt32_selfDelimiting)
  intro a b _ _ r s same
  obtain ⟨fields, rest⟩ := pair (a := (a.hash, a.n)) (b := (b.hash, b.n)) ⟨trivial, trivial⟩
    ⟨trivial, trivial⟩ same
  cases a
  cases b
  simp_all

def serUnsigned (u : COutPoint × Bytes × UInt32) : Bytes := u.1.serialize ++ (serBytes u.2.1 ++ serUInt32 u.2.2)

theorem serUnsigned_selfDelimiting :
    SelfDelimiting (fun u : COutPoint × Bytes × UInt32 => u.2.1.length ≤ MAX_SIZE) serUnsigned := by
  have fields := COutPoint.serialize_selfDelimiting.append fun _ _ =>
    serBytes_selfDelimiting.append fun _ _ => serUInt32_selfDelimiting
  refine fields.mono fun u short => ⟨trivial, ?_, trivial⟩
  unfold MAX_SIZE at short
  omega

theorem serVector_unsigned (vin : List CTxIn) :
    serVector CTxIn.serialize vin = serVector serUnsigned (vin.map CTxIn.unsigned) := by
  have words : CTxIn.serialize = fun i => serUnsigned i.unsigned := by
    funext i
    simp [CTxIn.serialize, serUnsigned, CTxIn.unsigned, List.append_assoc]
  simp [serVector, List.flatMap_map, words]

def CTxOut.Representable (o : CTxOut) : Prop := o.scriptPubKey.length < 2 ^ 64 ∧ o.vExt.length < 2 ^ 64

theorem serTxOutWithExt_selfDelimiting (includeExt : Bool) :
    SelfDelimiting (fun o : CTxOut => o.Representable ∧ (includeExt = false → o.vExt = []))
      (serTxOutWithExt includeExt) := by
  rintro o p ⟨⟨script, ext⟩, form⟩ ⟨⟨script', ext'⟩, form'⟩ r s same
  simp only [serTxOutWithExt, List.append_assoc] at same
  obtain ⟨value, same⟩ := serInt64_selfDelimiting trivial trivial same
  obtain ⟨scripts, same⟩ := serBytes_selfDelimiting script script' same
  cases o
  cases p
  cases includeExt with
  | false => simp_all
  | true =>
    obtain ⟨exts, rest⟩ := serBytes_selfDelimiting ext ext' same
    simp_all

theorem serTxOutWithExt_binds (includeExt : Bool) :
    SelfDelimiting (fun o : CTxOut => o.InReaderRange ∧ (includeExt = false → o.vExt = []))
      (serTxOutWithExt includeExt) := by
  refine (serTxOutWithExt_selfDelimiting includeExt).mono ?_
  rintro o ⟨⟨script, ext, -⟩, form⟩
  unfold MAX_SIZE at script
  unfold MAX_OUEXT_SIZE_PER_OUTPUT at ext
  exact ⟨⟨by omega, by omega⟩, form⟩

theorem flags_false (tx : CTransaction) : tx.flags false = 0 := by
  simp [CTransaction.flags]

theorem serializeTransaction_false (tx : CTransaction) : serializeTransaction false tx =
      serUInt32 tx.version ++ (serVector CTxIn.serialize tx.vin ++
        (serVector (serTxOutWithExt tx.hasOutext) tx.vout ++ serUInt32 tx.nLockTime)) := by
  simp [serializeTransaction, flags_false, List.append_assoc]

structure CTransaction.InputsInRange (tx : CTransaction) : Prop where
  vin : tx.vin.length ≤ MAX_SIZE
  inputs : ∀ i ∈ tx.vin, i.InReaderRange

variable {tx : CTransaction}

theorem CTransaction.InReaderRange.inputsInRange (range : tx.InReaderRange) :
    tx.InputsInRange := ⟨range.vin, range.inputs⟩

theorem CTransaction.InputsInRange.of_length
    (short : (serializeTransaction false tx).length ≤ MAX_SIZE) : tx.InputsInRange := by
  -- Every input is written out, with its script.
  have whole : (tx.vin.map fun i => (CTxIn.serialize i).length).sum ≤ MAX_SIZE := by
    rw [serializeTransaction_false] at short
    simp only [List.length_append, serVector, List.length_flatMap] at short
    omega
  have script : ∀ i : CTxIn, i.scriptSig.length + 1 ≤ i.serialize.length := by
    intro i
    simp only [CTxIn.serialize, serBytes, List.length_append, serUInt32, Codec.leBytes_length]
    omega
  refine ⟨?_, fun i member => ?_⟩
  · have long : tx.vin.length ≤ (tx.vin.map fun i => (CTxIn.serialize i).length).sum := by
      have counted := List.length_le_sum_of_one_le
        (tx.vin.map fun i => (CTxIn.serialize i).length) (by
          intro n member
          obtain ⟨i, _, rfl⟩ := List.mem_map.mp member
          have := script i
          omega)
      simpa using counted
    exact long.trans whole
  · have part := List.single_le_sum (fun n _ => Nat.zero_le n) _
      (List.mem_map_of_mem (f := fun i => (CTxIn.serialize i).length) member)
    have := script i
    unfold CTxIn.InReaderRange
    omega

theorem CTransaction.vout_length_le (tx : CTransaction) :
    tx.vout.length ≤ (serializeTransaction false tx).length := by
  have each : ∀ o : CTxOut, 1 ≤ (serTxOutWithExt tx.hasOutext o).length := by
    intro o
    unfold serTxOutWithExt
    simp only [List.length_append, serInt64, serUInt64, Codec.leBytes_length]
    omega
  have long : tx.vout.length ≤ (tx.vout.map fun o => (serTxOutWithExt tx.hasOutext o).length).sum := by
    have counted := List.length_le_sum_of_one_le
      (tx.vout.map fun o => (serTxOutWithExt tx.hasOutext o).length) (by
        intro n member
        obtain ⟨o, _, rfl⟩ := List.mem_map.mp member
        exact each o)
    simpa using counted
  rw [serializeTransaction_false]
  simp only [List.length_append, serVector, List.length_flatMap]
  omega

theorem serializeTransaction_binds_inputs {t u : CTransaction} (range : t.InputsInRange)
    (range' : u.InputsInRange) (same : serializeTransaction false t = serializeTransaction false u) :
    t.version = u.version ∧ t.vin.map CTxIn.unsigned = u.vin.map CTxIn.unsigned ∧
      serVector (serTxOutWithExt t.hasOutext) t.vout ++ serUInt32 t.nLockTime =
        serVector (serTxOutWithExt u.hasOutext) u.vout ++ serUInt32 u.nLockTime := by
  have vin := range.vin
  have vin' := range'.vin
  unfold MAX_SIZE at vin vin'
  simp only [serializeTransaction_false] at same
  obtain ⟨version, same⟩ := serUInt32_selfDelimiting trivial trivial same
  simp only [serVector_unsigned] at same
  obtain ⟨inputs, rest⟩ := serVector_selfDelimiting serUnsigned_selfDelimiting
    ⟨by simp; omega, by simpa [CTxIn.unsigned, CTxIn.InReaderRange] using range.inputs⟩
    ⟨by simp; omega, by simpa [CTxIn.unsigned, CTxIn.InReaderRange] using range'.inputs⟩ same
  exact ⟨version, inputs, rest⟩

theorem vExt_eq_nil_of_hasOutext (none : tx.hasOutext = false) {o : CTxOut}
    (member : o ∈ tx.vout) : o.vExt = [] := by
  simp only [CTransaction.hasOutext, List.any_eq_false] at none
  simpa using none o member

/-- Two transactions with the same hashed bytes are the same up to witnesses if and only if both or
neither carry an output extension: the bytes do not say which. -/
theorem txid_bytes_bind_iff_same_output_form {t u : CTransaction} (range : t.InReaderRange)
    (range' : u.InReaderRange) (same : serializeTransaction false t = serializeTransaction false u) :
    (t.version = u.version ∧ t.vin.map CTxIn.unsigned = u.vin.map CTxIn.unsigned ∧
      t.nLockTime = u.nLockTime ∧ t.vout = u.vout) ↔ t.hasOutext = u.hasOutext := by
  obtain ⟨version, inputs, rest⟩ := serializeTransaction_binds_inputs range.inputsInRange range'.inputsInRange same
  constructor
  · -- The form of the outputs is read off the outputs alone.
    rintro ⟨-, -, -, outputs⟩
    simp [CTransaction.hasOutext, outputs]
  · -- In one form every output is self-delimiting, so the counted list is.
    intro form
    have vout := range.vout
    have vout' := range'.vout
    unfold MAX_SIZE at vout vout'
    rw [← form] at rest
    have outputs := serVector_selfDelimiting (serTxOutWithExt_binds t.hasOutext)
      ⟨by omega, fun o member => ⟨range.outputs o member, fun none => vExt_eq_nil_of_hasOutext none member⟩⟩
      ⟨by omega, fun o member =>
        ⟨range'.outputs o member, fun none => vExt_eq_nil_of_hasOutext (form ▸ none) member⟩⟩ rest
    have lock := serUInt32_selfDelimiting (r := []) (s := []) trivial trivial
      (by simpa using outputs.2)
    exact ⟨version, inputs, lock.1, outputs.1⟩

def recordTx : CTransaction where
  version := 2
  vin := [⟨⟨1, 0⟩, [], 0xFFFFFFFF, []⟩]
  vout := [⟨1000, [0x51], [0x7F, 6, 0, 0, 0, 0, 0, 10]⟩, ⟨2000, [], []⟩]
  nLockTime := 0

def shadowTx : CTransaction where
  version := 2
  vin := [⟨⟨1, 0⟩, [], 0xFFFFFFFF, []⟩]
  vout := [⟨1000, [0x51], []⟩, ⟨425736, [0xD0, 7, 0, 0, 0, 0, 0, 0, 0, 0], []⟩]
  nLockTime := 0

theorem recordTx_inReaderRange : recordTx.InReaderRange := by
  refine ⟨by decide, by simp [recordTx, CTxIn.InReaderRange], by decide, ?_, by decide⟩
  simp only [recordTx, List.forall_mem_cons]
  exact ⟨⟨by decide, by decide, .inr (by decide)⟩, ⟨by decide, by decide, .inl rfl⟩, by simp⟩

theorem shadowTx_inReaderRange : shadowTx.InReaderRange := by
  refine ⟨by decide, by simp [shadowTx, CTxIn.InReaderRange], by decide, ?_, by decide⟩
  simp only [shadowTx, List.forall_mem_cons]
  exact ⟨⟨by decide, by decide, .inl rfl⟩, ⟨by decide, by decide, .inl rfl⟩, by simp⟩

/-- Two payments in range, with one id and different outputs. -/
theorem txid_of_record_and_shadow : recordTx.InReaderRange ∧ shadowTx.InReaderRange ∧
      serializeTransaction false recordTx = serializeTransaction false shadowTx ∧
      recordTx.vout ≠ shadowTx.vout := ⟨recordTx_inReaderRange, shadowTx_inReaderRange, by decide, by decide⟩

def signedRecordTx : CTransaction :=
  { recordTx with vin := [⟨⟨1, 0⟩, [], 0xFFFFFFFF, [[0x30]]⟩] }

/-- Signing changes neither the bytes nor the form, so everything but the witness is determined. -/
theorem txid_binds_signed_record :
    serializeTransaction false recordTx = serializeTransaction false signedRecordTx ∧
    recordTx.vout = signedRecordTx.vout := by
  have range := recordTx_inReaderRange
  have range' : signedRecordTx.InReaderRange :=
    ⟨by decide, by simp [signedRecordTx, CTxIn.InReaderRange], by decide, range.outputs, by decide⟩
  have same : serializeTransaction false recordTx = serializeTransaction false signedRecordTx := by
    decide
  exact ⟨same, ((txid_bytes_bind_iff_same_output_form range range' same).mpr rfl).2.2.2⟩

end TensorCash
