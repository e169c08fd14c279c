import TensorCash.Primitives.Serialize
import Mathlib.Data.Prod.Lex

/-! Transactions, their output extensions and the two byte forms they are hashed in. -/

namespace TensorCash

open Codec

/-- The output of one transaction that a later input spends. -/
structure COutPoint where
  hash : Uint256
  n : UInt32
deriving DecidableEq, Repr

/-- Outpoints are ordered by transaction first and by position second. -/
instance : LinearOrder COutPoint :=
  LinearOrder.lift' (fun o => toLex (o.hash, o.n.toNat)) fun a b same => by
    cases a
    cases b
    simpa [UInt32.toNat_inj] using same

def COutPoint.NULL_INDEX : UInt32 := 0xFFFFFFFF

def COutPoint.isNull (o : COutPoint) : Bool := o.hash = 0 && o.n = COutPoint.NULL_INDEX

/-- An input, with the witness that only the full serialization carries. -/
structure CTxIn where
  prevout : COutPoint
  scriptSig : Bytes
  nSequence : UInt32
  scriptWitness : List Bytes
deriving DecidableEq, Repr

structure CTxOut where
  nValue : Int64
  scriptPubKey : Bytes
  vExt : Bytes
deriving DecidableEq

structure CTransaction where
  version : UInt32
  vin : List CTxIn
  vout : List CTxOut
  nLockTime : UInt32
deriving DecidableEq

def MAX_OUEXT_SIZE_PER_OUTPUT : Nat := 102400

def MAX_OUEXT_BYTES_PER_TX : Nat := 131072

def TXFLAG_WITNESS : UInt8 := 0x01

def TXFLAG_OUTEXT : UInt8 := 0x02

/-- Whether a byte string is exactly one record: a type byte, a shortest-form length, that many
bytes. -/
def validateSingleTLV : Bytes → Bool
  | [] => false
  | _ :: rest =>
    match readCompactSize false rest with
    | none => false
    | some (len, value) => value.length = len

def COutPoint.serialize (o : COutPoint) : Bytes := o.hash.bytes ++ serUInt32 o.n

def CTxIn.serialize (i : CTxIn) : Bytes := i.prevout.serialize ++ serBytes i.scriptSig ++ serUInt32 i.nSequence

def serTxOutWithExt (includeExt : Bool) (out : CTxOut) : Bytes :=
  serInt64 out.nValue ++ serBytes out.scriptPubKey ++ if includeExt then serBytes out.vExt else []

def CTransaction.hasWitness (tx : CTransaction) : Bool := tx.vin.any fun i => !i.scriptWitness.isEmpty

def CTransaction.hasOutext (tx : CTransaction) : Bool := tx.vout.any fun o => !o.vExt.isEmpty

/-- The flag byte of the full serialization, zero when the plain form is used. -/
def CTransaction.flags (allowWitness : Bool) (tx : CTransaction) : UInt8 :=
  (if allowWitness && tx.hasWitness then TXFLAG_WITNESS else 0) |||
    (if allowWitness && tx.hasOutext then TXFLAG_OUTEXT else 0)

def serializeTransaction (allowWitness : Bool) (tx : CTransaction) : Bytes :=
  let flags := tx.flags allowWitness
  serUInt32 tx.version ++
    -- An empty input vector and the flag byte announce the extended form.
    (if flags ≠ 0 then [0, flags] else []) ++ serVector CTxIn.serialize tx.vin ++
    serVector (serTxOutWithExt tx.hasOutext) tx.vout ++ (if flags &&& TXFLAG_WITNESS ≠ 0 then
      tx.vin.flatMap fun i => serVector serBytes i.scriptWitness
    else []) ++ serUInt32 tx.nLockTime

/-! `GetSerializeSize` counts bytes without writing them. -/

def CTxIn.getSerializeSize (i : CTxIn) : Nat := 32 + 4 + sizeBytes i.scriptSig + 4

def sizeTxOutWithExt (includeExt : Bool) (out : CTxOut) : Nat :=
  8 + sizeBytes out.scriptPubKey + if includeExt then sizeBytes out.vExt else 0

def CTransaction.getSerializeSize (allowWitness : Bool) (tx : CTransaction) : Nat :=
  let flags := tx.flags allowWitness
  4 + (if flags ≠ 0 then 2 else 0) + sizeVector CTxIn.getSerializeSize tx.vin +
    sizeVector (sizeTxOutWithExt tx.hasOutext) tx.vout + (if flags &&& TXFLAG_WITNESS ≠ 0 then
      (tx.vin.map fun i => sizeVector sizeBytes i.scriptWitness).sum
    else 0) + 4

theorem CTxIn.serialize_length (i : CTxIn) : i.serialize.length = i.getSerializeSize := by
  simp [CTxIn.serialize, COutPoint.serialize, CTxIn.getSerializeSize, serBytes_length, serUInt32]
  omega

theorem serTxOutWithExt_length (includeExt : Bool) (out : CTxOut) :
    (serTxOutWithExt includeExt out).length = sizeTxOutWithExt includeExt out := by
  cases includeExt <;> simp [serTxOutWithExt, sizeTxOutWithExt, serBytes_length, serInt64, serUInt64, Nat.add_assoc]

theorem serializeTransaction_length (allowWitness : Bool) (tx : CTransaction) :
    (serializeTransaction allowWitness tx).length = tx.getSerializeSize allowWitness := by
  have witness : ∀ i : CTxIn, (serVector serBytes i.scriptWitness).length =
      sizeVector sizeBytes i.scriptWitness := fun i => serVector_length serBytes_length _
  simp only [serializeTransaction, CTransaction.getSerializeSize, List.length_append,
    serVector_length CTxIn.serialize_length, serVector_length (serTxOutWithExt_length _),
    serUInt32, Codec.leBytes_length]
  congr 2
  · congr 3
    split_ifs <;> simp
  · split_ifs
    · simp only [List.length_flatMap, witness]
    · rfl

def CTransaction.computeHash (hash : Bytes → Uint256) (tx : CTransaction) : Uint256 :=
  hash (serializeTransaction false tx)

def CTransaction.computeWitnessHash (hash : Bytes → Uint256) (tx : CTransaction) : Uint256 :=
  if tx.hasWitness then hash (serializeTransaction true tx) else tx.computeHash hash

/-- Whether the transaction mints: one input, which spends nothing. -/
def CTransaction.isCoinBase (tx : CTransaction) : Bool :=
  match tx.vin with
  | [i] => i.prevout.isNull
  | _ => false

end TensorCash
