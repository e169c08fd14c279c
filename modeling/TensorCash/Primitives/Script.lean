import TensorCash.Primitives.Serialize

/-! The parts of `script/script.{h,cpp}` and `script/solver.cpp` that block validation reads. -/

namespace TensorCash

abbrev CScript := Bytes

def MAX_SCRIPT_SIZE : Nat := 10000

def OP_PUSHDATA1 : UInt8 := 0x4c
def OP_PUSHDATA2 : UInt8 := 0x4d
def OP_PUSHDATA4 : UInt8 := 0x4e
def OP_RETURN : UInt8 := 0x6a
def OP_DUP : UInt8 := 0x76
def OP_EQUALVERIFY : UInt8 := 0x88
def OP_HASH160 : UInt8 := 0xa9
def OP_CHECKSIG : UInt8 := 0xac

/-- A script output that can never be spent, so that `AddCoin` never stores it. -/
def isUnspendable (script : CScript) : Bool :=
  (match script with
    | [] => false
    | op :: _ => op == OP_RETURN) || decide (script.length > MAX_SCRIPT_SIZE)

def getScriptOp (script : CScript) : Option (UInt8 × Bytes × CScript) :=
  match script with
  | [] => none
  | opcode :: rest =>
    if opcode ≤ OP_PUSHDATA4 then
      -- Immediate operand: its size is the opcode itself or stands in 1, 2 or 4 bytes.
      let sized :=
        if opcode < OP_PUSHDATA1 then some (opcode.toNat, rest)
        else if opcode = OP_PUSHDATA1 then Codec.readLE 1 rest
        else if opcode = OP_PUSHDATA2 then Codec.readLE 2 rest
        else Codec.readLE 4 rest
      sized.bind fun (size, body) =>
        if body.length < size then none
        else some (opcode, body.take size, body.drop size)
    else
      some (opcode, [], rest)

def matchPayToPubkeyHash (script : CScript) : Option Bytes :=
  match script with
  | a :: b :: c :: rest =>
    -- The length fixes where the twenty bytes end, so the two closing opcodes are what is left.
    if script.length = 25 ∧ a = OP_DUP ∧ b = OP_HASH160 ∧ c = 20
        ∧ rest.drop 20 = [OP_EQUALVERIFY, OP_CHECKSIG] then
      some (rest.take 20)
    else none
  | _ => none

def OP_1 : UInt8 := 0x51
def OP_16 : UInt8 := 0x60
def OP_EQUAL : UInt8 := 0x87

/-- What `Solver` tells apart and validation reads. -/
inductive TxoutType where
  | PUBKEYHASH
  | SCRIPTHASH
  | WITNESS_V0_KEYHASH
  | WITNESS_V0_SCRIPTHASH
  | WITNESS_V1_TAPROOT
  | WITNESS_V2_TAPROOT
  | ANCHOR
  | WITNESS_UNKNOWN
  | other
deriving DecidableEq

def isPayToScriptHash (script : CScript) : Bool :=
  script.length = 23 && script.take 2 = [OP_HASH160, 20] && script.drop 22 = [OP_EQUAL]

def isWitnessProgram (script : CScript) : Option (Nat × Bytes) :=
  match script with
  | op :: len :: program =>
    if script.length < 4 ∨ 42 < script.length then none
    else if op ≠ 0 ∧ (op < OP_1 ∨ OP_16 < op) then none
    else if len.toNat = program.length then
      some (if op = 0 then 0 else op.toNat - 0x50, program)
    else none
  | _ => none

def solver (script : CScript) : TxoutType :=
  if isPayToScriptHash script then .SCRIPTHASH
  else match isWitnessProgram script with
    | some (version, program) =>
      if version = 0 ∧ program.length = 20 then .WITNESS_V0_KEYHASH
      else if version = 0 ∧ program.length = 32 then .WITNESS_V0_SCRIPTHASH
      else if version = 1 ∧ program.length = 32 then .WITNESS_V1_TAPROOT
      else if version = 2 ∧ program.length = 32 then .WITNESS_V2_TAPROOT
      else if script = [OP_1, 0x02, 0x4e, 0x73] then .ANCHOR
      else if version ≠ 0 then .WITNESS_UNKNOWN
      else .other
    | none => if (matchPayToPubkeyHash script).isSome then .PUBKEYHASH else .other

/-- The data that a script pushes, up to the first unreadable instruction. -/
def scriptPushes : Nat → CScript → List Bytes
  | 0, _ => []
  | fuel + 1, script =>
    match getScriptOp script with
    | none => []
    | some (opcode, data, rest) =>
      if opcode ≤ OP_PUSHDATA4 then data :: scriptPushes fuel rest else scriptPushes fuel rest

/-- The hash functions and the curve check that the node takes from its crypto library. -/
structure Crypto where
  /-- One round of SHA-256. -/
  sha256 : Bytes → Uint256
  /-- RIPEMD-160 of SHA-256, as twenty bytes. -/
  hash160 : Bytes → Bytes
  /-- `CPubKey::IsFullyValid`. -/
  isFullyValid : Bytes → Bool

/-- The double SHA-256 behind txids, block hashes and Merkle nodes. -/
def Crypto.hash (c : Crypto) (bytes : Bytes) : Uint256 := c.sha256 (c.sha256 bytes).bytes

end TensorCash
