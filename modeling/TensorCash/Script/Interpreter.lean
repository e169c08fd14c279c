import TensorCash.Consensus.TxInputs

/-! Three opcodes ask for the chain context, and only in version-1 tapscript. Every other opcode is
a parameter that does not see it. -/

namespace TensorCash

def OP_NBITS_AT : UInt8 := 0xbd
def OP_DIFFCFD_SETTLE : UInt8 := 0xbe
def OP_SCALAR_CFD_SETTLE : UInt8 := 0xb9
def TAPROOT_LEAF_MASK : UInt8 := 0xfe
def TAPROOT_LEAF_TAPSCRIPT : UInt8 := 0xc0
def TAPROOT_CONTROL_BASE_SIZE : Nat := 33
def TAPROOT_CONTROL_NODE_SIZE : Nat := 32
def TAPROOT_CONTROL_MAX_SIZE : Nat := 33 + 32 * 128
def MAX_SCRIPT_ELEMENT_SIZE : Nat := 520
def MAX_STACK_SIZE : Nat := 1000
def ANNEX_TAG : UInt8 := 0x50

inductive EvalVersion where
  | BASE
  | WITNESS_V0
  | TAPROOT
  | TAPSCRIPT
deriving DecidableEq

structure ScriptFlags where
  word : UInt32
deriving DecidableEq

namespace ScriptFlags

def has (flags : ScriptFlags) (bit : UInt32) : Bool := flags.word &&& (1 <<< bit) ≠ 0

def P2SH (flags : ScriptFlags) : Bool := flags.has 0
def SIGPUSHONLY (flags : ScriptFlags) : Bool := flags.has 5
def CLEANSTACK (flags : ScriptFlags) : Bool := flags.has 8
def WITNESS (flags : ScriptFlags) : Bool := flags.has 11
def DISCOURAGE_UPGRADABLE_WITNESS_PROGRAM (flags : ScriptFlags) : Bool := flags.has 12
def TAPROOT (flags : ScriptFlags) : Bool := flags.has 17
def DISCOURAGE_UPGRADABLE_TAPROOT_VERSION (flags : ScriptFlags) : Bool := flags.has 18
def DISCOURAGE_OP_SUCCESS (flags : ScriptFlags) : Bool := flags.has 19
def TAPROOT_SCRIPT_ONLY (flags : ScriptFlags) : Bool := flags.has 21
def SCALAR_CFD (flags : ScriptFlags) : Bool := flags.has 22

end ScriptFlags

/-- What one input's check knows besides the script. -/
structure ExecData where
  annex : Option Bytes := none
  tapleaf : Option (UInt8 × CScript) := none
  witness_version : Nat := 1
deriving DecidableEq

structure Interpreter (Κ σ : Type) where
  /-- The machine at the start of a script. -/
  start : EvalVersion → ExecData → List Bytes → σ
  /-- No enclosing branch is switched off. -/
  executing : σ → Bool
  /-- The limits that are checked before an instruction. -/
  enter : ScriptFlags → EvalVersion → UInt8 → Bytes → σ → Except String σ
  /-- Every instruction but the three that read the chain. -/
  plain : ScriptFlags → EvalVersion → UInt8 → Bytes → σ → Except String σ
  /-- The three instructions, in version-1 tapscript. -/
  covenant : Κ → UInt8 → σ → Except String σ
  /-- The limits that are checked behind an instruction. -/
  leave : σ → Except String σ
  /-- The stack at the end, unless a branch is still open. -/
  finish : σ → Except String (List Bytes)
  castToBool : Bytes → Bool
  isOpSuccess : UInt8 → Bool
  sha256 : Bytes → Bytes
  /-- `CheckSchnorrSignature` of a key path spend. -/
  keyPath : Bytes → Bytes → ExecData → Bool
  /-- `VerifyTaprootCommitment`: control block, program, leaf version and script. -/
  taprootCommitment : Bytes → Bytes → UInt8 → CScript → Bool

/-- The instructions that read the chain under these flags. -/
def isCovenantOp (flags : ScriptFlags) (opcode : UInt8) : Bool :=
  opcode = OP_NBITS_AT || opcode = OP_DIFFCFD_SETTLE || (opcode = OP_SCALAR_CFD_SETTLE && flags.SCALAR_CFD)

def contextError (opcode : UInt8) : String :=
  if opcode = OP_SCALAR_CFD_SETTLE then "SCRIPT_ERR_SCALARCFD_CONTEXT"
  else "SCRIPT_ERR_DIFFCFD_CONTEXT"

section Verify

variable {Κ σ : Type} (vm : Interpreter Κ σ)

def evalOp (ctx : Κ) (flags : ScriptFlags) (sigversion : EvalVersion) (execdata : ExecData)
    (opcode : UInt8) (push : Bytes) (s : σ) : Except String σ := do
  let s ← vm.enter flags sigversion opcode push s
  let s ←
    if isCovenantOp flags opcode ∧ vm.executing s then
      -- The context is asked for only behind both guards.
      if sigversion ≠ .TAPSCRIPT then .error "SCRIPT_ERR_TAPSCRIPT_ONLY"
      else if execdata.witness_version ≠ 1 then .error (contextError opcode)
      else vm.covenant ctx opcode s
    else vm.plain flags sigversion opcode push s
  vm.leave s

/-- The loop of `EvalScript`. Every instruction takes at least a byte, so the length is fuel
enough. -/
def evalLoop (ctx : Κ) (flags : ScriptFlags) (sigversion : EvalVersion) (execdata : ExecData) :
    Nat → CScript → σ → Except String σ
  | _, [], s => .ok s
  | 0, _ :: _, s => .ok s
  | fuel + 1, byte :: bytes, s =>
    match getScriptOp (byte :: bytes) with
    | none => .error "SCRIPT_ERR_BAD_OPCODE"
    | some (opcode, push, rest) => do
      let s ← evalOp vm ctx flags sigversion execdata opcode push s
      evalLoop ctx flags sigversion execdata fuel rest s

def evalScript (ctx : Κ) (flags : ScriptFlags) (sigversion : EvalVersion) (execdata : ExecData)
    (script : CScript) (stack : List Bytes) : Except String (List Bytes) := do
  -- Tapscript has no limit on the size of a script.
  if (sigversion = .BASE ∨ sigversion = .WITNESS_V0) ∧ MAX_SCRIPT_SIZE < script.length then
    .error "SCRIPT_ERR_SCRIPT_SIZE"
  else
    let s ← evalLoop vm ctx flags sigversion execdata script.length script
      (vm.start sigversion execdata stack)
    vm.finish s

def findOpSuccess : Nat → CScript → Except String Bool
  | _, [] => .ok false
  | 0, _ :: _ => .ok false
  | fuel + 1, byte :: bytes =>
    match getScriptOp (byte :: bytes) with
    | none => .error "SCRIPT_ERR_BAD_OPCODE"
    | some (opcode, _, rest) => if vm.isOpSuccess opcode then .ok true else findOpSuccess fuel rest

def topIsTrue (stack : List Bytes) : Except String Unit :=
  if stack.getLast?.any vm.castToBool then .ok ⟨⟩ else .error "SCRIPT_ERR_EVAL_FALSE"

/-- `ExecuteWitnessScript` behind its look for opcodes that succeed at once. -/
def runWitnessScript (ctx : Κ) (flags : ScriptFlags) (sigversion : EvalVersion) (execdata : ExecData)
    (stack : List Bytes) (exec_script : CScript) : Except String Unit := do
  if execdata.witness_version ≠ 2 ∧ stack.any (fun elem => MAX_SCRIPT_ELEMENT_SIZE < elem.length) then
    .error "SCRIPT_ERR_PUSH_SIZE"
  else
    let stack ← evalScript vm ctx flags sigversion execdata exec_script stack
    -- Behind a witness script a clean stack is a rule of consensus.
    if stack.length ≠ 1 then .error "SCRIPT_ERR_CLEANSTACK" else topIsTrue vm stack

def executeWitnessScript (ctx : Κ) (flags : ScriptFlags) (sigversion : EvalVersion)
    (execdata : ExecData) (stack : List Bytes) (exec_script : CScript) : Except String Unit := do
  if sigversion = .TAPSCRIPT then
    let success ← findOpSuccess vm exec_script.length exec_script
    if success then
      if flags.DISCOURAGE_OP_SUCCESS then .error "SCRIPT_ERR_DISCOURAGE_OP_SUCCESS" else .ok ⟨⟩
    else if MAX_STACK_SIZE < stack.length then .error "SCRIPT_ERR_STACK_SIZE"
    else runWitnessScript vm ctx flags sigversion execdata stack exec_script
  else runWitnessScript vm ctx flags sigversion execdata stack exec_script

def splitAnnex (stack : List Bytes) : List Bytes × Option Bytes :=
  match stack.getLast? with
  | some (tag :: body) =>
    if 2 ≤ stack.length ∧ tag = ANNEX_TAG then (stack.dropLast, some (tag :: body)) else (stack, none)
  | _ => (stack, none)

def controlSizeOk (control : Bytes) : Bool :=
  TAPROOT_CONTROL_BASE_SIZE ≤ control.length && control.length ≤ TAPROOT_CONTROL_MAX_SIZE &&
    (control.length - TAPROOT_CONTROL_BASE_SIZE) % TAPROOT_CONTROL_NODE_SIZE = 0

def verifyScriptPath (ctx : Κ) (flags : ScriptFlags) (execdata : ExecData) (program : Bytes)
    (stack : List Bytes) (script control : Bytes) : Except String Unit :=
  let leaf_version := control.getD 0 0 &&& TAPROOT_LEAF_MASK
  if ¬ controlSizeOk control then .error "SCRIPT_ERR_TAPROOT_WRONG_CONTROL_SIZE"
  else if ¬ vm.taprootCommitment control program leaf_version script then
    .error "SCRIPT_ERR_WITNESS_PROGRAM_MISMATCH"
  else if leaf_version = TAPROOT_LEAF_TAPSCRIPT then
    executeWitnessScript vm ctx flags .TAPSCRIPT
      { execdata with tapleaf := some (leaf_version, script) } stack script
  else if flags.DISCOURAGE_UPGRADABLE_TAPROOT_VERSION then
    .error "SCRIPT_ERR_DISCOURAGE_UPGRADABLE_TAPROOT_VERSION"
  else .ok ⟨⟩

def verifyTaproot (ctx : Κ) (flags : ScriptFlags) (version : Nat) (program : Bytes)
    (witness : List Bytes) : Except String Unit :=
  let execdata : ExecData := { annex := (splitAnnex witness).2, witness_version := version }
  match (splitAnnex witness).1.reverse with
  | [] => .error "SCRIPT_ERR_WITNESS_PROGRAM_WITNESS_EMPTY"
  | [sig] =>
    -- Outputs of version 2 have no key path.
    if version = 2 then .error "SCRIPT_ERR_TAPROOT_KEYPATH_DISABLED"
    else if vm.keyPath sig program execdata then .ok ⟨⟩ else .error "SCRIPT_ERR_SCHNORR_SIG"
  | control :: script :: below => verifyScriptPath vm ctx flags execdata program below.reverse script control

def verifyWitnessProgram (ctx : Κ) (flags : ScriptFlags) (witness : List Bytes) (witversion : Nat)
    (program : Bytes) (is_p2sh : Bool) : Except String Unit :=
  if witversion = 0 then
    if program.length = 32 then
      match witness.reverse with
      | [] => .error "SCRIPT_ERR_WITNESS_PROGRAM_WITNESS_EMPTY"
      | script_bytes :: below =>
        if vm.sha256 script_bytes ≠ program then .error "SCRIPT_ERR_WITNESS_PROGRAM_MISMATCH"
        else executeWitnessScript vm ctx flags .WITNESS_V0 {} below.reverse script_bytes
    else if program.length = 20 then
      if witness.length ≠ 2 then .error "SCRIPT_ERR_WITNESS_PROGRAM_MISMATCH"
      else executeWitnessScript vm ctx flags .WITNESS_V0 {} witness
        ([OP_DUP, OP_HASH160, 20] ++ program ++ [OP_EQUALVERIFY, OP_CHECKSIG])
    else .error "SCRIPT_ERR_WITNESS_PROGRAM_WRONG_LENGTH"
  else if witversion = 1 ∧ program.length = 32 ∧ ¬ is_p2sh then
    if ¬ flags.TAPROOT then .ok ⟨⟩ else verifyTaproot vm ctx flags 1 program witness
  else if witversion = 2 ∧ program.length = 32 ∧ ¬ is_p2sh then
    if ¬ flags.TAPROOT_SCRIPT_ONLY then .ok ⟨⟩ else verifyTaproot vm ctx flags 2 program witness
  -- Pay to anchor.
  else if ¬ is_p2sh ∧ witversion = 1 ∧ program = [0x4e, 0x73] then .ok ⟨⟩
  else if flags.DISCOURAGE_UPGRADABLE_WITNESS_PROGRAM then
    .error "SCRIPT_ERR_DISCOURAGE_UPGRADABLE_WITNESS_PROGRAM"
  else .ok ⟨⟩

def isPushOnly : Nat → CScript → Bool
  | _, [] => true
  | 0, _ :: _ => true
  | fuel + 1, byte :: bytes =>
    match getScriptOp (byte :: bytes) with
    | none => false
    | some (opcode, _, rest) => opcode ≤ OP_16 && isPushOnly fuel rest

def pushOf (data : Bytes) : CScript :=
  if data.length < OP_PUSHDATA1.toNat then UInt8.ofNat data.length :: data
  else if data.length ≤ 0xff then OP_PUSHDATA1 :: UInt8.ofNat data.length :: data
  else if data.length ≤ 0xffff then OP_PUSHDATA2 :: Codec.leBytes 2 data.length ++ data
  else OP_PUSHDATA4 :: Codec.leBytes 4 data.length ++ data

def verifyRedeemScript (ctx : Κ) (flags : ScriptFlags) (scriptSig : CScript) (witness : List Bytes)
    (stackCopy : List Bytes) : Except String (List Bytes × Bool) := do
  if ¬ isPushOnly scriptSig.length scriptSig then .error "SCRIPT_ERR_SIG_PUSHONLY"
  else
    let pubKey2 := stackCopy.getLast?.getD []
    let stack ← evalScript vm ctx flags .BASE {} pubKey2 stackCopy.dropLast
    topIsTrue vm stack
    match (if flags.WITNESS then isWitnessProgram pubKey2 else none) with
    | none => .ok (stack, false)
    | some (version, program) =>
      if scriptSig ≠ pushOf pubKey2 then .error "SCRIPT_ERR_WITNESS_MALLEATED_P2SH"
      else
        verifyWitnessProgram vm ctx flags witness version program true
        .ok (stack.take 1, true)

def verifyLeftovers (flags : ScriptFlags) (stack : List Bytes) (witness : List Bytes)
    (hadWitness : Bool) : Except String Unit :=
  if flags.CLEANSTACK ∧ stack.length ≠ 1 then .error "SCRIPT_ERR_CLEANSTACK"
  else if flags.WITNESS ∧ ¬ hadWitness ∧ witness ≠ [] then .error "SCRIPT_ERR_WITNESS_UNEXPECTED"
  else .ok ⟨⟩

def verifyScript (ctx : Κ) (flags : ScriptFlags) (scriptSig scriptPubKey : CScript)
    (witness : List Bytes) : Except String Unit := do
  if flags.SIGPUSHONLY ∧ ¬ isPushOnly scriptSig.length scriptSig then .error "SCRIPT_ERR_SIG_PUSHONLY"
  else
    let stackCopy ← evalScript vm ctx flags .BASE {} scriptSig []
    let stack ← evalScript vm ctx flags .BASE {} scriptPubKey stackCopy
    topIsTrue vm stack
    match (if flags.WITNESS then isWitnessProgram scriptPubKey else none) with
    | some (version, program) =>
      if scriptSig ≠ [] then .error "SCRIPT_ERR_WITNESS_MALLEATED"
      else
        -- A witness program is never a script hash, so the redeem step does not follow.
        verifyWitnessProgram vm ctx flags witness version program false
        verifyLeftovers flags (stack.take 1) witness true
    | none =>
      if flags.P2SH ∧ isPayToScriptHash scriptPubKey then
        let (stack, hadWitness) ← verifyRedeemScript vm ctx flags scriptSig witness stackCopy
        verifyLeftovers flags stack witness hadWitness
      else verifyLeftovers flags stack witness false

end Verify

end TensorCash
