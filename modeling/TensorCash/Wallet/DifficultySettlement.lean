import TensorCash.Consensus.CheckBlock
import TensorCash.Script.CfdOutputs
import TensorCash.Script.Interpreter

/-! `wallet/difficulty_contract.cpp` and `wallet/option_series.cpp` next to `OP_DIFFCFD_SETTLE`.
Targets, keys, ids, trees and other opcodes are parameters. -/

namespace TensorCash

open Checked Codec Matching

namespace Settlement

def OP_IF : UInt8 := 0x63
def OP_ENDIF : UInt8 := 0x68
def OP_DROP : UInt8 := 0x75
def OP_CHECKLOCKTIMEVERIFY : UInt8 := 0xb1
def DIFFCFD_MATURITY_DEPTH : Nat := 100

structure XOnlyPubKey where
  bytes : Bytes
  size : bytes.length = 32

structure SettleEnv where
  /-- `SetCompact`: the target, whether it is negative and whether it overflows. -/
  setCompact : UInt32 → ArithUint256 × Bool × Bool
  getCompact : ArithUint256 → UInt32
  isFullyValid : XOnlyPubKey → Bool

def SettleEnv.deriveTarget (env : SettleEnv) (nBits : UInt32) (pow_limit : ArithUint256) :
    Option ArithUint256 :=
  let (bnTarget, fNegative, fOverflow) := env.setCompact nBits
  if fNegative || bnTarget = 0 || fOverflow || pow_limit < bnTarget then none else some bnTarget

def SettleEnv.isCanonicalNBits (env : SettleEnv) (nbits : UInt32) : Bool :=
  let (t, negative, overflow) := env.setCompact nbits
  if negative || overflow || t = 0 then false else env.getCompact t = nbits

def numBytes : Nat → Nat → Bytes
  | 0, _ => []
  | fuel + 1, n => if n = 0 then [] else UInt8.ofNat n :: numBytes fuel (n / 256)

def scriptNumSerialize (n : Nat) : Bytes :=
  let result := numBytes 8 n
  if 0x80 ≤ result.getLast?.getD 0 then result ++ [0] else result

/-- `CScriptNum`: size, minimal form on demand, and value. -/
def scriptNum (vch : Bytes) (fRequireMinimal : Bool) (nMaxNumSize : Nat) : Except String Int :=
  let last := vch.getLast?.getD 0
  if nMaxNumSize < vch.length then .error "script number overflow"
  else if fRequireMinimal ∧ vch ≠ [] ∧ last &&& 0x7f = 0 ∧
      (vch.length ≤ 1 ∨ vch.dropLast.getLast?.getD 0 &&& 0x80 = 0) then
    .error "non-minimally encoded script number"
  else if last &&& 0x80 ≠ 0 then .ok (-(leNat (vch.dropLast ++ [last &&& 0x7f]) : Int))
  else .ok (leNat vch)

def checkMinimalPush (data : Bytes) (opcode : UInt8) : Bool :=
  if data.length = 0 then opcode = 0
  else if data.length = 1 ∧ 1 ≤ data.getD 0 0 ∧ data.getD 0 0 ≤ 16 then false
  else if data.length = 1 ∧ data.getD 0 0 = 0x81 then false
  else if data.length ≤ 75 then opcode.toNat = data.length
  else if data.length ≤ 255 then opcode = OP_PUSHDATA1
  else if data.length ≤ 65535 then opcode = OP_PUSHDATA2
  else true

structure FixingContext where
  nBitsAt : Nat → Option UInt32
  decodeTarget : UInt32 → Option ArithUint256

structure Machine where
  stack : List Bytes
  altstack : List Bytes := []
  vfExec : List Bool := []
  witness_version : Nat := 1

structure Spending where
  nLockTime : UInt32
  nSequence : UInt32
  amount : Option Int64
  vout : Option (List CTxOut)

def spendingOf (tx : CTransaction) (nIn : Nat) (amount : Int64) : Spending where
  nLockTime := tx.nLockTime
  nSequence := (tx.vin[nIn]?.map CTxIn.nSequence).getD SEQUENCE_FINAL
  amount := some amount
  vout := some tx.vout

def checkLockTime (tx : Spending) (nLockTime : Int) : Bool :=
  ((tx.nLockTime.toNat < LOCKTIME_THRESHOLD && nLockTime < LOCKTIME_THRESHOLD) ||
      (LOCKTIME_THRESHOLD ≤ tx.nLockTime.toNat && LOCKTIME_THRESHOLD ≤ nLockTime)) &&
    nLockTime ≤ tx.nLockTime.toNat && tx.nSequence ≠ SEQUENCE_FINAL

def checkLockTimeVerify (tx : Spending) (flags : ScriptFlags) (s : Machine) : Except String Machine :=
  -- Without `SCRIPT_VERIFY_CHECKLOCKTIMEVERIFY` the opcode does nothing.
  if ¬ flags.has 9 then .ok s
  else
    match s.stack.getLast? with
    | none => .error "SCRIPT_ERR_INVALID_STACK_OPERATION"
    | some top => do
      let nLockTime ← scriptNum top (flags.has 6) 5
      require (¬ nLockTime < 0) "SCRIPT_ERR_NEGATIVE_LOCKTIME"
      require (checkLockTime tx nLockTime) "SCRIPT_ERR_UNSATISFIED_LOCKTIME"
      .ok s

def p2tr (key : Bytes) : CScript := OP_1 :: pushOf key

def payoutLegs (payout : DiffCfdPayout) (owner_key cp_key : Bytes) : List (Int64 × CScript) :=
  (if 0 < payout.payout_owner then [(payout.payout_owner.toInt64, p2tr owner_key)] else []) ++
    if 0 < payout.payout_cp then [(payout.payout_cp.toInt64, p2tr cp_key)] else []

/-- The operands of `OP_DIFFCFD_SETTLE`, from the bottom up. -/
structure SettleOperands where
  fixing_height : Bytes
  strike : Bytes
  lambda_q : Bytes
  loss_dir : Bytes
  vault_im : Bytes
  owner_key : Bytes
  cp_key : Bytes

def SettleOperands.sizesOk (ops : SettleOperands) : Bool :=
  ops.fixing_height.length = 4 && ops.strike.length = 4 && ops.lambda_q.length = 4 &&
    ops.loss_dir.length = 1 && ops.vault_im.length = 8 && ops.owner_key.length = 32 && ops.cp_key.length = 32

/-- `OP_DIFFCFD_SETTLE` behind its context guard, on the operands. -/
def diffCfdSettle (env : SettleEnv) (tx : Spending) (ctx : Option FixingContext)
    (ops : SettleOperands) : Except String Unit := do
  require ops.sizesOk "SCRIPT_ERR_DIFFCFD_ENCODING"
  let loss_dir := ops.loss_dir.getD 0 0
  require (loss_dir = 0 ∨ loss_dir = 1) "SCRIPT_ERR_DIFFCFD_ENCODING"
  let fixing_height := leNat ops.fixing_height
  let strike_nbits := UInt32.ofNat (leNat ops.strike)
  let lambda_q := UInt32.ofNat (leNat ops.lambda_q)
  let vault_im := UInt64.ofNat (leNat ops.vault_im)
  let ctx ← demand ctx "SCRIPT_ERR_DIFFCFD_CONTEXT"
  require (fixing_height ≤ 2 ^ 31 - 1) "SCRIPT_ERR_DIFFCFD_HEIGHT"
  let realized_nbits ← demand (ctx.nBitsAt fixing_height) "SCRIPT_ERR_DIFFCFD_HEIGHT"
  let K_target ← demand (ctx.decodeTarget strike_nbits) "SCRIPT_ERR_DIFFCFD_ENCODING"
  let S_target ← demand (ctx.decodeTarget realized_nbits) "SCRIPT_ERR_DIFFCFD_ENCODING"
  require (env.getCompact K_target = strike_nbits) "SCRIPT_ERR_DIFFCFD_ENCODING"
  require (lambda_q ≠ 0) "SCRIPT_ERR_DIFFCFD_TERMS"
  require (¬ vault_im < MIN_SETTLE_OUTPUT.toUInt64) "SCRIPT_ERR_DIFFCFD_TERMS"
  let payout ← demand (computeDiffCfdPayout K_target S_target lambda_q vault_im (loss_dir = 1))
    "SCRIPT_ERR_DIFFCFD_TERMS"
  -- The spent coin has to be the margin, whatever the payout is.
  require (tx.amount.map Int64.toUInt64 = some vault_im) "SCRIPT_ERR_DIFFCFD_AMOUNT"
  let verdict := verifyDiffCfdOutputs tx.vout (payoutLegs payout ops.owner_key ops.cp_key)
  require verdict.ok
    (if verdict.has_context then "SCRIPT_ERR_DIFFCFD_OUTPUTS" else "SCRIPT_ERR_DIFFCFD_CONTEXT")

/-- The opcode takes its seven operands off the stack and leaves true. -/
def opDiffCfdSettle (env : SettleEnv) (tx : Spending) (ctx : Option FixingContext) (s : Machine) :
    Except String Machine :=
  match s.stack.reverse with
  | cp_key :: owner_key :: vault_im :: loss_dir :: lambda_q :: strike :: fixing_height :: below => do
    diffCfdSettle env tx ctx ⟨fixing_height, strike, lambda_q, loss_dir, vault_im, owner_key, cp_key⟩
    .ok { s with stack := below.reverse ++ [[1]] }
  | _ => .error "SCRIPT_ERR_INVALID_STACK_OPERATION"

def isDisabled (opcode : UInt8) : Bool :=
  opcode ∈ [0x7e, 0x7f, 0x80, 0x81, 0x83, 0x84, 0x85, 0x86, 0x8d, 0x8e, 0x95, 0x96, 0x97, 0x98, 0x99]

/-- An instruction that does not read the chain; `rest` are other opcodes. -/
def evalPlain (tx : Spending)
    (rest : ScriptFlags → EvalVersion → UInt8 → Bytes → Machine → Except String Machine)
    (flags : ScriptFlags) (sigversion : EvalVersion) (opcode : UInt8) (push : Bytes) (s : Machine) :
    Except String Machine :=
  if ¬ s.vfExec.all (· = true) then
    -- In a branch that is not taken only the conditionals have an effect.
    if OP_IF ≤ opcode ∧ opcode ≤ OP_ENDIF then rest flags sigversion opcode push s else .ok s
  else if opcode ≤ OP_PUSHDATA4 then
    if flags.has 6 ∧ ¬ checkMinimalPush push opcode then .error "SCRIPT_ERR_MINIMALDATA"
    else .ok { s with stack := s.stack ++ [push] }
  else if OP_1 ≤ opcode ∧ opcode ≤ OP_16 then
    .ok { s with stack := s.stack ++ [[opcode - 0x50]] }
  else if opcode = OP_DROP then
    if s.stack = [] then .error "SCRIPT_ERR_INVALID_STACK_OPERATION"
    else .ok { s with stack := s.stack.dropLast }
  else if opcode = OP_CHECKLOCKTIMEVERIFY then checkLockTimeVerify tx flags s
  else rest flags sigversion opcode push s

/-- The interpreter of one input; `base` are the parts that no settlement leaf gets to. -/
def settleVm (env : SettleEnv) (tx : Spending) (base : Interpreter (Option FixingContext) Machine) :
    Interpreter (Option FixingContext) Machine :=
  { base with
    start := fun _ execdata stack => { stack, witness_version := execdata.witness_version }
    executing := fun s => s.vfExec.all (· = true)
    enter := fun flags sigversion opcode push s =>
      -- Version 2 has larger pushes.
      if MAX_SCRIPT_ELEMENT_SIZE < push.length ∧ s.witness_version ≠ 2 then
        .error "SCRIPT_ERR_PUSH_SIZE"
      else do
        -- Only the scripts before tapscript count their opcodes.
        let s ← if sigversion = .TAPSCRIPT then .ok s else base.enter flags sigversion opcode push s
        if isDisabled opcode then .error "SCRIPT_ERR_DISABLED_OPCODE" else .ok s
    plain := evalPlain tx base.plain
    covenant := fun ctx opcode s =>
      if opcode = OP_DIFFCFD_SETTLE then opDiffCfdSettle env tx ctx s else base.covenant ctx opcode s
    leave := fun s =>
      if MAX_STACK_SIZE < s.stack.length + s.altstack.length then .error "SCRIPT_ERR_STACK_SIZE"
      else .ok s
    finish := fun s =>
      if s.vfExec ≠ [] then .error "SCRIPT_ERR_UNBALANCED_CONDITIONAL" else .ok s.stack }

structure DifficultyLegTerms where
  im : Int64
  im_asset : Uint256
  lambda_q : UInt32
  owner_key : XOnlyPubKey
  cp_key : XOnlyPubKey

inductive ContractKind where
  | CFD
  | OPTION
  | unknown (kind : UInt8)
deriving DecidableEq

structure DifficultyContractTerms where
  long_leg : DifficultyLegTerms
  short_leg : DifficultyLegTerms
  strike_nbits : UInt32
  fixing_height : UInt32
  settle_lock_height : UInt32
  kind : ContractKind
  premium : Int64

def checkLeg (env : SettleEnv) (name : String) (leg : DifficultyLegTerms) : Except String Unit := do
  require (leg.im_asset = 0) (name ++ ": non-native IM is not supported in v1")
  require (leg.lambda_q ≠ 0) (name ++ ": lambda_q must be non-zero")
  require (¬ leg.im < MIN_SETTLE_OUTPUT)
    (name ++ ": im (" ++ toString leg.im ++ ") below MIN_SETTLE_OUTPUT (" ++ toString MIN_SETTLE_OUTPUT ++ ")")
  require (env.isFullyValid leg.owner_key) (name ++ ": owner_key is not a valid x-only key")
  require (env.isFullyValid leg.cp_key) (name ++ ": cp_key is not a valid x-only key")

def legIsEmpty (env : SettleEnv) (leg : DifficultyLegTerms) : Bool :=
  leg.im = 0 && leg.lambda_q = 0 && leg.im_asset = 0 && !env.isFullyValid leg.owner_key && !env.isFullyValid leg.cp_key

def checkLegs (env : SettleEnv) (t : DifficultyContractTerms) : Except String Unit :=
  match t.kind with
  | .CFD => do
    require (t.premium = 0) "a CFD must not carry a premium"
    checkLeg env "long_leg" t.long_leg
    checkLeg env "short_leg" t.short_leg
  | .OPTION => do
    let long_active := !legIsEmpty env t.long_leg
    let short_active := !legIsEmpty env t.short_leg
    require (long_active ≠ short_active) "an option must fund exactly one (writer) leg"
    checkLeg env "writer_leg" (if long_active then t.long_leg else t.short_leg)
    -- The source asks again, although exactly one leg is known to be empty here.
    require (legIsEmpty env (if long_active then t.short_leg else t.long_leg))
      "an option's non-writer leg must be empty"
    require (¬ t.premium < MIN_SETTLE_OUTPUT)
      ("option premium (" ++ toString t.premium ++ ") below MIN_SETTLE_OUTPUT (" ++ toString MIN_SETTLE_OUTPUT ++ ")")
  | .unknown kind => .error ("unknown contract kind " ++ toString kind)

def DifficultyContractTerms.validate (env : SettleEnv) (pow_limit : ArithUint256)
    (t : DifficultyContractTerms) : Except String Unit := do
  checkLegs env t
  require (env.isCanonicalNBits t.strike_nbits) "strike_nbits is not a canonical compact target"
  require (env.deriveTarget t.strike_nbits pow_limit).isSome
    "strike_nbits is out of range for the chain powLimit"
  require (t.fixing_height.toNat ≤ 2 ^ 31 - 1) "fixing_height exceeds the consensus int range"
  require (t.settle_lock_height.toNat < LOCKTIME_THRESHOLD)
    "settle_lock_height must be a block height (< LOCKTIME_THRESHOLD)"
  require (t.fixing_height.toNat + DIFFCFD_MATURITY_DEPTH ≤ t.settle_lock_height.toNat)
    "settle_lock_height must be >= fixing_height + DIFFCFD_MATURITY_DEPTH"

structure DifficultyContractRecord where
  terms : DifficultyContractTerms
  contract_id : Uint256
  long_vault : COutPoint
  short_vault : COutPoint

def DifficultyContractRecord.vaultOutpoint (record : DifficultyContractRecord) (is_short : Bool) : COutPoint :=
  if is_short then record.short_vault else record.long_vault

def DifficultyContractTerms.leg (t : DifficultyContractTerms) (is_short : Bool) : DifficultyLegTerms :=
  if is_short then t.short_leg else t.long_leg

def pushInt64 (n : Nat) : CScript :=
  if n = 0 then [0] else if n ≤ 16 then [UInt8.ofNat (n + 0x50)] else pushOf (scriptNumSerialize n)

def buildDifficultyLeafScript (record : DifficultyContractRecord) (is_short : Bool) : CScript :=
  let terms := record.terms
  let leg := terms.leg is_short
  pushOf record.contract_id.bytes ++ OP_DROP ::
    (pushInt64 terms.settle_lock_height.toNat ++ OP_CHECKLOCKTIMEVERIFY :: OP_DROP ::
      (pushOf (leBytes 4 terms.fixing_height.toNat) ++ (pushOf (leBytes 4 terms.strike_nbits.toNat) ++
        (pushOf (leBytes 4 leg.lambda_q.toNat) ++ ((if is_short then [OP_1] else pushOf [0]) ++
          (pushOf (leBytes 8 leg.im.toUInt64.toNat) ++ (pushOf leg.owner_key.bytes ++
            (pushOf leg.cp_key.bytes ++ [OP_DIFFCFD_SETTLE]))))))))

structure DifficultySettlementSkeleton where
  vault_input : CTxIn
  payouts : List CTxOut
  nlocktime : UInt32
  payout : DiffCfdPayout
deriving DecidableEq

def DifficultySettlementSkeleton.leaf (skel : DifficultySettlementSkeleton) : CScript :=
  skel.vault_input.scriptWitness.getD 0 []

def legOutput (leg : Int64 × CScript) : CTxOut :=
  { nValue := leg.1, scriptPubKey := leg.2, vExt := [] }

def settlementSkeleton (env : SettleEnv) (record : DifficultyContractRecord) (is_short : Bool)
    (realized_nbits : UInt32) (pow_limit : ArithUint256) (vault : COutPoint)
    (tree : Option (Option Bytes)) (incomplete no_control : String) :
    Except String DifficultySettlementSkeleton := do
  let terms := record.terms
  terms.validate env pow_limit
  let leg := terms.leg is_short
  let strike_target ← demand (env.deriveTarget terms.strike_nbits pow_limit)
    "strike or realized nBits is out of range for the chain powLimit"
  let realized_target ← demand (env.deriveTarget realized_nbits pow_limit)
    "strike or realized nBits is out of range for the chain powLimit"
  let payout ← demand (computeDiffCfdPayout strike_target realized_target leg.lambda_q
    leg.im.toUInt64 is_short) "ComputeDiffCfdPayout rejected the leg terms"
  let spend ← demand tree incomplete
  let control ← demand spend no_control
  .ok { vault_input :=
          { prevout := vault, scriptSig := [], nSequence := SEQUENCE_FINAL - 1
            scriptWitness := [buildDifficultyLeafScript record is_short, control] }
        payouts := (payoutLegs payout leg.owner_key.bytes leg.cp_key.bytes).map legOutput
        nlocktime := terms.settle_lock_height
        payout }

/-- `vaultTree` is the tree under the internal key, with the settlement leaf's control block. -/
def buildDifficultySettlementSkeleton (env : SettleEnv)
    (vaultTree : DifficultyContractRecord → Bool → Option (Option Bytes))
    (record : DifficultyContractRecord) (is_short : Bool) (realized_nbits : UInt32)
    (pow_limit : ArithUint256) : Except String DifficultySettlementSkeleton :=
  settlementSkeleton env record is_short realized_nbits pow_limit (record.vaultOutpoint is_short)
    (vaultTree record is_short) "vault internal key is not set/valid (record not opened?)"
    "could not reconstruct the vault control block"

inductive OptionDirection where
  | CALL
  | PUT
deriving DecidableEq

/-- The terms of a series; `metadata` are those that only enter its id. -/
structure OptionSeriesTerms where
  direction : OptionDirection
  strike_nbits : UInt32
  fixing_height : UInt32
  settle_lock_height : UInt32
  lot_im_sats : Int64
  lambda_q : UInt32
  writer_key : XOnlyPubKey
  lot_count : UInt32
  metadata : Bytes

/-- How ids, keys and trees of a series are derived. -/
structure OptionCode where
  validateSeries : OptionSeriesTerms → ArithUint256 → Except String Unit
  seriesId : OptionSeriesTerms → Uint256
  /-- The output key of the pot of a lot. -/
  potKey : Uint256 → UInt32 → XOnlyPubKey
  /-- `ComputeDifficultyContractId` under the salt of a lot. -/
  contractId : DifficultyContractTerms → Uint256 → UInt32 → Uint256
  /-- The script of the vault that holds the settlement leaf of a lot. -/
  vaultSpk : OptionSeriesTerms → UInt32 → DifficultyContractRecord → CScript
  /-- The tree of that vault, as for a difficulty contract. -/
  vaultTree : OptionSeriesTerms → UInt32 → DifficultyContractRecord → Option (Option Bytes)
  /-- A key that has not been set. -/
  noKey : XOnlyPubKey

def OptionSeriesTerms.writerShort (t : OptionSeriesTerms) : Bool := t.direction = .CALL

def deriveOptionLot (code : OptionCode) (t : OptionSeriesTerms) (series_id : Uint256) (i : UInt32) :
    DifficultyContractRecord :=
  let writer : DifficultyLegTerms :=
    { im := t.lot_im_sats, im_asset := 0, lambda_q := t.lambda_q, owner_key := t.writer_key
      cp_key := code.potKey series_id i }
  let none_ : DifficultyLegTerms :=
    { im := 0, im_asset := 0, lambda_q := 0, owner_key := code.noKey, cp_key := code.noKey }
  let terms : DifficultyContractTerms :=
    { long_leg := if t.writerShort then none_ else writer
      short_leg := if t.writerShort then writer else none_
      strike_nbits := t.strike_nbits
      fixing_height := t.fixing_height
      settle_lock_height := t.settle_lock_height
      kind := .OPTION
      premium := MIN_SETTLE_OUTPUT }
  -- The vault's outpoint is not part of a lot; the settlement takes it from the funded output.
  { terms, contract_id := code.contractId terms series_id i
    long_vault := ⟨0, COutPoint.NULL_INDEX⟩, short_vault := ⟨0, COutPoint.NULL_INDEX⟩ }

structure FundedOutput where
  outpoint : COutPoint
  txout : CTxOut

def buildOptionSettlementSkeleton (env : SettleEnv) (code : OptionCode) (terms : OptionSeriesTerms)
    (lot_index : UInt32) (vault : FundedOutput) (realized_nbits : UInt32) (pow_limit : ArithUint256) :
    Except String DifficultySettlementSkeleton := do
  code.validateSeries terms pow_limit
  require (lot_index < terms.lot_count) "lot_index out of range"
  let lot := deriveOptionLot code terms (code.seriesId terms) lot_index
  require (vault.txout.scriptPubKey = code.vaultSpk terms lot_index lot)
    "vault UTXO does not match the derived lot vault"
  require (!vault.txout.hasAssetTLV) "vault UTXO is asset-tagged (vaults are native-only)"
  require (vault.txout.nValue = (lot.terms.leg terms.writerShort).im)
    "vault value does not match the per-lot IM"
  settlementSkeleton env lot terms.writerShort realized_nbits pow_limit vault.outpoint
    (code.vaultTree terms lot_index lot) "option vault builder incomplete"
    "could not reconstruct the option vault control block"

theorem leNat_numBytes {fuel n : Nat} (small : n < 256 ^ fuel) : leNat (numBytes fuel n) = n := by
  induction fuel generalizing n with
  | zero =>
    have none_left : n = 0 := by simpa using small
    simp [numBytes, leNat, none_left]
  | succ fuel ih =>
    rw [numBytes]
    split_ifs with zero
    · simp [leNat, zero]
    · rw [leNat, ih (by rw [Nat.div_lt_iff_lt_mul (by decide)]; rwa [← pow_succ]), UInt8.toNat_ofNat']
      omega

theorem leNat_append_zero (bytes : Bytes) : leNat (bytes ++ [0]) = leNat bytes := by
  induction bytes with
  | nil => rfl
  | cons b rest ih => rw [List.cons_append, leNat, leNat, ih]

theorem numBytes_zero (fuel : Nat) : numBytes fuel 0 = [] := by
  cases fuel <;> simp [numBytes]

theorem length_numBytes {fuel width n : Nat} (small : n < 256 ^ width) : (numBytes fuel n).length ≤ width := by
  induction fuel generalizing n width with
  | zero => simp [numBytes]
  | succ fuel ih =>
    rw [numBytes]
    split_ifs with zero
    · simp
    · cases width with
      | zero => exact absurd (by simpa using small) zero
      | succ width =>
        have rest := @ih width (n / 256) (by rw [Nat.div_lt_iff_lt_mul (by decide)]; rwa [← pow_succ])
        simpa using rest

theorem getLast?_numBytes {fuel n : Nat} (positive : n ≠ 0) (small : n < 256 ^ fuel) :
    ∃ digits last, numBytes fuel n = digits ++ [last] ∧ last ≠ 0 := by
  induction fuel generalizing n with
  | zero => exact absurd (by simpa using small) positive
  | succ fuel ih =>
    rw [numBytes, if_neg positive]
    by_cases done : n / 256 = 0
    · -- This is the last digit.
      refine ⟨[], UInt8.ofNat n, by rw [done, numBytes_zero, List.nil_append], fun zero => ?_⟩
      have value := congrArg UInt8.toNat zero
      rw [UInt8.toNat_ofNat', UInt8.toNat_zero] at value
      omega
    · obtain ⟨digits, last, same, nonzero⟩ := ih done
        (by rw [Nat.div_lt_iff_lt_mul (by decide)]; rwa [← pow_succ])
      exact ⟨UInt8.ofNat n :: digits, last, by rw [same, List.cons_append], nonzero⟩

theorem high_bit (b : UInt8) : (0x80 ≤ b → b &&& 0x80 ≠ 0) ∧
    (¬ 0x80 ≤ b → b &&& 0x80 = 0 ∧ (b ≠ 0 → b &&& 0x7f ≠ 0)) := by
  have table : ∀ v : BitVec 8, ((0x80 : BitVec 8) ≤ v → v &&& 0x80 ≠ 0) ∧
      (¬ (0x80 : BitVec 8) ≤ v → v &&& 0x80 = 0 ∧ (v ≠ 0 → v &&& 0x7f ≠ 0)) := by
    decide
  simpa [UInt8.le_iff_toBitVec_le, ← UInt8.toBitVec_inj] using table b.toBitVec

theorem checkMinimalPush_of_length {data : Bytes} (two : 2 ≤ data.length) (short : data.length ≤ 75) :
    checkMinimalPush data (UInt8.ofNat data.length) = true := by
  unfold checkMinimalPush
  rw [if_neg (by omega), if_neg (by omega), if_neg (by omega), if_pos short, UInt8.toNat_ofNat', decide_eq_true_iff]
  omega

theorem leNat_concat (bytes : Bytes) (b : UInt8) :
    leNat (bytes ++ [b]) = leNat bytes + 256 ^ bytes.length * b.toNat := by
  induction bytes with
  | nil => simp [leNat]
  | cons c rest ih =>
    rw [List.cons_append, leNat, leNat, ih, List.length_cons, Nat.pow_succ', Nat.mul_add, Nat.mul_assoc, Nat.add_assoc]

theorem scriptNum_serialize {n : Nat} (positive : 0 < n) (small : n < 2 ^ 39) (minimal : Bool) :
    scriptNum (scriptNumSerialize n) minimal 5 = .ok (n : Int) := by
  have value : leNat (numBytes 8 n) = n := leNat_numBytes (by omega)
  have short : (numBytes 8 n).length ≤ 5 := length_numBytes (by omega)
  obtain ⟨digits, last, shape, nonzero⟩ := @getLast?_numBytes 8 n (by omega) (by omega)
  rw [shape] at value short
  rw [List.length_append, List.length_singleton] at short
  unfold scriptNumSerialize
  simp only [shape, List.getLast?_append_of_ne_nil, ne_eq, List.cons_ne_self, not_false_eq_true,
    List.getLast?_singleton, Option.getD_some]
  by_cases high : 0x80 ≤ last
  · -- The sign bit is taken, so a zero byte follows.
    have bit := (high_bit last).1 high
    have few : digits.length < 4 := by
      by_contra many
      have wide : 256 ^ 4 ≤ 256 ^ digits.length := Nat.pow_le_pow_right (by decide) (by omega)
      have large := Nat.mul_le_mul wide (UInt8.le_iff_toNat_le.mp high)
      rw [leNat_concat] at value
      simp only [UInt8.reduceToNat] at large
      omega
    unfold scriptNum
    simp only [high, if_true, List.getLast?_concat, Option.getD_some, List.dropLast_concat,
      List.length_append, List.length_singleton]
    rw [if_neg (by omega), if_neg, if_neg (by decide), leNat_append_zero, value]
    rintro ⟨_, _, _, tiny | clear⟩
    · omega
    · exact bit clear
  · obtain ⟨clear, rest⟩ := (high_bit last).2 high
    -- The last digit has no sign bit and is not zero, so the form is minimal.
    unfold scriptNum
    simp only [high, if_false, List.getLast?_concat, Option.getD_some, List.length_append, List.length_singleton]
    rw [if_neg (by omega), if_neg, if_neg (not_not_intro clear), value]
    rintro ⟨_, _, empty, _⟩
    exact rest nonzero empty

theorem serialize_minimal {n : Nat} (large : 16 < n) (small : n < 2 ^ 32) :
    (scriptNumSerialize n).length ≤ 75 ∧ checkMinimalPush (scriptNumSerialize n)
      (UInt8.ofNat (scriptNumSerialize n).length) = true := by
  have value : leNat (numBytes 8 n) = n := leNat_numBytes (by omega)
  have short : (numBytes 8 n).length ≤ 4 := length_numBytes (by omega)
  obtain ⟨digits, last, shape, nonzero⟩ := @getLast?_numBytes 8 n (by omega) (by omega)
  have length : (digits ++ [last]).length ≤ 4 := shape ▸ short
  rw [shape] at value
  unfold scriptNumSerialize
  simp only [shape, List.getLast?_concat, Option.getD_some]
  by_cases high : 0x80 ≤ last
  · rw [if_pos high]
    rw [List.length_append, List.length_singleton] at length
    have size : (digits ++ [last] ++ [0]).length = digits.length + 2 := by simp
    exact ⟨by omega, checkMinimalPush_of_length (by omega) (by omega)⟩
  · rw [if_neg high]
    refine ⟨le_trans length (by decide), ?_⟩
    cases digits with
    | nil =>
      -- One byte, which is too large for an opcode of its own and has no sign bit.
      have byte : last.toNat = n := by simpa [leNat] using value
      have under : last.toNat < 128 := by
        rw [UInt8.le_iff_toNat_le] at high
        simpa using high
      have lower : ¬ last ≤ 16 := by
        rw [UInt8.le_iff_toNat_le]
        simpa [byte] using large
      have other : last ≠ 0x81 := fun same => by
        rw [same] at under
        exact absurd under (by decide)
      simp [checkMinimalPush, lower, other]
    | cons first rest =>
      have size : (first :: rest ++ [last]).length = rest.length + 2 := by simp
      exact checkMinimalPush_of_length (by omega) (by omega)

section Run

variable {env : SettleEnv} {tx : Spending} {base : Interpreter (Option FixingContext) Machine}
  {ctx : Option FixingContext} {flags : ScriptFlags} {execdata : ExecData} {fuel : Nat}
  {rest : CScript} {stack : List Bytes}

theorem getScriptOp_pushOf {data : Bytes} (short : data.length ≤ 75) :
    getScriptOp (pushOf data ++ rest) = some (UInt8.ofNat data.length, data, rest) := by
  have size : (UInt8.ofNat data.length).toNat = data.length := by
    rw [UInt8.toNat_ofNat']
    omega
  have direct : data.length < OP_PUSHDATA1.toNat := lt_of_le_of_lt short (by decide)
  have below : UInt8.ofNat data.length < OP_PUSHDATA1 := by
    rw [UInt8.lt_iff_toNat_lt, size]
    exact direct
  have inside : UInt8.ofNat data.length ≤ OP_PUSHDATA4 := UInt8.le_of_lt (UInt8.lt_trans below (by decide))
  rw [pushOf, if_pos direct, List.cons_append, getScriptOp]
  simp only [inside, below, if_true, size, Option.bind_some, List.length_append]
  rw [if_neg (by omega), List.take_left' rfl, List.drop_left' rfl]

theorem evalLoop_step {script : CScript} {opcode : UInt8} {push : Bytes} {s next : Machine}
    (read : getScriptOp script = some (opcode, push, rest)) (nonempty : script ≠ [])
    (short : push.length ≤ MAX_SCRIPT_ELEMENT_SIZE) (enabled : isDisabled opcode = false)
    (effect : (if isCovenantOp flags opcode ∧ (settleVm env tx base).executing s then
        (if execdata.witness_version ≠ 1 then .error (contextError opcode)
          else (settleVm env tx base).covenant ctx opcode s)
      else evalPlain tx base.plain flags .TAPSCRIPT opcode push s) = .ok next)
    (room : next.stack.length + next.altstack.length ≤ MAX_STACK_SIZE) :
    evalLoop (settleVm env tx base) ctx flags .TAPSCRIPT execdata (fuel + 1) script s =
      evalLoop (settleVm env tx base) ctx flags .TAPSCRIPT execdata fuel rest next := by
  cases script with
  | nil => exact absurd rfl nonempty
  | cons byte bytes =>
    rw [evalLoop]
    simp only [read]
    have entered : (settleVm env tx base).enter flags .TAPSCRIPT opcode push s = .ok s := by
      dsimp only [settleVm]
      rw [if_neg fun large => Nat.not_lt.2 short large.1, if_pos rfl, bind_eq_ok]
      exact ⟨s, rfl, if_neg (by simp [enabled])⟩
    have left : (settleVm env tx base).leave next = .ok next := if_neg (Nat.not_lt.2 room)
    have done : evalOp (settleVm env tx base) ctx flags .TAPSCRIPT execdata opcode push s = .ok next := by
      unfold evalOp
      rw [bind_eq_ok]
      refine ⟨s, entered, ?_⟩
      dsimp only
      by_cases covenant : isCovenantOp flags opcode ∧ (settleVm env tx base).executing s
      · rw [if_pos covenant] at effect
        rw [if_pos covenant, if_neg (not_not_intro rfl)]
        by_cases version : execdata.witness_version ≠ 1
        · rw [if_pos version] at effect
          cases effect
        · rw [if_neg version] at effect
          rw [if_neg version, effect]
          exact left
      · rw [if_neg covenant] at effect
        have plain : (settleVm env tx base).plain = evalPlain tx base.plain := rfl
        rw [if_neg covenant, plain, effect]
        exact left
    rw [done]
    rfl

def ofStack (stack : List Bytes) : Machine := { stack }

theorem evalLoop_plain {script : CScript} {opcode : UInt8} {push : Bytes} {next : List Bytes}
    (read : getScriptOp script = some (opcode, push, rest)) (nonempty : script ≠ [])
    (short : push.length ≤ MAX_SCRIPT_ELEMENT_SIZE) (enabled : isDisabled opcode = false)
    (ordinary : isCovenantOp flags opcode = false)
    (effect : evalPlain tx base.plain flags .TAPSCRIPT opcode push (ofStack stack) = .ok (ofStack next))
    (room : next.length ≤ MAX_STACK_SIZE) :
    evalLoop (settleVm env tx base) ctx flags .TAPSCRIPT execdata (fuel + 1) script (ofStack stack) =
      evalLoop (settleVm env tx base) ctx flags .TAPSCRIPT execdata fuel rest (ofStack next) := by
  refine evalLoop_step read nonempty short enabled ?_ (by simpa [ofStack] using room)
  rw [if_neg (by simp [ordinary])]
  exact effect

theorem isCovenantOp_eq_false {opcode : UInt8} (nbits : opcode ≠ OP_NBITS_AT)
    (settle : opcode ≠ OP_DIFFCFD_SETTLE) (scalar : opcode ≠ OP_SCALAR_CFD_SETTLE) :
    isCovenantOp flags opcode = false := by
  simp only [isCovenantOp, nbits, settle, scalar, decide_false, Bool.false_and, Bool.or_self]

theorem evalLoop_push {data : Bytes} (short : data.length ≤ 75)
    (minimal : checkMinimalPush data (UInt8.ofNat data.length) = true) (room : stack.length < 1000) :
    evalLoop (settleVm env tx base) ctx flags .TAPSCRIPT execdata (fuel + 1) (pushOf data ++ rest)
        (ofStack stack) = evalLoop (settleVm env tx base) ctx flags .TAPSCRIPT execdata fuel rest
        (ofStack (stack ++ [data])) := by
  have size : (UInt8.ofNat data.length).toNat = data.length := by
    rw [UInt8.toNat_ofNat']
    omega
  -- The opcode of a direct push is its size, far below the other opcodes.
  have low : ∀ opcode : UInt8, 75 < opcode.toNat → UInt8.ofNat data.length ≠ opcode := by
    intro opcode high same
    rw [← same, size] at high
    omega
  have inside : UInt8.ofNat data.length ≤ OP_PUSHDATA4 := by
    rw [UInt8.le_iff_toNat_le, size]
    exact le_trans short (by decide)
  refine evalLoop_plain (getScriptOp_pushOf short) ?_ (le_trans short (by decide)) ?_ ?_ ?_ ?_
  · intro empty
    have lengths := congrArg List.length empty
    rw [pushOf, if_pos (lt_of_le_of_lt short (by decide))] at lengths
    simp at lengths
  · simp only [isDisabled, List.mem_cons, List.not_mem_nil, or_false, decide_eq_false_iff_not, not_or]
    refine ⟨?_, ?_, ?_, ?_, ?_, ?_, ?_, ?_, ?_, ?_, ?_, ?_, ?_, ?_, ?_⟩ <;> exact low _ (by decide)
  · exact isCovenantOp_eq_false (low _ (by decide)) (low _ (by decide)) (low _ (by decide))
  · unfold evalPlain
    rw [if_neg (by simp [ofStack]), if_pos inside, if_neg (by simp [minimal])]
    rfl
  · rw [List.length_append]
    exact room

theorem evalLoop_operand {data : Bytes} (two : 2 ≤ data.length) (short : data.length ≤ 75)
    (room : stack.length < 1000) :
    evalLoop (settleVm env tx base) ctx flags .TAPSCRIPT execdata (fuel + 1) (pushOf data ++ rest)
        (ofStack stack) = evalLoop (settleVm env tx base) ctx flags .TAPSCRIPT execdata fuel rest
        (ofStack (stack ++ [data])) := evalLoop_push short (checkMinimalPush_of_length two short) room

theorem getScriptOp_opcode {opcode : UInt8} (above : ¬ opcode ≤ OP_PUSHDATA4) :
    getScriptOp (opcode :: rest) = some (opcode, [], rest) := by
  rw [getScriptOp, if_neg above]

theorem evalLoop_opcode {opcode : UInt8} {next : List Bytes} (above : ¬ opcode ≤ OP_PUSHDATA4)
    (enabled : isDisabled opcode = false) (ordinary : isCovenantOp flags opcode = false)
    (effect : evalPlain tx base.plain flags .TAPSCRIPT opcode [] (ofStack stack) = .ok (ofStack next))
    (room : next.length ≤ MAX_STACK_SIZE) :
    evalLoop (settleVm env tx base) ctx flags .TAPSCRIPT execdata (fuel + 1) (opcode :: rest) (ofStack stack) =
      evalLoop (settleVm env tx base) ctx flags .TAPSCRIPT execdata fuel rest (ofStack next) :=
  evalLoop_plain (getScriptOp_opcode above) (by simp) (by simp) enabled ordinary effect room

theorem evalLoop_drop (top : Bytes) (room : stack.length ≤ 1000) :
    evalLoop (settleVm env tx base) ctx flags .TAPSCRIPT execdata (fuel + 1) (OP_DROP :: rest)
        (ofStack (stack ++ [top])) =
      evalLoop (settleVm env tx base) ctx flags .TAPSCRIPT execdata fuel rest (ofStack stack) := by
  have ordinary : isCovenantOp flags OP_DROP = false := isCovenantOp_eq_false (by decide) (by decide) (by decide)
  refine evalLoop_opcode (by decide) (by decide) ordinary ?_ room
  unfold evalPlain
  rw [if_neg (by simp [ofStack]), if_neg (by decide), if_neg (by decide), if_pos rfl, if_neg (by simp [ofStack])]
  simp [ofStack]

theorem evalLoop_one (room : stack.length < 1000) :
    evalLoop (settleVm env tx base) ctx flags .TAPSCRIPT execdata (fuel + 1) (OP_1 :: rest) (ofStack stack) =
      evalLoop (settleVm env tx base) ctx flags .TAPSCRIPT execdata fuel rest
        (ofStack (stack ++ [[1]])) := by
  have ordinary : isCovenantOp flags OP_1 = false := isCovenantOp_eq_false (by decide) (by decide) (by decide)
  refine evalLoop_opcode (by decide) (by decide) ordinary ?_ (by rw [List.length_append]; exact room)
  unfold evalPlain
  rw [if_neg (by simp [ofStack]), if_neg (by decide), if_pos (by decide)]
  rfl

theorem evalLoop_lockTime {n : Nat} (top : Bytes)
    (number : ∀ minimal, scriptNum top minimal 5 = .ok (n : Int)) (met : checkLockTime tx n = true)
    (room : stack.length < 1000) : evalLoop (settleVm env tx base) ctx flags .TAPSCRIPT execdata (fuel + 1)
        (OP_CHECKLOCKTIMEVERIFY :: rest) (ofStack (stack ++ [top])) =
      evalLoop (settleVm env tx base) ctx flags .TAPSCRIPT execdata fuel rest
        (ofStack (stack ++ [top])) := by
  have ordinary : isCovenantOp flags OP_CHECKLOCKTIMEVERIFY = false :=
    isCovenantOp_eq_false (by decide) (by decide) (by decide)
  refine evalLoop_opcode (by decide) (by decide) ordinary ?_ (by rw [List.length_append]; exact room)
  unfold evalPlain
  rw [if_neg (by simp [ofStack]), if_neg (by decide), if_neg (by decide), if_neg (by decide), if_pos rfl]
  -- The number stays on the stack; the opcode only compares it.
  unfold checkLockTimeVerify
  split_ifs
  · have last : (ofStack (stack ++ [top])).stack.getLast? = some top := by simp [ofStack]
    rw [last]
    dsimp only
    rw [number]
    have nonneg : ¬ ((n : Int) < 0) := by omega
    simp [require, nonneg, met, bind, Except.bind]
  · rfl

def lossDirection (is_short : Bool) : Bytes := if is_short then [1] else [0]

theorem evalLoop_direction {is_short : Bool} (room : stack.length < 1000) :
    evalLoop (settleVm env tx base) ctx flags .TAPSCRIPT execdata (fuel + 1)
        ((if is_short then [OP_1] else pushOf [0]) ++ rest) (ofStack stack) =
      evalLoop (settleVm env tx base) ctx flags .TAPSCRIPT execdata fuel rest
        (ofStack (stack ++ [lossDirection is_short])) := by
  cases is_short with
  | true => exact evalLoop_one room
  | false =>
    rw [if_neg (by decide), show lossDirection false = [0] from rfl]
    refine evalLoop_push ?_ ?_ room <;> decide

theorem evalLoop_settle {fixing_height strike lambda_q loss_dir vault_im owner_key cp_key : Bytes}
    (v1 : execdata.witness_version = 1) (settles : diffCfdSettle env tx ctx
      ⟨fixing_height, strike, lambda_q, loss_dir, vault_im, owner_key, cp_key⟩ = .ok ⟨⟩) :
    evalLoop (settleVm env tx base) ctx flags .TAPSCRIPT execdata (fuel + 1) (OP_DIFFCFD_SETTLE :: rest)
        (ofStack [fixing_height, strike, lambda_q, loss_dir, vault_im, owner_key, cp_key]) =
      evalLoop (settleVm env tx base) ctx flags .TAPSCRIPT execdata fuel rest (ofStack [[1]]) := by
  refine evalLoop_step (getScriptOp_opcode (by decide)) (by simp) (by simp) (by decide) ?_ (by decide)
  rw [if_pos ⟨by simp [isCovenantOp], rfl⟩, if_neg (not_not_intro v1)]
  have covenant : ∀ s, (settleVm env tx base).covenant ctx OP_DIFFCFD_SETTLE s =
      opDiffCfdSettle env tx ctx s := fun s => by
    dsimp only [settleVm]
    rw [if_pos rfl]
  rw [covenant]
  simp only [opDiffCfdSettle, ofStack, List.reverse_cons, List.reverse_nil, List.nil_append, List.cons_append, settles]
  rfl

end Run

theorem legsPaid_outputs (legs : List (Int64 × CScript)) (extra : List CTxOut) :
    LegsPaid PaysDiffLeg (legs.map legOutput ++ extra) legs := by
  -- The leg at a place is paid by the output at the same place.
  refine ⟨List.range legs.length, List.nodup_range, List.forall₂_iff_get.2 ⟨by simp, fun i here _ => ?_⟩⟩
  refine ⟨legOutput legs[i], ?_, rfl, rfl, rfl⟩
  simp only [List.get_eq_getElem, List.getElem_range]
  rw [List.getElem?_append_left (by simpa using here), List.getElem?_map, List.getElem?_eq_getElem here]
  rfl

theorem verifyDiffCfdOutputs_of_perm {vout extra : List CTxOut} {legs : List (Int64 × CScript)}
    (perm : vout.Perm (legs.map legOutput ++ extra)) : (verifyDiffCfdOutputs (some vout) legs).ok = true := by
  have reads : ∀ leg out, diffLegFits leg out = true ↔ PaysDiffLeg leg out :=
    fun _ _ => diffLegFits_iff
  have unique : ∀ first second out, PaysDiffLeg first out → PaysDiffLeg second out → first = second :=
    fun _ _ _ => PaysDiffLeg.unique
  rw [verifyDiffCfdOutputs, bindLegs_perm reads unique perm]
  exact (bindLegs_iff reads unique _ legs).2 (legsPaid_outputs legs extra)

structure Settles (env : SettleEnv) (record : DifficultyContractRecord) (is_short : Bool)
    (realized_nbits : UInt32) (pow_limit : ArithUint256) (skel : DifficultySettlementSkeleton) : Prop where
  leaf : skel.leaf = buildDifficultyLeafScript record is_short
  sequence : skel.vault_input.nSequence = SEQUENCE_FINAL - 1
  lock : skel.nlocktime = record.terms.settle_lock_height
  payouts : skel.payouts = (payoutLegs skel.payout (record.terms.leg is_short).owner_key.bytes
    (record.terms.leg is_short).cp_key.bytes).map legOutput
  height : record.terms.settle_lock_height.toNat < LOCKTIME_THRESHOLD
  fixing : record.terms.fixing_height.toNat ≤ 2 ^ 31 - 1
  buried : record.terms.fixing_height.toNat + DIFFCFD_MATURITY_DEPTH ≤ record.terms.settle_lock_height.toNat
  targets : ∃ strike realized, env.deriveTarget record.terms.strike_nbits pow_limit = some strike ∧
    env.getCompact strike = record.terms.strike_nbits ∧ env.deriveTarget realized_nbits pow_limit = some realized ∧
    computeDiffCfdPayout strike realized (record.terms.leg is_short).lambda_q
      (record.terms.leg is_short).im.toUInt64 is_short = some skel.payout

theorem settles_of_skeleton {env : SettleEnv} {record : DifficultyContractRecord} {is_short : Bool}
    {realized_nbits : UInt32} {pow_limit : ArithUint256} {vault : COutPoint}
    {tree : Option (Option Bytes)} {incomplete no_control : String} {skel : DifficultySettlementSkeleton}
    (built : settlementSkeleton env record is_short realized_nbits pow_limit vault tree incomplete
      no_control = .ok skel) : Settles env record is_short realized_nbits pow_limit skel := by
  unfold settlementSkeleton DifficultyContractTerms.validate at built
  simp only [bind_eq_ok, require_eq_ok, demand_eq_ok] at built
  obtain ⟨_, ⟨_, _, _, canonical, _, _, _, fixing, _, height, buried⟩, strike, decoded, realized,
    decoded', payout, computed, _, _, _, _, same⟩ := built
  cases same
  refine ⟨rfl, rfl, rfl, rfl, height, fixing, buried, strike, realized, decoded, ?_, decoded', computed⟩
  -- The strike is canonical, and its target is the one that was decoded.
  unfold SettleEnv.isCanonicalNBits at canonical
  unfold SettleEnv.deriveTarget at decoded
  dsimp only at canonical decoded
  split_ifs at canonical decoded
  rw [← Option.some.inj decoded]
  simpa using canonical

section Accepted

variable {env : SettleEnv} {record : DifficultyContractRecord} {is_short : Bool}
  {realized_nbits : UInt32} {pow_limit : ArithUint256} {skel : DifficultySettlementSkeleton}
  {tx : Spending} {fixing : FixingContext} {vout extra : List CTxOut}

theorem diffCfdSettle_leaf (settles : Settles env record is_short realized_nbits pow_limit skel)
    (outs : tx.vout = some vout) (perm : vout.Perm (skel.payouts ++ extra))
    (amount : tx.amount = some (record.terms.leg is_short).im)
    (resolves : fixing.nBitsAt record.terms.fixing_height.toNat = some realized_nbits)
    (decodes : ∀ nBits, fixing.decodeTarget nBits = env.deriveTarget nBits pow_limit) :
    diffCfdSettle env tx (some fixing)
      ⟨leBytes 4 record.terms.fixing_height.toNat, leBytes 4 record.terms.strike_nbits.toNat,
        leBytes 4 (record.terms.leg is_short).lambda_q.toNat, lossDirection is_short,
        leBytes 8 (record.terms.leg is_short).im.toUInt64.toNat,
        (record.terms.leg is_short).owner_key.bytes, (record.terms.leg is_short).cp_key.bytes⟩ = .ok ⟨⟩ := by
  obtain ⟨strike, realized, decoded, canonical, decoded', computed⟩ := settles.targets
  have payouts := settles.payouts
  generalize record.terms.leg is_short = leg at *
  have word : ∀ n : UInt32, leNat (leBytes 4 n.toNat) = n.toNat := fun n => by
    rw [leNat_leBytes]
    exact Nat.mod_eq_of_lt (by have := n.toNat_lt; omega)
  have word' : leNat (leBytes 8 leg.im.toUInt64.toNat) = leg.im.toUInt64.toNat := by
    rw [leNat_leBytes]
    exact Nat.mod_eq_of_lt (by have := leg.im.toUInt64.toNat_lt; omega)
  have sizes : SettleOperands.sizesOk ⟨leBytes 4 record.terms.fixing_height.toNat,
      leBytes 4 record.terms.strike_nbits.toNat, leBytes 4 leg.lambda_q.toNat, lossDirection is_short,
      leBytes 8 leg.im.toUInt64.toNat, leg.owner_key.bytes, leg.cp_key.bytes⟩ = true := by
    cases is_short <;> simp [SettleOperands.sizesOk, lossDirection, leg.owner_key.size, leg.cp_key.size]
  have direction : (lossDirection is_short).getD 0 0 = 0 ∨ (lossDirection is_short).getD 0 0 = 1 := by
    cases is_short <;> simp [lossDirection]
  have short : decide ((lossDirection is_short).getD 0 0 = 1) = is_short := by
    cases is_short <;> rfl
  -- The terms that the payout function accepts are the terms that the opcode asks for.
  have terms : leg.lambda_q ≠ 0 ∧ ¬ leg.im.toUInt64 < MIN_SETTLE_OUTPUT.toUInt64 := by
    unfold computeDiffCfdPayout at computed
    split_ifs at computed with zero small <;> exact ⟨zero, small⟩
  have paid : (verifyDiffCfdOutputs tx.vout (payoutLegs skel.payout leg.owner_key.bytes
      leg.cp_key.bytes)).ok = true := by
    rw [outs]
    exact verifyDiffCfdOutputs_of_perm (payouts ▸ perm)
  unfold diffCfdSettle
  simp only [bind_eq_ok, require_eq_ok, demand_eq_ok, word, word', UInt32.ofNat_toNat,
    UInt64.ofNat_toNat, Option.some.injEq, short]
  exact ⟨⟨⟩, sizes, ⟨⟩, direction, fixing, rfl, ⟨⟩, settles.fixing, realized_nbits, resolves, strike,
    (decodes _).trans decoded, realized, (decodes _).trans decoded', ⟨⟩, canonical, ⟨⟩, terms.1, ⟨⟩,
    terms.2, skel.payout, computed, ⟨⟩, by rw [amount]; rfl, paid⟩

theorem Settles.checkLockTime (settles : Settles env record is_short realized_nbits pow_limit skel)
    (sequence : tx.nSequence = skel.vault_input.nSequence) (locked : skel.nlocktime ≤ tx.nLockTime)
    (heights : tx.nLockTime.toNat < LOCKTIME_THRESHOLD) :
    checkLockTime tx record.terms.settle_lock_height.toNat = true := by
  have lock_small := settles.height
  have reached : record.terms.settle_lock_height.toNat ≤ tx.nLockTime.toNat := by
    rw [← settles.lock]
    exact UInt32.le_iff_toNat_le.1 locked
  have open_ : tx.nSequence ≠ SEQUENCE_FINAL := by
    rw [sequence, settles.sequence]
    decide
  simp only [Settlement.checkLockTime, Bool.and_eq_true, Bool.or_eq_true, decide_eq_true_eq]
  exact ⟨⟨.inl ⟨heights, by exact_mod_cast lock_small⟩, by exact_mod_cast reached⟩, open_⟩

theorem leaf_length (record : DifficultyContractRecord) (is_short : Bool) :
    13 ≤ (buildDifficultyLeafScript record is_short).length := by
  have id_size := record.contract_id.bytes_length
  have first : (pushOf record.contract_id.bytes).length = 33 := by
    rw [pushOf, if_pos (by rw [id_size]; decide), List.length_cons, id_size]
  unfold buildDifficultyLeafScript
  rw [List.length_append, first]
  omega

theorem leaf_succeeds (settles : Settles env record is_short realized_nbits pow_limit skel)
    (base : Interpreter (Option FixingContext) Machine) (flags : ScriptFlags) {execdata : ExecData}
    (v1 : execdata.witness_version = 1) (outs : tx.vout = some vout)
    (perm : vout.Perm (skel.payouts ++ extra))
    (sequence : tx.nSequence = skel.vault_input.nSequence) (locked : skel.nlocktime ≤ tx.nLockTime)
    (heights : tx.nLockTime.toNat < LOCKTIME_THRESHOLD)
    (amount : tx.amount = some (record.terms.leg is_short).im)
    (resolves : fixing.nBitsAt record.terms.fixing_height.toNat = some realized_nbits)
    (decodes : ∀ nBits, fixing.decodeTarget nBits = env.deriveTarget nBits pow_limit) :
    evalScript (settleVm env tx base) (some fixing) flags .TAPSCRIPT execdata skel.leaf [] =
      .ok [[1]] := by
  have lock_large : 16 < record.terms.settle_lock_height.toNat := by
    have buried := settles.buried
    simp only [DIFFCFD_MATURITY_DEPTH] at buried
    omega
  have lock_word : record.terms.settle_lock_height.toNat < 2 ^ 32 := UInt32.toNat_lt _
  have met := settles.checkLockTime sequence locked heights
  obtain ⟨lock_short, lock_minimal⟩ := serialize_minimal lock_large lock_word
  have settled := diffCfdSettle_leaf settles outs perm amount resolves decodes
  have id_size := record.contract_id.bytes_length
  have owner_size := (record.terms.leg is_short).owner_key.size
  have cp_size := (record.terms.leg is_short).cp_key.size
  have lock_push : pushInt64 record.terms.settle_lock_height.toNat =
      pushOf (scriptNumSerialize record.terms.settle_lock_height.toNat) := by
    rw [pushInt64, if_neg (by omega), if_neg (by omega)]
  have number := @scriptNum_serialize record.terms.settle_lock_height.toNat (by omega) (lock_word.trans (by decide))
  -- Thirteen instructions, one after the other.
  have run : evalLoop (settleVm env tx base) (some fixing) flags .TAPSCRIPT execdata
      (buildDifficultyLeafScript record is_short).length (buildDifficultyLeafScript record is_short)
      (ofStack []) = .ok (ofStack [[1]]) := by
    obtain ⟨n, length⟩ := Nat.exists_eq_add_of_le' (leaf_length record is_short)
    rw [length]
    unfold buildDifficultyLeafScript
    dsimp only
    rw [lock_push]
    -- The operands have two bytes or more, apart from the direction.
    refine (evalLoop_operand (by omega) (by omega) (by simp)).trans ?_
    refine (evalLoop_drop _ (by simp)).trans ?_
    refine (evalLoop_push lock_short lock_minimal (by simp)).trans ?_
    refine (evalLoop_lockTime _ number met (by simp)).trans ?_
    refine (evalLoop_drop _ (by simp)).trans ?_
    refine (evalLoop_operand (by simp) (by simp) (by simp)).trans ?_
    refine (evalLoop_operand (by simp) (by simp) (by simp)).trans ?_
    refine (evalLoop_operand (by simp) (by simp) (by simp)).trans ?_
    refine (evalLoop_direction (by simp)).trans ?_
    refine (evalLoop_operand (by simp) (by simp) (by simp)).trans ?_
    refine (evalLoop_operand (by omega) (by omega) (by simp)).trans ?_
    refine (evalLoop_operand (by omega) (by omega) (by simp)).trans ?_
    refine (evalLoop_settle v1 settled).trans ?_
    rw [evalLoop]
  rw [settles.leaf]
  unfold evalScript
  have started : (settleVm env tx base).start .TAPSCRIPT execdata [] = ofStack [] := by
    dsimp only [settleVm]
    rw [v1]
    rfl
  rw [if_neg (by simp), bind_eq_ok, started]
  exact ⟨ofStack [[1]], run, rfl⟩

end Accepted

/-- **Wallet settlements are accepted.** A transaction that spends the vault by the skeleton, holds
its payouts and is locked no lower runs the revealed leaf to the end, for options as for difficulty
contracts. -/
theorem wallet_settlement_accepted (env : SettleEnv) (code : OptionCode)
    (vaultTree : DifficultyContractRecord → Bool → Option (Option Bytes))
    (base : Interpreter (Option FixingContext) Machine) (flags : ScriptFlags) (execdata : ExecData)
    (v1 : execdata.witness_version = 1) (skel : DifficultySettlementSkeleton) (realized_nbits : UInt32)
    (pow_limit : ArithUint256) (tx : CTransaction) (nIn : Nat) (extra : List CTxOut)
    (input : tx.vin[nIn]? = some skel.vault_input) (outputs : tx.vout.Perm (skel.payouts ++ extra))
    (locked : skel.nlocktime ≤ tx.nLockTime) (height : tx.nLockTime.toNat < LOCKTIME_THRESHOLD)
    (fixing : FixingContext) (decodes : ∀ nBits, fixing.decodeTarget nBits = env.deriveTarget nBits pow_limit) :
    (∀ (terms : OptionSeriesTerms) (lot_index : UInt32) (vault : FundedOutput),
      buildOptionSettlementSkeleton env code terms lot_index vault realized_nbits pow_limit = .ok skel →
      fixing.nBitsAt terms.fixing_height.toNat = some realized_nbits →
      evalScript (settleVm env (spendingOf tx nIn vault.txout.nValue) base) (some fixing) flags
        .TAPSCRIPT execdata skel.leaf [] = .ok [[1]]) ∧
    ∀ (record : DifficultyContractRecord) (is_short : Bool) (coin : CTxOut),
      buildDifficultySettlementSkeleton env vaultTree record is_short realized_nbits pow_limit = .ok skel →
      coin.nValue = (record.terms.leg is_short).im →
      fixing.nBitsAt record.terms.fixing_height.toNat = some realized_nbits →
      evalScript (settleVm env (spendingOf tx nIn coin.nValue) base) (some fixing) flags .TAPSCRIPT
        execdata skel.leaf [] = .ok [[1]] := by
  have sequence : ∀ amount, (spendingOf tx nIn amount).nSequence = skel.vault_input.nSequence := by
    intro amount
    rw [spendingOf, input]
    rfl
  constructor
  · intro terms lot_index vault built resolves
    -- The option wallet has compared the vault's value with the margin itself.
    unfold buildOptionSettlementSkeleton at built
    simp only [bind_eq_ok, require_eq_ok] at built
    obtain ⟨_, _, _, _, _, _, _, _, _, value, built⟩ := built
    exact leaf_succeeds (settles_of_skeleton built) base flags v1 rfl outputs (sequence _) locked
      height (congrArg some value) resolves decodes
  · intro record is_short coin built value resolves
    exact leaf_succeeds (settles_of_skeleton built) base flags v1 rfl outputs (sequence _) locked
      height (congrArg some value) resolves decodes

def keyOf (byte : UInt8) : XOnlyPubKey := ⟨List.replicate 32 byte, by simp⟩

def plainEnv : SettleEnv where
  setCompact nBits := (BitVec.ofNat 256 (TensorCash.setCompact nBits).1, (TensorCash.setCompact nBits).2)
  getCompact target := TensorCash.getCompact target.toNat
  isFullyValid key := key.bytes ≠ (keyOf 0).bytes

/-- The bits of the first block and the target they stand for. -/
def startBits : UInt32 := 0x1d00ffff

def startLimit : ArithUint256 := BitVec.ofNat 256 (TensorCash.setCompact startBits).1

def cfdLeg (owner cp : UInt8) : DifficultyLegTerms :=
  { im := 1000, im_asset := 0, lambda_q := 65536, owner_key := keyOf owner, cp_key := keyOf cp }

def cfdRecord : DifficultyContractRecord where
  terms :=
    { long_leg := cfdLeg 1 2, short_leg := cfdLeg 2 1, strike_nbits := startBits, fixing_height := 10
      settle_lock_height := 110, kind := .CFD, premium := 0 }
  contract_id := 7
  long_vault := ⟨1, 0⟩
  short_vault := ⟨1, 1⟩

def bareCode : OptionCode where
  validateSeries _ _ := .ok ⟨⟩
  seriesId _ := 0
  potKey _ _ := keyOf 3
  contractId _ _ _ := 0
  vaultSpk _ _ _ := []
  vaultTree _ _ _ := some (some [0xc0])
  noKey := keyOf 0

def callTerms : OptionSeriesTerms where
  direction := .CALL
  strike_nbits := startBits
  fixing_height := 10
  settle_lock_height := 110
  lot_im_sats := 1000
  lambda_q := 65536
  writer_key := keyOf 2
  lot_count := 1
  metadata := []

def callVault : FundedOutput := ⟨⟨1, 1⟩, { nValue := 1000, scriptPubKey := [], vExt := [] }⟩

/-- At the strike the owner of the short leg takes the margin back. -/
def atStrike (record : DifficultyContractRecord) : DifficultySettlementSkeleton where
  vault_input :=
    { prevout := ⟨1, 1⟩, scriptSig := [], nSequence := SEQUENCE_FINAL - 1
      scriptWitness := [buildDifficultyLeafScript record true, [0xc0]] }
  payouts := [{ nValue := 1000, scriptPubKey := p2tr (keyOf 2).bytes, vExt := [] }]
  nlocktime := 110
  payout := ⟨1000, 0⟩

def cfdSkeleton : DifficultySettlementSkeleton := atStrike cfdRecord

def callSkeleton : DifficultySettlementSkeleton := atStrike (deriveOptionLot bareCode callTerms 0 0)

def bareTree : DifficultyContractRecord → Bool → Option (Option Bytes) := fun _ _ => some (some [0xc0])

theorem cfdSkeleton_built : buildDifficultySettlementSkeleton plainEnv bareTree cfdRecord true startBits
    startLimit = .ok cfdSkeleton := by
  decide +kernel

theorem callSkeleton_built : buildOptionSettlementSkeleton plainEnv bareCode callTerms 0 callVault startBits
    startLimit = .ok callSkeleton := by
  decide +kernel

def settling (skel : DifficultySettlementSkeleton) (nLockTime : UInt32) : CTransaction where
  version := 2
  vin := [skel.vault_input]
  vout := skel.payouts
  nLockTime := nLockTime

def steadyFixing : FixingContext where
  nBitsAt _ := some startBits
  decodeTarget nBits := plainEnv.deriveTarget nBits startLimit

def bareBase : Interpreter (Option FixingContext) Machine where
  start _ _ stack := { stack }
  executing _ := true
  enter _ _ _ _ s := .ok s
  plain _ _ _ _ _ := .error "SCRIPT_ERR_BAD_OPCODE"
  covenant _ _ _ := .error "SCRIPT_ERR_BAD_OPCODE"
  leave s := .ok s
  finish s := .ok s.stack
  castToBool element := element.any (· ≠ 0)
  isOpSuccess _ := false
  sha256 element := element
  keyPath _ _ _ := false
  taprootCommitment _ _ _ _ := true

/-- A difficulty contract and a call option, both fixed at their strike. -/
theorem wallet_settlement_accepted_at_strike :
    evalScript (settleVm plainEnv (spendingOf (settling callSkeleton 110) 0 1000) bareBase)
        (some steadyFixing) ⟨0x200⟩ .TAPSCRIPT {} callSkeleton.leaf [] = .ok [[1]] ∧
      evalScript (settleVm plainEnv (spendingOf (settling cfdSkeleton 110) 0 1000) bareBase)
        (some steadyFixing) ⟨0x200⟩ .TAPSCRIPT {} cfdSkeleton.leaf [] = .ok [[1]] :=
  ⟨(wallet_settlement_accepted plainEnv bareCode bareTree bareBase ⟨0x200⟩ {} rfl callSkeleton startBits
      startLimit (settling callSkeleton 110) 0 [] rfl (by simp [settling]) (by decide) (by decide)
      steadyFixing fun _ => rfl).1 callTerms 0 callVault callSkeleton_built rfl,
    (wallet_settlement_accepted plainEnv bareCode bareTree bareBase ⟨0x200⟩ {} rfl cfdSkeleton startBits
      startLimit (settling cfdSkeleton 110) 0 [] rfl (by simp [settling]) (by decide) (by decide)
      steadyFixing fun _ => rfl).2 cfdRecord true callVault.txout cfdSkeleton_built rfl rfl⟩

/-- A lock time that is a time and not a height is above every height, but the leaf refuses it. -/
theorem timestamp_lock_refused :
    buildDifficultySettlementSkeleton plainEnv bareTree cfdRecord true startBits startLimit = .ok cfdSkeleton ∧
      (settling cfdSkeleton 500000000).vin[0]? = some cfdSkeleton.vault_input ∧
      (settling cfdSkeleton 500000000).vout = cfdSkeleton.payouts ∧
      cfdSkeleton.nlocktime ≤ (settling cfdSkeleton 500000000).nLockTime ∧
      steadyFixing.nBitsAt 10 = some startBits ∧
      evalScript (settleVm plainEnv (spendingOf (settling cfdSkeleton 500000000) 0 1000) bareBase)
        (some steadyFixing) ⟨0x200⟩ .TAPSCRIPT {} cfdSkeleton.leaf [] =
          .error "SCRIPT_ERR_UNSATISFIED_LOCKTIME" := by
  decide +kernel

end Settlement

end TensorCash
