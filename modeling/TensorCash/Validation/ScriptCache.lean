import TensorCash.Script.Interpreter

/-! `CheckInputScripts` stores a transaction only if no scan has found an instruction that reads the
chain. -/

namespace TensorCash

def scriptOps : Nat → CScript → List UInt8
  | _, [] => []
  | 0, _ :: _ => []
  | fuel + 1, byte :: bytes =>
    match getScriptOp (byte :: bytes) with
    | none => []
    | some (opcode, _, rest) => opcode :: scriptOps fuel rest

def scannedLeaf (spk : CScript) (stack : List Bytes) : Option CScript :=
  match isWitnessProgram spk with
  | none => none
  | some (witversion, program) =>
    if witversion ≠ 1 ∨ program.length ≠ 32 then none
    else
      let annexed := 2 ≤ stack.length ∧ (stack.getLast?.getD []).head? = some ANNEX_TAG
      let n := if annexed then stack.length - 1 else stack.length
      if n < 2 then none
      else
        let control := stack.getD (n - 1) []
        let leaf_bytes := stack.getD (n - 2) []
        if ¬ controlSizeOk control then none
        else if control.getD 0 0 &&& TAPROOT_LEAF_MASK ≠ TAPROOT_LEAF_TAPSCRIPT then none
        else some leaf_bytes

structure WitnessScan where
  settle_leaf_count : Nat := 0
  reads : Bool := false
deriving DecidableEq

def scanDiffCfdWitness (scan : WitnessScan) (spk : CScript) (stack : List Bytes) : WitnessScan :=
  match scannedLeaf spk stack with
  | none => scan
  | some leaf =>
    let ops := scriptOps leaf.length leaf
    { settle_leaf_count :=
        if OP_DIFFCFD_SETTLE ∈ ops then scan.settle_leaf_count + 1 else scan.settle_leaf_count
      reads := scan.reads || OP_DIFFCFD_SETTLE ∈ ops || OP_NBITS_AT ∈ ops }

def scanScalarCfdWitness (scan : WitnessScan) (spk : CScript) (stack : List Bytes) : WitnessScan :=
  match scannedLeaf spk stack with
  | none => scan
  | some leaf =>
    if OP_SCALAR_CFD_SETTLE ∈ scriptOps leaf.length leaf then
      { settle_leaf_count := scan.settle_leaf_count + 1, reads := true }
    else scan

abbrev SpentInputs := List (CTxIn × CTxOut)

abbrev CacheKey := Uint256 × ScriptFlags

def STANDARD_NOT_MANDATORY_VERIFY_FLAGS : UInt32 := 0x1df1ca

section Check

variable {Κ σ : Type} (vm : Nat → Interpreter Κ σ)

def inputCheck (ctx : Κ) (flags : ScriptFlags) (index : Nat) (input : CTxIn × CTxOut) : Except String Unit :=
  verifyScript (vm index) ctx flags input.1.scriptSig input.2.scriptPubKey input.1.scriptWitness

def reportFailure (ctx : Κ) (flags : ScriptFlags) (index : Nat) (input : CTxIn × CTxOut)
    (failure : String) : String :=
  if flags.word &&& STANDARD_NOT_MANDATORY_VERIFY_FLAGS ≠ 0 then
    match inputCheck vm ctx ⟨flags.word &&& ~~~STANDARD_NOT_MANDATORY_VERIFY_FLAGS⟩ index input with
    | .ok _ => "non-mandatory-script-verify-flag (" ++ failure ++ ")"
    | .error mandatory => "mandatory-script-verify-flag-failed (" ++ mandatory ++ ")"
  else "mandatory-script-verify-flag-failed (" ++ failure ++ ")"

def runInputs (ctx : Κ) (flags : ScriptFlags) : Nat → SpentInputs → Except String Unit
  | _, [] => .ok ⟨⟩
  | index, input :: rest =>
    match inputCheck vm ctx flags index input with
    | .error failure => .error (reportFailure vm ctx flags index input failure)
    | .ok _ => runInputs ctx flags (index + 1) rest

def scanDiff (inputs : SpentInputs) : WitnessScan :=
  inputs.foldl (fun scan i => scanDiffCfdWitness scan i.2.scriptPubKey i.1.scriptWitness) {}

def scanScalar (flags : ScriptFlags) (inputs : SpentInputs) : WitnessScan :=
  if flags.SCALAR_CFD then
    inputs.foldl (fun scan i => scanScalarCfdWitness scan i.2.scriptPubKey i.1.scriptWitness) {}
  else {}

/-- `CheckInputScripts`: the result and the cache behind it. A `burnExempt` input never touches the
cache; with `pvChecks` the checks are the caller's. -/
def checkInputScripts (ctx : Κ) (flags : ScriptFlags) (coinbase burnExempt pvChecks : Bool)
    (key : CacheKey) (inputs : SpentInputs) (cacheFullScriptStore : Bool) (cache : List CacheKey) :
    Except String Unit × List CacheKey :=
  if coinbase then (.ok ⟨⟩, cache)
  else if 1 < (scanDiff inputs).settle_leaf_count + (scanScalar flags inputs).settle_leaf_count then
    (.error "bad-txns-diffcfd-multiple-inputs", cache)
  else
    let bypass_script_cache := (scanDiff inputs).reads || (scanScalar flags inputs).reads
    if burnExempt then (.ok ⟨⟩, cache)
    else if ¬ bypass_script_cache ∧ key ∈ cache then
      (.ok ⟨⟩, if cacheFullScriptStore then cache else cache.filter (· ≠ key))
    else if pvChecks then (.ok ⟨⟩, cache)
    else
      match runInputs vm ctx flags 0 inputs with
      | .error failure => (.error failure, cache)
      | .ok _ => (.ok ⟨⟩, if cacheFullScriptStore ∧ ¬ bypass_script_cache then key :: cache else cache)

end Check

variable {program : Bytes} {script spk : CScript} {stack : List Bytes} {flags : ScriptFlags}
  {inputs : SpentInputs} {scan : WitnessScan}

section Quiet

variable {Κ σ : Type} {vm : Interpreter Κ σ} {flags : ScriptFlags} {sigversion : EvalVersion}
  {execdata : ExecData} (ctx ctx' : Κ)

def OpQuiet (flags : ScriptFlags) (sigversion : EvalVersion) (execdata : ExecData) (opcode : UInt8) : Prop :=
  isCovenantOp flags opcode = false ∨ sigversion ≠ .TAPSCRIPT ∨ execdata.witness_version ≠ 1

theorem evalOp_quiet {opcode : UInt8} (quiet : OpQuiet flags sigversion execdata opcode)
    (push : Bytes) (s : σ) : evalOp vm ctx flags sigversion execdata opcode push s =
      evalOp vm ctx' flags sigversion execdata opcode push s := by
  unfold evalOp
  congr 1
  funext s
  -- Behind the limits the two runs differ at most in what the covenant opcodes see.
  rcases quiet with plain | other | version
  · simp [plain]
  · simp [other]
  · simp [version]

theorem evalLoop_quiet {fuel : Nat}
    (quiet : ∀ opcode ∈ scriptOps fuel script, OpQuiet flags sigversion execdata opcode) (s : σ) :
    evalLoop vm ctx flags sigversion execdata fuel script s =
      evalLoop vm ctx' flags sigversion execdata fuel script s := by
  induction fuel generalizing script s with
  | zero => cases script <;> rfl
  | succ fuel ih =>
    cases script with
    | nil => rfl
    | cons byte rest =>
      rw [evalLoop, evalLoop]
      rw [scriptOps] at quiet
      cases read : getScriptOp (byte :: rest) with
      | none => rfl
      | some result =>
        obtain ⟨opcode, push, tail⟩ := result
        simp only [read, List.mem_cons, forall_eq_or_imp] at quiet
        simp only
        -- The instruction does the same under both contexts, and so do the ones behind it.
        rw [evalOp_quiet ctx ctx' quiet.1]
        congr 1
        funext next
        exact ih quiet.2 next

theorem evalScript_quiet
    (quiet : ∀ opcode ∈ scriptOps script.length script, OpQuiet flags sigversion execdata opcode) :
    evalScript vm ctx flags sigversion execdata script stack =
      evalScript vm ctx' flags sigversion execdata script stack := by
  unfold evalScript
  rw [evalLoop_quiet ctx ctx' quiet]

theorem executeWitnessScript_quiet
    (quiet : ∀ opcode ∈ scriptOps script.length script, OpQuiet flags sigversion execdata opcode) :
    executeWitnessScript vm ctx flags sigversion execdata stack script =
      executeWitnessScript vm ctx' flags sigversion execdata stack script := by
  unfold executeWitnessScript runWitnessScript
  rw [evalScript_quiet ctx ctx' quiet]

theorem opQuiet_of_sigversion (other : sigversion ≠ .TAPSCRIPT) (opcode : UInt8) :
    OpQuiet flags sigversion execdata opcode := .inr (.inl other)

variable {version : Nat} {witness : List Bytes}

theorem verifyTaproot_quiet
    (quiet : ∀ below script control, (splitAnnex witness).1 = below ++ [script, control] →
       controlSizeOk control = true →
       control.getD 0 0 &&& TAPROOT_LEAF_MASK = TAPROOT_LEAF_TAPSCRIPT → version = 1 →
       ∀ opcode ∈ scriptOps script.length script, isCovenantOp flags opcode = false) :
    verifyTaproot vm ctx flags version program witness =
      verifyTaproot vm ctx' flags version program witness := by
  unfold verifyTaproot
  split
  · rfl
  · rfl
  · next control script below turned =>
    have stack : (splitAnnex witness).1 = below.reverse ++ [script, control] := by
      rw [← List.reverse_reverse (splitAnnex witness).1, turned]
      simp
    unfold verifyScriptPath
    dsimp only
    by_cases size : controlSizeOk control = true
    · by_cases leaf : control.getD 0 0 &&& TAPROOT_LEAF_MASK = TAPROOT_LEAF_TAPSCRIPT
      · -- The leaf is run: either the scan has seen it, or the version refuses the opcodes.
        rw [executeWitnessScript_quiet ctx ctx']
        intro opcode member
        by_cases one : version = 1
        · exact .inl (quiet _ _ _ stack size leaf one opcode member)
        · exact .inr (.inr one)
      · simp only [leaf, if_false]
    · rw [if_pos size, if_pos size]

theorem verifyWitnessProgram_quiet {is_p2sh : Bool}
    (quiet : version = 1 → program.length = 32 → is_p2sh = false →
      ∀ below script control, (splitAnnex witness).1 = below ++ [script, control] →
        controlSizeOk control = true → control.getD 0 0 &&& TAPROOT_LEAF_MASK = TAPROOT_LEAF_TAPSCRIPT →
        ∀ opcode ∈ scriptOps script.length script, isCovenantOp flags opcode = false) :
    verifyWitnessProgram vm ctx flags witness version program is_p2sh =
      verifyWitnessProgram vm ctx' flags witness version program is_p2sh := by
  unfold verifyWitnessProgram
  split_ifs with zero long short two one taproot
  · -- Version 0 runs without the opcodes.
    split
    · rfl
    · split_ifs
      · rfl
      · exact executeWitnessScript_quiet ctx ctx' fun _ _ => opQuiet_of_sigversion (by decide) _
  · rfl
  · exact executeWitnessScript_quiet ctx ctx' fun _ _ => opQuiet_of_sigversion (by decide) _
  · rfl
  · obtain ⟨rfl, size, direct⟩ := one
    exact verifyTaproot_quiet ctx ctx' fun below script control stack sized leaf _ =>
      quiet rfl size (by simpa using direct) below script control stack sized leaf
  · rfl
  · exact verifyTaproot_quiet ctx ctx' fun _ _ _ _ _ _ one => absurd one (by decide)
  · rfl
  · rfl
  · rfl
  · rfl

end Quiet

theorem splitAnnex_eq_take (stack : List Bytes) : (splitAnnex stack).1 = stack.take
      (if 2 ≤ stack.length ∧ (stack.getLast?.getD []).head? = some ANNEX_TAG then stack.length - 1
        else stack.length) := by
  unfold splitAnnex
  split
  · next tag body last =>
    simp only [last, Option.getD_some, List.head?_cons, Option.some.injEq]
    split_ifs
    · rw [List.dropLast_eq_take]
    · rw [List.take_length]
  · next other =>
    have untagged : (stack.getLast?.getD []).head? ≠ some ANNEX_TAG := by
      cases last : stack.getLast? with
      | none => simp
      | some element =>
        cases element with
        | nil => simp
        | cons tag body => exact absurd last (other tag body)
    rw [if_neg fun annexed => untagged annexed.2, List.take_length]

theorem scannedLeaf_eq_some {below : List Bytes} {script control : Bytes}
    (output : isWitnessProgram spk = some (1, program)) (size : program.length = 32)
    (path : (splitAnnex stack).1 = below ++ [script, control])
    (sized : controlSizeOk control = true)
    (leaf : control.getD 0 0 &&& TAPROOT_LEAF_MASK = TAPROOT_LEAF_TAPSCRIPT) :
    scannedLeaf spk stack = some script := by
  rw [splitAnnex_eq_take] at path
  unfold scannedLeaf
  rw [output]
  simp only [ne_eq, not_true_eq_false, size, or_self, if_false]
  have within : (if 2 ≤ stack.length ∧ (stack.getLast?.getD []).head? = some ANNEX_TAG then
      stack.length - 1 else stack.length) ≤ stack.length := by
    split_ifs <;> omega
  generalize (if 2 ≤ stack.length ∧ (stack.getLast?.getD []).head? = some ANNEX_TAG then
    stack.length - 1 else stack.length) = n at path within ⊢
  -- The last two of the first `n` elements are the control block and the script.
  obtain rfl : n = below.length + 2 := by
    have lengths := congrArg List.length path
    simp only [List.length_take, List.length_append, List.length_cons, List.length_nil] at lengths
    omega
  have at_ : ∀ k < below.length + 2, stack.getD k [] = (below ++ [script, control]).getD k [] := by
    intro k bound
    rw [← path, List.getD_eq_getElem?_getD, List.getD_eq_getElem?_getD, List.getElem?_take_of_lt bound]
  have control_at : stack.getD (below.length + 2 - 1) [] = control := by
    rw [at_ _ (by omega)]
    simp [List.getD_eq_getElem?_getD]
  have script_at : stack.getD (below.length + 2 - 2) [] = script := by
    rw [at_ _ (by omega)]
    simp [List.getD_eq_getElem?_getD]
  rw [if_neg (by omega), control_at, script_at, if_neg (by simp [sized]), if_neg (not_not_intro leaf)]

def InputQuiet (flags : ScriptFlags) (input : CTxIn × CTxOut) : Prop :=
  ∀ leaf, scannedLeaf input.2.scriptPubKey input.1.scriptWitness = some leaf →
    ∀ opcode ∈ scriptOps leaf.length leaf, isCovenantOp flags opcode = false

theorem scanDiffCfdWitness_reads (silent : (scanDiffCfdWitness scan spk stack).reads = false) :
    scan.reads = false ∧ ∀ leaf, scannedLeaf spk stack = some leaf →
      OP_DIFFCFD_SETTLE ∉ scriptOps leaf.length leaf ∧ OP_NBITS_AT ∉ scriptOps leaf.length leaf := by
  unfold scanDiffCfdWitness at silent
  split at silent
  · next hidden => exact ⟨silent, by simp [hidden]⟩
  · next leaf found =>
    simp only [Bool.or_eq_false_iff, decide_eq_false_iff_not] at silent
    refine ⟨silent.1.1, ?_⟩
    rintro other same
    obtain rfl := Option.mem_unique found same
    exact ⟨silent.1.2, silent.2⟩

theorem scanScalarCfdWitness_reads (silent : (scanScalarCfdWitness scan spk stack).reads = false) :
    scan.reads = false ∧ ∀ leaf, scannedLeaf spk stack = some leaf →
      OP_SCALAR_CFD_SETTLE ∉ scriptOps leaf.length leaf := by
  unfold scanScalarCfdWitness at silent
  split at silent
  · next hidden => exact ⟨silent, by simp [hidden]⟩
  · next leaf found =>
    split_ifs at silent with present
    refine ⟨silent, ?_⟩
    rintro other same
    obtain rfl := Option.mem_unique found same
    exact present

theorem foldl_reads {step : WitnessScan → CTxIn × CTxOut → WitnessScan} {P : CTxIn × CTxOut → Prop}
    (each : ∀ scan i, (step scan i).reads = false → scan.reads = false ∧ P i)
    (silent : (inputs.foldl step scan).reads = false) : scan.reads = false ∧ ∀ i ∈ inputs, P i := by
  induction inputs generalizing scan with
  | nil => exact ⟨silent, by simp⟩
  | cons input rest ih =>
    obtain ⟨stepped, others⟩ := ih silent
    obtain ⟨before, here⟩ := each scan input stepped
    exact ⟨before, List.forall_mem_cons.2 ⟨here, others⟩⟩

theorem inputQuiet_of_scans (diff : (scanDiff inputs).reads = false)
    (scalar : (scanScalar flags inputs).reads = false) {input : CTxIn × CTxOut}
    (member : input ∈ inputs) : InputQuiet flags input := by
  intro leaf found opcode inside
  have no_diff : OP_DIFFCFD_SETTLE ∉ scriptOps leaf.length leaf ∧ OP_NBITS_AT ∉ scriptOps leaf.length leaf := by
    unfold scanDiff at diff
    exact (foldl_reads (fun _ _ silent => scanDiffCfdWitness_reads silent) diff).2 input member
      leaf found
  have settle : opcode ≠ OP_DIFFCFD_SETTLE := fun same => no_diff.1 (same ▸ inside)
  have nbits : opcode ≠ OP_NBITS_AT := fun same => no_diff.2 (same ▸ inside)
  have resolved : ¬ (opcode = OP_SCALAR_CFD_SETTLE ∧ flags.SCALAR_CFD = true) := by
    rintro ⟨same, active⟩
    rw [scanScalar, if_pos active] at scalar
    exact (foldl_reads (fun _ _ silent => scanScalarCfdWitness_reads silent) scalar).2 input member
      leaf found (same ▸ inside)
  simpa [isCovenantOp, settle, nbits] using resolved

section Runs

variable {Κ σ : Type}

theorem verifyScript_quiet {vm : Interpreter Κ σ} (ctx ctx' : Κ)
    {input : CTxIn × CTxOut} (quiet : InputQuiet flags input) :
    verifyScript vm ctx flags input.1.scriptSig input.2.scriptPubKey input.1.scriptWitness =
      verifyScript vm ctx' flags input.1.scriptSig input.2.scriptPubKey input.1.scriptWitness := by
  have base : ∀ script stack, evalScript vm ctx flags .BASE {} script stack =
      evalScript vm ctx' flags .BASE {} script stack := fun script stack =>
    evalScript_quiet ctx ctx' fun _ _ => opQuiet_of_sigversion (by decide) _
  -- Behind a script hash a witness program of version 1 is not run as taproot.
  have nested : ∀ version program, verifyWitnessProgram vm ctx flags input.1.scriptWitness version
      program true = verifyWitnessProgram vm ctx' flags input.1.scriptWitness version program true :=
    fun _ _ => verifyWitnessProgram_quiet ctx ctx' fun _ _ nope => by cases nope
  have redeem : ∀ stack, verifyRedeemScript vm ctx flags input.1.scriptSig input.1.scriptWitness stack =
      verifyRedeemScript vm ctx' flags input.1.scriptSig input.1.scriptWitness stack := by
    intro stack
    unfold verifyRedeemScript
    simp only [base, nested]
  -- A program that is spent directly is the one that the scans look at.
  have direct : ∀ version program, isWitnessProgram input.2.scriptPubKey = some (version, program) →
      verifyWitnessProgram vm ctx flags input.1.scriptWitness version program false =
        verifyWitnessProgram vm ctx' flags input.1.scriptWitness version program false := by
    intro version program output
    refine verifyWitnessProgram_quiet ctx ctx' ?_
    rintro rfl size _ below script control path sized leaf
    exact quiet script (scannedLeaf_eq_some output size path sized leaf)
  unfold verifyScript
  simp only [base, redeem]
  cases output : isWitnessProgram input.2.scriptPubKey with
  | none => simp
  | some witness =>
    obtain ⟨version, program⟩ := witness
    by_cases segwit : flags.WITNESS = true
    · simp only [segwit, if_true, direct version program output]
    · simp only [segwit, Bool.false_eq_true, if_false]

theorem runInputs_quiet {vm : Nat → Interpreter Κ σ} (ctx ctx' : Κ) {index : Nat}
    (quiet : ∀ input ∈ inputs, InputQuiet flags input) (passed : runInputs vm ctx flags index inputs = .ok ⟨⟩) :
    runInputs vm ctx' flags index inputs = .ok ⟨⟩ := by
  induction inputs generalizing index with
  | nil => rfl
  | cons input rest ih =>
    obtain ⟨here, others⟩ := List.forall_mem_cons.1 quiet
    rw [runInputs] at passed ⊢
    have same : inputCheck vm ctx flags index input = inputCheck vm ctx' flags index input :=
      verifyScript_quiet ctx ctx' here
    rw [← same]
    cases check : inputCheck vm ctx flags index input with
    | error failure => simp [check] at passed
    | ok _ =>
      simp only [check] at passed
      exact ih others passed

theorem checkInputScripts_stored {vm : Nat → Interpreter Κ σ} {ctx : Κ}
    {coinbase burnExempt pvChecks : Bool} {key : CacheKey} {cacheFullScriptStore : Bool}
    {cache : List CacheKey} (fresh : key ∉ cache)
    (stored :
       key ∈
         (checkInputScripts vm ctx flags coinbase burnExempt pvChecks key inputs
            cacheFullScriptStore cache).2) :
    runInputs vm ctx flags 0 inputs = .ok ⟨⟩ ∧ (scanDiff inputs).reads = false ∧
    (scanScalar flags inputs).reads = false := by
  unfold checkInputScripts at stored
  dsimp only at stored
  split_ifs at stored with _ _ _ hit _ _ storing
  · exact absurd stored fresh
  · exact absurd stored fresh
  · exact absurd stored fresh
  -- A hit stores nothing new.
  · exact absurd hit.2 fresh
  · exact absurd hit.2 fresh
  · exact absurd stored fresh
  · split at stored
    · exact absurd stored fresh
    · next passed => exact ⟨passed, by simpa using storing.2⟩
  · split at stored <;> exact absurd stored fresh

/-- **Cached results do not depend on the context.** A transaction stored under one context passes
under every other; and an input whose check differs is reported by a scan. -/
theorem cached_result_context_free (vm : Nat → Interpreter Κ σ) (ctx ctx' : Κ) (flags : ScriptFlags)
    (coinbase burnExempt pvChecks : Bool) (key : CacheKey) (inputs : SpentInputs)
    (cacheFullScriptStore : Bool) (cache : List CacheKey) :
    (key ∉ cache → key ∈ (checkInputScripts vm ctx flags coinbase burnExempt pvChecks key inputs
        cacheFullScriptStore cache).2 → runInputs vm ctx' flags 0 inputs = .ok ⟨⟩) ∧
      ∀ input ∈ inputs, ∀ index, inputCheck vm ctx flags index input ≠ inputCheck vm ctx' flags index input →
        (scanDiff inputs).reads = true ∨ (scanScalar flags inputs).reads = true := by
  refine ⟨fun fresh stored => ?_, fun input member index differs => ?_⟩
  · obtain ⟨passed, diff, scalar⟩ := checkInputScripts_stored fresh stored
    exact runInputs_quiet ctx ctx' (fun _ => inputQuiet_of_scans diff scalar) passed
  · by_contra unseen
    rw [not_or, Bool.not_eq_true, Bool.not_eq_true] at unseen
    exact differs (verifyScript_quiet ctx ctx' (inputQuiet_of_scans unseen.1 unseen.2 member))

def stackMachine (_index : Nat) : Interpreter Bool (List Bytes) where
  start _ _ stack := stack
  executing _ := true
  enter _ _ _ _ stack := .ok stack
  plain _ _ opcode push stack := .ok (stack ++ [if opcode = OP_1 then [1] else push])
  covenant ctx _ stack := if ctx then .ok (stack ++ [[1]]) else .error "SCRIPT_ERR_DIFFCFD_CONTEXT"
  leave stack := .ok stack
  finish stack := .ok stack
  castToBool element := element.any (· ≠ 0)
  isOpSuccess _ := false
  sha256 element := element
  keyPath _ _ _ := false
  taprootCommitment _ _ _ _ := true

def annexedSpend (leaf : CScript) : CTxIn × CTxOut :=
  ({ prevout := ⟨1, 0⟩, scriptSig := [], nSequence := 0,
     scriptWitness := [leaf, TAPROOT_LEAF_TAPSCRIPT :: List.replicate 32 1, [ANNEX_TAG]] },
   { nValue := 1, scriptPubKey := OP_1 :: 32 :: List.replicate 32 1, vExt := [] })

theorem cached_result_context_free_annexed :
    runInputs stackMachine false ⟨0x20801⟩ 0 [annexedSpend [OP_1]] = .ok ⟨⟩ ∧
    (scanDiff [annexedSpend [OP_NBITS_AT]]).reads = true := by
  refine ⟨(cached_result_context_free stackMachine true false ⟨0x20801⟩ false false false
    (0, ⟨0x20801⟩) [annexedSpend [OP_1]] true []).1 (by decide) (by decide), ?_⟩
  have seen := (cached_result_context_free stackMachine true false ⟨0x20801⟩ false false false
    (0, ⟨0x20801⟩) [annexedSpend [OP_NBITS_AT]] true []).2 _ (List.mem_singleton_self _) 0 (by decide)
  exact seen.resolve_right (by decide)

end Runs

end TensorCash
