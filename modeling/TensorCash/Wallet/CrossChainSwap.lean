import TensorCash.Primitives.Serialize

/-! Each cycle loads a record, asks the backend and files what it learned; any write may fail. -/

namespace TensorCash

inductive CrossChainState where
  | DRAFT | POSTED | MATCHED | SESSION_ESTABLISHED | TERMS_FINALIZED | FUNDING_PREPARED
  | COUNTERPARTY_LOCK_SEEN | COUNTERPARTY_LOCK_CONFIRMED | LOCAL_LOCK_CONFIRMED
  | CLAIM_READY | CLAIM_BROADCAST | EMERGENCY_CLAIM | CLAIM_CONFIRMED
  | REFUND_READY | REFUND_BROADCAST | REFUNDED | COMPLETED | ABORTED
deriving DecidableEq

namespace CrossChainState

def successors : CrossChainState → List CrossChainState
  | DRAFT => [POSTED, ABORTED]
  | POSTED => [MATCHED, ABORTED]
  | MATCHED => [SESSION_ESTABLISHED, ABORTED]
  | SESSION_ESTABLISHED => [TERMS_FINALIZED, ABORTED]
  | TERMS_FINALIZED => [FUNDING_PREPARED, ABORTED]
  | FUNDING_PREPARED => [COUNTERPARTY_LOCK_SEEN, LOCAL_LOCK_CONFIRMED, ABORTED]
  | COUNTERPARTY_LOCK_SEEN => [COUNTERPARTY_LOCK_CONFIRMED, ABORTED]
  | COUNTERPARTY_LOCK_CONFIRMED => [LOCAL_LOCK_CONFIRMED, CLAIM_READY, REFUND_READY, ABORTED]
  | LOCAL_LOCK_CONFIRMED => [COUNTERPARTY_LOCK_SEEN, CLAIM_READY, REFUND_READY]
  | CLAIM_READY => [CLAIM_BROADCAST, REFUND_READY]
  | CLAIM_BROADCAST => [CLAIM_CONFIRMED, EMERGENCY_CLAIM, COMPLETED]
  | EMERGENCY_CLAIM => [CLAIM_CONFIRMED, COMPLETED]
  | CLAIM_CONFIRMED => [COMPLETED]
  | REFUND_READY => [REFUND_BROADCAST]
  | REFUND_BROADCAST => [REFUNDED]
  | REFUNDED | COMPLETED | ABORTED => []

def isTerminal (state : CrossChainState) : Bool := state = REFUNDED || state = COMPLETED || state = ABORTED

def claimed (state : CrossChainState) : Bool :=
  state = CLAIM_BROADCAST || state = EMERGENCY_CLAIM || state = CLAIM_CONFIRMED || state = COMPLETED

def refunding (state : CrossChainState) : Bool :=
  state = REFUND_READY || state = REFUND_BROADCAST || state = REFUNDED

def isValidCrossChainTransition (source target : CrossChainState) : Bool := source.successors.contains target

theorem claimed_of_transition {source target : CrossChainState}
    (valid : isValidCrossChainTransition source target = true) (was : source.claimed = true) :
    target.claimed = true := by
  cases source <;> cases target <;> revert valid was <;> decide

theorem refunding_of_transition {source target : CrossChainState}
    (valid : isValidCrossChainTransition source target = true) (was : source.refunding = true) :
    target.refunding = true := by
  cases source <;> cases target <;> revert valid was <;> decide

theorem not_refunding_of_claimed {state : CrossChainState} (claimed : state.claimed = true) :
    state.refunding = false := by
  cases state <;> revert claimed <;> decide

end CrossChainState

structure CrossChainRecord where
  state : CrossChainState
  tsc_funding_txid : Option Uint256 := none
  external_conf_depth : UInt32 := 0
  tsc_conf_depth : UInt32 := 0
  fee_escalation_level : UInt32 := 0
  oracle_attestation : String := ""
  htlc_contract_address : String := ""
  htlc_swap_id : String := ""
  external_signer_ref : String := ""
  claim_secret : String := ""
  claim_tx_hash : String := ""
  refund_tx_hash : String := ""
  external_lock_tx_hash : String := ""
  htlc_timelock : Int := 0

structure SwapContext where
  state : CrossChainState
  external_conf_depth : UInt32 := 0
  tsc_conf_depth : UInt32 := 0
  fee_escalation_level : UInt32 := 0
  last_fee_bump_time : Int := 0
  tsc_funding_txid : Option Uint256 := none
  claim_budget_seconds : Int := 0
  reorg_margin_seconds : Int := 0
  external_min_conf : UInt32 := 0
  tsc_min_conf : UInt32 := 0

inductive BackendCall where
  | claim (success : Bool)
  | refund (success : Bool)
deriving DecidableEq

/-- A swap: its record, its entry in `m_active_swaps`, and the calls made for it. -/
structure Swap where
  record : CrossChainRecord
  active : Option SwapContext
  calls : List BackendCall := []

structure HtlcStatus where
  state : Int := 0
  confirmation_depth : Int := 0
  lock_tx_hash : String := ""
  timelock : Int := 0

structure TxResult where
  success : Bool
  tx_hash : String := ""

structure AttestationResult where
  valid : Bool := false
  swap_id : String := ""

/-- The clock, the backends' answers and which writes succeed. -/
structure Cycle where
  now : Int
  feeNow : Int := now
  oracle_pubkey : String := ""
  status : HtlcStatus := {}
  secondary : Option HtlcStatus := none
  lockOnChain : Bool := false
  attestation : AttestationResult := {}
  claim : TxResult := ⟨false, ""⟩
  refund : TxResult := ⟨false, ""⟩
  artifactsWritten : Bool := true
  stateWritten : CrossChainState → Bool := fun _ => true
  monitoringWritten : Bool := true

namespace Swap

/-- `AdvanceState`: the record moves first, if it may, then the entry. -/
def advanceState (w : Cycle) (s : Swap) (target : CrossChainState) : Swap :=
  match s.active with
  | none => s
  | some ctx =>
    if s.record.state.isValidCrossChainTransition target && w.stateWritten target then
      { s with
        record := { s.record with state := target }
        active := if target.isTerminal then none else some { ctx with state := target } }
    else s

def updateHtlcArtifacts (w : Cycle) (s : Swap)
    (claim_tx_hash refund_tx_hash external_lock_tx_hash : String) (htlc_timelock : Int) : Option Swap :=
  if w.artifactsWritten then
    some { s with
      record := { s.record with claim_tx_hash, refund_tx_hash, external_lock_tx_hash, htlc_timelock } }
  else none

def updateMonitoring (w : Cycle) (s : Swap) (ctx : SwapContext) : Swap :=
  if w.monitoringWritten then
    { s with
      record := { s.record with
        external_conf_depth := ctx.external_conf_depth
        tsc_conf_depth := ctx.tsc_conf_depth
        fee_escalation_level := ctx.fee_escalation_level } }
  else s

/-- `EvaluateTimeouts`, and whether the caller must stop. -/
def evaluateTimeouts (w : Cycle) (s : Swap) (ctx : SwapContext) : Swap × Bool :=
  if s.record.htlc_timelock ≤ 0 then (s, false)
  else
    let seconds_remaining := s.record.htlc_timelock - w.now
    if seconds_remaining ≤ ctx.reorg_margin_seconds ∧
        (ctx.state = .LOCAL_LOCK_CONFIRMED ∨ ctx.state = .CLAIM_READY) then
      (s.advanceState w .REFUND_READY, true)
    else if seconds_remaining ≤ ctx.claim_budget_seconds + ctx.reorg_margin_seconds ∧
        ctx.reorg_margin_seconds < seconds_remaining ∧ ctx.state = .CLAIM_BROADCAST then
      (s.advanceState w .EMERGENCY_CLAIM, true)
    else (s, false)

def evaluateFeeEscalation (w : Cycle) (s : Swap) (ctx : SwapContext) : Swap × SwapContext :=
  if ctx.last_fee_bump_time = 0 then (s, { ctx with last_fee_bump_time := w.feeNow })
  else if 300 * 2 ^ min ctx.fee_escalation_level.toNat 4 ≤ w.feeNow - ctx.last_fee_bump_time then
    let ctx : SwapContext :=
      { ctx with
        fee_escalation_level := ctx.fee_escalation_level + 1
        last_fee_bump_time := w.feeNow }
    (s.updateMonitoring w ctx, ctx)
  else (s, ctx)

def checkTscConfirmations (w : Cycle) (s : Swap) (ctx : SwapContext) : Swap × SwapContext :=
  if ctx.tsc_funding_txid = none ∨ s.record.tsc_funding_txid = none then (s, ctx)
  else
    let ctx' : SwapContext := { ctx with tsc_conf_depth := s.record.tsc_conf_depth }
    (if ctx'.tsc_conf_depth ≠ ctx.tsc_conf_depth then s.updateMonitoring w ctx' else s, ctx')

def readyOnceFunded (w : Cycle) (s : Swap) (ctx : SwapContext) : Swap × SwapContext :=
  let (s, ctx) := s.checkTscConfirmations w ctx
  (if ctx.tsc_min_conf ≤ ctx.tsc_conf_depth then s.advanceState w .CLAIM_READY else s, ctx)

def lockVerified (w : Cycle) (s : Swap) : Bool :=
  if w.oracle_pubkey = "" ∨ s.record.oracle_attestation = "" then w.lockOnChain
  else w.attestation.valid && w.attestation.swap_id = s.record.htlc_swap_id

def fundingPrepared (w : Cycle) (s : Swap) : Swap :=
  if w.status.state = 1 then
    match s.updateHtlcArtifacts w s.record.claim_tx_hash s.record.refund_tx_hash w.status.lock_tx_hash
        w.status.timelock with
    | none => s
    | some s => s.advanceState w .COUNTERPARTY_LOCK_SEEN
  else s

def htlcDepth (status : HtlcStatus) : UInt32 :=
  if 0 ≤ status.confirmation_depth then UInt32.ofInt status.confirmation_depth else 0

def agreedDepth (w : Cycle) : Option UInt32 :=
  if w.status.state ≠ 1 then none
  else match w.secondary with
    | none => some (htlcDepth w.status)
    | some second =>
      if second.state ≠ 1 then none else some (min (htlcDepth w.status) (htlcDepth second))

def counterpartyLockSeen (w : Cycle) (s : Swap) (ctx : SwapContext) : Swap × SwapContext :=
  match agreedDepth w with
  | none => (s, ctx)
  | some depth =>
    let ctx' : SwapContext := { ctx with external_conf_depth := depth }
    let s := if depth ≠ ctx.external_conf_depth then s.updateMonitoring w ctx' else s
    (if ctx'.external_min_conf ≤ depth then s.advanceState w .COUNTERPARTY_LOCK_CONFIRMED else s, ctx')

def counterpartyLockConfirmed (w : Cycle) (s : Swap) (ctx : SwapContext) : Swap × SwapContext :=
  if s.lockVerified w then
    let (s, ctx) := if ctx.tsc_funding_txid ≠ none then s.readyOnceFunded w ctx else (s, ctx)
    ((s.evaluateTimeouts w ctx).1, ctx)
  else (s, ctx)

def localLockConfirmed (w : Cycle) (s : Swap) (ctx : SwapContext) : Swap × SwapContext :=
  if s.lockVerified w then
    let (s, ctx) := s.readyOnceFunded w ctx
    ((s.evaluateTimeouts w ctx).1, ctx)
  else (s, ctx)

def claimReady (w : Cycle) (s : Swap) (ctx : SwapContext) : Swap :=
  let (s, stop) := s.evaluateTimeouts w ctx
  if stop ∨ s.record.claim_secret = "" ∨ s.record.external_signer_ref = "" then s
  else
    let called : Swap := { s with calls := .claim w.claim.success :: s.calls }
    if w.claim.success then
      match called.updateHtlcArtifacts w w.claim.tx_hash s.record.refund_tx_hash
          s.record.external_lock_tx_hash s.record.htlc_timelock with
      | none => called
      | some filed => filed.advanceState w .CLAIM_BROADCAST
    else called

def claimSeen (w : Cycle) (s : Swap) : Option Swap :=
  if s.record.claim_tx_hash ≠ "" ∧ w.status.state = 2 then
    some ((s.advanceState w .CLAIM_CONFIRMED).advanceState w .COMPLETED)
  else none

def claimBroadcast (w : Cycle) (s : Swap) (ctx : SwapContext) : Swap × SwapContext :=
  match s.claimSeen w with
  | some s => (s, ctx)
  | none =>
    let (s, ctx) := s.evaluateFeeEscalation w ctx
    ((s.evaluateTimeouts w ctx).1, ctx)

def emergencyClaim (w : Cycle) (s : Swap) (ctx : SwapContext) : Swap × SwapContext :=
  match s.claimSeen w with
  | some s => (s, ctx)
  | none =>
    let s :=
      if s.record.claim_secret ≠ "" ∧ s.record.external_signer_ref ≠ "" then
        let called : Swap := { s with calls := .claim w.claim.success :: s.calls }
        if w.claim.success ∧ w.claim.tx_hash ≠ s.record.claim_tx_hash then
          (called.updateHtlcArtifacts w w.claim.tx_hash s.record.refund_tx_hash
            s.record.external_lock_tx_hash s.record.htlc_timelock).getD called
        else called
      else s
    s.evaluateFeeEscalation w ctx

def refundReady (w : Cycle) (s : Swap) (ctx : SwapContext) : Swap × SwapContext :=
  if s.record.external_signer_ref = "" then (s, ctx)
  else
    let called : Swap := { s with calls := .refund w.refund.success :: s.calls }
    if w.refund.success then
      match called.updateHtlcArtifacts w s.record.claim_tx_hash w.refund.tx_hash
          s.record.external_lock_tx_hash s.record.htlc_timelock with
      -- A refund that could not be filed ends the cycle without a look at the fee.
      | none => (called, ctx)
      | some filed => (filed.advanceState w .REFUND_BROADCAST).evaluateFeeEscalation w ctx
    else called.evaluateFeeEscalation w ctx

def refundBroadcast (w : Cycle) (s : Swap) (ctx : SwapContext) : Swap × SwapContext :=
  if s.record.refund_tx_hash ≠ "" ∧ w.status.state = 3 then (s.advanceState w .REFUNDED, ctx)
  else s.evaluateFeeEscalation w ctx

def checkSwapHtlc (w : Cycle) (s : Swap) (ctx : SwapContext) : Swap × SwapContext :=
  if s.record.htlc_contract_address = "" ∨ s.record.htlc_swap_id = "" then (s, ctx)
  else
    let ctx : SwapContext :=
      { ctx with tsc_funding_txid := ctx.tsc_funding_txid <|> s.record.tsc_funding_txid }
    match ctx.state with
    | .FUNDING_PREPARED => (s.fundingPrepared w, ctx)
    | .COUNTERPARTY_LOCK_SEEN => s.counterpartyLockSeen w ctx
    | .COUNTERPARTY_LOCK_CONFIRMED => s.counterpartyLockConfirmed w ctx
    | .LOCAL_LOCK_CONFIRMED => s.localLockConfirmed w ctx
    | .CLAIM_READY => (s.claimReady w ctx, ctx)
    | .CLAIM_BROADCAST => s.claimBroadcast w ctx
    | .EMERGENCY_CLAIM => s.emergencyClaim w ctx
    | .REFUND_READY => s.refundReady w ctx
    | .REFUND_BROADCAST => s.refundBroadcast w ctx
    | _ => (s, ctx)

/-- One cycle: a snapshot is checked, and what it learned is merged into the entry. -/
def monitor (w : Cycle) (s : Swap) : Swap :=
  match s.active with
  | none => s
  | some snapshot =>
    let (s, ctx) := s.checkSwapHtlc w snapshot
    { s with
      active := s.active.map fun entry =>
        { entry with
          external_conf_depth := ctx.external_conf_depth
          tsc_conf_depth := ctx.tsc_conf_depth
          fee_escalation_level := ctx.fee_escalation_level
          last_fee_bump_time := ctx.last_fee_bump_time } }

end Swap

/-- The runs of the monitor whose cycles all meet a condition. -/
inductive SwapRun (allowed : Swap → Cycle → Prop) (start : Swap) : Swap → Prop where
  | start : SwapRun allowed start start
  | cycle {s : Swap} {w : Cycle} : SwapRun allowed start s → allowed s w → SwapRun allowed start (s.monitor w)

/-- A refund after a done claim, or a claim after a done refund. -/
def BackendCall.Crosses (later earlier : BackendCall) : Prop :=
  (earlier = .claim true ∧ ∃ success, later = .refund success) ∨
    (earlier = .refund true ∧ ∃ success, later = .claim success)

instance (later earlier : BackendCall) : Decidable (later.Crosses earlier) := by
  cases later <;> cases earlier <;> simp only [BackendCall.Crosses] <;> infer_instance

/-- Manager and record agree after a claim or a refund, and no call crossed another. -/
structure Swap.Safe (s : Swap) : Prop where
  agrees : ∀ ctx ∈ s.active, ctx.state = s.record.state
  claims : .claim true ∈ s.calls → s.record.state.claimed = true
  refunds : .refund true ∈ s.calls → s.record.state.refunding = true
  apart : s.calls.Pairwise fun later earlier => ¬ later.Crosses earlier

/-- A step that calls nothing and moves the record along valid transitions only. -/
structure Swap.Follows (s next : Swap) : Prop where
  calls : next.calls = s.calls
  agrees : (∀ ctx ∈ s.active, ctx.state = s.record.state) → ∀ ctx ∈ next.active, ctx.state = next.record.state
  claimed : s.record.state.claimed = true → next.record.state.claimed = true
  refunding : s.record.state.refunding = true → next.record.state.refunding = true

namespace Swap

theorem Follows.refl (s : Swap) : s.Follows s := ⟨rfl, id, id, id⟩

theorem Follows.trans {s mid next : Swap} (first : s.Follows mid) (second : mid.Follows next) :
    s.Follows next :=
  ⟨second.calls.trans first.calls, second.agrees ∘ first.agrees, second.claimed ∘ first.claimed,
    second.refunding ∘ first.refunding⟩

theorem Safe.follows {s next : Swap} (safe : s.Safe) (step : s.Follows next) : next.Safe where
  agrees := step.agrees safe.agrees
  claims := fun mem => step.claimed (safe.claims (step.calls ▸ mem))
  refunds := fun mem => step.refunding (safe.refunds (step.calls ▸ mem))
  apart := step.calls ▸ safe.apart

variable (w : Cycle) (s : Swap) (ctx : SwapContext)

theorem follows_advanceState (target : CrossChainState) : s.Follows (s.advanceState w target) := by
  unfold advanceState
  split
  · exact .refl s
  · split_ifs with taken ended
    · have valid := (Bool.and_eq_true_iff.mp taken).1
      exact ⟨rfl, fun _ _ mem => absurd mem (by simp), CrossChainState.claimed_of_transition valid,
        CrossChainState.refunding_of_transition valid⟩
    · have valid := (Bool.and_eq_true_iff.mp taken).1
      refine ⟨rfl, fun _ ctx mem => ?_, CrossChainState.claimed_of_transition valid,
        CrossChainState.refunding_of_transition valid⟩
      rw [← Option.mem_some.mp mem]
    · exact .refl s

theorem follows_updateHtlcArtifacts {s next : Swap} {claim refund lock : String} {timelock : Int}
    (filed : s.updateHtlcArtifacts w claim refund lock timelock = some next) : s.Follows next := by
  unfold updateHtlcArtifacts at filed
  split_ifs at filed
  rw [← Option.some.inj filed]
  exact ⟨rfl, id, id, id⟩

theorem follows_updateMonitoring : s.Follows (s.updateMonitoring w ctx) := by
  unfold updateMonitoring
  split_ifs
  · exact ⟨rfl, id, id, id⟩
  · exact .refl s

theorem follows_evaluateTimeouts : s.Follows (s.evaluateTimeouts w ctx).1 := by
  unfold evaluateTimeouts
  dsimp only
  split_ifs
  · exact .refl s
  · exact s.follows_advanceState w _
  · exact s.follows_advanceState w _
  · exact .refl s

theorem follows_evaluateFeeEscalation : s.Follows (s.evaluateFeeEscalation w ctx).1 := by
  unfold evaluateFeeEscalation
  split_ifs
  · exact .refl s
  · exact s.follows_updateMonitoring w _
  · exact .refl s

theorem follows_readyOnceFunded : s.Follows (s.readyOnceFunded w ctx).1 := by
  have checked : s.Follows (s.checkTscConfirmations w ctx).1 := by
    unfold checkTscConfirmations
    dsimp only
    split_ifs
    · exact .refl s
    · exact s.follows_updateMonitoring w _
    · exact .refl s
  unfold readyOnceFunded
  dsimp only
  split_ifs
  · exact checked.trans (follows_advanceState w _ _)
  · exact checked

theorem follows_fundingPrepared : s.Follows (s.fundingPrepared w) := by
  unfold fundingPrepared
  split_ifs
  · split
    · exact .refl s
    · next filed => exact (follows_updateHtlcArtifacts w filed).trans (follows_advanceState w _ _)
  · exact .refl s

theorem follows_counterpartyLockSeen : s.Follows (s.counterpartyLockSeen w ctx).1 := by
  unfold counterpartyLockSeen
  split
  · exact .refl s
  · dsimp only
    split_ifs
    · exact (s.follows_updateMonitoring w _).trans (follows_advanceState w _ _)
    · exact s.follows_advanceState w _
    · exact s.follows_updateMonitoring w _
    · exact .refl s

theorem follows_counterpartyLockConfirmed : s.Follows (s.counterpartyLockConfirmed w ctx).1 := by
  unfold counterpartyLockConfirmed
  split_ifs
  · exact (s.follows_readyOnceFunded w ctx).trans (follows_evaluateTimeouts w _ _)
  · exact s.follows_evaluateTimeouts w ctx
  · exact .refl s

theorem follows_localLockConfirmed : s.Follows (s.localLockConfirmed w ctx).1 := by
  unfold localLockConfirmed
  split_ifs
  · exact (s.follows_readyOnceFunded w ctx).trans (follows_evaluateTimeouts w _ _)
  · exact .refl s

theorem follows_claimSeen {s next : Swap} (seen : s.claimSeen w = some next) : s.Follows next := by
  unfold claimSeen at seen
  split_ifs at seen
  rw [← Option.some.inj seen]
  exact (s.follows_advanceState w _).trans (follows_advanceState w _ _)

theorem follows_claimBroadcast : s.Follows (s.claimBroadcast w ctx).1 := by
  unfold claimBroadcast
  split
  · next seen => exact follows_claimSeen w seen
  · exact (s.follows_evaluateFeeEscalation w ctx).trans (follows_evaluateTimeouts w _ _)

theorem follows_refundBroadcast : s.Follows (s.refundBroadcast w ctx).1 := by
  unfold refundBroadcast
  split_ifs
  · exact s.follows_advanceState w _
  · exact s.follows_evaluateFeeEscalation w ctx

theorem Safe.claim {s next : Swap} {success : Bool} (safe : s.Safe)
    (idle : s.record.state.refunding = false) (calls : next.calls = .claim success :: s.calls)
    (agrees : ∀ ctx ∈ next.active, ctx.state = next.record.state)
    (claims : .claim true ∈ next.calls → next.record.state.claimed = true) : next.Safe := by
  have none_refunded : .refund true ∉ s.calls := fun mem => by simp [safe.refunds mem] at idle
  refine ⟨agrees, claims, fun mem => ?_, ?_⟩
  · rw [calls] at mem
    exact absurd ((List.mem_cons.mp mem).resolve_left (by simp)) none_refunded
  · rw [calls, List.pairwise_cons]
    refine ⟨fun earlier mem crosses => ?_, safe.apart⟩
    rcases crosses with ⟨_, success, wrong⟩ | ⟨rfl, _⟩
    · exact absurd wrong (by simp)
    · exact none_refunded mem

theorem Safe.refund {s : Swap} (safe : s.Safe) (ready : s.record.state = .REFUND_READY)
    (success : Bool) : { s with calls := .refund success :: s.calls }.Safe := by
  have none_claimed : .claim true ∉ s.calls := fun mem => by
    have claimed := safe.claims mem
    rw [ready] at claimed
    exact absurd claimed (by decide)
  refine ⟨safe.agrees, fun mem => ?_, fun _ => by rw [ready]; rfl, ?_⟩
  · exact absurd ((List.mem_cons.mp mem).resolve_left (by simp)) none_claimed
  · rw [List.pairwise_cons]
    refine ⟨fun earlier mem crosses => ?_, safe.apart⟩
    rcases crosses with ⟨rfl, _⟩ | ⟨_, success, wrong⟩
    · exact none_claimed mem
    · exact absurd wrong (by simp)

theorem evaluateTimeouts_of_not_stop (goes : (s.evaluateTimeouts w ctx).2 = false) :
    (s.evaluateTimeouts w ctx).1 = s := by
  revert goes
  unfold evaluateTimeouts
  dsimp only
  split_ifs <;> simp

def ClaimFiled (s : Swap) (w : Cycle) : Prop :=
  ∀ ctx ∈ s.active, ctx.state = .CLAIM_READY → w.claim.success = true →
    w.artifactsWritten = true ∧ w.stateWritten .CLAIM_BROADCAST = true

theorem safe_claimReady {s : Swap} {w : Cycle} {entry : SwapContext} (safe : s.Safe)
    (active : s.active = some entry) (state : entry.state = .CLAIM_READY) (filed : s.ClaimFiled w)
    (ctx : SwapContext) : (s.claimReady w ctx).Safe := by
  have ready : s.record.state = .CLAIM_READY := (safe.agrees entry active).symm.trans state
  have idle : s.record.state.refunding = false := by rw [ready]; rfl
  have unclaimed : .claim true ∉ s.calls := fun mem => by
    have claimed := safe.claims mem
    rw [ready] at claimed
    exact absurd claimed (by decide)
  unfold claimReady
  dsimp only
  split_ifs with stops success
  · exact safe.follows (s.follows_evaluateTimeouts w ctx)
  · -- The claim goes through: the condition says that both writes do too.
    have goes : (s.evaluateTimeouts w ctx).2 = false := by
      simpa using fun stop => stops (Or.inl stop)
    rw [s.evaluateTimeouts_of_not_stop w ctx goes]
    obtain ⟨artifacts, moved⟩ := filed entry active state success
    simp only [updateHtlcArtifacts, artifacts, if_true, advanceState, active, ready, moved, Bool.and_true,
      show CrossChainState.isValidCrossChainTransition .CLAIM_READY .CLAIM_BROADCAST = true from rfl]
    refine Safe.claim safe idle rfl (fun ctx mem => ?_) (fun _ => rfl)
    rw [← Option.mem_some.mp mem]
  · have goes : (s.evaluateTimeouts w ctx).2 = false := by
      simpa using fun stop => stops (Or.inl stop)
    rw [s.evaluateTimeouts_of_not_stop w ctx goes]
    refine Safe.claim safe idle rfl safe.agrees (fun mem => ?_)
    rw [Bool.not_eq_true] at success
    rw [success] at mem
    exact absurd ((List.mem_cons.mp mem).resolve_left (by simp)) unclaimed

theorem safe_emergencyClaim {s : Swap} (safe : s.Safe) (state : s.record.state = .EMERGENCY_CLAIM)
    (w : Cycle) (ctx : SwapContext) : (s.emergencyClaim w ctx).1.Safe := by
  unfold emergencyClaim
  split
  · next seen => exact safe.follows (follows_claimSeen w seen)
  · refine Safe.follows ?_ (follows_evaluateFeeEscalation w _ _)
    have called : { s with calls := .claim w.claim.success :: s.calls }.Safe :=
      safe.claim (by rw [state]; rfl) rfl safe.agrees fun _ => by rw [state]; rfl
    dsimp only
    split_ifs
    · cases written : updateHtlcArtifacts w { s with calls := .claim w.claim.success :: s.calls }
          w.claim.tx_hash s.record.refund_tx_hash s.record.external_lock_tx_hash
          s.record.htlc_timelock with
      | none => exact called
      | some next => exact called.follows (follows_updateHtlcArtifacts w written)
    · exact called
    · exact safe

theorem safe_refundReady {s : Swap} (safe : s.Safe) (state : s.record.state = .REFUND_READY)
    (w : Cycle) (ctx : SwapContext) : (s.refundReady w ctx).1.Safe := by
  have called := safe.refund state w.refund.success
  unfold refundReady
  dsimp only
  split_ifs
  · exact safe
  · split
    · exact called
    · next written =>
      exact called.follows ((follows_updateHtlcArtifacts w written).trans
        ((follows_advanceState w _ _).trans (follows_evaluateFeeEscalation w _ _)))
  · exact called.follows (follows_evaluateFeeEscalation w _ _)

theorem safe_checkSwapHtlc {s : Swap} {w : Cycle} {entry : SwapContext} (safe : s.Safe)
    (active : s.active = some entry) (filed : s.ClaimFiled w) : (s.checkSwapHtlc w entry).1.Safe := by
  have agrees := safe.agrees entry active
  unfold checkSwapHtlc
  dsimp only
  split_ifs
  · exact safe
  · split
    · exact safe.follows (s.follows_fundingPrepared w)
    · exact safe.follows (s.follows_counterpartyLockSeen w _)
    · exact safe.follows (s.follows_counterpartyLockConfirmed w _)
    · exact safe.follows (s.follows_localLockConfirmed w _)
    · next state => exact safe_claimReady safe active state filed _
    · exact safe.follows (s.follows_claimBroadcast w _)
    · next state => exact safe_emergencyClaim safe (agrees.symm.trans state) w _
    · next state => exact safe_refundReady safe (agrees.symm.trans state) w _
    · exact safe.follows (s.follows_refundBroadcast w _)
    · exact safe

theorem safe_monitor {s : Swap} {w : Cycle} (safe : s.Safe) (filed : s.ClaimFiled w) : (s.monitor w).Safe := by
  unfold monitor
  split
  · exact safe
  · next entry active =>
    have checked := safe_checkSwapHtlc safe active filed
    -- The merge keeps the state of the entry.
    refine ⟨fun ctx mem => ?_, checked.claims, checked.refunds, checked.apart⟩
    obtain ⟨old, found, rfl⟩ := Option.mem_map.mp mem
    exact checked.agrees old found

end Swap

/-- As long as the two writes behind a claim that went through succeed, no refund is called after
it, the record never shows one, and no claim is called after a refund that went through. -/
theorem swap_never_refunds_after_claim (start s : Swap) (fresh : start.calls = [])
    (registered : ∀ ctx ∈ start.active, ctx.state = start.record.state)
    (run : SwapRun Swap.ClaimFiled start s) : (.claim true ∈ s.calls → s.record.state.refunding = false) ∧
      s.calls.Pairwise fun later earlier => ¬ later.Crosses earlier := by
  have safe : s.Safe := by
    induction run with
    | start =>
      refine ⟨registered, fun mem => ?_, fun mem => ?_, by rw [fresh]; exact .nil⟩
      · exact absurd mem (by simp [fresh])
      · exact absurd mem (by simp [fresh])
    | cycle _ filed ih => exact Swap.safe_monitor ih filed
  exact ⟨fun mem => CrossChainState.not_refunding_of_claimed (safe.claims mem), safe.apart⟩

namespace SwapScenario

def ready : Swap where
  record :=
    { state := .CLAIM_READY, htlc_contract_address := "contract", htlc_swap_id := "swap",
      external_signer_ref := "signer", claim_secret := "secret", htlc_timelock := 1000 }
  active := some { state := .CLAIM_READY, reorg_margin_seconds := 100 }

def claims : Cycle := { now := 800, claim := ⟨true, "claim"⟩ }

def claimsUnfiled : Cycle := { claims with artifactsWritten := false }

def late : Cycle := { now := 900, refund := ⟨true, "refund"⟩ }

end SwapScenario

open SwapScenario in
/-- A claim that is filed is not followed by a refund, however late it gets. -/
theorem filed_claim_is_not_refunded : ((ready.monitor claims).monitor late).calls = [.claim true] ∧
      ((ready.monitor claims).monitor late).record.state.refunding = false := by
  have claimed : SwapRun Swap.ClaimFiled ready (ready.monitor claims) := .cycle .start fun _ _ _ _ => ⟨rfl, rfl⟩
  have run : SwapRun Swap.ClaimFiled ready ((ready.monitor claims).monitor late) :=
    .cycle claimed fun _ _ _ succeeds => absurd succeeds (by decide)
  have registered : ∀ ctx ∈ ready.active, ctx.state = ready.record.state := fun ctx mem => by
    rw [← Option.mem_some.mp mem]
    rfl
  have calls : ((ready.monitor claims).monitor late).calls = [.claim true] := by decide +kernel
  exact ⟨calls, (swap_never_refunds_after_claim ready _ rfl registered run).1 (by rw [calls]; simp)⟩

open SwapScenario in
/-- The secret is revealed, the claim is not filed, and once the margin begins the swap turns to a
refund, which goes through as well. -/
theorem refund_after_unfiled_claim :
    (((ready.monitor claimsUnfiled).monitor late).monitor late).calls = [.refund true, .claim true] ∧
      (((ready.monitor claimsUnfiled).monitor late).monitor late).record.state = .REFUND_BROADCAST := by
  decide +kernel

namespace Swap

def timeoutTarget (htlc_timelock : Int) (ctx : SwapContext) (now : Int) : Option CrossChainState :=
  let seconds_remaining := htlc_timelock - now
  if htlc_timelock ≤ 0 then none
  else if seconds_remaining ≤ ctx.reorg_margin_seconds ∧
      (ctx.state = .LOCAL_LOCK_CONFIRMED ∨ ctx.state = .CLAIM_READY) then some .REFUND_READY
  else if seconds_remaining ≤ ctx.claim_budget_seconds + ctx.reorg_margin_seconds ∧
      ctx.reorg_margin_seconds < seconds_remaining ∧ ctx.state = .CLAIM_BROADCAST then
    some .EMERGENCY_CLAIM
  else none

theorem evaluateTimeouts_eq (w : Cycle) (s : Swap) (ctx : SwapContext) : s.evaluateTimeouts w ctx =
      match timeoutTarget s.record.htlc_timelock ctx w.now with
      | some target => (s.advanceState w target, true)
      | none => (s, false) := by
  unfold evaluateTimeouts timeoutTarget
  dsimp only
  split_ifs <;> rfl

/-- A deadline that moves a swap moves it at every later time to the same target, just when it is
not a broadcast claim within the reorganisation margin of its timelock. -/
theorem deadline_pressure (s : Swap) (ctx : SwapContext) (w later : Cycle) {target : CrossChainState}
    (timelock : 0 < s.record.htlc_timelock)
    (moves : timeoutTarget s.record.htlc_timelock ctx w.now = some target) (after : w.now ≤ later.now) :
    (timeoutTarget s.record.htlc_timelock ctx later.now = some target ∧
        s.evaluateTimeouts later ctx = (s.advanceState later target, true)) ↔
      ¬ (ctx.state = .CLAIM_BROADCAST ∧ s.record.htlc_timelock - later.now ≤ ctx.reorg_margin_seconds) := by
  rw [evaluateTimeouts_eq]
  unfold timeoutTarget at moves ⊢
  simp only [if_neg (not_le.mpr timelock)] at moves ⊢
  split_ifs at moves with refund claim
  · -- The refund window has no end.
    cases moves
    have still : s.record.htlc_timelock - later.now ≤ ctx.reorg_margin_seconds ∧
        (ctx.state = .LOCAL_LOCK_CONFIRMED ∨ ctx.state = .CLAIM_READY) := ⟨by omega, refund.2⟩
    have other : ctx.state ≠ .CLAIM_BROADCAST := by
      rcases refund.2 with is | is <;> rw [is] <;> decide
    simp only [if_pos still, true_and]
    exact iff_of_true trivial fun h => other h.1
  · -- The claim window ends where the refund window begins.
    cases moves
    have broadcast : ctx.state = .CLAIM_BROADCAST := claim.2.2
    simp only [broadcast, and_true, true_and, not_le]
    by_cases inside : ctx.reorg_margin_seconds < s.record.htlc_timelock - later.now
    · have still : s.record.htlc_timelock - later.now ≤ ctx.claim_budget_seconds + ctx.reorg_margin_seconds := by omega
      simp [inside, still]
    · simp [inside]

def timed (state : CrossChainState) : Swap where
  record := { state, htlc_timelock := 1000 }
  active := some { state, claim_budget_seconds := 100, reorg_margin_seconds := 50 }

def timedContext (state : CrossChainState) : SwapContext :=
  { state, claim_budget_seconds := 100, reorg_margin_seconds := 50 }

/-- A claim that could be sent is turned into a refund from 950 on. -/
theorem deadline_pressure_refund :
    timeoutTarget 1000 (timedContext .CLAIM_READY) 5000 = some .REFUND_READY := by
  have moves := (deadline_pressure (timed .CLAIM_READY) (timedContext .CLAIM_READY) { now := 950 }
    { now := 5000 } (by decide) rfl (by decide)).mpr (by decide)
  exact moves.1

/-- A broadcast claim is escalated at 900, and no more at 950 when that round was missed. -/
theorem deadline_pressure_lost :
    timeoutTarget 1000 (timedContext .CLAIM_BROADCAST) 900 = some .EMERGENCY_CLAIM ∧
    timeoutTarget 1000 (timedContext .CLAIM_BROADCAST) 950 = none ∧
    ((timed .CLAIM_BROADCAST).evaluateTimeouts { now := 950 } (timedContext .CLAIM_BROADCAST)).2 =
      false := by
  decide

end Swap

end TensorCash
