import TensorCash.Wallet.CrossChainSwap

/-! `CrossChainSwapManager` reports a transition under a `std::mutex` that it already holds. -/

namespace TensorCash

inductive SwapEventType where
  | STATE_CHANGED | COMPLETED
deriving DecidableEq

structure SwapEvent where
  type : SwapEventType
  swap_id : String
  old_state : CrossChainState
  new_state : CrossChainState
  external_conf_depth : UInt32 := 0
  tsc_conf_depth : UInt32 := 0
deriving DecidableEq

/-- The manager as one of its threads sees it, with records and heard events. -/
structure SwapManager where
  m_active_swaps : String → Option SwapContext
  records : String → Option CrossChainRecord
  m_event_callbacks : Nat := 0
  heard : List SwapEvent := []
  /-- This thread holds `m_cs_manager`. -/
  holds : Bool := false

/-- How a call ends: it returns, or it waits for a mutex that its own thread holds. -/
inductive CallResult (α : Type) where
  | returns (value : α) (manager : SwapManager)
  | waitsForItself (manager : SwapManager)

namespace SwapManager

variable {α : Type}

def next {β : Type} (first : CallResult α) (rest : α → SwapManager → CallResult β) : CallResult β :=
  match first with
  | .returns value m => rest value m
  | .waitsForItself m => .waitsForItself m

/-- `std::lock_guard<std::mutex>` around a body. -/
def lockGuard (body : SwapManager → CallResult α) (m : SwapManager) : CallResult α :=
  if m.holds then .waitsForItself m
  else next (body { m with holds := true }) fun value m => .returns value { m with holds := false }

/-- `EmitEvent`: the callbacks are copied under the mutex and run without it. -/
def emitEvent (event : SwapEvent) (m : SwapManager) : CallResult Unit :=
  next (lockGuard (fun m => .returns m.m_event_callbacks m) m) fun callbacks m =>
    .returns () { m with heard := m.heard ++ List.replicate callbacks event }

def setActive (m : SwapManager) (swap_id : String) (ctx : Option SwapContext) : SwapManager :=
  { m with m_active_swaps := Function.update m.m_active_swaps swap_id ctx }

def updateCrossChainState (written : CrossChainState → Bool) (m : SwapManager) (swap_id : String)
    (new_state : CrossChainState) : Option SwapManager :=
  match m.records swap_id with
  | none => none
  | some record =>
    if record.state.isValidCrossChainTransition new_state && written new_state then
      some { m with
        records := Function.update m.records swap_id (some { record with state := new_state }) }
    else none

def advanceState (written : CrossChainState → Bool) (swap_id : String) (target_state : CrossChainState) :
    SwapManager → CallResult Bool :=
  lockGuard fun m =>
    match m.m_active_swaps swap_id with
    | none => .returns false m
    | some ctx =>
      match m.updateCrossChainState written swap_id target_state with
      | none => .returns false m
      | some m =>
        let event : SwapEvent := {
          type := .STATE_CHANGED
          swap_id
          old_state := ctx.state
          new_state := target_state
          external_conf_depth := ctx.external_conf_depth
          tsc_conf_depth := ctx.tsc_conf_depth }
        next (emitEvent event (m.setActive swap_id (some { ctx with state := target_state }))) fun _ m =>
          if target_state.isTerminal then
            let completed : SwapEvent := {
              type := if target_state = .COMPLETED then .COMPLETED else .STATE_CHANGED
              swap_id
              old_state := ctx.state
              new_state := target_state }
            next (emitEvent completed (m.setActive swap_id none)) fun _ m => .returns true m
          else .returns true m

def Completes (written : CrossChainState → Bool) (m : SwapManager) (swap_id : String)
    (target_state : CrossChainState) : Prop :=
  ∃ after, advanceState written swap_id target_state m = .returns true after ∧
    if target_state.isTerminal then after.m_active_swaps swap_id = none
    else (after.m_active_swaps swap_id).map SwapContext.state = (after.records swap_id).map CrossChainRecord.state

theorem emitEvent_held {m : SwapManager} (held : m.holds = true) (event : SwapEvent) :
    emitEvent event m = .waitsForItself m := by
  simp [emitEvent, lockGuard, next, held]

theorem holds_of_updateCrossChainState {written : CrossChainState → Bool} {m after : SwapManager}
    {swap_id : String} {new_state : CrossChainState}
    (updated : m.updateCrossChainState written swap_id new_state = some after) : after.holds = m.holds := by
  unfold updateCrossChainState at updated
  split at updated
  · cases updated
  · split at updated
    · cases updated
      rfl
    · cases updated

/-- For every registered swap and accepted target, the transition is written to the wallet and to
memory, and then the call waits for the mutex that it holds itself. -/
theorem accepted_transition_never_returns {written : CrossChainState → Bool} {m : SwapManager}
    {swap_id : String} {ctx : SwapContext} {target_state : CrossChainState} {wallet : SwapManager}
    (free : m.holds = false) (registered : m.m_active_swaps swap_id = some ctx)
    (accepted : updateCrossChainState written { m with holds := true } swap_id target_state = some wallet) :
    advanceState written swap_id target_state m =
        .waitsForItself (wallet.setActive swap_id (some { ctx with state := target_state })) ∧
      ¬ Completes written m swap_id target_state := by
  have held : (wallet.setActive swap_id (some { ctx with state := target_state })).holds = true :=
    holds_of_updateCrossChainState accepted
  have waits : advanceState written swap_id target_state m =
      .waitsForItself (wallet.setActive swap_id (some { ctx with state := target_state })) := by
    simp only [advanceState, lockGuard, free, Bool.false_eq_true, if_false, registered, accepted]
    rw [emitEvent_held held]
    rfl
  refine ⟨waits, ?_⟩
  rintro ⟨after, returned, _⟩
  rw [waits] at returned
  cases returned

def oneSwap : SwapManager where
  m_active_swaps swap_id := if swap_id = "swap" then some { state := .FUNDING_PREPARED } else none
  records swap_id := if swap_id = "swap" then some { state := .FUNDING_PREPARED } else none

/-- The swap cannot be moved on. -/
theorem accepted_transition_never_returns_for_one :
    ¬ Completes (fun _ => true) oneSwap "swap" .COUNTERPARTY_LOCK_SEEN :=
  (accepted_transition_never_returns rfl rfl rfl).2

/-- The wallet accepts the transition of a swap that the manager knows, and the call waits for
itself. -/
theorem transition_waits_for_itself :
    (oneSwap.m_active_swaps "swap").isSome = true ∧
    (updateCrossChainState (fun _ => true) oneSwap "swap" .COUNTERPARTY_LOCK_SEEN).isSome = true ∧
    ∀ value after,
      advanceState (fun _ => true) "swap" .COUNTERPARTY_LOCK_SEEN oneSwap ≠
        .returns value after := by
  refine ⟨rfl, rfl, ?_⟩
  intro value after returned
  cases returned

end SwapManager

end TensorCash
