import TensorCash.Lib.OrdMap
import TensorCash.Validation.ForkChoice

/-! `ReorgGatingManager` of `validationadvisory.cpp`; each locked section is one step. What no step
reads is left out. -/

namespace TensorCash

namespace ReorgGating

open ForkChoice (ReorgGateState ReorgGatingMode)

inductive ReorgDecision where
  | NONE
  | ACCEPT
  | REJECT
  | TIMEOUT
  | ABORT
deriving DecidableEq

inductive SubmitStatus where
  | OK
  | NO_GATE
  | UNKNOWN_GATE
  | AMBIGUOUS
  | BAD_STATE
deriving DecidableEq

structure ReorgGateWorkSnapshot where
  current_raw_work : Uint256
  candidate_raw_work : Uint256
  penalty_or_policy_driven : Bool
deriving DecidableEq

structure GateEntry extends ForkChoice.ReorgGateEntry where
  generation : Nat
  fork_point_hash : Uint256
  candidate_tip_hash : Uint256
  candidate_height : Int
  current_tip_hash : Uint256
  work : ReorgGateWorkSnapshot
  decision : ReorgDecision
deriving DecidableEq

structure ReorgApprovalState where
  fork_point_hash : Uint256
  anchor_hash : Uint256
  candidate_tip_hash : Uint256
  current_tip_hash : Uint256
  approved_at : Int
deriving DecidableEq

structure GatingConfig extends ForkChoice.ReorgGatingConfig where
  timeout_accept : Bool

def REORG_VETO_TOMBSTONE_SECS : Int := 24 * 60 * 60

/-- Fork point and anchor, in the order of `std::pair`. -/
abbrev GateKey := Uint256 ×ₗ Uint256

def GateEntry.key (entry : GateEntry) : GateKey := toLex (entry.fork_point_hash, entry.anchor_hash)

/-- A run of `HandleTimeout` between its two locked sections: what it has seen of the gate. -/
structure TimeoutLook where
  gate_id : Nat
  generation : Nat
  candidate_tip_hash : Uint256
deriving DecidableEq

/-- The manager's tables. `armed` lists the timers handed to the scheduler, which never forgets one,
and `looks` the runs of `HandleTimeout` that have looked at their gate. -/
structure Manager where
  gates : OrdMap GateKey GateEntry
  next_gate_id : Nat
  next_generation : Nat
  approval : Option ReorgApprovalState
  veto_tombstones : OrdMap Uint256 Int
  armed : List (Nat × Nat)
  looks : List TimeoutLook

def Manager.initial : Manager := ⟨∅, 1, 1, none, ∅, [], []⟩

def findGateById (s : Manager) (gate_id : Nat) : Option (GateKey × GateEntry) :=
  s.gates.entries.find? fun gate => gate.2.gate_id = gate_id

def resolveGate (s : Manager) : Option Nat → Except SubmitStatus (GateKey × GateEntry)
  | some gate_id =>
    match findGateById s gate_id with
    | none => .error .UNKNOWN_GATE
    | some gate => .ok gate
  | none =>
    match s.gates.entries with
    | [] => .error .NO_GATE
    | [gate] => .ok gate
    | _ :: _ :: _ => .error .AMBIGUOUS

def olderPending (found : Option (GateKey × GateEntry)) (gate : GateKey × GateEntry) :
    Option (GateKey × GateEntry) :=
  if gate.2.gate_state ≠ .PENDING then found
  else match found with
    | none => some gate
    | some oldest => if gate.2.gate_id < oldest.2.gate_id then some gate else found

def oldestPending (gates : List (GateKey × GateEntry)) : Option (GateKey × GateEntry) :=
  gates.foldl olderPending none

def recordApprovalFromEntry (now : Int) (entry : GateEntry) : ReorgApprovalState :=
  ⟨entry.fork_point_hash, entry.anchor_hash, entry.candidate_tip_hash, entry.current_tip_hash, now⟩

def convertToVeto (now : Int) (entry : GateEntry) : GateEntry :=
  let ahead := decide (entry.work.current_raw_work < entry.work.candidate_raw_work)
  { entry with
    gate_state := .VETOED
    decision := .REJECT
    vetoed_at := now
    veto_candidate_height := entry.candidate_height
    veto_margin_positive := ahead
    veto_raw_margin := if ahead then entry.work.candidate_raw_work - entry.work.current_raw_work else 0 }

def recordVetoTombstone (now : Int) (tombstones : OrdMap Uint256 Int) (anchor_hash : Uint256) :
    OrdMap Uint256 Int :=
  let noted := tombstones.insert anchor_hash now
  -- Expired ones go whenever a new one is written.
  ⟨noted.entries.filter fun p => decide (now - p.2 ≤ REORG_VETO_TOMBSTONE_SECS), noted.sorted.filter _⟩

def dropVeto (now : Int) (s : Manager) (entry : GateEntry) : Manager :=
  { s with
    gates := s.gates.erase entry.key
    veto_tombstones := recordVetoTombstone now s.veto_tombstones entry.anchor_hash }

def timeoutAcceptAllowed (work : ReorgGateWorkSnapshot) : Bool :=
  work.current_raw_work < work.candidate_raw_work && !work.penalty_or_policy_driven

def setPending (config : GatingConfig) (s : Manager) (candidate_tip_hash : Uint256)
    (candidate_height : Int) (current_tip_hash fork_point_hash anchor_hash : Uint256)
    (work : ReorgGateWorkSnapshot) : Manager × Nat :=
  let key : GateKey := toLex (fork_point_hash, anchor_hash)
  match s.gates.get? key with
  | some entry =>
    match entry.gate_state with
    -- The same reorg with a longer segment: the gate keeps its identity and its timer.
    | .PENDING =>
      let refreshed : GateEntry :=
        { entry with candidate_tip_hash, candidate_height, current_tip_hash, work }
      ({ s with gates := s.gates.insert key refreshed }, entry.gate_id)
    -- The operator has said no; the prompt is not brought back.
    | .VETOED => (s, entry.gate_id)
  | none =>
    let gate_id := s.next_gate_id
    let generation := s.next_generation + 1
    let entry : GateEntry :=
      { gate_id, generation, gate_state := .PENDING, fork_point_hash, anchor_hash, candidate_tip_hash,
        candidate_height, current_tip_hash, work, decision := .NONE, vetoed_at := 0,
        veto_candidate_height := 0, veto_margin_positive := false, veto_raw_margin := 0 }
    ({ s with
        gates := s.gates.insert key entry
        next_gate_id := gate_id + 1
        next_generation := generation
        armed := if config.gating_mode = .MASK then (gate_id, generation) :: s.armed else s.armed }, gate_id)

/-- The raw-work margin over the tip that lifts a veto, in the source's 256-bit arithmetic. -/
def escapeThreshold (config : GatingConfig) (entry : GateEntry) (candidate_block_proof : Uint256) : Uint256 :=
  (if entry.veto_margin_positive then entry.veto_raw_margin else 0) + if 0 < config.veto_growth_blocks then
      candidate_block_proof * Fin.ofNat _ (config.veto_growth_blocks.toNat % 2 ^ 32)
    else 0

def evaluateMask (config : GatingConfig) (now : Int) (s : Manager) (gate_id : Nat)
    (candidate_hash : Uint256) (candidate_height : Int)
    (candidate_raw_work tip_raw_work candidate_block_proof : Uint256) : Manager × Bool :=
  match findGateById s gate_id with
  | none => (s, false)
  | some (key, entry) =>
    match entry.gate_state with
    | .PENDING =>
      -- In block mode the parked wait holds the reorg back.
      if config.gating_mode ≠ .MASK then (s, false)
      -- The best candidate is the one with strictly more raw work, whatever its height.
      else if entry.work.candidate_raw_work < candidate_raw_work then
        let grown : GateEntry :=
          { entry with
            candidate_tip_hash := candidate_hash
            candidate_height
            work := { entry.work with candidate_raw_work, current_raw_work := tip_raw_work } }
        ({ s with gates := s.gates.insert key grown }, true)
      else (s, true)
    | .VETOED =>
      -- A veto ends with its time, with enough blocks, or with enough work over the tip.
      if config.veto_ttl_secs < now - entry.vetoed_at then (dropVeto now s entry, false)
      else if config.veto_growth_blocks ≤ candidate_height - entry.veto_candidate_height then
        (dropVeto now s entry, false)
      else if tip_raw_work < candidate_raw_work ∧
          escapeThreshold config entry candidate_block_proof < candidate_raw_work - tip_raw_work then
        (dropVeto now s entry, false)
      else (s, true)

def submitDecision (config : GatingConfig) (now : Int) (s : Manager) (gate_id : Option Nat)
    (decision : ReorgDecision) : Manager × SubmitStatus :=
  if decision ≠ .ACCEPT ∧ decision ≠ .REJECT then (s, .BAD_STATE)
  else match resolveGate s gate_id with
  | .error status => (s, status)
  | .ok (key, entry) =>
    let generation := s.next_generation + 1
    if config.gating_mode = .BLOCK ∧ entry.gate_state = .PENDING then
      -- The parked waiter acts on the first decision only.
      if entry.decision ≠ .NONE then (s, .BAD_STATE)
      else ({ s with
              gates := s.gates.insert key { entry with generation, decision }
              next_generation := generation }, .OK)
    -- An accepting operator overrides an earlier veto too.
    else if decision = .ACCEPT then
      ({ s with
          gates := s.gates.erase entry.key
          next_generation := generation
          approval := some (recordApprovalFromEntry now entry) }, .OK)
    else
      ({ s with
          gates := s.gates.insert key (convertToVeto now { entry with generation })
          next_generation := generation }, .OK)

def clearVeto (now : Int) (s : Manager) (gate_id : Option Nat) : Manager × SubmitStatus :=
  match resolveGate s gate_id with
  | .error status => (s, status)
  | .ok (_, entry) =>
    if entry.gate_state ≠ .VETOED then (s, .BAD_STATE) else (dropVeto now s entry, .OK)

def removeGate (s : Manager) (gate_id : Nat) : Manager × Bool :=
  match findGateById s gate_id with
  | none => (s, false)
  | some (key, _) => ({ s with gates := s.gates.erase key }, true)

def vetoPending (now : Int) (s : Manager) (fresh_work : Option ReorgGateWorkSnapshot)
    (live_candidate : Option (Uint256 × Int)) : Manager :=
  match oldestPending s.gates.entries with
  | none => s
  | some (key, found) =>
    let generation := s.next_generation + 1
    let entry : GateEntry :=
      { found with
        generation
        work := fresh_work.getD found.work
        candidate_tip_hash := (live_candidate.map Prod.fst).getD found.candidate_tip_hash
        candidate_height := (live_candidate.map Prod.snd).getD found.candidate_height }
    { s with gates := s.gates.insert key (convertToVeto now entry), next_generation := generation }

/-- The first locked section of `HandleTimeout`: the candidate is noted for the snapshot. -/
def lookTimeout (s : Manager) (gate_id generation : Nat) : Manager :=
  match findGateById s gate_id with
  | none => s
  | some (_, entry) =>
    -- A stale timer: the operator or another transition was first.
    if entry.generation ≠ generation ∨ entry.gate_state ≠ .PENDING then s
    else { s with looks := ⟨gate_id, generation, entry.candidate_tip_hash⟩ :: s.looks }

/-- The second locked section, after a first one. `snapshot` is `m_snapshot_fn`, which was asked for
the candidate seen then; without one it answers nothing. -/
def handleTimeout (config : GatingConfig) (now : Int) (s : Manager) (look : TimeoutLook)
    (snapshot : Uint256 → Option ReorgGateWorkSnapshot) : Manager :=
  if look ∉ s.looks then s
  else match findGateById s look.gate_id with
  | none => s
  | some (key, entry) =>
    -- A decision landed while the snapshot was being taken.
    if entry.generation ≠ look.generation ∨ entry.gate_state ≠ .PENDING then s
    else
      let work := (snapshot look.candidate_tip_hash).getD entry.work
      if config.timeout_accept && timeoutAcceptAllowed work then
        { s with
          gates := s.gates.erase entry.key
          approval := some (recordApprovalFromEntry now entry) }
      else
        { s with
          gates := s.gates.insert key
            (convertToVeto now { entry with work, generation := s.next_generation + 1 })
          next_generation := s.next_generation + 1 }

def hadRecentVeto (now : Int) (s : Manager) (anchor_hash : Uint256) : Manager × Bool :=
  if s.gates.entries.any fun gate => gate.2.gate_state = .VETOED && gate.2.anchor_hash = anchor_hash then
    (s, true)
  else match s.veto_tombstones.get? anchor_hash with
  | none => (s, false)
  | some at_time =>
    if REORG_VETO_TOMBSTONE_SECS < now - at_time then
      ({ s with veto_tombstones := s.veto_tombstones.erase anchor_hash }, false)
    else (s, true)

inductive Op where
  | setPending (candidate_tip_hash : Uint256) (candidate_height : Int)
      (current_tip_hash fork_point_hash anchor_hash : Uint256) (work : ReorgGateWorkSnapshot)
  | evaluateMask (gate_id : Nat) (candidate_hash : Uint256) (candidate_height : Int)
      (candidate_raw_work tip_raw_work candidate_block_proof : Uint256)
  | submitDecision (gate_id : Option Nat) (decision : ReorgDecision)
  | clearVeto (gate_id : Option Nat)
  | vetoPending (fresh_work : Option ReorgGateWorkSnapshot) (live_candidate : Option (Uint256 × Int))
  | removeGate (gate_id : Nat)
  | lookTimeout (gate_id generation : Nat)
  | handleTimeout (look : TimeoutLook) (snapshot : Uint256 → Option ReorgGateWorkSnapshot)
  | hadRecentVeto (anchor_hash : Uint256)

structure Event where
  now : Int
  op : Op

def step (config : GatingConfig) (s : Manager) (event : Event) : Manager :=
  match event.op with
  | .setPending tip height current fork anchor work => (setPending config s tip height current fork anchor work).1
  | .evaluateMask id hash height raw tip proof => (evaluateMask config event.now s id hash height raw tip proof).1
  | .submitDecision id decision => (submitDecision config event.now s id decision).1
  | .clearVeto id => (clearVeto event.now s id).1
  | .vetoPending fresh live => vetoPending event.now s fresh live
  | .removeGate id => (removeGate s id).1
  | .lookTimeout id generation => lookTimeout s id generation
  | .handleTimeout look snapshot => handleTimeout config event.now s look snapshot
  | .hadRecentVeto anchor => (hadRecentVeto event.now s anchor).1

def run (config : GatingConfig) (history : List Event) : Manager := history.foldl (step config) Manager.initial

def Nondecreasing (history : List Event) : Prop := history.Pairwise fun a b => a.now ≤ b.now

variable {entry : GateEntry} {key : GateKey} {id : Nat} {anchor : Uint256}

section Lookups

variable {s : Manager} {key : GateKey} {entry : GateEntry} {gate_id : Nat}

theorem findGateById_eq_some (found : findGateById s gate_id = some (key, entry)) :
    s.gates.get? key = some entry ∧ entry.gate_id = gate_id := by
  have here := List.mem_of_find?_eq_some found
  have named := List.find?_some found
  exact ⟨OrdMap.mem_entries.mp here, of_decide_eq_true named⟩

theorem resolveGate_eq_ok {which : Option Nat} (found : resolveGate s which = .ok (key, entry)) :
    s.gates.get? key = some entry := by
  cases which with
  | some gate_id =>
    simp only [resolveGate] at found
    split at found
    · cases found
    · next gate known =>
      cases found
      exact (findGateById_eq_some known).1
  | none =>
    simp only [resolveGate] at found
    split at found
    · cases found
    -- A bare call resolves when there is exactly one gate.
    · next gate only =>
      cases found
      exact OrdMap.mem_entries.mp (by rw [only]; exact List.mem_singleton_self _)
    · cases found

theorem olderPending_cases (found : Option (GateKey × GateEntry)) (gate : GateKey × GateEntry) :
    olderPending found gate = found ∨ olderPending found gate = some gate ∧ gate.2.gate_state = .PENDING := by
  unfold olderPending
  by_cases pending : gate.2.gate_state = .PENDING
  · rw [if_neg (not_not_intro pending)]
    cases found with
    | none => exact .inr ⟨rfl, pending⟩
    | some oldest =>
      simp only
      split
      · exact .inr ⟨rfl, pending⟩
      · exact .inl rfl
  · exact .inl (if_pos pending)

theorem foldl_olderPending {P : GateKey × GateEntry → Prop} {gates : List (GateKey × GateEntry)}
    {start : Option (GateKey × GateEntry)} {gate : GateKey × GateEntry}
    (found : gates.foldl olderPending start = some gate) (before : ∀ g, start = some g → P g)
    (among : ∀ g ∈ gates, g.2.gate_state = .PENDING → P g) : P gate := by
  induction gates generalizing start with
  | nil => exact before gate found
  | cons first rest ih =>
    -- What the search has found so far was found before, or is this gate.
    refine ih found (fun g taken => ?_) fun g member => among g (List.mem_cons_of_mem _ member)
    rcases olderPending_cases start first with same | ⟨own, pending⟩
    · exact before g (same ▸ taken)
    · exact Option.mem_unique own taken ▸ among first List.mem_cons_self pending

theorem oldestPending_spec (found : oldestPending s.gates.entries = some (key, entry)) :
    s.gates.get? key = some entry ∧ entry.gate_state = .PENDING :=
  foldl_olderPending
    (P := fun gate => s.gates.get? gate.1 = some gate.2 ∧ gate.2.gate_state = .PENDING) found
    (fun _ no => nomatch no) fun _ member pending => ⟨OrdMap.mem_entries.mp member, pending⟩

theorem get?_recordVetoTombstone {now at_time : Int} {tombstones : OrdMap Uint256 Int}
    {written : Uint256} :
    (recordVetoTombstone now tombstones written).get? anchor = some at_time ↔
      (tombstones.insert written now).get? anchor = some at_time ∧
      now - at_time ≤ REORG_VETO_TOMBSTONE_SECS := by
  rw [← OrdMap.mem_entries, ← OrdMap.mem_entries]
  simp only [recordVetoTombstone, List.mem_filter, decide_eq_true_eq]

end Lookups

inductive Transition (config : GatingConfig) (now : Int) (s : Manager) : Op → Manager → Prop
  | idle (op : Op) : Transition config now s op s
  | opened {op : Op} {entry : GateEntry} {armed : List (Nat × Nat)}
      (absent : s.gates.get? entry.key = none) (id : entry.gate_id = s.next_gate_id)
      (generation : entry.generation = s.next_generation + 1)
      (timers : armed = s.armed ∨ armed = (s.next_gate_id, s.next_generation + 1) :: s.armed) :
      Transition config now s op
        { s with
          gates := s.gates.insert entry.key entry
          next_gate_id := s.next_gate_id + 1
          next_generation := s.next_generation + 1
          armed := armed }
  | refreshed {op : Op} {entry next : GateEntry} (here : s.gates.get? entry.key = some entry)
      (key : next.key = entry.key) (id : next.gate_id = entry.gate_id)
      (generation : next.generation = entry.generation) :
      Transition config now s op { s with gates := s.gates.insert entry.key next }
  -- A decision, whether it is stamped on the gate or makes it a veto.
  | decided {op : Op} {entry next : GateEntry} (here : s.gates.get? entry.key = some entry)
      (key : next.key = entry.key) (id : next.gate_id = entry.gate_id)
      (generation : next.generation = s.next_generation + 1) : Transition config now s op
        { s with
          gates := s.gates.insert entry.key next
          next_generation := s.next_generation + 1 }
  | accepted {which : Option Nat} {entry : GateEntry} (here : s.gates.get? entry.key = some entry) :
      Transition config now s (.submitDecision which .ACCEPT)
        { s with
          gates := s.gates.erase entry.key
          next_generation := s.next_generation + 1
          approval := some (recordApprovalFromEntry now entry) }
  | looked {op : Op} {looks : List TimeoutLook} : Transition config now s op { s with looks := looks }
  | timedOut {look : TimeoutLook} {snapshot : Uint256 → Option ReorgGateWorkSnapshot}
      {entry : GateEntry} (here : s.gates.get? entry.key = some entry)
      (pending : entry.gate_state = .PENDING) (allowed : config.timeout_accept = true)
      (id_eq : entry.gate_id = look.gate_id) (generation_eq : entry.generation = look.generation)
      (heavier : timeoutAcceptAllowed ((snapshot look.candidate_tip_hash).getD entry.work) = true) :
      Transition config now s (.handleTimeout look snapshot)
        { s with
          gates := s.gates.erase entry.key
          approval := some (recordApprovalFromEntry now entry) }
  | lifted {op : Op} {entry : GateEntry} (here : s.gates.get? entry.key = some entry) :
      Transition config now s op (dropVeto now s entry)
  | removed {id : Nat} {entry : GateEntry} (here : s.gates.get? entry.key = some entry) :
      Transition config now s (.removeGate id) { s with gates := s.gates.erase entry.key }
  | forgot {op : Op} {anchor : Uint256} {at_time : Int}
      (known : s.veto_tombstones.get? anchor = some at_time)
      (expired : REORG_VETO_TOMBSTONE_SECS < now - at_time) :
      Transition config now s op { s with veto_tombstones := s.veto_tombstones.erase anchor }

def Keyed (s : Manager) : Prop := ∀ key entry, s.gates.get? key = some entry → entry.key = key

section Steps

variable {config : GatingConfig} {now : Int} {s : Manager}

theorem setPending_transition (keyed : Keyed s) (tip : Uint256) (height : Int)
    (current fork anchor : Uint256) (work : ReorgGateWorkSnapshot) (op : Op) :
    Transition config now s op (setPending config s tip height current fork anchor work).1 := by
  unfold setPending
  cases found : s.gates.get? (toLex (fork, anchor)) with
  | some entry =>
    simp only [found]
    have own := keyed _ _ found
    split
    · rw [← own] at found ⊢
      exact .refreshed found rfl rfl rfl
    · exact .idle op
  | none =>
    simp only [found]
    -- The new entry's key is the one that was looked up.
    let opened : GateEntry := ⟨⟨s.next_gate_id, .PENDING, anchor, 0, 0, false, 0⟩,
      s.next_generation + 1, fork, tip, height, current, work, .NONE⟩
    have own : s.gates.get? opened.key = none := found
    refine .opened own rfl rfl ?_
    split
    · exact .inr rfl
    · exact .inl rfl

theorem evaluateMask_transition (keyed : Keyed s) (id : Nat) (hash : Uint256) (height : Int)
    (raw tip proof : Uint256) (op : Op) :
    Transition config now s op (evaluateMask config now s id hash height raw tip proof).1 := by
  unfold evaluateMask
  split
  · exact .idle op
  · next key entry found =>
    obtain ⟨here, _⟩ := findGateById_eq_some found
    obtain rfl := keyed _ _ here
    split
    · split
      · exact .idle op
      · split
        -- Only the candidate and its work are written.
        · exact .refreshed here rfl rfl rfl
        · exact .idle op
    · split
      · exact .lifted here
      · split
        · exact .lifted here
        · split
          · exact .lifted here
          · exact .idle op

theorem submitDecision_transition (keyed : Keyed s) (which : Option Nat)
    (decision : ReorgDecision) :
    Transition config now s (.submitDecision which decision)
      (submitDecision config now s which decision).1 := by
  unfold submitDecision
  split
  · exact .idle _
  · split
    · exact .idle _
    · next key entry found =>
      have here := resolveGate_eq_ok found
      obtain rfl := keyed _ _ here
      simp only
      split
      · split
        · exact .idle _
        -- The stamp for the waiter bumps the generation as a veto does.
        · exact .decided here rfl rfl rfl
      · split
        · next accepts =>
          subst accepts
          exact .accepted here
        · exact .decided here rfl rfl rfl

theorem clearVeto_transition (keyed : Keyed s) (which : Option Nat) (op : Op) :
    Transition config now s op (clearVeto now s which).1 := by
  unfold clearVeto
  split
  · exact .idle op
  · next found =>
    have here := resolveGate_eq_ok found
    obtain rfl := keyed _ _ here
    split
    · exact .idle op
    · exact .lifted here

theorem removeGate_transition (keyed : Keyed s) (id : Nat) :
    Transition config now s (.removeGate id) (removeGate s id).1 := by
  unfold removeGate
  split
  · exact .idle _
  · next found =>
    obtain ⟨here, _⟩ := findGateById_eq_some found
    obtain rfl := keyed _ _ here
    exact .removed here

theorem vetoPending_transition (keyed : Keyed s) (fresh : Option ReorgGateWorkSnapshot)
    (live : Option (Uint256 × Int)) (op : Op) : Transition config now s op (vetoPending now s fresh live) := by
  unfold vetoPending
  split
  · exact .idle op
  · next found =>
    have here := (oldestPending_spec found).1
    obtain rfl := keyed _ _ here
    exact .decided here rfl rfl rfl

theorem lookTimeout_transition (id generation : Nat) (op : Op) :
    Transition config now s op (lookTimeout s id generation) := by
  unfold lookTimeout
  split
  · exact .idle op
  · split
    · exact .idle op
    · exact .looked

theorem handleTimeout_transition (keyed : Keyed s) (look : TimeoutLook)
    (snapshot : Uint256 → Option ReorgGateWorkSnapshot) :
    Transition config now s (.handleTimeout look snapshot) (handleTimeout config now s look snapshot) := by
  unfold handleTimeout
  split
  · exact .idle _
  · split
    · exact .idle _
    · next key entry found =>
      obtain ⟨here, named⟩ := findGateById_eq_some found
      obtain rfl := keyed _ _ here
      split
      · exact .idle _
      · next stale =>
        -- Past the check the gate is pending and has the generation of the timer.
        obtain ⟨same, pending⟩ := not_or.mp stale
        simp only
        split
        · next accept =>
          obtain ⟨allowed, heavier⟩ := Bool.and_eq_true_iff.mp accept
          exact .timedOut here (not_not.mp pending) allowed named (not_not.mp same) heavier
        · exact .decided here rfl rfl rfl

theorem hadRecentVeto_transition (anchor : Uint256) (op : Op) :
    Transition config now s op (hadRecentVeto now s anchor).1 := by
  unfold hadRecentVeto
  split
  · exact .idle op
  · split
    · exact .idle op
    · next known =>
      split
      · next expired => exact .forgot known expired
      · exact .idle op

theorem step_transition (keyed : Keyed s) (event : Event) :
    Transition config event.now s event.op (step config s event) := by
  obtain ⟨now, op⟩ := event
  cases op with
  | setPending tip height current fork anchor work =>
    exact setPending_transition keyed tip height current fork anchor work _
  | evaluateMask id hash height raw tip proof => exact evaluateMask_transition keyed id hash height raw tip proof _
  | submitDecision which decision => exact submitDecision_transition keyed which decision
  | clearVeto which => exact clearVeto_transition keyed which _
  | vetoPending fresh live => exact vetoPending_transition keyed fresh live _
  | removeGate id => exact removeGate_transition keyed id
  | lookTimeout id generation => exact lookTimeout_transition id generation _
  | handleTimeout look snapshot => exact handleTimeout_transition keyed look snapshot
  | hadRecentVeto anchor => exact hadRecentVeto_transition anchor _

end Steps

inductive Origin (s next : Manager) (key : GateKey) (entry : GateEntry) : Prop
  | kept {old : GateEntry} (here : s.gates.get? key = some old) (id : entry.gate_id = old.gate_id)
      (own : entry.key = old.key) (generation : entry.generation = old.generation)
  | bumped {old : GateEntry} (here : s.gates.get? key = some old) (id : entry.gate_id = old.gate_id)
      (own : entry.key = old.key) (generation : entry.generation = s.next_generation + 1)
      (counter : next.next_generation = s.next_generation + 1) (timers : next.armed = s.armed)
  | new (absent : s.gates.get? key = none) (id : entry.gate_id = s.next_gate_id)
      (counters : next.next_gate_id = s.next_gate_id + 1) (own : entry.key = key)
      (generation : entry.generation = s.next_generation + 1) (counter : next.next_generation = s.next_generation + 1)
      (alone : ∀ other, other ≠ key → s.gates.get? other = none → next.gates.get? other = none)

section Machine

variable {config : GatingConfig} {now : Int} {s next : Manager} {op : Op}

theorem Transition.origin (moved : Transition config now s op next)
    (here : next.gates.get? key = some entry) : Origin s next key entry := by
  cases moved with
  | idle => exact .kept here rfl rfl rfl
  | opened absent id generation =>
    simp only [OrdMap.get?_insert] at here
    split at here
    · next own =>
      cases here
      subst own
      refine .new absent id rfl rfl generation rfl fun other differ unknown => ?_
      rw [OrdMap.get?_insert_of_ne _ _ _ differ]
      exact unknown
    · exact .kept here rfl rfl rfl
  -- Under the written key stands the new entry, under the others what stood there.
  | refreshed found own id generation =>
    simp only [OrdMap.get?_insert] at here
    split at here
    · next same =>
      cases here
      subst same
      exact .kept found id own generation
    · exact .kept here rfl rfl rfl
  | decided found own id generation =>
    simp only [OrdMap.get?_insert] at here
    split at here
    · next same =>
      cases here
      subst same
      exact .bumped found id own generation rfl rfl
    · exact .kept here rfl rfl rfl
  | forgot | looked => exact .kept here rfl rfl rfl
  -- An erased key has no gate.
  | accepted | timedOut | lifted | removed =>
    simp only [dropVeto, OrdMap.get?_erase] at here
    split at here
    · cases here
    · exact .kept here rfl rfl rfl

theorem Transition.counters (moved : Transition config now s op next) :
    s.next_gate_id ≤ next.next_gate_id ∧ s.next_generation ≤ next.next_generation := by
  cases moved <;> simp [dropVeto]

theorem Transition.timers (moved : Transition config now s op next) {timer : Nat × Nat}
    (armed : timer ∈ next.armed) : timer ∈ s.armed ∨
      timer.2 = s.next_generation + 1 ∧ next.next_generation = s.next_generation + 1 := by
  cases moved with
  | opened _ _ _ timers =>
    rcases timers with rfl | rfl
    · exact .inl armed
    · rcases List.mem_cons.mp armed with rfl | old
      · exact .inr ⟨rfl, rfl⟩
      · exact .inl old
  | _ => exact .inl armed

structure Sound (s : Manager) : Prop where
  keyed : Keyed s
  issued : ∀ key entry, s.gates.get? key = some entry → entry.gate_id < s.next_gate_id
  generations : ∀ key entry, s.gates.get? key = some entry → entry.generation ≤ s.next_generation
  timers : ∀ timer ∈ s.armed, timer.2 ≤ s.next_generation

theorem Sound.initial : Sound Manager.initial where
  keyed _ _ here := nomatch here
  issued _ _ here := nomatch here
  generations _ _ here := nomatch here
  timers _ armed := nomatch armed

theorem Sound.transition (sound : Sound s) (moved : Transition config now s op next) : Sound next where
  keyed key entry here := by
    cases moved.origin here with
    | kept old _ own => exact own.trans (sound.keyed _ _ old)
    | bumped old _ own => exact own.trans (sound.keyed _ _ old)
    | new _ _ _ own => exact own
  issued key entry here := by
    have grows := moved.counters.1
    cases moved.origin here with
    | kept old id => have := sound.issued _ _ old; omega
    | bumped old id => have := sound.issued _ _ old; omega
    | new _ id counters => omega
  generations key entry here := by
    have grows := moved.counters.2
    cases moved.origin here with
    | kept old _ _ generation => have := sound.generations _ _ old; omega
    | bumped _ _ _ generation counter => omega
    | new _ _ _ _ generation counter => omega
  timers timer armed := by
    have grows := moved.counters.2
    rcases moved.timers armed with old | ⟨fresh, counter⟩
    · exact (sound.timers _ old).trans grows
    · omega

theorem run_append (first more : List Event) :
    run config (first ++ more) = more.foldl (step config) (run config first) := List.foldl_append

theorem foldl_keeps {P : Manager → Prop} {history : List Event}
    (keeps : ∀ s, ∀ event ∈ history, Sound s → P s →
       ∀ next, Transition config event.now s event.op next → P next) (sound : Sound s)
    (start : P s) : Sound (history.foldl (step config) s) ∧ P (history.foldl (step config) s) := by
  induction history generalizing s with
  | nil => exact ⟨sound, start⟩
  | cons event rest ih =>
    have moved : Transition config event.now s event.op (step config s event) := step_transition sound.keyed event
    exact ih (fun s later member => keeps s later (List.mem_cons_of_mem _ member))
      (sound.transition moved) (keeps s event List.mem_cons_self sound start _ moved)

theorem run_sound (config : GatingConfig) (history : List Event) : Sound (run config history) :=
  (foldl_keeps (P := fun _ => True) (fun _ _ _ _ _ _ _ => trivial) .initial trivial).1

def OnlyAt (id : Nat) (key : GateKey) (s : Manager) : Prop :=
  id < s.next_gate_id ∧ ∀ other entry, s.gates.get? other = some entry → entry.gate_id = id → other = key

def Retired (id : Nat) (s : Manager) : Prop :=
  id < s.next_gate_id ∧ ∀ key entry, s.gates.get? key = some entry → entry.gate_id ≠ id

theorem OnlyAt.transition (only : OnlyAt id key s) (moved : Transition config now s op next) :
    OnlyAt id key next := by
  refine ⟨only.1.trans_le moved.counters.1, fun other entry here named => ?_⟩
  cases moved.origin here with
  | kept old same => exact only.2 _ _ old (same.symm.trans named)
  | bumped old same => exact only.2 _ _ old (same.symm.trans named)
  -- The id was given out before, and a new gate gets the next one.
  | new _ fresh => have := only.1; omega

theorem Retired.transition (retired : Retired id s) (moved : Transition config now s op next) :
    Retired id next := by
  refine ⟨retired.1.trans_le moved.counters.1, fun key entry here => ?_⟩
  cases moved.origin here with
  | kept old same => exact same ▸ retired.2 _ _ old
  | bumped old same => exact same ▸ retired.2 _ _ old
  | new _ fresh => have := retired.1; omega

def Distinct (s : Manager) : Prop :=
  ∀ key entry key' entry', s.gates.get? key = some entry → s.gates.get? key' = some entry' →
    entry'.gate_id = entry.gate_id → key' = key

theorem Distinct.transition (sound : Sound s) (distinct : Distinct s)
    (moved : Transition config now s op next) : Distinct next := by
  intro key entry key' entry' here here' same
  -- An old gate's id is below the next one, which is the id of the new gate.
  have old_id : ∀ {key entry}, next.gates.get? key = some entry →
      (∃ old, s.gates.get? key = some old ∧ entry.gate_id = old.gate_id) ∨
        s.gates.get? key = none ∧ entry.gate_id = s.next_gate_id := by
    intro key entry here
    cases moved.origin here with
    | kept old id => exact .inl ⟨_, old, id⟩
    | bumped old id => exact .inl ⟨_, old, id⟩
    | new absent id => exact .inr ⟨absent, id⟩
  rcases old_id here with ⟨old, known, id⟩ | ⟨absent, id⟩
  · rcases old_id here' with ⟨old', known', id'⟩ | ⟨_, id'⟩
    · exact distinct _ _ _ _ known known' (by omega)
    · have := sound.issued _ _ known; omega
  · rcases old_id here' with ⟨old', known', id'⟩ | ⟨absent', id'⟩
    · have := sound.issued _ _ known'; omega
    · -- One call opens one gate.
      cases moved.origin here with
      | kept known => rw [absent] at known; cases known
      | bumped known => rw [absent] at known; cases known
      | new _ _ _ _ _ _ alone =>
        by_contra differ
        rw [alone key' differ absent'] at here'
        cases here'

theorem run_distinct (config : GatingConfig) (history : List Event) : Distinct (run config history) :=
  (foldl_keeps (fun _ _ _ sound distinct _ moved => distinct.transition sound moved) .initial
    fun _ _ _ _ here => nomatch here).2

def Unarmed (id : Nat) (s : Manager) : Prop :=
  id < s.next_gate_id ∧ ∀ key entry, s.gates.get? key = some entry → entry.gate_id = id →
    ∀ timer ∈ s.armed, timer.2 ≠ entry.generation

theorem Unarmed.transition (sound : Sound s) (unarmed : Unarmed id s)
    (moved : Transition config now s op next) : Unarmed id next := by
  refine ⟨unarmed.1.trans_le moved.counters.1, fun key entry here named timer armed => ?_⟩
  cases moved.origin here with
  | kept old same _ generation =>
    -- A timer armed by this very call is for the next generation, which the gate does not have.
    have earlier := sound.generations _ _ old
    rcases moved.timers armed with was | ⟨fresh, _⟩
    · exact generation ▸ unarmed.2 _ _ old (same.symm.trans named) timer was
    · omega
  | bumped old _ _ generation _ timers =>
    -- The gate moved past every generation that was armed.
    have := sound.timers timer (timers ▸ armed)
    omega
  | new _ fresh => have := unarmed.1; omega

theorem submitDecision_unarmed (sound : Sound s) (distinct : Distinct s) {which : Option Nat}
    {decision : ReorgDecision} (found : resolveGate s which = .ok (key, entry))
    (applied : (submitDecision config now s which decision).2 = .OK) :
    Unarmed entry.gate_id (submitDecision config now s which decision).1 := by
  have here := resolveGate_eq_ok found
  have own := sound.keyed _ _ here
  have issued := sound.issued _ _ here
  -- A gate that stands at the key now has the next generation; one elsewhere has another id.
  have bumped : ∀ next : GateEntry, next.generation = s.next_generation + 1 → Unarmed entry.gate_id
        { s with gates := s.gates.insert key next, next_generation := s.next_generation + 1 } := by
    intro next generation
    refine ⟨issued, fun other gate there named timer armed => ?_⟩
    have old := sound.timers timer armed
    simp only [OrdMap.get?_insert] at there
    split at there
    · cases there
      omega
    · next differ => exact absurd (distinct _ _ _ _ here there named) differ
  unfold submitDecision at applied ⊢
  split
  · next invalid => simp [invalid] at applied
  · next valid =>
    rw [if_neg valid, found] at applied
    rw [found]
    simp only at applied ⊢
    split
    · next blocked =>
      split
      · next occupied => simp [blocked, occupied] at applied
      · exact bumped _ rfl
    · split
      -- The accepted gate is gone, and no other has its id.
      · refine ⟨issued, fun other gate there named => ?_⟩
        simp only [OrdMap.get?_erase, own] at there
        split at there
        · cases there
        · next differ => exact absurd (distinct _ _ _ _ here there named) differ
      · exact bumped _ rfl

theorem handleTimeout_acts {look : TimeoutLook} {snapshot : Uint256 → Option ReorgGateWorkSnapshot}
    (acts : handleTimeout config now s look snapshot ≠ s) :
    ∃ key entry, s.gates.get? key = some entry ∧ entry.gate_id = look.gate_id ∧
      entry.generation = look.generation ∧ entry.gate_state = .PENDING := by
  unfold handleTimeout at acts
  split at acts
  · exact absurd rfl acts
  · split at acts
    · exact absurd rfl acts
    · next key entry found =>
      obtain ⟨here, named⟩ := findGateById_eq_some found
      split at acts
      · exact absurd rfl acts
      · next stale =>
        obtain ⟨same, pending⟩ := not_or.mp stale
        exact ⟨key, entry, here, named, not_not.mp same, not_not.mp pending⟩

theorem Transition.approval (moved : Transition config now s op next) (news : next.approval ≠ s.approval) :
    (∃ which, op = .submitDecision which .ACCEPT) ∨
      ∃ look snapshot entry, op = .handleTimeout look snapshot ∧
        s.gates.get? entry.key = some entry ∧ entry.gate_id = look.gate_id ∧
        entry.generation = look.generation ∧ entry.gate_state = .PENDING ∧ config.timeout_accept = true ∧
        next.approval = some (recordApprovalFromEntry now entry) ∧
        timeoutAcceptAllowed ((snapshot look.candidate_tip_hash).getD entry.work) = true := by
  cases moved with
  | accepted => exact .inl ⟨_, rfl⟩
  | timedOut here pending allowed id generation heavier =>
    exact .inr ⟨_, _, _, rfl, here, id, generation, pending, allowed, rfl, heavier⟩
  | _ => exact absurd rfl news

theorem Transition.vanished (moved : Transition config now s op next)
    (here : s.gates.get? key = some entry) (vetoed : entry.gate_state = .VETOED)
    (gone : ∀ left, next.gates.get? key = some left → left.gate_id ≠ entry.gate_id)
    (unaccepted : ∀ which, op ≠ .submitDecision which .ACCEPT)
    (unremoved : ∀ id, op ≠ .removeGate id) :
    next.veto_tombstones.get? entry.anchor_hash = some now := by
  cases moved with
  | idle => exact absurd rfl (gone _ here)
  | forgot | looked => exact absurd rfl (gone _ here)
  | @opened _ new _ absent =>
    have differ : key ≠ new.key := fun same => by rw [same, absent] at here; cases here
    exact absurd rfl (gone entry (by rw [OrdMap.get?_insert_of_ne _ _ _ differ]; exact here))
  | @refreshed _ old _ found _ id | @decided _ old _ found _ id =>
    -- The gate at the key keeps its id.
    have kept := gone
    simp only [OrdMap.get?_insert] at kept
    by_cases same : key = old.key
    · subst same
      obtain rfl := Option.mem_unique found here
      exact absurd id (kept _ (if_pos rfl))
    · exact absurd rfl (kept entry ((if_neg same).trans here))
  | accepted => exact absurd rfl (unaccepted _)
  | removed => exact absurd rfl (unremoved _)
  -- A timeout takes pending gates only.
  | @timedOut _ _ old found pending =>
    by_cases same : key = old.key
    · subst same
      obtain rfl := Option.mem_unique found here
      rw [vetoed] at pending
      cases pending
    · exact absurd rfl (gone entry (by rw [OrdMap.get?_erase_of_ne _ _ same]; exact here))
  | @lifted _ old found =>
    by_cases same : key = old.key
    · subst same
      obtain rfl := Option.mem_unique found here
      refine get?_recordVetoTombstone.mpr ⟨OrdMap.get?_insert_self _ _ _, ?_⟩
      simp [REORG_VETO_TOMBSTONE_SECS]
    · refine absurd rfl (gone entry ?_)
      rw [dropVeto, OrdMap.get?_erase_of_ne _ _ same]
      exact here

def Entombed (anchor : Uint256) (since : Int) (s : Manager) : Prop :=
  ∃ at_time, since ≤ at_time ∧ s.veto_tombstones.get? anchor = some at_time

theorem Entombed.transition {since : Int} (entombed : Entombed anchor since s)
    (moved : Transition config now s op next) (later : since ≤ now)
    (recent : now - since ≤ REORG_VETO_TOMBSTONE_SECS) : Entombed anchor since next := by
  obtain ⟨at_time, after, known⟩ := entombed
  cases moved with
  -- A tombstone for the same anchor is later; one for another prunes what has expired only.
  | @lifted _ entry =>
    by_cases same : anchor = entry.anchor_hash
    · refine ⟨now, later, get?_recordVetoTombstone.mpr ⟨?_, ?_⟩⟩
      · rw [same, OrdMap.get?_insert_self]
      · simp [REORG_VETO_TOMBSTONE_SECS]
    · refine ⟨at_time, after, get?_recordVetoTombstone.mpr ⟨?_, by omega⟩⟩
      rw [OrdMap.get?_insert_of_ne _ _ _ same, known]
  -- What has expired is older than the tombstone in question.
  | @forgot _ other _ found expired =>
    by_cases same : anchor = other
    · subst same
      obtain rfl := Option.mem_unique known found
      omega
    · exact ⟨at_time, after, by rw [OrdMap.get?_erase_of_ne _ _ same, known]⟩
  | _ => exact ⟨at_time, after, known⟩

theorem Entombed.hadRecentVeto {since : Int} (entombed : Entombed anchor since s)
    (recent : now - since ≤ REORG_VETO_TOMBSTONE_SECS) : (hadRecentVeto now s anchor).2 = true := by
  obtain ⟨at_time, after, known⟩ := entombed
  unfold ReorgGating.hadRecentVeto
  split
  · rfl
  · rw [known]
    simp only
    rw [if_neg (by omega)]

end Machine

/-- **The gates follow their state machine** over every history. Ids are never reused; a timeout
acts on a pending gate of its generation only, and never after an operator's decision; approvals
come from the operator or from a timeout, which is guarded if the gate still has the candidate the
timeout has looked at; and a veto that goes otherwise than by acceptance or removal is remembered
for a day. -/
theorem reorgGates_follow_machine (config : GatingConfig) :
    (∀ first middle last key entry key' entry',
      (run config first).gates.get? key = some entry →
      (run config (first ++ middle ++ last)).gates.get? key' = some entry' →
      entry'.gate_id = entry.gate_id →
      entry.key = key ∧ key' = key ∧
        ∃ kept, (run config (first ++ middle)).gates.get? key = some kept ∧ kept.gate_id = entry.gate_id) ∧
    (∀ history now look snapshot,
      handleTimeout config now (run config history) look snapshot ≠ run config history →
      ∃ key entry, (run config history).gates.get? key = some entry ∧ entry.gate_id = look.gate_id ∧
        entry.generation = look.generation ∧ entry.gate_state = .PENDING) ∧
    (∀ first now which decision key entry after later look snapshot,
      resolveGate (run config first) which = .ok (key, entry) →
      (submitDecision config now (run config first) which decision).2 = .OK →
      look.gate_id = entry.gate_id → look.generation ∈
        (run config (first ++ ⟨now, .submitDecision which decision⟩ :: after)).armed.map Prod.snd →
      handleTimeout config later (run config (first ++ ⟨now, .submitDecision which decision⟩ :: after))
          look snapshot =
        run config (first ++ ⟨now, .submitDecision which decision⟩ :: after)) ∧
    (∀ history event,
      (step config (run config history) event).approval ≠ (run config history).approval →
      (∃ which, event.op = .submitDecision which .ACCEPT) ∨
        ∃ look snapshot entry, event.op = .handleTimeout look snapshot ∧
          (run config history).gates.get? entry.key = some entry ∧ entry.gate_id = look.gate_id ∧
          entry.generation = look.generation ∧ entry.gate_state = .PENDING ∧ config.timeout_accept = true ∧
          (step config (run config history) event).approval =
            some (recordApprovalFromEntry event.now entry) ∧
          (look.candidate_tip_hash = entry.candidate_tip_hash →
            ((snapshot entry.candidate_tip_hash).getD entry.work).current_raw_work <
                ((snapshot entry.candidate_tip_hash).getD entry.work).candidate_raw_work ∧
              ((snapshot entry.candidate_tip_hash).getD entry.work).penalty_or_policy_driven = false)) ∧
    ∀ first event after now key entry, Nondecreasing (first ++ event :: after) →
      (∀ earlier ∈ event :: after, earlier.now ≤ now) →
      (run config first).gates.get? key = some entry → entry.gate_state = .VETOED →
      (∀ left, (run config (first ++ [event])).gates.get? key = some left → left.gate_id ≠ entry.gate_id) →
      (∀ which, event.op ≠ .submitDecision which .ACCEPT) → (∀ id, event.op ≠ .removeGate id) →
      now - event.now ≤ REORG_VETO_TOMBSTONE_SECS →
      (hadRecentVeto now (run config (first ++ event :: after)) entry.anchor_hash).2 = true := by
  refine ⟨?_, ?_, ?_, ?_, ?_⟩
  · intro first middle last key entry key' entry' here there same
    have sound := run_sound config first
    have distinct := run_distinct config first
    have issued := sound.issued _ _ here
    -- Whatever has the id afterwards stands at the same key.
    have only : ∀ more, OnlyAt entry.gate_id key (run config (first ++ more)) := fun more => by
      rw [run_append]
      exact (foldl_keeps (fun _ _ _ _ only _ moved => only.transition moved) sound
        ⟨issued, fun other gate found named => distinct _ _ _ _ here found named⟩).2
    refine ⟨sound.keyed _ _ here, (only (middle ++ last)).2 _ _ (by rwa [← List.append_assoc]) same, ?_⟩
    -- Had the gate gone in between, its id would be retired.
    by_contra missing
    have retired : Retired entry.gate_id (run config (first ++ middle)) := by
      refine ⟨(only middle).1, fun other gate found named => missing ⟨gate, ?_, named⟩⟩
      rwa [← (only middle).2 _ _ found named]
    have ended : Retired entry.gate_id (run config (first ++ middle ++ last)) := by
      rw [run_append]
      exact (foldl_keeps (fun _ _ _ _ retired _ moved => retired.transition moved)
        (run_sound config (first ++ middle)) retired).2
    exact ended.2 _ _ there same
  · exact fun history now look snapshot acts => handleTimeout_acts acts
  · intro first now which decision key entry after later look snapshot found applied own_gate armed
    by_contra acts
    obtain ⟨key', gate, here, named, same, _⟩ := handleTimeout_acts acts
    -- From the decision on, no timer is armed for the generation the gate has.
    have unarmed := submitDecision_unarmed (run_sound config first) (run_distinct config first) found applied
    have sound := run_sound config (first ++ [⟨now, .submitDecision which decision⟩])
    rw [run_append] at sound
    have still : Unarmed entry.gate_id
        (run config (first ++ ⟨now, .submitDecision which decision⟩ :: after)) := by
      rw [run_append]
      exact (foldl_keeps (fun _ _ _ sound unarmed _ moved => unarmed.transition sound moved)
        sound unarmed).2
    obtain ⟨timer, member, own⟩ := List.mem_map.mp armed
    exact still.2 _ _ here (named.trans own_gate) timer member (own.trans same.symm)
  · intro history event news
    have moved : Transition config event.now _ event.op (step config (run config history) event) :=
      step_transition (run_sound config history).keyed event
    rcases moved.approval news with operator | ⟨look, snapshot, entry, op, here, named, same,
      pending, allowed, approved, heavier⟩
    · exact .inl operator
    · refine .inr ⟨look, snapshot, entry, op, here, named, same, pending, allowed, approved, fun seen => ?_⟩
      rw [seen] at heavier
      obtain ⟨more, plain⟩ := Bool.and_eq_true_iff.mp heavier
      exact ⟨of_decide_eq_true more, by simpa using plain⟩
  · intro first event after now key entry clock until_now here vetoed gone unaccepted unremoved recent
    have sound := run_sound config first
    have moved : Transition config event.now _ event.op (step config (run config first) event) :=
      step_transition sound.keyed event
    rw [run_append] at gone
    have written := moved.vanished here vetoed gone unaccepted unremoved
    obtain ⟨_, ordered, _⟩ := List.pairwise_append.mp clock
    have ordered := List.pairwise_cons.mp ordered
    -- The clock lets no later call prune the tombstone before its time is over.
    have kept : Entombed entry.anchor_hash event.now (run config (first ++ event :: after)) := by
      rw [run_append]
      refine (foldl_keeps (fun _ later member _ entombed _ moved => ?_) (sound.transition moved)
        ⟨event.now, le_refl _, written⟩).2
      have earlier := until_now later (List.mem_cons_of_mem _ member)
      exact entombed.transition moved (ordered.1 later member) (by omega)
    exact kept.hadRecentVeto recent

/-- Timeouts accept; the candidate 5 is heavier than the tip, and penalties drive every other
one. -/
def acceptingTimeouts : GatingConfig where
  enabled := true
  gating_mode := .MASK
  veto_ttl_secs := 3600
  veto_growth_blocks := 6
  timeout_accept := true

def onlyFive (candidate : Uint256) : Option ReorgGateWorkSnapshot := some ⟨1, 2, decide (candidate ≠ 5)⟩

def armedFor (candidate : Uint256) : Event :=
  ⟨0, .setPending candidate 100 3 1 2 ⟨1, 2, decide (candidate ≠ 5)⟩⟩

/-- A timeout accepts the candidate it has looked at, which is heavier and not driven by
penalties. -/
theorem reorgGates_follow_machine_on_timeout :
    let history := [armedFor 5, ⟨60, .lookTimeout 1 2⟩]
    let event : Event := ⟨61, .handleTimeout ⟨1, 2, 5⟩ onlyFive⟩
    (step acceptingTimeouts (run acceptingTimeouts history) event).approval = some ⟨1, 2, 5, 3, 61⟩ ∧
      ∃ entry : GateEntry, (run acceptingTimeouts history).gates.get? entry.key = some entry ∧
        entry.candidate_tip_hash = 5 ∧
        ((onlyFive entry.candidate_tip_hash).getD entry.work).current_raw_work <
          ((onlyFive entry.candidate_tip_hash).getD entry.work).candidate_raw_work ∧
        ((onlyFive entry.candidate_tip_hash).getD entry.work).penalty_or_policy_driven = false := by
  intro history event
  have first : (step acceptingTimeouts (run acceptingTimeouts history) event).approval =
      some ⟨1, 2, 5, 3, 61⟩ := by decide +kernel
  obtain ⟨_, _, _, approvals, _⟩ := reorgGates_follow_machine acceptingTimeouts
  rcases approvals history event (by decide +kernel) with
    ⟨_, op⟩ | ⟨look, snapshot, entry, op, here, _, _, _, _, approved, heavier⟩
  · cases op
  · cases op
    rw [first] at approved
    have seen : (5 : Uint256) = entry.candidate_tip_hash :=
      congrArg ReorgApprovalState.candidate_tip_hash (Option.some.inj approved)
    exact ⟨first, entry, here, seen.symm, heavier seen⟩

/-- The gate is refreshed between the two looks: the timeout asks about candidate 5 and approves
candidate 6, which penalties drive. -/
theorem timeout_approves_other_candidate :
    let history := [armedFor 5, ⟨60, .lookTimeout 1 2⟩, armedFor 6]
    let event : Event := ⟨61, .handleTimeout ⟨1, 2, 5⟩ onlyFive⟩
    (run acceptingTimeouts history).approval = none ∧
      (step acceptingTimeouts (run acceptingTimeouts history) event).approval = some ⟨1, 2, 6, 3, 61⟩ ∧
      (onlyFive 6).map ReorgGateWorkSnapshot.penalty_or_policy_driven = some true ∧
      ((run acceptingTimeouts history).gates.get? (toLex (1, 2))).map
        (fun entry => entry.work.penalty_or_policy_driven) = some true := by
  decide +kernel

theorem evaluateMask_forkChoice (e : ForkChoice.Chain) {config : GatingConfig}
    (same : config.toReorgGatingConfig = e.config) (s : Manager) (gate_id : Nat) (hash tip : Uint256)
    (candidate : ForkChoice.CBlockIndex) :
    (evaluateMask config e.now s gate_id hash candidate.nHeight candidate.nChainWorkRaw tip
        candidate.blockProof).2 =
      (ForkChoice.evaluateMask e (s.gates.entries.map fun gate => gate.2.toReorgGateEntry) gate_id candidate
        tip).1 := by
  have found : (s.gates.entries.map fun gate => gate.2.toReorgGateEntry).find?
      (fun g => g.gate_id = gate_id) = (findGateById s gate_id).map fun gate => gate.2.toReorgGateEntry := by
    rw [List.find?_map]
    rfl
  unfold evaluateMask ForkChoice.evaluateMask
  rw [found]
  cases findGateById s gate_id with
  | none => rfl
  | some gate =>
    obtain ⟨key, entry⟩ := gate
    simp only [Option.map_some]
    cases entry.gate_state with
    | PENDING =>
      simp only [← same]
      by_cases mask : config.gating_mode = .MASK
      · rw [if_neg (not_not_intro mask), decide_eq_true mask]
        split <;> rfl
      · rw [if_pos mask, decide_eq_false mask]
    | VETOED =>
      -- The three ways out stand one after the other here, and side by side there.
      have ended : ForkChoice.vetoOver e entry.toReorgGateEntry candidate tip =
          (decide (config.veto_ttl_secs < e.now - entry.vetoed_at) ||
            decide (config.veto_growth_blocks ≤ candidate.nHeight - entry.veto_candidate_height) ||
            (decide (tip < candidate.nChainWorkRaw) && decide (escapeThreshold config entry candidate.blockProof <
                candidate.nChainWorkRaw - tip))) := by
        simp only [ForkChoice.vetoOver, ← same]
        rfl
      simp only [ended]
      by_cases expired : config.veto_ttl_secs < e.now - entry.vetoed_at
      · simp [expired]
      · by_cases grown : config.veto_growth_blocks ≤ candidate.nHeight - entry.veto_candidate_height
        · simp [expired, grown]
        · by_cases escaped : tip < candidate.nChainWorkRaw ∧
              escapeThreshold config entry candidate.blockProof < candidate.nChainWorkRaw - tip
          · simp [expired, grown, escaped]
          · rw [if_neg expired, if_neg grown, if_neg escaped, if_neg]
            simp only [expired, grown, decide_false, Bool.false_or, Bool.and_eq_true, decide_eq_true_eq]
            exact escaped

end ReorgGating

end TensorCash
