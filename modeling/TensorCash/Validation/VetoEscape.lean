import TensorCash.Validation.ReorgGates

/-! The gates as the node drives them, beside a record of evaluations and the latest rejection. -/

namespace TensorCash

namespace ReorgGating

open ForkChoice (ReorgGateState ReorgGatingMode)

variable {entry : GateEntry} {key : GateKey} {s : Manager}

structure IndexedBlock where
  nHeight : Int
  nChainWorkRaw : Uint256
  blockProof : Uint256

inductive Call where
  /-- `SetPending` of `ActivateBestChainStep`. -/
  | arm (fork_point_hash anchor_hash candidate current_tip_hash : Uint256) (driven : Bool)
  /-- `EvaluateMask` of `IsReorgGateMaskedCandidate`. -/
  | evaluate (gate_id : Nat) (candidate : Uint256)
  | submit (gate_id : Option Nat) (decision : ReorgDecision)
  | clear (gate_id : Option Nat)
  | vetoPending (fresh_work : Option ReorgGateWorkSnapshot) (live_candidate : Option (Uint256 × Int))
  | remove (gate_id : Nat)
  /-- A timer looks at its gate. -/
  | look (gate_id generation : Nat)
  /-- A timer that has looked acts. For a candidate it can look up the hook knows the raw work of
  the tip when it was asked and whether penalties drive the candidate. -/
  | timeout (look : TimeoutLook) (hook : Uint256 → Option (Uint256 × Bool))
  | hadRecentVeto (anchor_hash : Uint256)

/-- A call, when it is made and the raw work of the active tip then. -/
structure Moment where
  now : Int
  tip_raw_work : Uint256
  call : Call

variable (config : GatingConfig) (index : Uint256 → IndexedBlock)

def takeSnapshot (tip_raw_work candidate : Uint256) (driven : Bool) : ReorgGateWorkSnapshot :=
  ⟨tip_raw_work, (index candidate).nChainWorkRaw, driven⟩

def Moment.event (moment : Moment) : Event where
  now := moment.now
  op := match moment.call with
    | .arm fork anchor candidate current driven =>
      .setPending candidate (index candidate).nHeight current fork anchor
        (takeSnapshot index moment.tip_raw_work candidate driven)
    | .evaluate id candidate =>
      .evaluateMask id candidate (index candidate).nHeight (index candidate).nChainWorkRaw
        moment.tip_raw_work (index candidate).blockProof
    | .submit id decision => .submitDecision id decision
    | .clear id => .clearVeto id
    | .vetoPending fresh live => .vetoPending fresh live
    | .remove id => .removeGate id
    | .look id generation => .lookTimeout id generation
    | .timeout look hook => .handleTimeout look fun candidate =>
        (hook candidate).map fun answer => takeSnapshot index answer.1 candidate answer.2
    | .hadRecentVeto anchor => .hadRecentVeto anchor

structure Sighting where
  candidate : Uint256
  tip_raw_work : Uint256
deriving DecidableEq

structure Rejection where
  /-- What had been evaluated, the latest first. -/
  seen : List Sighting
  tip_raw_work : Uint256
  /-- The rejection found the gate pending, and a snapshot that it took is of the gate's candidate
  and of the tip. -/
  pending : Bool
  /-- The rejection took a snapshot of its own. -/
  fresh : Bool

/-- The evaluated candidate with the most raw work, the first among equals. -/
def bestSighting : List Sighting → Option Sighting
  | [] => none
  | latest :: earlier =>
    match bestSighting earlier with
    | none => some latest
    | some best =>
      if (index best.candidate).nChainWorkRaw < (index latest.candidate).nChainWorkRaw then some latest
      else some best

structure Watched where
  manager : Manager
  seen : Nat → List Sighting
  rejection : Nat → Option Rejection

def Watched.initial : Watched := ⟨Manager.initial, fun _ => [], fun _ => none⟩

def Watched.step (w : Watched) (moment : Moment) : Watched :=
  let manager := ReorgGating.step config w.manager (moment.event index)
  let sight (id : Nat) (candidate : Uint256) :=
    Function.update w.seen id (⟨candidate, moment.tip_raw_work⟩ :: w.seen id)
  let reject (id : Nat) (pending fresh : Bool) :=
    Function.update w.rejection id (some ⟨w.seen id, moment.tip_raw_work, pending, fresh⟩)
  match moment.call with
  | .arm fork anchor candidate _ _ =>
    -- The id is that of the gate of this key, or the next one.
    let id := ((w.manager.gates.get? (toLex (fork, anchor))).map fun entry => entry.gate_id).getD
      w.manager.next_gate_id
    ⟨manager, sight id candidate, w.rejection⟩
  | .evaluate id candidate =>
    if (findGateById w.manager id).isSome then ⟨manager, sight id candidate, w.rejection⟩
    else ⟨manager, w.seen, w.rejection⟩
  | .submit which decision =>
    match resolveGate w.manager which with
    | .ok (_, entry) =>
      if decision = .REJECT then
        ⟨manager, w.seen, reject entry.gate_id (entry.gate_state = .PENDING) false⟩
      else ⟨manager, w.seen, w.rejection⟩
    | .error _ => ⟨manager, w.seen, w.rejection⟩
  | .timeout look hook =>
    match findGateById w.manager look.gate_id with
    | some (_, entry) =>
      if look ∈ w.manager.looks ∧ entry.generation = look.generation ∧ entry.gate_state = .PENDING then
        ⟨manager, w.seen, reject look.gate_id
          ((hook look.candidate_tip_hash).all fun answer =>
            look.candidate_tip_hash = entry.candidate_tip_hash ∧ answer.1 = moment.tip_raw_work)
          (hook look.candidate_tip_hash).isSome⟩
      else ⟨manager, w.seen, w.rejection⟩
    | none => ⟨manager, w.seen, w.rejection⟩
  | .clear _ | .vetoPending _ _ | .remove _ | .look _ _ | .hadRecentVeto _ => ⟨manager, w.seen, w.rejection⟩

def watch (history : List Moment) : Watched := history.foldl (Watched.step config index) .initial

def Improves (w : Watched) (moment : Moment) : Prop :=
  match moment.call with
  | .arm fork anchor candidate _ _ =>
    ∀ entry, w.manager.gates.get? (toLex (fork, anchor)) = some entry → entry.gate_state = .PENDING →
      entry.work.candidate_raw_work < (index candidate).nChainWorkRaw
  | _ => True

def Improving (w : Watched) : List Moment → Prop
  | [] => True
  | moment :: rest => Improves index w moment ∧ Improving (w.step config index moment) rest

def Fits (seen : List Sighting) (rejection : Option Rejection) (entry : GateEntry) : Prop :=
  match entry.gate_state with
  -- A pending gate has not been rejected yet.
  | .PENDING => rejection = none ∧ ∃ best, bestSighting index seen = some best ∧
      entry.candidate_tip_hash = best.candidate ∧ entry.candidate_height = (index best.candidate).nHeight ∧
      entry.work.candidate_raw_work = (index best.candidate).nChainWorkRaw ∧
      entry.work.current_raw_work = best.tip_raw_work
  | .VETOED => ∀ r, rejection = some r → r.pending = true → ∃ best, bestSighting index r.seen = some best ∧
        entry.veto_candidate_height = (index best.candidate).nHeight ∧
        (r.fresh = true ∨ best.tip_raw_work = r.tip_raw_work → entry.veto_margin_positive =
              decide (r.tip_raw_work < (index best.candidate).nChainWorkRaw) ∧
            entry.veto_raw_margin = (if r.tip_raw_work < (index best.candidate).nChainWorkRaw then
              (index best.candidate).nChainWorkRaw - r.tip_raw_work else 0))

structure Tracked (w : Watched) : Prop where
  sound : Sound w.manager
  distinct : Distinct w.manager
  unborn : ∀ id, w.manager.next_gate_id ≤ id → w.seen id = [] ∧ w.rejection id = none
  fits : ∀ key entry, w.manager.gates.get? key = some entry →
    Fits index (w.seen entry.gate_id) (w.rejection entry.gate_id) entry

theorem Tracked.initial : Tracked index Watched.initial where
  sound := .initial
  distinct _ _ _ _ here := nomatch here
  unborn _ _ := ⟨rfl, rfl⟩
  fits _ _ here := nomatch here

variable {config index} {w : Watched}

theorem findGateById_of_get? (distinct : Distinct s) (here : s.gates.get? key = some entry) :
    findGateById s entry.gate_id = some (key, entry) := by
  have known : (findGateById s entry.gate_id).isSome := by
    rw [findGateById, List.find?_isSome]
    exact ⟨(key, entry), OrdMap.mem_entries.mpr here, by simp⟩
  obtain ⟨⟨other, found⟩, eq⟩ := Option.isSome_iff_exists.mp known
  obtain ⟨there, named⟩ := findGateById_eq_some eq
  -- Whatever gate is found has the same id, so it is the same one.
  obtain rfl := distinct _ _ _ _ here there named
  rw [eq, Option.mem_unique there here]

variable {other : GateKey} {gate : GateEntry} {seen : Nat → List Sighting}
  {rejection : Nat → Option Rejection} {moment : Moment} {id : Nat} {now : Int}

theorem Tracked.elsewhere (tracked : Tracked index w)
    (here : w.manager.gates.get? key = some entry)
    (rest : ∀ id, id ≠ entry.gate_id → seen id = w.seen id ∧ rejection id = w.rejection id)
    (there : w.manager.gates.get? other = some gate) (differ : other ≠ key) :
    Fits index (seen gate.gate_id) (rejection gate.gate_id) gate := by
  -- Gates under different keys have different ids.
  have apart : gate.gate_id ≠ entry.gate_id := fun same => differ (tracked.distinct _ _ _ _ here there same)
  obtain ⟨sights, rejections⟩ := rest _ apart
  rw [sights, rejections]
  exact tracked.fits _ _ there

theorem Tracked.next (tracked : Tracked index w) (seen : Nat → List Sighting)
    (rejection : Nat → Option Rejection) (eq : w.step config index moment =
      ⟨ReorgGating.step config w.manager (moment.event index), seen, rejection⟩)
    (unborn : ∀ id, (ReorgGating.step config w.manager (moment.event index)).next_gate_id ≤ id →
      seen id = [] ∧ rejection id = none) (fits : ∀ key entry,
      (ReorgGating.step config w.manager (moment.event index)).gates.get? key = some entry →
      Fits index (seen entry.gate_id) (rejection entry.gate_id) entry) :
    Tracked index (w.step config index moment) := by
  have moved : Transition config _ w.manager _
      (ReorgGating.step config w.manager (moment.event index)) :=
    step_transition tracked.sound.keyed (moment.event index)
  rw [eq]
  exact ⟨tracked.sound.transition moved, tracked.distinct.transition tracked.sound moved, unborn, fits⟩

theorem Tracked.settled (tracked : Tracked index w)
    {key : GateKey} {entry : GateEntry}
    (here : w.manager.gates.get? key = some entry)
    (rest : ∀ id, id ≠ entry.gate_id → seen id = w.seen id ∧ rejection id = w.rejection id)
    (above : w.manager.next_gate_id ≤ id) : seen id = [] ∧ rejection id = none := by
  have issued := tracked.sound.issued _ _ here
  obtain ⟨sights, rejections⟩ := rest id (by omega)
  rw [sights, rejections]
  exact tracked.unborn id above

theorem evaluateMask_vetoed (config : GatingConfig)
    (found : findGateById s id = some (key, entry)) (vetoed : entry.gate_state = .VETOED) (now : Int)
    (hash : Uint256) (height : Int) (raw tip proof : Uint256) :
    (evaluateMask config now s id hash height raw tip proof).1 = s ∨
      (evaluateMask config now s id hash height raw tip proof).1 = dropVeto now s entry := by
  simp only [evaluateMask, found, vetoed]
  split
  · exact .inr rfl
  · split
    · exact .inr rfl
    · split
      · exact .inr rfl
      · exact .inl rfl

theorem get?_of_dropVeto
    (there : (dropVeto now s entry).gates.get? other = some gate) : s.gates.get? other = some gate := by
  simp only [dropVeto, OrdMap.get?_erase] at there
  split at there
  · cases there
  · exact there

theorem hadRecentVeto_gates (now : Int) (s : Manager) (anchor : Uint256) :
    (ReorgGating.hadRecentVeto now s anchor).1.gates = s.gates := by
  unfold ReorgGating.hadRecentVeto
  split
  · rfl
  · split
    · rfl
    · split <;> rfl

theorem Tracked.evaluate (mask : config.gating_mode = .MASK) (tracked : Tracked index w) (now : Int)
    (tip : Uint256) (id : Nat) (candidate : Uint256) :
    Tracked index (w.step config index ⟨now, tip, .evaluate id candidate⟩) := by
  cases found : findGateById w.manager id with
  | none =>
    have same : ReorgGating.step config w.manager
        (Moment.event index ⟨now, tip, .evaluate id candidate⟩) = w.manager := by
      simp [Moment.event, ReorgGating.step, evaluateMask, found]
    refine tracked.next w.seen w.rejection (by simp [Watched.step, found]) ?_ ?_
    · rw [same]; exact tracked.unborn
    · rw [same]; exact tracked.fits
  | some gate =>
    obtain ⟨key, entry⟩ := gate
    obtain ⟨here, rfl⟩ := findGateById_eq_some found
    let seen := Function.update w.seen entry.gate_id (⟨candidate, tip⟩ :: w.seen entry.gate_id)
    have rest : ∀ id, id ≠ entry.gate_id → seen id = w.seen id ∧ w.rejection id = w.rejection id :=
      fun id differ => ⟨Function.update_of_ne differ _ _, rfl⟩
    have own : seen entry.gate_id = ⟨candidate, tip⟩ :: w.seen entry.gate_id := Function.update_self ..
    have fitting := tracked.fits _ _ here
    refine tracked.next seen w.rejection (by simp [Watched.step, found, seen])
      (fun id above => tracked.settled here rest ?_) (fun other gate there => ?_)
    · have moved : Transition config now w.manager _ _ := step_transition tracked.sound.keyed
        (Moment.event index ⟨now, tip, .evaluate entry.gate_id candidate⟩)
      exact moved.counters.1.trans above
    · cases state : entry.gate_state with
      | PENDING =>
        simp only [Moment.event, ReorgGating.step, evaluateMask, found, state, mask, ne_eq,
          not_true_eq_false, if_false] at there
        simp only [Fits, state] at fitting
        obtain ⟨unrejected, best, known, hash, height, raw, current⟩ := fitting
        -- The gate takes the candidate exactly when the record does.
        split at there
        · next more =>
          simp only [OrdMap.get?_insert] at there
          split at there
          · cases there
            simp only [Fits, state]
            refine ⟨unrejected, ⟨candidate, tip⟩, ?_, rfl, rfl, rfl, rfl⟩
            simp only [own, bestSighting, known]
            rw [if_pos (raw ▸ more)]
          · next differ => exact tracked.elsewhere here rest there differ
        · next less =>
          by_cases same : other = key
          · subst same
            obtain rfl := Option.mem_unique here there
            simp only [Fits, state]
            refine ⟨unrejected, best, ?_, hash, height, raw, current⟩
            simp only [own, bestSighting, known]
            rw [if_neg (raw ▸ less)]
          · exact tracked.elsewhere here rest there same
      | VETOED =>
        -- The record of evaluations says nothing about a veto that stands.
        have kept : w.manager.gates.get? other = some gate := by
          rcases evaluateMask_vetoed config found state now candidate
            (index candidate).nHeight (index candidate).nChainWorkRaw tip (index candidate).blockProof
            with stands | dropped
          · simp only [Moment.event, ReorgGating.step, stands] at there
            exact there
          · simp only [Moment.event, ReorgGating.step, dropped] at there
            exact get?_of_dropVeto there
        by_cases same : other = key
        · subst same
          obtain rfl := Option.mem_unique here kept
          simp only [Fits, state] at fitting ⊢
          exact fitting
        · exact tracked.elsewhere here rest kept same

theorem Tracked.arm (tracked : Tracked index w) (now : Int) (tip fork anchor candidate current : Uint256)
    (driven : Bool) (improves : Improves index w ⟨now, tip, .arm fork anchor candidate current driven⟩) :
    Tracked index (w.step config index ⟨now, tip, .arm fork anchor candidate current driven⟩) := by
  cases found : w.manager.gates.get? (toLex (fork, anchor)) with
  | none =>
    -- A new gate takes the next id, whose record is still empty.
    let seen := Function.update w.seen w.manager.next_gate_id
      (⟨candidate, tip⟩ :: w.seen w.manager.next_gate_id)
    have own : seen w.manager.next_gate_id = [⟨candidate, tip⟩] := by
      simp only [seen, Function.update_self, (tracked.unborn _ (le_refl _)).1]
    have rest : ∀ id, id ≠ w.manager.next_gate_id → seen id = w.seen id :=
      fun id differ => Function.update_of_ne differ _ _
    refine tracked.next seen w.rejection (by simp [Watched.step, found, seen])
      (fun id above => ?_) (fun other gate there => ?_)
    · simp only [Moment.event, ReorgGating.step, setPending, found] at above
      rw [rest id (by omega)]
      exact tracked.unborn id (by omega)
    · simp only [Moment.event, ReorgGating.step, setPending, found, OrdMap.get?_insert] at there
      split at there
      · cases there
        refine ⟨(tracked.unborn _ (le_refl _)).2, ⟨candidate, tip⟩, ?_, rfl, rfl, rfl, rfl⟩
        simp only [own, bestSighting]
      -- The older gates have smaller ids.
      · have issued := tracked.sound.issued _ _ there
        rw [rest _ (by omega)]
        exact tracked.fits _ _ there
  | some entry =>
    let seen := Function.update w.seen entry.gate_id (⟨candidate, tip⟩ :: w.seen entry.gate_id)
    have rest : ∀ id, id ≠ entry.gate_id → seen id = w.seen id ∧ w.rejection id = w.rejection id :=
      fun id differ => ⟨Function.update_of_ne differ _ _, rfl⟩
    have own : seen entry.gate_id = ⟨candidate, tip⟩ :: w.seen entry.gate_id := Function.update_self ..
    have fitting := tracked.fits _ _ found
    refine tracked.next seen w.rejection (by simp [Watched.step, found, seen])
      (fun id above => tracked.settled found rest ?_) (fun other gate there => ?_)
    · have moved : Transition config now w.manager _ _ := step_transition tracked.sound.keyed
        (Moment.event index ⟨now, tip, .arm fork anchor candidate current driven⟩)
      exact moved.counters.1.trans above
    · cases state : entry.gate_state with
      | PENDING =>
        simp only [Moment.event, ReorgGating.step, setPending, found, state, OrdMap.get?_insert] at there
        split at there
        · cases there
          simp only [Fits, state] at fitting ⊢
          obtain ⟨unrejected, best, known, _, _, raw, _⟩ := fitting
          refine ⟨unrejected, ⟨candidate, tip⟩, ?_, rfl, rfl, rfl, rfl⟩
          -- A refresh overwrites the candidate; it stays the best one because it improves.
          have more := improves entry found state
          simp only [own, bestSighting, known]
          rw [if_pos (raw ▸ more)]
        · next differ => exact tracked.elsewhere found rest there differ
      | VETOED =>
        simp only [Moment.event, ReorgGating.step, setPending, found, state] at there
        by_cases same : other = toLex (fork, anchor)
        · subst same
          obtain rfl := Option.mem_unique found there
          simp only [Fits, state] at fitting ⊢
          exact fitting
        · exact tracked.elsewhere found rest there same

theorem Tracked.fewer (tracked : Tracked index w) (eq : w.step config index moment =
      ⟨ReorgGating.step config w.manager (moment.event index), w.seen, w.rejection⟩) (fewer : ∀ key entry,
      (ReorgGating.step config w.manager (moment.event index)).gates.get? key = some entry →
      w.manager.gates.get? key = some entry) : Tracked index (w.step config index moment) := by
  refine tracked.next w.seen w.rejection eq (fun id above => tracked.unborn id ?_)
    (fun key entry here => tracked.fits key entry (fewer key entry here))
  have moved : Transition config _ w.manager _ _ := step_transition tracked.sound.keyed (moment.event index)
  exact moved.counters.1.trans above

theorem Tracked.rejected (tracked : Tracked index w) {key : GateKey}
    {entry : GateEntry} (here : w.manager.gates.get? key = some entry) (settled fresh : Bool)
    (pending : settled = true → entry.gate_state = .PENDING)
    (next : GateEntry) (id : next.gate_id = entry.gate_id) (vetoed : next.gate_state = .VETOED)
    (eq : w.step config index moment = ⟨ReorgGating.step config w.manager (moment.event index), w.seen,
        Function.update w.rejection entry.gate_id (some ⟨w.seen entry.gate_id, moment.tip_raw_work,
          settled, fresh⟩)⟩) (gates : ∀ other gate,
      (ReorgGating.step config w.manager (moment.event index)).gates.get? other = some gate →
      other = key ∧ gate = next ∨ other ≠ key ∧ w.manager.gates.get? other = some gate)
    (baselines : settled = true → ∀ best, bestSighting index (w.seen entry.gate_id) = some best →
      next.veto_candidate_height = (index best.candidate).nHeight ∧
        (fresh = true ∨ best.tip_raw_work = moment.tip_raw_work → next.veto_margin_positive =
              decide (moment.tip_raw_work < (index best.candidate).nChainWorkRaw) ∧ next.veto_raw_margin =
              if moment.tip_raw_work < (index best.candidate).nChainWorkRaw then
                (index best.candidate).nChainWorkRaw - moment.tip_raw_work else 0)) :
    Tracked index (w.step config index moment) := by
  have rest : ∀ id, id ≠ entry.gate_id → w.seen id = w.seen id ∧
      Function.update w.rejection entry.gate_id (some ⟨w.seen entry.gate_id, moment.tip_raw_work,
        settled, fresh⟩) id = w.rejection id :=
    fun id differ => ⟨rfl, Function.update_of_ne differ _ _⟩
  refine tracked.next _ _ eq (fun id above => tracked.settled here rest ?_) (fun other gate there => ?_)
  · have moved : Transition config _ w.manager _ _ := step_transition tracked.sound.keyed (moment.event index)
    exact moved.counters.1.trans above
  · rcases gates other gate there with ⟨rfl, rfl⟩ | ⟨differ, old⟩
    · simp only [Fits, vetoed, id, Function.update_self]
      -- The rejection on record is this one, and it counts when it is settled.
      intro r rejected counts
      cases rejected
      have fitting := tracked.fits _ _ here
      simp only [Fits, pending counts] at fitting
      obtain ⟨_, best, known, _⟩ := fitting
      exact ⟨best, known, baselines counts best known⟩
    · exact tracked.elsewhere here rest old differ

theorem Tracked.baselines (tracked : Tracked index w) (here : w.manager.gates.get? key = some entry)
    (pending : entry.gate_state = .PENDING) {best : Sighting}
    (known : bestSighting index (w.seen entry.gate_id) = some best) :
    entry.candidate_tip_hash = best.candidate ∧
    entry.candidate_height = (index best.candidate).nHeight ∧
    entry.work.candidate_raw_work = (index best.candidate).nChainWorkRaw ∧
    entry.work.current_raw_work = best.tip_raw_work := by
  have fitting := tracked.fits _ _ here
  simp only [Fits, pending] at fitting
  obtain ⟨_, other, found, shown⟩ := fitting
  obtain rfl := Option.mem_unique known found
  exact shown

theorem Tracked.submit (mask : config.gating_mode = .MASK) (tracked : Tracked index w) (now : Int)
    (tip : Uint256) (which : Option Nat) (decision : ReorgDecision) :
    Tracked index (w.step config index ⟨now, tip, .submit which decision⟩) := by
  cases found : resolveGate w.manager which with
  | error status =>
    refine tracked.fewer (by simp [Watched.step, found]) fun key entry there => ?_
    simp only [Moment.event, ReorgGating.step, submitDecision, found] at there
    split at there <;> exact there
  | ok gate =>
    obtain ⟨key, entry⟩ := gate
    have here := resolveGate_eq_ok found
    -- In mask mode a decision is never just stamped.
    have unblocked : ¬ (config.gating_mode = .BLOCK ∧ entry.gate_state = .PENDING) := by simp [mask]
    by_cases rejects : decision = .REJECT
    · subst rejects
      refine tracked.rejected here (decide (entry.gate_state = .PENDING)) false of_decide_eq_true
        (convertToVeto now { entry with generation := w.manager.next_generation + 1 }) rfl rfl
        (by simp [Watched.step, found]) (fun other gate there => ?_) fun pending best known => ?_
      · simp only [Moment.event, ReorgGating.step, submitDecision, found] at there
        rw [if_neg (by decide), if_neg unblocked, if_neg (by decide)] at there
        simp only [OrdMap.get?_insert] at there
        split at there
        · next same => exact .inl ⟨same, (Option.some.inj there).symm⟩
        · next differ => exact .inr ⟨differ, there⟩
      -- The operator brings no snapshot: the stored works are those of the best candidate.
      · obtain ⟨_, height, raw, current⟩ := tracked.baselines here (of_decide_eq_true pending) known
        refine ⟨height, fun current_tip => ?_⟩
        have same : best.tip_raw_work = tip := by simpa using current_tip
        simp only [convertToVeto, raw, current, same, decide_eq_true_eq, and_self]
    · refine tracked.fewer (by simp [Watched.step, found, rejects]) fun other gate there => ?_
      simp only [Moment.event, ReorgGating.step, submitDecision, found] at there
      by_cases accepts : decision = .ACCEPT
      · rw [if_neg (fun invalid => invalid.1 accepts), if_neg unblocked, if_pos accepts] at there
        simp only [OrdMap.get?_erase] at there
        split at there
        · cases there
        · exact there
      · rw [if_pos ⟨accepts, rejects⟩] at there
        exact there

theorem Tracked.timeout (tracked : Tracked index w) (now : Int) (tip : Uint256) (look : TimeoutLook)
    (hook : Uint256 → Option (Uint256 × Bool)) :
    Tracked index (w.step config index ⟨now, tip, .timeout look hook⟩) := by
  cases found : findGateById w.manager look.gate_id with
  | none =>
    refine tracked.fewer (by simp [Watched.step, found]) fun key entry there => ?_
    simp only [Moment.event, ReorgGating.step, handleTimeout, found] at there
    split at there <;> exact there
  | some gate =>
    obtain ⟨key, entry⟩ := gate
    obtain ⟨here, named⟩ := findGateById_eq_some found
    by_cases acts : look ∈ w.manager.looks ∧ entry.generation = look.generation ∧ entry.gate_state = .PENDING
    · obtain ⟨looked, same, state⟩ := acts
      have current : ¬ (entry.generation ≠ look.generation ∨ entry.gate_state ≠ .PENDING) := by tauto
      let work := ((hook look.candidate_tip_hash).map fun answer =>
        takeSnapshot index answer.1 look.candidate_tip_hash answer.2).getD entry.work
      refine tracked.rejected here ((hook look.candidate_tip_hash).all fun answer =>
          look.candidate_tip_hash = entry.candidate_tip_hash ∧ answer.1 = tip)
        (hook look.candidate_tip_hash).isSome (fun _ => state)
        (convertToVeto now { entry with work, generation := w.manager.next_generation + 1 }) rfl rfl
        (by simp [Watched.step, found, looked, same, state, named]) (fun other gate there => ?_)
        fun settled best known => ?_
      · simp only [Moment.event, ReorgGating.step, handleTimeout, found, if_neg current,
          if_neg (not_not_intro looked)] at there
        split at there
        · -- An accepted gate is gone.
          simp only [OrdMap.get?_erase, tracked.sound.keyed _ _ here] at there
          split at there
          · cases there
          · next differ => exact .inr ⟨differ, there⟩
        · simp only [OrdMap.get?_insert] at there
          split at there
          · next same => exact .inl ⟨same, (Option.some.inj there).symm⟩
          · next differ => exact .inr ⟨differ, there⟩
      · obtain ⟨hash, height, raw, current⟩ := tracked.baselines here state known
        refine ⟨height, fun current_tip => ?_⟩
        -- Either snapshot says the same of the best candidate and of the tip.
        have shown : work.candidate_raw_work = (index best.candidate).nChainWorkRaw ∧ work.current_raw_work = tip := by
          cases hooked : hook look.candidate_tip_hash with
          | some answer =>
            simp only [hooked, Option.all_some, decide_eq_true_eq] at settled
            simp only [work, hooked, Option.map_some, Option.getD_some, takeSnapshot, settled.2, and_true]
            rw [settled.1, hash]
          | none =>
            have same : best.tip_raw_work = tip := by simpa [hooked] using current_tip
            simp [work, hooked, raw, current, same]
        simp only [convertToVeto, shown.1, shown.2, decide_eq_true_eq, and_self]
    · refine tracked.fewer (by simp [Watched.step, found, acts]) fun other gate there => ?_
      simp only [Moment.event, ReorgGating.step, handleTimeout, found] at there
      split at there
      · exact there
      · next looked =>
        rw [if_pos (by tauto)] at there
        exact there

theorem Tracked.vetoPending (tracked : Tracked index w) (now : Int) (tip : Uint256)
    (fresh : Option ReorgGateWorkSnapshot) (live : Option (Uint256 × Int)) :
    Tracked index (w.step config index ⟨now, tip, .vetoPending fresh live⟩) := by
  cases found : oldestPending w.manager.gates.entries with
  | none =>
    refine tracked.fewer (by simp [Watched.step]) fun other gate there => ?_
    simpa only [Moment.event, ReorgGating.step, ReorgGating.vetoPending, found] using there
  | some gate =>
    obtain ⟨key, entry⟩ := gate
    obtain ⟨here, pending⟩ := oldestPending_spec found
    have fitting := tracked.fits _ _ here
    simp only [Fits, pending] at fitting
    refine tracked.next w.seen w.rejection (by simp [Watched.step]) (fun id above => tracked.unborn id ?_)
      fun other gate there => ?_
    · simpa only [Moment.event, ReorgGating.step, ReorgGating.vetoPending, found] using above
    · simp only [Moment.event, ReorgGating.step, ReorgGating.vetoPending, found, OrdMap.get?_insert]
        at there
      split at there
      · -- No rejection of the operator's or of a timer's is on record for this veto.
        cases there
        simp only [Fits, convertToVeto]
        intro r rejected
        rw [fitting.1] at rejected
        cases rejected
      · exact tracked.fits _ _ there

theorem Tracked.step (mask : config.gating_mode = .MASK) (tracked : Tracked index w) (moment : Moment)
    (improves : Improves index w moment) : Tracked index (w.step config index moment) := by
  obtain ⟨now, tip, call⟩ := moment
  cases call with
  | arm fork anchor candidate current driven => exact tracked.arm now tip fork anchor candidate current driven improves
  | evaluate id candidate => exact tracked.evaluate mask now tip id candidate
  | submit which decision => exact tracked.submit mask now tip which decision
  | timeout look hook => exact tracked.timeout now tip look hook
  | look id generation =>
    refine tracked.fewer (by simp [Watched.step]) fun other gate there => ?_
    simp only [Moment.event, ReorgGating.step, lookTimeout] at there
    split at there
    · exact there
    · split at there <;> exact there
  | vetoPending fresh live => exact tracked.vetoPending now tip fresh live
  | clear which =>
    refine tracked.fewer (by simp [Watched.step]) fun other gate there => ?_
    simp only [Moment.event, ReorgGating.step, clearVeto] at there
    split at there
    · exact there
    · split at there
      · exact there
      · exact get?_of_dropVeto there
  | remove id =>
    refine tracked.fewer (by simp [Watched.step]) fun other gate there => ?_
    simp only [Moment.event, ReorgGating.step, removeGate] at there
    split at there
    · exact there
    · simp only [OrdMap.get?_erase] at there
      split at there
      · cases there
      · exact there
  | hadRecentVeto anchor =>
    refine tracked.fewer (by simp [Watched.step]) fun other gate there => ?_
    simp only [Moment.event, ReorgGating.step, hadRecentVeto_gates] at there
    exact there

theorem watch_tracked (mask : config.gating_mode = .MASK) (history : List Moment)
    (tracked : Tracked index w) (improving : Improving config index w history) :
    Tracked index (history.foldl (Watched.step config index) w) := by
  induction history generalizing w with
  | nil => exact tracked
  | cons moment rest ih => exact ih (tracked.step mask moment improving.1) improving.2

theorem escapeThreshold_val {proof raw tip : Uint256}
    (growth : 0 < config.veto_growth_blocks) (small : config.veto_growth_blocks < 2 ^ 31)
    (positive : entry.veto_margin_positive = decide (tip < raw))
    (margin : entry.veto_raw_margin = if tip < raw then raw - tip else 0)
    (room : max 0 ((raw.val : Int) - tip.val) + config.veto_growth_blocks * proof.val < 2 ^ 256) :
    ((escapeThreshold config entry proof).val : Int) =
      max 0 ((raw.val : Int) - tip.val) + config.veto_growth_blocks * proof.val := by
  obtain ⟨blocks, eq⟩ := Int.eq_ofNat_of_zero_le growth.le
  -- The stored margin is the difference where it is positive, and zero elsewhere.
  have base : ((if entry.veto_margin_positive then entry.veto_raw_margin else 0 : Uint256).val : Int) =
      max 0 ((raw.val : Int) - tip.val) := by
    rw [positive, margin]
    by_cases ahead : tip < raw
    · simp only [ahead, decide_true, if_true]
      rw [Fin.sub_val_of_le ahead.le]
      have := Fin.lt_def.mp ahead
      omega
    · simp only [ahead, decide_false, if_false, Bool.false_eq_true]
      have := Fin.not_lt.mp ahead
      have := Fin.le_def.mp this
      simp only [Fin.val_zero]
      omega
  -- The number of blocks survives the cast to 32 bits.
  have factor : (Fin.ofNat (2 ^ 256) (config.veto_growth_blocks.toNat % 2 ^ 32)).val = blocks := by
    rw [Fin.val_ofNat, eq, Int.toNat_natCast, Nat.mod_eq_of_lt (by omega), Nat.mod_eq_of_lt (by omega)]
  have product : ((proof.val * blocks : Nat) : Int) = config.veto_growth_blocks * proof.val := by
    rw [eq, Nat.cast_mul, mul_comm]
  unfold escapeThreshold
  rw [if_pos growth, Fin.val_add, Fin.val_mul, factor,
    Nat.mod_eq_of_lt (a := proof.val * blocks) (by omega), Nat.mod_eq_of_lt (by omega)]
  omega

def lifts (config : GatingConfig) (index : Uint256 → IndexedBlock) (now : Int) (s : Manager) (gate_id : Nat)
    (candidate tip_raw_work : Uint256) : Prop :=
  (evaluateMask config now s gate_id candidate (index candidate).nHeight
    (index candidate).nChainWorkRaw tip_raw_work (index candidate).blockProof).2 = false

instance (now : Int) (s : Manager) (gate_id : Nat) (candidate tip_raw_work : Uint256) :
    Decidable (lifts config index now s gate_id candidate tip_raw_work) := inferInstanceAs (Decidable (_ = _))

def Outgrown (config : GatingConfig) (index : Uint256 → IndexedBlock) (best : Uint256)
    (rejected_tip candidate tip : Uint256) : Prop :=
  config.veto_growth_blocks ≤ (index candidate).nHeight - (index best).nHeight ∨
    max 0 (((index best).nChainWorkRaw.val : Int) - rejected_tip.val) +
        config.veto_growth_blocks * (index candidate).blockProof.val <
      ((index candidate).nChainWorkRaw.val : Int) - tip.val

instance (best rejected_tip candidate tip : Uint256) :
    Decidable (Outgrown config index best rejected_tip candidate tip) := inferInstanceAs (Decidable (_ ∨ _))

theorem lifts_iff (distinct : Distinct s) (here : s.gates.get? key = some entry)
    (vetoed : entry.gate_state = .VETOED) (within : now - entry.vetoed_at ≤ config.veto_ttl_secs)
    (candidate tip : Uint256) :
    lifts config index now s entry.gate_id candidate tip ↔
      config.veto_growth_blocks ≤ (index candidate).nHeight - entry.veto_candidate_height ∨
      tip < (index candidate).nChainWorkRaw ∧
      escapeThreshold config entry (index candidate).blockProof <
        (index candidate).nChainWorkRaw - tip := by
  have found := findGateById_of_get? distinct here
  unfold lifts
  simp only [evaluateMask, found, vetoed]
  -- Its time is not over yet.
  rw [if_neg (by omega)]
  split
  · next grown => simp [grown]
  · next short =>
    split
    · next escaped => simp [escaped]
    · next held => simp [short, held]

/-- A veto is lifted exactly when the candidate outgrows what was known at its rejection, which
finds the gate pending, with a snapshot or before the tip has moved. A refreshed gate has to
improve, and the threshold's sum must not overflow. -/
theorem veto_lifted_on_growth (mask : config.gating_mode = .MASK) (growth : 1 ≤ config.veto_growth_blocks)
    (small : config.veto_growth_blocks < 2 ^ 31) (history : List Moment)
    (improving : Improving config index .initial history) {key : GateKey} {entry : GateEntry}
    (here : (watch config index history).manager.gates.get? key = some entry)
    (vetoed : entry.gate_state = .VETOED) {r : Rejection}
    (latest : (watch config index history).rejection entry.gate_id = some r) (pending : r.pending = true)
    (current : r.fresh = true ∨ ∀ best, bestSighting index r.seen = some best → best.tip_raw_work = r.tip_raw_work)
    {now : Int} (within : now - entry.vetoed_at ≤ config.veto_ttl_secs) (candidate tip : Uint256) :
    ∃ best, bestSighting index r.seen = some best ∧
      (max 0 (((index best.candidate).nChainWorkRaw.val : Int) - r.tip_raw_work.val) +
          config.veto_growth_blocks * (index candidate).blockProof.val < 2 ^ 256 →
        (lifts config index now (watch config index history).manager entry.gate_id candidate tip ↔
          Outgrown config index best.candidate r.tip_raw_work candidate tip)) := by
  have tracked : Tracked index (watch config index history) :=
    watch_tracked mask history (Tracked.initial index) improving
  have fitting := tracked.fits _ _ here
  simp only [Fits, vetoed] at fitting
  obtain ⟨best, known, height, margins⟩ := fitting r latest pending
  obtain ⟨positive, margin⟩ := margins (current.imp_right fun same => same best known)
  refine ⟨best, known, fun room => ?_⟩
  rw [lifts_iff tracked.distinct here vetoed within, height, Outgrown,
    ← escapeThreshold_val (by omega) small positive margin room]
  -- The heights agree; for the works, the subtraction does not wrap once the candidate is ahead.
  refine or_congr_right ⟨fun ⟨ahead, more⟩ => ?_, fun more => ?_⟩
  · have apart := Fin.lt_def.mp more
    rw [Fin.sub_val_of_le ahead.le] at apart
    have := Fin.lt_def.mp ahead
    omega
  · have ahead : tip < (index candidate).nChainWorkRaw := Fin.lt_def.mpr (by omega)
    refine ⟨ahead, Fin.lt_def.mpr ?_⟩
    rw [Fin.sub_val_of_le ahead.le]
    omega

def tenths (hash : Uint256) : IndexedBlock := ⟨hash.val, Fin.ofNat _ (10 * hash.val), 10⟩

def masked : GatingConfig where
  enabled := true
  gating_mode := .MASK
  veto_ttl_secs := 3600
  veto_growth_blocks := 6
  timeout_accept := false

def rejectedAt (heights : List Uint256) : List Moment :=
  ⟨0, 900, .arm 1 2 100 3 false⟩ ::
    heights.map (fun height => ⟨1, 900, .evaluate 1 height⟩) ++ [⟨2, 900, .submit none .REJECT⟩]

theorem veto_lifted_on_growth_at_ten :
    lifts masked tenths 3 (watch masked tenths (rejectedAt [104])).manager 1 110 950 ↔
      Outgrown masked tenths 104 900 110 950 := by
  have gate : ((watch masked tenths (rejectedAt [104])).manager.gates.get? (toLex (1, 2))).map
      (fun e => (e.gate_state, e.gate_id, e.vetoed_at)) = some (.VETOED, 1, 2) := by decide
  have rejection : ((watch masked tenths (rejectedAt [104])).rejection 1).map
      (fun r => (r.seen, r.tip_raw_work, r.pending, r.fresh)) =
        some ([⟨104, 900⟩, ⟨100, 900⟩], 900, true, false) := by decide
  obtain ⟨entry, here, shown⟩ := Option.map_eq_some_iff.mp gate
  obtain ⟨r, latest, known⟩ := Option.map_eq_some_iff.mp rejection
  obtain ⟨vetoed, id, vetoed_at⟩ : entry.gate_state = .VETOED ∧ entry.gate_id = 1 ∧
      entry.vetoed_at = 2 := by simpa using shown
  obtain ⟨seen, tip, pending, _⟩ : r.seen = [⟨104, 900⟩, ⟨100, 900⟩] ∧ r.tip_raw_work = 900 ∧
      r.pending = true ∧ r.fresh = false := by simpa using known
  have sighted : bestSighting tenths r.seen = some ⟨104, 900⟩ := by rw [seen]; decide
  have mask : masked.gating_mode = .MASK := rfl
  have improving : Improving masked tenths .initial (rejectedAt [104]) :=
    ⟨fun _ absent => (nomatch absent), trivial, trivial, trivial⟩
  have within : (3 : Int) - entry.vetoed_at ≤ masked.veto_ttl_secs := by rw [vetoed_at]; decide
  obtain ⟨best, found, lifted⟩ := veto_lifted_on_growth mask (by decide) (by decide) (rejectedAt [104])
    improving here vetoed (by rw [id]; exact latest) pending
    (.inr fun best found => by rw [tip, ← Option.mem_unique sighted found]) within 110 950
  obtain rfl := Option.mem_unique sighted found
  rw [id, tip] at lifted
  exact lifted (by decide)

/-- After a second rejection the veto still measures the growth from the first. -/
theorem veto_lifted_by_one_block :
    let history := rejectedAt [] ++ [⟨3, 2000, .evaluate 1 105⟩, ⟨4, 2000, .submit (some 1) .REJECT⟩]
    let w := watch masked tenths history
    (w.rejection 1).map (fun r => (bestSighting tenths r.seen, r.tip_raw_work)) = some (some ⟨105, 2000⟩, 2000) ∧
      lifts masked tenths 5 w.manager 1 106 2000 ∧ ¬ Outgrown masked tenths 105 2000 106 2000 := by
  decide

end ReorgGating

end TensorCash
