import Mathlib.Data.List.Basic
import Mathlib.Data.List.Nodup
import Mathlib.Tactic.SplitIfs

/-! Full validation of one block and its amber request, in `validationapi.cpp`. A call is one step
on the guarded requests; an update of the unguarded record takes three. -/

namespace TensorCash

namespace AmberFlow

/-- `ValidationResponseValue`, as far as full validation tells its values apart. -/
inductive Verdict where
  | Not_Checked
  | Full_Green
  | Full_Amber
  | Full_Red
  | other (code : UInt8)
deriving DecidableEq

def EXPECTED_EXTFULL_SIZE : Nat := 100

def AMBER_RETRY_DELAYS : List Nat := [0, 1, 60, 120]

/-- `BlockValidationRecord_Full`: the own verdict and the votes of peers, in the order they came. -/
structure Record where
  FullValidation : Verdict := .Not_Checked
  extFulls : List (String × Verdict) := []
deriving DecidableEq

def countAmber : List (String × Verdict) → Nat → Option Nat
  | [], total_amber => some total_amber
  | (_, value) :: rest, total_amber =>
    if value = .Full_Red then none
    else countAmber rest (if value = .Full_Amber then total_amber + 1 else total_amber)

def Record.getFull (r : Record) (own : Bool) : Verdict :=
  if own ∨ r.FullValidation ≠ .Full_Amber then r.FullValidation
  else if r.extFulls.length = 0 then .Full_Red
  else
    match countAmber r.extFulls 0 with
    | none => .Full_Red
    | some total_amber => if total_amber > r.extFulls.length / 5 then .Full_Red else .Full_Green

def setVote (peerid : String) (value : Verdict) : List (String × Verdict) → List (String × Verdict)
  | [] => []
  | vote :: rest =>
    if vote.1 = peerid then (peerid, value) :: rest else vote :: setVote peerid value rest

def Record.addExtFull (r : Record) (peerid : String) (value : Verdict) : Option Record :=
  if value = .Not_Checked then none
  else if peerid ∈ r.extFulls.map Prod.fst then
    some { r with extFulls := setVote peerid value r.extFulls }
  else if r.extFulls.length ≥ EXPECTED_EXTFULL_SIZE then none
  else some { r with extFulls := r.extFulls ++ [(peerid, value)] }

/-- `AmberRequest` without what it only carries on. -/
structure AmberRequest where
  initial_status : Verdict
  next_send : Nat
  attempts : Nat := 0
  expected_peers : Nat := 0
  force_finalize : Bool := false
  dispatch_in_flight : Bool := false
  finalize_deadline : Option Nat := none

def shouldFinalizeAmber (read : Option Record) (request : AmberRequest) (force_finalize : Bool) : Bool :=
  match read with
  | none => force_finalize
  | some record =>
    let nExtFull := record.extFulls.length
    let all_responded := request.expected_peers > 0 ∧ nExtFull ≥ request.expected_peers
    if record.FullValidation = .Full_Red then
      force_finalize ∨ request.expected_peers = 0 ∨ all_responded
    else if record.FullValidation ≠ .Full_Amber then true
    else
      let has_red := record.extFulls.any fun vote => vote.2 = .Full_Red
      -- The loop stops at a red vote; what it has counted by then makes no difference.
      let enough_amber := (record.extFulls.countP fun vote => vote.2 = .Full_Amber) ≥ 5
      if ¬ force_finalize ∧ request.expected_peers > 0 ∧ nExtFull < request.expected_peers ∧
          (has_red ∨ enough_amber) then false
      else has_red ∨ enough_amber ∨ all_responded ∨ force_finalize

/-- Whether peers disagree enough with the own verdict to validate once more. -/
def wantsRevalidation (read : Option Record) (request : AmberRequest) (already_revalidated : Bool) : Bool :=
  match read with
  | none => false
  | some record =>
    let nExtFull := record.extFulls.length
    let green_count := record.extFulls.countP fun vote => vote.2 = .Full_Green
    let red_count := record.extFulls.countP fun vote => vote.2 = .Full_Red
    let polled_peers := request.expected_peers > 0
    let all_responded := polled_peers ∧ nExtFull ≥ request.expected_peers
    let greens_majority := green_count * 2 ≥ nExtFull
    (all_responded ∨ request.force_finalize) ∧ polled_peers ∧ nExtFull > 0 ∧ ¬ already_revalidated ∧
      ((request.initial_status = .Full_Amber ∧ record.getFull false = .Full_Red ∧ greens_majority) ∨
        (request.initial_status = .Full_Red ∧ red_count = 0 ∧ greens_majority))

inductive Outcome where
  | finalize
  | revalidate
deriving DecidableEq

structure Decision where
  outcome : Option Outcome
  request : AmberRequest
  dispatch : Bool

def dueRequest (now : Nat) (request : AmberRequest) : AmberRequest :=
  if request.finalize_deadline.any (· ≤ now) then
    { request with force_finalize := true, finalize_deadline := none }
  else request

def sentRequest (now : Nat) (request : AmberRequest) : AmberRequest :=
  { request with
    dispatch_in_flight := true
    next_send := now + AMBER_RETRY_DELAYS.getD (min request.attempts (AMBER_RETRY_DELAYS.length - 1)) 0
    attempts := request.attempts + 1
    finalize_deadline :=
      if request.attempts + 1 ≥ AMBER_RETRY_DELAYS.length then some now else request.finalize_deadline }

/-- One request of `ProcessAmberRequests`; another thread may write between its reads. -/
def processRequest (now : Nat) (already_revalidated : Bool) (first second third : Option Record)
    (request : AmberRequest) : Decision :=
  let request := dueRequest now request
  if wantsRevalidation first request already_revalidated then ⟨some .revalidate, request, false⟩
  else if shouldFinalizeAmber second request false then ⟨some .finalize, request, false⟩
  else
    let due := request.attempts < AMBER_RETRY_DELAYS.length ∧ now ≥ request.next_send
    let sent := if due then sentRequest now request else request
    if due ∧ sent.attempts ≥ AMBER_RETRY_DELAYS.length then ⟨none, sent, true⟩
    else if sent.force_finalize ∧ shouldFinalizeAmber third sent true then ⟨some .finalize, sent, due⟩
    else ⟨none, sent, due⟩

/-- What a call has still to do. An update holds what it read and what it will write. -/
inductive Op where
  /-- `UpdateRes_Full` behind its read. -/
  | updateRes (base : Option Record) (new : Record) (erased : Bool)
  /-- `UpdateExtFull` behind its read. -/
  | updateExt (base new : Record) (erased : Bool)
  /-- `RecordPeerFullStatus` behind its update. -/
  | voted
  /-- Headers have been asked for; the number of peers is not yet noted. -/
  | dispatch
  | finalize (n : Nat)
  /-- `FinalizeAmber` behind its read. -/
  | setStatus (value : Verdict)
  | revalidate (n : Nat)
deriving DecidableEq

structure State where
  /-- What a read returns. -/
  stored : Option Record
  /-- What was written last; it differs from what is stored only while an update has erased it. -/
  last : Option Record
  tracked : Option (Nat × AmberRequest) := none
  /-- The block is in `revalidation_attempted_`. -/
  attempted : Bool := false
  started : Nat := 0
  ops : List Op := []
  finalised : List Nat := []
  revalidated : List Nat := []

def start (record : Option Record) : State := { stored := record, last := record }

def isFullVerdict (value : Verdict) : Bool := value = .Full_Green || value = .Full_Amber || value = .Full_Red

/-- `UpdateRes_Full` up to its read: amber never downgrades a terminal verdict. -/
def beginUpdateRes (s : State) (value : Verdict) : State :=
  if ¬ isFullVerdict value then s
  else
    match s.stored with
    | none =>
      -- There is nothing to erase.
      { s with ops := s.ops ++ [.updateRes none { FullValidation := value } true] }
    | some record =>
      if value = .Full_Amber ∧ (record.FullValidation = .Full_Green ∨ record.FullValidation = .Full_Red) then s
      else
        { s with ops := s.ops ++ [.updateRes (some record) { record with FullValidation := value } false] }

/-- `RecordPeerFullStatus` up to the read of `UpdateExtFull`. -/
def beginRecordPeer (s : State) (peer_id : String) (peer_status : Verdict) : State :=
  if ¬ isFullVerdict peer_status then s
  else
    match s.stored with
    | none => s
    | some record =>
      if record.FullValidation ≠ .Full_Amber then s
      else
        match record.addExtFull peer_id peer_status with
        | none => s
        | some new => { s with ops := s.ops ++ [.updateExt record new false] }

/-- `nothing` is the behavior `Nothing`. A request that is tracked already is left alone. -/
def startAmberFlow (s : State) (nothing : Bool) (initial_status : Verdict) (now : Nat) : State :=
  if nothing ∨ s.tracked.isSome then s
  else
    { s with
      tracked := some (s.started, { initial_status, next_send := now })
      started := s.started + 1 }

def processAmberRequests (s : State) (now : Nat) (second third : Option Record) : State :=
  match s.tracked with
  | none => s
  | some (n, request) =>
    let decision := processRequest now s.attempted s.stored second third request
    let asked := if decision.dispatch then [Op.dispatch] else []
    match decision.outcome with
    | none => { s with tracked := some (n, decision.request), ops := s.ops ++ asked }
    | some .finalize => { s with tracked := none, ops := s.ops ++ (.finalize n :: asked) }
    | some .revalidate =>
      { s with tracked := none, attempted := true, ops := s.ops ++ (.revalidate n :: asked) }

/-- The final status that `FinalizeAmber` sets; `mock` is the option that turns amber into red. -/
def finalStatus (read : Option Record) (mock : Bool) : Verdict :=
  let status := match read with
    | some record => record.getFull false
    | none => .Full_Amber
  if mock ∧ status = .Full_Amber then .Full_Red else status

/-- The next step of a pending operation, which has been taken off the list. -/
def advance (s : State) (dispatched : Nat) (mock : Bool) : Op → State
  | .updateRes base new false => { s with stored := none, ops := s.ops ++ [.updateRes base new true] }
  | .updateRes _ new true => { s with stored := some new, last := some new }
  | .updateExt base new false => { s with stored := none, ops := s.ops ++ [.updateExt base new true] }
  | .updateExt _ new true =>
    { s with stored := some new, last := some new, ops := s.ops ++ [.voted] }
  | .voted =>
    match s.tracked with
    | none => s
    | some (n, request) =>
      if ¬ request.dispatch_in_flight ∧ shouldFinalizeAmber s.stored request false then
        { s with tracked := none, ops := s.ops ++ [.finalize n] }
      else s
  | .dispatch =>
    { s with
      tracked := s.tracked.map fun (n, request) =>
        (n, { request with expected_peers := dispatched, dispatch_in_flight := false }) }
  | .finalize n =>
    { s with
      finalised := s.finalised ++ [n]
      ops := s.ops ++ [.setStatus (finalStatus s.stored mock)] }
  | .setStatus value => beginUpdateRes s value
  | .revalidate n => { s with revalidated := s.revalidated ++ [n] }

inductive Event where
  | updateRes (value : Verdict)
  | recordPeer (peer_id : String) (peer_status : Verdict)
  | startAmberFlow (nothing : Bool) (initial_status : Verdict) (now : Nat)
  | process (now : Nat) (second third : Option Record)
  /-- The pending operation at a place goes on. -/
  | advance (place dispatched : Nat) (mock : Bool)

def step (s : State) : Event → State
  | .updateRes value => beginUpdateRes s value
  | .recordPeer peer_id peer_status => beginRecordPeer s peer_id peer_status
  | .startAmberFlow nothing initial_status now => startAmberFlow s nothing initial_status now
  | .process now second third => processAmberRequests s now second third
  | .advance place dispatched mock =>
    match s.ops[place]? with
    | none => s
    | some op => advance { s with ops := s.ops.eraseIdx place } dispatched mock op

def run (s : State) (events : List Event) : State := events.foldl step s

def State.verdict (s : State) : Option Verdict := s.last.map Record.FullValidation

def State.votes (s : State) : List (String × Verdict) := (s.last.map Record.extFulls).getD []

def Undisturbed (s : State) (e : Event) : Prop :=
  ∀ place dispatched mock, e = .advance place dispatched mock →
    (∀ base new, s.ops[place]? = some (.updateRes base new true) → s.last = base) ∧
      ∀ base new, s.ops[place]? = some (.updateExt base new true) → s.last = some base

def Record.Distinct (r : Record) : Prop := (r.extFulls.map Prod.fst).Nodup

theorem map_fst_setVote (peerid : String) (value : Verdict) (votes : List (String × Verdict)) :
    (setVote peerid value votes).map Prod.fst = votes.map Prod.fst := by
  induction votes with
  | nil => rfl
  | cons vote rest ih =>
    unfold setVote
    split_ifs with same
    · simp [same]
    · simp [ih]

variable {request : AmberRequest} {place : Nat} {op : Op} {r : Record} {s : State} {new : Record}
  {already : Bool} {n : Nat}

theorem Record.Distinct.addExtFull {peerid : String} {value : Verdict}
    (distinct : r.Distinct) (added : r.addExtFull peerid value = some new) :
    new.Distinct ∧ new.FullValidation = r.FullValidation := by
  unfold Record.addExtFull at added
  split_ifs at added with unchecked known full
  · cases added
    exact ⟨by rw [Distinct, map_fst_setVote]; exact distinct, rfl⟩
  · cases added
    refine ⟨?_, rfl⟩
    rw [Distinct, List.map_append, List.nodup_append]
    refine ⟨distinct, by simp, fun a member b single same => known ?_⟩
    simp only [List.map_cons, List.map_nil, List.mem_singleton] at single
    exact single ▸ same ▸ member

theorem countAmber_eq (votes : List (String × Verdict)) (total : Nat) : countAmber votes total =
      if ∃ vote ∈ votes, vote.2 = .Full_Red then none
      else some (total + votes.countP fun vote => vote.2 = .Full_Amber) := by
  induction votes generalizing total with
  | nil => simp [countAmber]
  | cons vote rest ih =>
    obtain ⟨peer, value⟩ := vote
    rw [countAmber]
    by_cases red : value = .Full_Red
    · simp [red]
    · have later : (∃ vote ∈ (peer, value) :: rest, vote.2 = .Full_Red) ↔ ∃ vote ∈ rest, vote.2 = .Full_Red := by
        simp [red]
      rw [if_neg red, ih]
      simp only [later]
      by_cases amber : value = .Full_Amber
      · simp [amber, Nat.add_comm, Nat.add_assoc]
      · simp [amber]

theorem getFull_of_amber (amber : r.FullValidation = .Full_Amber) :
    (r.getFull false = .Full_Green ↔ r.extFulls ≠ [] ∧ (∀ vote ∈ r.extFulls, vote.2 ≠ .Full_Red) ∧
        5 * (r.extFulls.countP fun vote => vote.2 = .Full_Amber) ≤ r.extFulls.length) ∧
      (r.getFull false ≠ .Full_Green → r.getFull false = .Full_Red) := by
  unfold Record.getFull
  rw [if_neg (by simp [amber]), countAmber_eq]
  by_cases none_voted : r.extFulls.length = 0
  · simp [List.length_eq_zero_iff.mp none_voted]
  · have voted : r.extFulls ≠ [] := fun empty => none_voted (by simp [empty])
    by_cases red : ∃ vote ∈ r.extFulls, vote.2 = .Full_Red
    · simp only [none_voted, red, if_false, if_true, reduceCtorEq, false_iff, not_and, implies_true, and_true]
      intro _ none_red
      obtain ⟨vote, member, is_red⟩ := red
      exact absurd is_red (none_red vote member)
    · have none_red : ∀ vote ∈ r.extFulls, vote.2 ≠ .Full_Red := fun vote member is_red => red ⟨vote, member, is_red⟩
      simp only [none_voted, red, if_false, Nat.zero_add]
      split_ifs with many
      · refine ⟨iff_of_false (by simp) fun ⟨_, _, few⟩ => ?_, fun _ => rfl⟩
        omega
      · refine ⟨iff_of_true rfl ⟨voted, none_red, by omega⟩, fun other => absurd rfl other⟩

def Op.Sound : Op → Prop
  | .updateRes base new _ =>
    new.Distinct ∧ new.extFulls = (base.map Record.extFulls).getD [] ∧
      (new.FullValidation = .Full_Amber → ∀ r, base = some r →
        r.FullValidation ≠ .Full_Green ∧ r.FullValidation ≠ .Full_Red)
  | .updateExt base new _ => new.Distinct ∧ base.FullValidation = .Full_Amber ∧ new.FullValidation = .Full_Amber
  | _ => True

def Op.number : Op → Option Nat
  | .finalize n => some n
  | .revalidate n => some n
  | _ => none

def Op.revalidating : Op → Bool
  | .revalidate _ => true
  | _ => false

def State.numbers (s : State) : List Nat :=
  s.tracked.toList.map Prod.fst ++ s.ops.filterMap Op.number ++ s.finalised ++ s.revalidated

structure Inv (s : State) : Prop where
  stored : ∀ r, s.stored = some r → s.last = some r
  peers : ∀ r, s.last = some r → r.Distinct
  ops : ∀ op ∈ s.ops, op.Sound
  numbers : s.numbers.Nodup
  below : ∀ n ∈ s.numbers, n < s.started
  once : s.ops.countP Op.revalidating + s.revalidated.length ≤ if s.attempted then 1 else 0

theorem Inv.start {record : Option Record} (distinct : ∀ r, record = some r → r.Distinct) :
    Inv (start record) where
  stored _ found := found
  peers := distinct
  ops := by simp [AmberFlow.start]
  numbers := by simp [State.numbers, AmberFlow.start]
  below := by simp [State.numbers, AmberFlow.start]
  once := by simp [AmberFlow.start]

theorem Inv.push (inv : Inv s) (sound : op.Sound) (plain : op.number = none)
    (other : op.revalidating = false) : Inv { s with ops := s.ops ++ [op] } where
  stored := inv.stored
  peers := inv.peers
  ops := by
    intro o member
    rcases List.mem_append.mp member with before | new
    · exact inv.ops o before
    · exact List.mem_singleton.mp new ▸ sound
  numbers := by
    have same : State.numbers { s with ops := s.ops ++ [op] } = s.numbers := by
      simp [State.numbers, plain]
    exact same ▸ inv.numbers
  below := by
    have same : State.numbers { s with ops := s.ops ++ [op] } = s.numbers := by
      simp [State.numbers, plain]
    exact same ▸ inv.below
  once := by
    have once := inv.once
    simpa [List.countP_append, other] using once

theorem Inv.beginUpdateRes (inv : Inv s) (value : Verdict) : Inv (beginUpdateRes s value) := by
  unfold AmberFlow.beginUpdateRes
  split
  · exact inv
  · split
    · have sound : Op.Sound (.updateRes none { FullValidation := value } true) :=
        ⟨by simp [Record.Distinct], rfl, fun _ r none => by cases none⟩
      exact inv.push sound rfl rfl
    · rename_i record found
      split_ifs with downgrade
      · exact inv
      · have sound : Op.Sound (.updateRes (some record) { record with FullValidation := value } false) := by
          refine ⟨inv.peers record (inv.stored record found), rfl, ?_⟩
          rintro amber r ⟨⟩
          rw [not_and, not_or] at downgrade
          exact downgrade amber
        exact inv.push sound rfl rfl

theorem Inv.beginRecordPeer (inv : Inv s) (peer_id : String) (peer_status : Verdict) :
    Inv (beginRecordPeer s peer_id peer_status) := by
  unfold AmberFlow.beginRecordPeer
  split
  · exact inv
  · split
    · exact inv
    · rename_i record found
      split
      · exact inv
      · rename_i amber
        rw [not_not] at amber
        split
        · exact inv
        · rename_i new added
          obtain ⟨distinct, same⟩ := (inv.peers record (inv.stored record found)).addExtFull added
          have sound : Op.Sound (.updateExt record new false) := ⟨distinct, amber, same.trans amber⟩
          exact inv.push sound rfl rfl

theorem Inv.startAmberFlow (inv : Inv s) (nothing : Bool) (initial_status : Verdict)
    (now : Nat) : Inv (startAmberFlow s nothing initial_status now) := by
  unfold AmberFlow.startAmberFlow
  split_ifs with skipped
  · exact inv
  · rw [not_or] at skipped
    have untracked : s.tracked = none := by simpa using skipped.2
    have fresh : s.started ∉ s.numbers := fun member => Nat.lt_irrefl _ (inv.below _ member)
    -- The new request has a number that no other has.
    have numbers : State.numbers
        { s with tracked := some (s.started, { initial_status, next_send := now }),
                 started := s.started + 1 } = s.started :: s.numbers := by
      simp [State.numbers, untracked]
    exact
      { stored := inv.stored
        peers := inv.peers
        ops := inv.ops
        numbers := by
          rw [numbers, List.nodup_cons]
          exact ⟨fresh, inv.numbers⟩
        below := by
          rw [numbers]
          intro n member
          rcases List.mem_cons.mp member with rfl | old
          · exact Nat.lt_succ_self _
          · exact Nat.lt_succ_of_lt (inv.below n old)
        once := inv.once }

theorem wantsRevalidation_once {read : Option Record}
    (wanted : wantsRevalidation read request already = true) : already = false := by
  cases read with
  | none => cases wanted
  | some record =>
    simp only [wantsRevalidation, decide_eq_true_eq] at wanted
    simpa using wanted.2.2.2.1

theorem processRequest_once {now : Nat} {first second third : Option Record}
    (decided : (processRequest now already first second third request).outcome = some .revalidate) :
    already = false := by
  unfold processRequest at decided
  simp only at decided
  split_ifs at decided with wanted <;> first | exact wantsRevalidation_once wanted | cases decided

theorem Inv.take {s : State} {request : AmberRequest} {op : Op} (inv : Inv s)
    (tracked : s.tracked = some (n, request)) (sound : op.Sound) (holds : op.number = some n)
    (attempted : Bool) (allowed : op.revalidating = true → s.attempted = false ∧ attempted = true)
    (keeps : s.attempted = true → attempted = true) :
    Inv { s with tracked := none, attempted, ops := s.ops ++ [op] } := by
  have numbers : (State.numbers { s with tracked := none, attempted, ops := s.ops ++ [op] }).Perm
      s.numbers := by
    simp only [State.numbers, tracked, Option.toList, List.map_nil, List.nil_append, List.map_cons,
      List.filterMap_append, List.filterMap_cons, holds, List.filterMap_nil, List.append_assoc, List.cons_append]
    exact List.perm_middle
  exact
    { stored := inv.stored
      peers := inv.peers
      ops := by
        intro o member
        rcases List.mem_append.mp member with before | new
        · exact inv.ops o before
        · exact List.mem_singleton.mp new ▸ sound
      numbers := numbers.nodup_iff.mpr inv.numbers
      below := fun m member => inv.below m (numbers.mem_iff.mp member)
      once := by
        have once := inv.once
        simp only [List.countP_append, List.countP_cons, List.countP_nil]
        cases revalidates : op.revalidating with
        | false =>
          cases before : s.attempted with
          | false =>
            simp only [before, Bool.false_eq_true, if_false] at once ⊢
            split_ifs <;> omega
          | true => simpa [before, keeps before] using once
        | true =>
          obtain ⟨none_before, now⟩ := allowed revalidates
          simp only [none_before, Bool.false_eq_true, if_false] at once
          simp only [now, if_true]
          omega }

theorem Inv.asked {s : State} (inv : Inv s) (dispatch : Bool) :
    Inv { s with ops := s.ops ++ if dispatch then [Op.dispatch] else [] } := by
  cases dispatch with
  | false => simpa using inv
  | true => exact inv.push trivial rfl rfl

theorem Inv.retrack (inv : Inv s) (tracked : s.tracked = some (n, request)) (changed : AmberRequest) :
    Inv { s with tracked := some (n, changed) } := by
  have same : State.numbers { s with tracked := some (n, changed) } = s.numbers := by
    simp [State.numbers, tracked]
  exact ⟨inv.stored, inv.peers, inv.ops, same ▸ inv.numbers, same ▸ inv.below, inv.once⟩

theorem Inv.processAmberRequests (inv : Inv s) (now : Nat) (second third : Option Record) :
    Inv (processAmberRequests s now second third) := by
  unfold AmberFlow.processAmberRequests
  split
  · exact inv
  · rename_i n request tracked
    simp only
    split
    · exact (inv.retrack tracked _).asked _
    · have taken : Inv { s with tracked := none, ops := s.ops ++ [.finalize n] } :=
        inv.take tracked (show Op.Sound (.finalize n) from trivial) rfl s.attempted
          (fun no => by cases no) id
      simpa using taken.asked _
    · rename_i decided
      have taken : Inv { s with tracked := none, attempted := true, ops := s.ops ++ [.revalidate n] } :=
        inv.take tracked (show Op.Sound (.revalidate n) from trivial) rfl true
          (fun _ => ⟨processRequest_once decided, rfl⟩) fun _ => rfl
      simpa using taken.asked _

theorem perm_eraseIdx {ops : List Op} (found : ops[place]? = some op) :
    ops.Perm (op :: ops.eraseIdx place) := by
  obtain ⟨inside, rfl⟩ := List.getElem?_eq_some_iff.mp found
  exact (List.perm_cons_erase (List.getElem_mem inside)).trans ((List.erase_getElem inside).cons _)

theorem Inv.pop {finalised revalidated : List Nat} (inv : Inv s) (found : s.ops[place]? = some op)
    (done : (finalised ++ revalidated).Perm (op.number.toList ++ (s.finalised ++ s.revalidated)))
    (once : revalidated.length = s.revalidated.length + if op.revalidating then 1 else 0) :
    Inv { s with ops := s.ops.eraseIdx place, finalised, revalidated } := by
  have perm := perm_eraseIdx found
  have same : (State.numbers { s with ops := s.ops.eraseIdx place, finalised, revalidated }).Perm
      s.numbers := by
    have ops : (s.ops.filterMap Op.number).Perm
        (op.number.toList ++ (s.ops.eraseIdx place).filterMap Op.number) := by
      have mapped := perm.filterMap Op.number
      cases holds : op.number <;> simpa [List.filterMap_cons, holds] using mapped
    have rest := (done.append_left ((s.ops.eraseIdx place).filterMap Op.number)).trans
      (List.perm_append_comm_assoc _ _ _)
    have whole := rest.trans (by simpa using ops.symm.append_right (s.finalised ++ s.revalidated))
    simpa [State.numbers] using whole.append_left (s.tracked.toList.map Prod.fst)
  exact
    { stored := inv.stored
      peers := inv.peers
      ops := fun o member => inv.ops o (List.mem_of_mem_eraseIdx member)
      numbers := same.nodup_iff.mpr inv.numbers
      below := fun n member => inv.below n (same.mem_iff.mp member)
      once := by
        have count := perm.countP_eq Op.revalidating
        have before := inv.once
        rw [List.countP_cons] at count
        simp only
        omega }

theorem Inv.drop (inv : Inv s) (found : s.ops[place]? = some op)
    (free : op.number = none) (other : op.revalidating = false) :
    Inv { s with ops := s.ops.eraseIdx place } := inv.pop found (by simp [free]) (by simp [other])

theorem Inv.erased {s : State} (inv : Inv s) : Inv { s with stored := none } :=
  ⟨fun r none => by (cases none), inv.peers, inv.ops, inv.numbers, inv.below, inv.once⟩

theorem Inv.written {s : State} (inv : Inv s) (distinct : new.Distinct) :
    Inv { s with stored := some new, last := some new } :=
  ⟨fun _ found => found, fun r found => by (cases found; exact distinct), inv.ops, inv.numbers, inv.below, inv.once⟩

theorem Inv.advance (inv : Inv s) (found : s.ops[place]? = some op) (dispatched : Nat) (mock : Bool) :
    Inv (advance { s with ops := s.ops.eraseIdx place } dispatched mock op) := by
  have sound := inv.ops op (List.mem_of_getElem? found)
  cases op with
  | updateRes base new erased =>
    have rest := inv.drop found rfl rfl
    cases erased with
    | false => exact rest.erased.push sound rfl rfl
    | true => exact rest.written sound.1
  | updateExt base new erased =>
    have rest := inv.drop found rfl rfl
    cases erased with
    | false => exact rest.erased.push sound rfl rfl
    | true => exact (rest.written sound.1).push trivial rfl rfl
  | voted =>
    have rest := inv.drop found rfl rfl
    simp only [AmberFlow.advance]
    split
    · exact rest
    · rename_i n request tracked
      split_ifs
      · exact rest.take tracked (show Op.Sound (.finalize n) from trivial) rfl s.attempted
          (fun no => by cases no) id
      · exact rest
  | dispatch =>
    have rest := inv.drop found rfl rfl
    simp only [AmberFlow.advance]
    cases tracked : s.tracked with
    | none => simpa [tracked] using rest
    | some entry =>
      obtain ⟨n, request⟩ := entry
      exact rest.retrack tracked _
  | finalize n =>
    have rest : Inv { s with ops := s.ops.eraseIdx place, finalised := s.finalised ++ [n] } :=
      inv.pop found (by
        simp only [Op.number, Option.toList, List.singleton_append, List.append_assoc]
        exact List.perm_middle) (by simp [Op.revalidating])
    exact rest.push trivial rfl rfl
  | setStatus value => exact (inv.drop found rfl rfl).beginUpdateRes value
  | revalidate n =>
    exact inv.pop found (by
      simp only [Op.number, Option.toList, List.singleton_append, ← List.append_assoc]
      exact List.perm_append_singleton n _) (by simp [Op.revalidating])

theorem Inv.step {s : State} (inv : Inv s) (e : Event) : Inv (step s e) := by
  cases e with
  | updateRes value => exact inv.beginUpdateRes value
  | recordPeer peer_id peer_status => exact inv.beginRecordPeer peer_id peer_status
  | startAmberFlow nothing initial_status now => exact inv.startAmberFlow nothing initial_status now
  | process now second third => exact inv.processAmberRequests now second third
  | advance place dispatched mock =>
    simp only [AmberFlow.step]
    split
    · exact inv
    · rename_i op found
      exact inv.advance found dispatched mock

theorem Inv.run {s : State} (inv : Inv s) (events : List Event) : Inv (run s events) := by
  induction events generalizing s with
  | nil => exact inv
  | cons e rest ih => exact ih (inv.step e)

theorem last_step (s : State) (e : Event) :
    (step s e).last = s.last ∨ ∃ place dispatched mock new, e = .advance place dispatched mock ∧
      (step s e).last = some new ∧ ((∃ base, s.ops[place]? = some (.updateRes base new true)) ∨
        ∃ base, s.ops[place]? = some (.updateExt base new true)) := by
  have begun : ∀ (s : State) value, (beginUpdateRes s value).last = s.last := by
    intro s value
    unfold beginUpdateRes
    split
    · rfl
    · split
      · rfl
      · split_ifs <;> rfl
  cases e with
  | updateRes value => exact .inl (begun s value)
  | recordPeer peer_id peer_status =>
    left
    simp only [step, beginRecordPeer]
    split
    · rfl
    · split
      · rfl
      · split
        · rfl
        · split <;> rfl
  | startAmberFlow nothing initial_status now =>
    left
    simp only [step, startAmberFlow]
    split_ifs <;> rfl
  | process now second third =>
    left
    simp only [step, processAmberRequests]
    split
    · rfl
    · split <;> rfl
  | advance place dispatched mock =>
    simp only [step]
    cases found : s.ops[place]? with
    | none => exact .inl rfl
    | some op =>
      cases op with
      | updateRes base new erased =>
        cases erased with
        | false => exact .inl rfl
        | true => exact .inr ⟨place, dispatched, mock, new, rfl, rfl, .inl ⟨base, found⟩⟩
      | updateExt base new erased =>
        cases erased with
        | false => exact .inl rfl
        | true => exact .inr ⟨place, dispatched, mock, new, rfl, rfl, .inr ⟨base, found⟩⟩
      | voted =>
        left
        simp only [advance]
        split
        · rfl
        · split_ifs <;> rfl
      | dispatch => exact .inl rfl
      | finalize n => exact .inl rfl
      | setStatus value => exact .inl (begun _ value)
      | revalidate n => exact .inl rfl

structure Guarded (s next : State) : Prop where
  votes : next.votes ≠ s.votes → s.verdict = some .Full_Amber
  terminal : s.verdict = some .Full_Green ∨ s.verdict = some .Full_Red → next.verdict ≠ some .Full_Amber

theorem guarded_step {e : Event} (inv : Inv s) (clean : Undisturbed s e) : Guarded s (step s e) := by
  rcases last_step s e with same | ⟨place, dispatched, mock, new, rfl, written, ⟨base, found⟩ | ⟨base, found⟩⟩
  · refine ⟨fun changed => absurd ?_ changed, ?_⟩
    · rw [State.votes, State.votes, same]
    · rw [State.verdict, State.verdict, same]
      rintro (green | red) amber
      · rw [green] at amber
        cases amber
      · rw [red] at amber
        cases amber
  · -- The own verdict is written, over the record that was read.
    have unchanged := (clean place dispatched mock rfl).1 base new found
    obtain ⟨_, kept, terminal⟩ := inv.ops _ (List.mem_of_getElem? found)
    refine ⟨fun changed => absurd ?_ changed, ?_⟩
    · rw [State.votes, State.votes, written, unchanged]
      exact kept
    · intro before amber
      rw [State.verdict, written] at amber
      rw [State.verdict, unchanged] at before
      cases base with
      | none => rcases before with none | none <;> cases none
      | some r =>
        obtain ⟨not_green, not_red⟩ := terminal (Option.some.inj amber) r rfl
        rcases before with green | red
        · exact not_green (Option.some.inj green)
        · exact not_red (Option.some.inj red)
  · -- A vote is written, over a record that is amber.
    have unchanged := (clean place dispatched mock rfl).2 base new found
    obtain ⟨_, amber, _⟩ := inv.ops _ (List.mem_of_getElem? found)
    have own : s.verdict = some .Full_Amber := by rw [State.verdict, unchanged, Option.map_some, amber]
    refine ⟨fun _ => own, ?_⟩
    rw [own]
    rintro (green | red)
    · cases green
    · cases red

structure Finalises (r : Record) (status : Verdict) : Prop where
  green : status = .Full_Green ↔ r.extFulls ≠ [] ∧ (∀ vote ∈ r.extFulls, vote.2 ≠ .Full_Red) ∧
    5 * (r.extFulls.countP fun vote => vote.2 = .Full_Amber) ≤ r.extFulls.length
  red : status ≠ .Full_Green → status = .Full_Red

theorem finalises_amber (amber : r.FullValidation = .Full_Amber) (mock : Bool) :
    Finalises r (finalStatus (some r) mock) := by
  obtain ⟨green, red⟩ := getFull_of_amber amber
  have decided : r.getFull false ≠ .Full_Amber := by
    by_cases is_green : r.getFull false = .Full_Green
    · simp [is_green]
    · simp [red is_green]
  have same : finalStatus (some r) mock = r.getFull false := by
    simp [finalStatus, decided]
  rw [same]
  exact ⟨green, red⟩

/-- **Amber adjudication**, for any interleaving from any record. No peer has two votes; a record
with an amber verdict is green exactly by its votes and else red; no request is finalised or
revalidated twice. Undisturbed updates change votes only under amber, and amber replaces neither
green nor red. -/
theorem amber_adjudicated {record : Option Record} (distinct : ∀ r, record = some r → r.Distinct)
    (before : List Event) (e : Event) : (Undisturbed (run (start record) before) e →
        Guarded (run (start record) before) (run (start record) (before ++ [e]))) ∧
      (∀ r, (run (start record) before).stored = some r → (run (start record) before).last = some r) ∧
      ((run (start record) before).votes.map Prod.fst).Nodup ∧
      (∀ place dispatched mock n r, e = .advance place dispatched mock →
        (run (start record) before).ops[place]? = some (.finalize n) →
        (run (start record) before).stored = some r → r.FullValidation = .Full_Amber →
        ∃ status, Finalises r status ∧ (run (start record) (before ++ [e])).ops =
          (run (start record) before).ops.eraseIdx place ++ [.setStatus status]) ∧
      ((run (start record) before).finalised ++ (run (start record) before).revalidated).Nodup ∧
      (run (start record) before).revalidated.length ≤ 1 := by
  have inv : Inv (run (start record) before) := (Inv.start distinct).run before
  have next : run (start record) (before ++ [e]) = step (run (start record) before) e := by
    simp [run]
  refine ⟨?_, inv.stored, ?_, ?_, ?_, ?_⟩
  · intro clean
    rw [next]
    exact guarded_step inv clean
  · rw [State.votes]
    cases last : (run (start record) before).last with
    | none => simp
    | some r => exact inv.peers r last
  · rintro place dispatched mock n r rfl found stored amber
    refine ⟨finalStatus (some r) mock, finalises_amber amber mock, ?_⟩
    rw [next]
    simp only [step, found, advance, stored]
  · have numbers := inv.numbers
    rw [State.numbers, List.append_assoc, List.nodup_append] at numbers
    exact numbers.2.1
  · have once := inv.once
    split_ifs at once <;> omega

def amberRecord : Record := { FullValidation := .Full_Amber }

/-- A vote is written before anything else happens: amber stays amber. -/
theorem amber_adjudicated_one_vote :
    Guarded (run (start (some amberRecord)) [.recordPeer "1" .Full_Green, .advance 0 0 false])
      (run (start (some amberRecord))
         ([.recordPeer "1" .Full_Green, .advance 0 0 false] ++ [.advance 0 0 false])) := by
  have distinct : ∀ r, some amberRecord = some r → r.Distinct := by
    rintro r ⟨⟩
    simp [Record.Distinct, amberRecord]
  refine (amber_adjudicated distinct _ _).1 ?_
  rintro place dispatched mock ⟨⟩
  constructor
  · rintro base new ⟨⟩
  · rintro base new ⟨⟩
    rfl

/-- A peer's vote is read in before the validator's verdict and written after it: a stored green
becomes amber again. -/
theorem amber_replaces_green : (run (start (some amberRecord)) [.recordPeer "1" .Full_Green, .updateRes .Full_Green,
        .advance 1 0 false, .advance 1 0 false]).verdict = some .Full_Green ∧
      (run (start (some amberRecord)) [.recordPeer "1" .Full_Green, .updateRes .Full_Green,
        .advance 1 0 false, .advance 1 0 false, .advance 0 0 false, .advance 0 0 false]).verdict =
        some .Full_Amber := by
  decide

end AmberFlow

end TensorCash
