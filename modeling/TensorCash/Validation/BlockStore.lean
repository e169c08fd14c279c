import TensorCash.Validation.RegChain

/-! A body's `cumulative_tick` is compared with the parent's when it is stored, if the parent's body
can be read then, and never again. -/

namespace TensorCash

open Checked

structure IndexEntry where
  header : CBlockHeader
  nHeight : Nat
deriving DecidableEq

/-- The block index, bodies, active chain, and the blocks that were ever connected. -/
structure BlockStore where
  index : OrdMap Uint256 IndexEntry
  bodies : OrdMap Uint256 CBlock
  chainstate : ChainState
  validScripts : List Uint256

/-- What can happen to the store. A body comes with its parent's median time past. -/
inductive StoreEvent where
  | header (header : CBlockHeader)
  | body (block : CBlock) (medianTimePast : Nat)
  | prune (hash : Uint256)
  | connect (hash : Uint256)
  | disconnect

namespace BlockStore

/-- A header becomes known on a known parent; its other rules would only refuse more. -/
def acceptBlockHeader (env : TipEnv) (s : BlockStore) (header : CBlockHeader) : Option BlockStore :=
  match s.index.get? header.hashPrevBlock with
  | none => none
  | some parent =>
    if s.index.get? (header.getHash env.crypto) = none ∧ (checkBlockHeader env.toNodeEnv true header).isOk then
      some { s with index := s.index.insert (header.getHash env.crypto) ⟨header, parent.nHeight + 1⟩ }
    else none

/-- `AcceptBlock` stores a body whose header is known and which passes its checks. -/
def acceptBlock (env : TipEnv) (s : BlockStore) (block : CBlock) (medianTimePast : Nat) : Option BlockStore :=
  match s.index.get? block.hashPrevBlock with
  | none => none
  | some parent =>
    -- The parent's body is read from disk, where it need not be yet, or any more.
    let prev : PrevIndex :=
      { nHeight := parent.nHeight, medianTimePast, body := s.bodies.get? block.hashPrevBlock }
    if s.index.contains (block.getHash env.crypto) ∧ s.bodies.get? (block.getHash env.crypto) = none ∧
        (checkBlock env.toNodeEnv true true true block).isOk ∧
        (contextualCheckBlock env.toNodeEnv s.chainstate.modelDb prev block).isOk then
      some { s with bodies := s.bodies.insert (block.getHash env.crypto) block }
    else none

def connect (env : TipEnv) (s : BlockStore) (hash : Uint256) : Option BlockStore :=
  match s.bodies.get? hash with
  | none => none
  | some block =>
    if s.chainstate.tip.map (fun b => b.getHash env.crypto) = some block.hashPrevBlock then
      match connectTip env s.chainstate block with
      | (next, .ok _) => some { s with chainstate := next, validScripts := hash :: s.validScripts }
      | _ => none
    else none

def step (env : TipEnv) (s : BlockStore) : StoreEvent → Option BlockStore
  | .header header => s.acceptBlockHeader env header
  | .body block medianTimePast => s.acceptBlock env block medianTimePast
  | .prune hash => some { s with bodies := s.bodies.erase hash }
  | .connect hash => s.connect env hash
  | .disconnect => (disconnectTip env s.chainstate).map fun next => { s with chainstate := next }

def initial (env : TipEnv) (genesis : CBlock) : BlockStore where
  index := (∅ : OrdMap Uint256 IndexEntry).insert (genesis.getHash env.crypto) ⟨genesis.toCBlockHeader, 0⟩
  bodies := (∅ : OrdMap Uint256 CBlock).insert (genesis.getHash env.crypto) genesis
  chainstate := genesisState env genesis
  validScripts := [genesis.getHash env.crypto]

def isDiskAnchorable (env : TipEnv) (s : BlockStore) (hash : Uint256) : Bool :=
  s.bodies.contains hash &&
    (s.chainstate.chain.any (fun b => b.getHash env.crypto = hash) || s.validScripts.contains hash)

def ParentStored (s : BlockStore) : StoreEvent → Prop
  | .body block _ => (s.bodies.get? block.hashPrevBlock).isSome
  | _ => True

instance (s : BlockStore) (event : StoreEvent) : Decidable (s.ParentStored event) := by
  cases event <;> unfold ParentStored <;> infer_instance

end BlockStore

/-- The runs of a new node whose events are all allowed, the newest event first. -/
inductive StoreRun (env : TipEnv) (genesis : CBlock) (allowed : BlockStore → StoreEvent → Prop) :
    List StoreEvent → BlockStore → Prop where
  | nil : StoreRun env genesis allowed [] (BlockStore.initial env genesis)
  | cons {events : List StoreEvent} {event : StoreEvent} {s next : BlockStore} :
      StoreRun env genesis allowed events s → allowed s event → s.step env event = some next →
      StoreRun env genesis allowed (event :: events) next

def BlockStore.tryRun (env : TipEnv) (allowed : BlockStore → StoreEvent → Prop)
    [∀ s event, Decidable (allowed s event)] (s : BlockStore) : List StoreEvent → Option BlockStore
  | [] => some s
  | event :: events =>
    if allowed s event then
      match s.step env event with
      | none => none
      | some next => next.tryRun env allowed events
    else none

theorem StoreRun.of_tryRun {env : TipEnv} {genesis : CBlock} {allowed : BlockStore → StoreEvent → Prop}
    [∀ s event, Decidable (allowed s event)] {events past : List StoreEvent} {s final : BlockStore}
    (run : StoreRun env genesis allowed past s) (tried : s.tryRun env allowed events = some final) :
    StoreRun env genesis allowed (events.reverse ++ past) final := by
  induction events generalizing past s with
  | nil => exact Option.some.inj tried ▸ run
  | cons event events ih =>
    rw [BlockStore.tryRun] at tried
    split_ifs at tried with ok
    split at tried
    · exact absurd tried (by simp)
    · next next stepped =>
      rw [List.reverse_cons, List.append_assoc]
      exact ih (.cons run ok stepped) tried

def StoreEvent.bodies (events : List StoreEvent) : List CBlock :=
  events.filterMap fun
    | .body block _ => some block
    | _ => none

/-- A block reached from genesis, with the sum of the ticks on the way. -/
inductive TickSum (c : Crypto) (genesis : CBlock) (received : List CBlock) : CBlock → UInt64 → Prop where
  | genesis : TickSum c genesis received genesis genesis.cumulative_tick
  | child {parent block : CBlock} {total : UInt64} :
      TickSum c genesis received parent total → block ∈ received → block.hashPrevBlock = parent.getHash c →
      TickSum c genesis received block (total + block.pow.tick)

/-- Received bodies with one hash share the parent and the tick, and none is genesis's parent. -/
structure BodiesApart (c : Crypto) (genesis : CBlock) (received : List CBlock) : Prop where
  binds : ∀ a ∈ genesis :: received, ∀ b ∈ genesis :: received, a.getHash c = b.getHash c →
    a.hashPrevBlock = b.hashPrevBlock ∧ a.pow.tick = b.pow.tick
  root : ∀ a ∈ genesis :: received, a.getHash c ≠ genesis.hashPrevBlock

section TickSums

variable {c : Crypto} {genesis : CBlock} {received : List CBlock}

theorem TickSum.mem {block : CBlock} {total : UInt64}
    (sum : TickSum c genesis received block total) : block ∈ genesis :: received := by
  cases sum with
  | genesis => exact List.mem_cons_self
  | child _ mem _ => exact List.mem_cons_of_mem _ mem

theorem TickSum.mono {more : List CBlock} (grows : received ⊆ more) {block : CBlock} {total : UInt64}
    (sum : TickSum c genesis received block total) : TickSum c genesis more block total := by
  induction sum with
  | genesis => exact .genesis
  | child _ mem above ih => exact .child ih (grows mem) above

/-- Blocks with one hash have one sum. The induction follows the first block down. -/
theorem TickSum.unique (apart : BodiesApart c genesis received) {a : CBlock} {total : UInt64}
    (sum : TickSum c genesis received a total) :
    ∀ {b : CBlock} {total' : UInt64},
      TickSum c genesis received b total' → a.getHash c = b.getHash c → total = total' := by
  induction sum with
  | genesis =>
    intro b total' other same
    cases other with
    | genesis => rfl
    | child below mem above =>
      -- A received body with the hash of genesis would have a parent.
      have parents := (apart.binds _ List.mem_cons_self _ (List.mem_cons_of_mem _ mem) same).1
      exact absurd (above.symm.trans parents.symm) (apart.root _ below.mem)
  | child below mem above ih =>
    intro b total' other same
    cases other with
    | genesis =>
      have parents := (apart.binds _ (List.mem_cons_of_mem _ mem) _ List.mem_cons_self same).1
      exact absurd (above.symm.trans parents) (apart.root _ below.mem)
    | child below' mem' above' =>
      have bound := apart.binds _ (List.mem_cons_of_mem _ mem) _ (List.mem_cons_of_mem _ mem') same
      rw [ih below' (above.symm.trans (bound.1.trans above')), bound.2]

end TickSums

theorem contextualCheckBlock_tick {env : NodeEnv} {db : ModelDb} {prev : PrevIndex} {block parent : CBlock}
    (checked : (contextualCheckBlock env db prev block).isOk = true) (body : prev.body = some parent) :
    block.cumulative_tick = parent.cumulative_tick + block.pow.tick := by
  cases result : contextualCheckBlock env db prev block with
  | error => simp [result, Except.isOk, Except.toBool] at checked
  | ok =>
    unfold contextualCheckBlock at result
    obtain ⟨_, _, result⟩ := bind_eq_ok.mp result
    obtain ⟨_, _, result⟩ := bind_eq_ok.mp result
    obtain ⟨_, _, result⟩ := bind_eq_ok.mp result
    obtain ⟨_, _, result⟩ := bind_eq_ok.mp result
    obtain ⟨_, _, result⟩ := bind_eq_ok.mp result
    obtain ⟨_, _, result⟩ := bind_eq_ok.mp result
    obtain ⟨_, _, result⟩ := bind_eq_ok.mp result
    obtain ⟨_, _, result⟩ := bind_eq_ok.mp result
    have ticks := require_eq_ok.mp result
    simpa only [cumulativeTickOk, body, decide_eq_true_eq] using ticks

theorem BlockStore.acceptBlock_eq_some {env : TipEnv} {s next : BlockStore} {block : CBlock}
    {medianTimePast : Nat} (stored : s.acceptBlock env block medianTimePast = some next) :
    next = { s with bodies := s.bodies.insert (block.getHash env.crypto) block } ∧
      ∀ parent, s.bodies.get? block.hashPrevBlock = some parent →
        block.cumulative_tick = parent.cumulative_tick + block.pow.tick := by
  unfold acceptBlock at stored
  split at stored
  · exact absurd stored (by simp)
  · dsimp only at stored
    split_ifs at stored with checks
    exact ⟨(Option.some.inj stored).symm, fun parent body => contextualCheckBlock_tick checks.2.2.2 body⟩

def BlockStore.Summed (env : TipEnv) (genesis : CBlock) (received : List CBlock) (s : BlockStore) : Prop :=
  ∀ hash block, s.bodies.get? hash = some block → block.getHash env.crypto = hash ∧
      TickSum env.crypto genesis received block block.cumulative_tick

def StoreEvent.store (c : Crypto) (bodies : OrdMap Uint256 CBlock) : StoreEvent → OrdMap Uint256 CBlock
  | .body block _ => bodies.insert (block.getHash c) block
  | .prune hash => bodies.erase hash
  | _ => bodies

theorem BlockStore.bodies_of_step {env : TipEnv} {s next : BlockStore} {event : StoreEvent}
    (stepped : s.step env event = some next) : next.bodies = event.store env.crypto s.bodies := by
  cases event with
  | header header =>
    simp only [step, acceptBlockHeader] at stepped
    split at stepped
    · exact absurd stepped (by simp)
    · split_ifs at stepped
      rw [← Option.some.inj stepped]
      rfl
  | body block medianTimePast =>
    rw [(acceptBlock_eq_some stepped).1]
    rfl
  | prune hash =>
    rw [← Option.some.inj stepped]
    rfl
  | connect hash =>
    simp only [step, connect] at stepped
    split at stepped
    · exact absurd stepped (by simp)
    · split_ifs at stepped
      split at stepped
      · rw [← Option.some.inj stepped]
        rfl
      · exact absurd stepped (by simp)
  | disconnect =>
    obtain ⟨_, _, rfl⟩ := Option.map_eq_some_iff.mp stepped
    rfl

theorem BlockStore.Summed.step {env : TipEnv} {genesis : CBlock} {events : List StoreEvent}
    {event : StoreEvent} {s next : BlockStore}
    (summed : s.Summed env genesis (StoreEvent.bodies events)) (inOrder : s.ParentStored event)
    (stepped : s.step env event = some next) :
    next.Summed env genesis (StoreEvent.bodies (event :: events)) := by
  have grows : StoreEvent.bodies events ⊆ StoreEvent.bodies (event :: events) :=
    fun block mem => by
      obtain ⟨event, old, brought⟩ := List.mem_filterMap.mp mem
      exact List.mem_filterMap.mpr ⟨event, List.mem_cons_of_mem _ old, brought⟩
  have kept : ∀ hash block, s.bodies.get? hash = some block → block.getHash env.crypto = hash ∧
      TickSum env.crypto genesis (StoreEvent.bodies (event :: events)) block block.cumulative_tick :=
    fun hash block found => ⟨(summed hash block found).1, (summed hash block found).2.mono grows⟩
  intro hash block found
  rw [bodies_of_step stepped] at found
  cases event with
  | header | connect | disconnect => exact kept hash block found
  | prune pruned =>
    dsimp only [StoreEvent.store] at found
    by_cases same : hash = pruned
    · rw [same, OrdMap.get?_erase_self] at found
      exact absurd found (by simp)
    · rw [OrdMap.get?_erase_of_ne _ _ same] at found
      exact kept hash block found
  | body new medianTimePast =>
    dsimp only [StoreEvent.store] at found
    by_cases same : hash = new.getHash env.crypto
    · rw [same, OrdMap.get?_insert_self] at found
      cases found
      obtain ⟨parent, body⟩ := Option.isSome_iff_exists.mp inOrder
      obtain ⟨filed, sum⟩ := kept _ parent body
      refine ⟨same.symm, ?_⟩
      rw [(acceptBlock_eq_some stepped).2 parent body]
      exact .child sum (List.mem_filterMap.mpr ⟨_, List.mem_cons_self, rfl⟩) filed.symm
    · rw [OrdMap.get?_insert_of_ne _ _ _ same] at found
      exact kept hash block found

theorem BlockStore.Summed.run {env : TipEnv} {genesis : CBlock} {events : List StoreEvent}
    {s : BlockStore} (run : StoreRun env genesis BlockStore.ParentStored events s) :
    s.Summed env genesis (StoreEvent.bodies events) := by
  induction run with
  | nil =>
    intro hash block found
    by_cases same : hash = genesis.getHash env.crypto
    · rw [same, initial, OrdMap.get?_insert_self] at found
      cases found
      exact ⟨same.symm, .genesis⟩
    · rw [initial, OrdMap.get?_insert_of_ne _ _ _ same, OrdMap.get?_empty] at found
      exact absurd found (by simp)
  | cons _ inOrder stepped ih => exact ih.step inOrder stepped

/-- When every body is stored after its parent's, each stored block continues its parent's count,
and every anchor carries the sum of its ancestors' ticks. -/
theorem anchors_carry_tick_sums (env : TipEnv) (genesis : CBlock) (events : List StoreEvent)
    (s : BlockStore) (run : StoreRun env genesis BlockStore.ParentStored events s)
    (apart : BodiesApart env.crypto genesis (StoreEvent.bodies events)) :
    (∀ block parent : CBlock, s.bodies.get? (block.getHash env.crypto) = some block →
      s.bodies.get? block.hashPrevBlock = some parent →
      block.cumulative_tick = parent.cumulative_tick + block.pow.tick) ∧
    ∀ hash, s.isDiskAnchorable env hash = true → ∃ block, s.bodies.get? hash = some block ∧
      TickSum env.crypto genesis (StoreEvent.bodies events) block block.cumulative_tick := by
  have summed := BlockStore.Summed.run run
  constructor
  · intro block parent stored below
    obtain ⟨filed, sum⟩ := summed _ parent below
    obtain ⟨_, blockSum⟩ := summed _ block stored
    generalize value : block.cumulative_tick = total at blockSum
    cases blockSum with
    | genesis => exact absurd filed (apart.root _ sum.mem)
    | child parentSum mem above =>
      -- The parent that was read when the body came and the one stored now have one hash.
      rw [TickSum.unique apart parentSum sum (above.symm.trans filed.symm)]
  · intro hash anchor
    have stored : s.bodies.contains hash = true := (Bool.and_eq_true_iff.mp anchor).1
    obtain ⟨block, found⟩ := Option.isSome_iff_exists.mp stored
    exact ⟨block, found, (summed hash block found).2⟩

namespace RegChain

def timed (hashPrevBlock : Uint256) (cumulative_tick : UInt64) (nHeight : Nat) : CBlock :=
  { assemble hashPrevBlock cumulative_tick [coinbase nHeight 1 [payAnyone 100]] with
    nVersion := 4
    nTime := UInt32.ofNat nHeight }

def firstTimed : CBlock := timed (genesis.getHash crypto) 20 1

/-- Its child claims a running count of its own choice; 30 would be right. -/
def freeTicks : CBlock := timed (firstTimed.getHash crypto) 999 2

def rightTicks : CBlock := timed (firstTimed.getHash crypto) 30 2

def outOfOrder : List StoreEvent :=
  [.header firstTimed.toCBlockHeader, .header freeTicks.toCBlockHeader, .body freeTicks 1,
    .body firstTimed 0, .connect (firstTimed.getHash crypto), .connect (freeTicks.getHash crypto)]

def chainOrder : List StoreEvent :=
  [.header firstTimed.toCBlockHeader, .header rightTicks.toCBlockHeader, .body firstTimed 0,
    .body rightTicks 1, .connect (firstTimed.getHash crypto), .connect (rightTicks.getHash crypto)]

end RegChain

open RegChain in
/-- In the order of the chain, the second block of the regtest chain becomes an anchor with the
sum. -/
theorem anchors_carry_tick_sums_in_chain_order : ∃ s : BlockStore,
    s.isDiskAnchorable env (rightTicks.getHash crypto) = true ∧
      ∃ block, s.bodies.get? (rightTicks.getHash crypto) = some block ∧
        TickSum crypto genesis (StoreEvent.bodies chainOrder.reverse) block block.cumulative_tick := by
  have evaluated : ((BlockStore.initial env genesis).tryRun env BlockStore.ParentStored chainOrder).any
      (fun s => s.isDiskAnchorable env (rightTicks.getHash crypto)) = true := by decide +kernel
  obtain ⟨s, reached, anchor⟩ := (Option.any_eq_true _ _).mp evaluated
  have run := StoreRun.of_tryRun .nil reached
  have apart : BodiesApart env.crypto genesis (StoreEvent.bodies (chainOrder.reverse ++ [])) :=
    ⟨by decide +kernel, by decide +kernel⟩
  obtain ⟨_, sums⟩ := anchors_carry_tick_sums env genesis _ s run apart
  rw [List.append_nil] at sums
  exact ⟨s, anchor, sums _ anchor⟩

open RegChain in
/-- A body before its parent's keeps the count it was given: both blocks serve as anchors, and the
second one's count is neither its parent's plus its tick nor the sum. -/
theorem anchor_with_free_ticks :
    ∃ s : BlockStore, StoreRun env genesis (fun _ _ => True) outOfOrder.reverse s ∧
      s.chainstate.chain = [genesis, firstTimed, freeTicks] ∧
      s.isDiskAnchorable env (freeTicks.getHash crypto) = true ∧
      s.bodies.get? (freeTicks.getHash crypto) = some freeTicks ∧
      s.bodies.get? freeTicks.hashPrevBlock = some firstTimed ∧
      freeTicks.cumulative_tick ≠ firstTimed.cumulative_tick + freeTicks.pow.tick := by
  have evaluated : ((BlockStore.initial env genesis).tryRun env (fun _ _ => True) outOfOrder).any
      (fun s => decide (s.chainstate.chain = [genesis, firstTimed, freeTicks] ∧
        s.isDiskAnchorable env (freeTicks.getHash crypto) = true ∧
        s.bodies.get? (freeTicks.getHash crypto) = some freeTicks ∧
        s.bodies.get? freeTicks.hashPrevBlock = some firstTimed)) = true := by decide +kernel
  obtain ⟨s, reached, shown⟩ := (Option.any_eq_true _ _).mp evaluated
  have run := StoreRun.of_tryRun .nil reached
  rw [List.append_nil] at run
  obtain ⟨active, anchor, child, parent⟩ := of_decide_eq_true shown
  exact ⟨s, run, active, anchor, child, parent, by decide⟩

end TensorCash
