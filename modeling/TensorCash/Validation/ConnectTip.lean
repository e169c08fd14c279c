import TensorCash.Models.Disconnect
import TensorCash.Validation.DisconnectBlock

/-! `Chainstate::ConnectTip`: the coins are flushed before the model registry is asked. -/

namespace TensorCash

open Checked

/-- `CoinsTip()`, the model database, the active chain from genesis on, and the undo data. -/
structure ChainState where
  coinsTip : CCoinsView
  modelDb : ModelDb
  chain : List CBlock
  undoData : OrdMap Uint256 CBlockUndo := ∅
deriving DecidableEq

/-- The environment for a whole chain, with the bodies on disk. -/
structure TipEnv extends ChainEnv where
  bodyOnDisk : Uint256 → Bool

def blockContext (env : TipEnv) (st : ChainState) (block : CBlock) : BlockContext where
  env := env.toChainEnv
  nHeight := st.chain.length
  nTime := block.nTime
  blockHash := block.getHash env.crypto

def tipContext (env : TipEnv) (st : ChainState) (block : CBlock) : TipContext where
  crypto := env.crypto
  params := env.params
  validationApi := env.validationApi
  bodyOnDisk := env.bodyOnDisk
  chain := st.chain
  nHeight := st.chain.length
  blockHash := block.getHash env.crypto

def connectTip (env : TipEnv) (st : ChainState) (block : CBlock) : ChainState × Except Failure Unit :=
  match connectBlock (blockContext env st block) st.modelDb st.coinsTip block with
  | .error failure => (st, .error failure)
  | .ok (view, undo) =>
    -- The coins are flushed here, before the model registry has been asked.
    let flushed : ChainState :=
      { st with
        coinsTip := view
        undoData := st.undoData.insert (block.getHash env.crypto) undo }
    match connectModels (tipContext env st block) st.modelDb block with
    | .error failure => (flushed, .error failure)
    | .ok modelDb => ({ flushed with modelDb, chain := st.chain ++ [block] }, .ok ⟨⟩)

def ChainState.tip (st : ChainState) : Option CBlock := st.chain.getLast?

/-- `DisconnectTip`: nothing when undo data or coins do not fit. -/
def disconnectTip (env : TipEnv) (st : ChainState) : Option ChainState := do
  let block ← st.tip
  let parent : ChainState := { st with chain := st.chain.dropLast }
  let undo ← st.undoData.get? (block.getHash env.crypto)
  let (view, fClean) ← disconnectBlock env.crypto parent.chain.length block undo st.coinsTip
  if fClean then
    some { parent with
      coinsTip := view
      modelDb := disconnectModels (tipContext env parent block) st.modelDb block }
  else none

/-- What the parent contributes to its child's contextual checks. -/
def prevIndex (st : ChainState) (medianTimePast : Nat) : PrevIndex where
  nHeight := st.chain.length - 1
  medianTimePast
  body := st.tip

/-- A block is accepted at the tip: new, checked in context, and taken by `ConnectTip`. -/
structure Connects (env : TipEnv) (st : ChainState) (block : CBlock) (next : ChainState) : Prop where
  fresh : ∀ b ∈ st.chain, b.getHash env.crypto ≠ block.getHash env.crypto
  parent : st.tip.map (fun b => b.getHash env.crypto) = some block.hashPrevBlock
  contextual : ∃ medianTimePast,
    contextualCheckBlock env.toNodeEnv st.modelDb (prevIndex st medianTimePast) block = .ok ⟨⟩
  connected : connectTip env st block = (next, .ok ⟨⟩)

def tryConnect (env : TipEnv) (st : ChainState) (medianTimePast : Nat) (block : CBlock) : Option ChainState :=
  if (st.chain.all fun b => b.getHash env.crypto ≠ block.getHash env.crypto) &&
      decide (st.tip.map (fun b => b.getHash env.crypto) = some block.hashPrevBlock) &&
      (contextualCheckBlock env.toNodeEnv st.modelDb (prevIndex st medianTimePast) block).isOk then
    match connectTip env st block with
    | (next, .ok _) => some next
    | _ => none
  else none

variable {env : TipEnv} {st next : ChainState} {block : CBlock}

theorem connects_of_tryConnect {medianTimePast : Nat}
    (accepted : tryConnect env st medianTimePast block = some next) : Connects env st block next := by
  unfold tryConnect at accepted
  split_ifs at accepted with checks
  simp only [Bool.and_eq_true, List.all_eq_true, decide_eq_true_eq] at checks
  obtain ⟨⟨fresh, parent⟩, contextual⟩ := checks
  refine ⟨fresh, parent, ⟨medianTimePast, ?_⟩, ?_⟩
  · cases result : contextualCheckBlock env.toNodeEnv st.modelDb (prevIndex st medianTimePast) block with
    | ok => rfl
    | error => simp [result, Except.isOk, Except.toBool] at contextual
  · split at accepted
    · next ended => rw [ended, Option.some.inj accepted]
    · cases accepted

theorem Connects.parts (connects : Connects env st block next) :
    (∃ undo, connectBlock (blockContext env st block) st.modelDb st.coinsTip block =
        .ok (next.coinsTip, undo) ∧ next.undoData = st.undoData.insert (block.getHash env.crypto) undo) ∧
    connectModels (tipContext env st block) st.modelDb block = .ok next.modelDb ∧ next.chain = st.chain ++ [block] := by
  have connected := connects.connected
  unfold connectTip at connected
  cases coins : connectBlock (blockContext env st block) st.modelDb st.coinsTip block with
  | error failure => simp [coins] at connected
  | ok result =>
    obtain ⟨view, undo⟩ := result
    cases models : connectModels (tipContext env st block) st.modelDb block with
    | error failure => simp [coins, models] at connected
    | ok modelDb =>
      simp only [coins, models, Prod.mk.injEq, and_true] at connected
      subst connected
      exact ⟨⟨undo, rfl, rfl⟩, rfl, rfl⟩

def genesisState (env : TipEnv) (genesis : CBlock) : ChainState where
  coinsTip := { bestBlock := genesis.getHash env.crypto }
  modelDb := initialModelDb env.crypto env.params
  chain := [genesis]

inductive Chain (env : TipEnv) : ChainState → List CBlock → ChainState → Prop where
  | nil (st : ChainState) : Chain env st [] st
  | snoc {st mid next : ChainState} {blocks : List CBlock} {block : CBlock} :
      Chain env st blocks mid → Connects env mid block next → Chain env st (blocks ++ [block]) next

section Chain

variable {blocks more : List CBlock} {last : ChainState}

theorem Chain.append (first : Chain env st blocks next) (second : Chain env next more last) :
    Chain env st (blocks ++ more) last := by
  induction second with
  | nil => simpa using first
  | snoc _ connects ih =>
    rw [← List.append_assoc]
    exact .snoc ih connects

theorem Chain.cons (connects : Connects env st block next) (chain : Chain env next more last) :
    Chain env st (block :: more) last := (Chain.snoc (.nil st) connects).append chain

end Chain

end TensorCash
