import TensorCash.Validation.RegChain

/-! The commitment of an asset's first registration, compared with its last one. -/

namespace TensorCash

open Checked

variable {reg : IssuerReg} {id : Uint256}

/-- The terms behind `ComputeCorePolicyCommit`. -/
structure CorePolicy where
  allowed_spk_families : UInt16
  immutable_bits : UInt32
  kyc_flags : UInt32
  tfr_flags : UInt32
deriving DecidableEq

def IssuerReg.corePolicy (reg : IssuerReg) : CorePolicy where
  allowed_spk_families := reg.allowed_spk_families
  immutable_bits := reg.policy_bits &&& POLICY_BITS_IMMUTABLE_MASK
  kyc_flags := reg.kyc_flags
  tfr_flags := reg.tfr_flags

def IssuerReg.coreCommit (c : Crypto) (reg : IssuerReg) : Uint256 :=
  computeCorePolicyCommit c reg.allowed_spk_families reg.policy_bits reg.kyc_flags reg.tfr_flags

theorem coreCommit_eq_of_corePolicy {c : Crypto} {reg' : IssuerReg}
    (same : reg.corePolicy = reg'.corePolicy) : reg.coreCommit c = reg'.coreCommit c := by
  simp only [IssuerReg.corePolicy, CorePolicy.mk.injEq] at same
  obtain ⟨families, bits, kyc, tfr⟩ := same
  unfold IssuerReg.coreCommit computeCorePolicyCommit
  rw [families, bits, kyc, tfr]

def chainRegs (steps : List ChainStep) : List IssuerReg := steps.flatMap fun s => blockRegs s.block

def currentReg (steps : List ChainStep) (id : Uint256) : Option IssuerReg :=
  (chainRegs steps).reverse.find? fun r => r.asset_id = id

theorem chainRegs_append (steps more : List ChainStep) :
    chainRegs (steps ++ more) = chainRegs steps ++ chainRegs more := List.flatMap_append

theorem chainRegs_singleton (s : ChainStep) : chainRegs [s] = blockRegs s.block := by
  simp [chainRegs]

theorem mem_of_currentReg {steps : List ChainStep} (current : currentReg steps id = some reg) :
    reg ∈ chainRegs steps ∧ reg.asset_id = id := by
  have member := List.mem_of_find?_eq_some current
  have named := List.find?_some current
  exact ⟨List.mem_reverse.mp member, by simpa using named⟩

/-- A registration without issued units repeats the stored commitment. -/
def CoreRepeated (c : Crypto) (s : ChainStep) : Prop :=
  ∀ reg ∈ blockRegs s.block, ∀ e, s.view.policies.get? reg.asset_id = some e →
    e.issued_total = 0 → reg.coreCommit c = e.core_policy_commit

structure CommitsOk (c : Crypto) (regs : List IssuerReg) (policies : OrdMap Uint256 AssetRegistryEntry) : Prop where
  stored : ∀ reg ∈ regs, ∃ e, policies.get? reg.asset_id = some e ∧ reg.coreCommit c = e.core_policy_commit
  known : ∀ id e, policies.get? id = some e → ∃ reg ∈ regs, reg.asset_id = id

theorem newEntry_core_policy_commit (ctx : BlockContext) (tx : CTransaction) (p : PendingIssuerReg)
    (prev : Option AssetRegistryEntry) (ticker : Bytes) (decimals : UInt8) :
    (newEntry ctx tx p prev ticker decimals).core_policy_commit = match prev with
      | none => p.reg.coreCommit ctx.env.crypto
      | some prev => prev.core_policy_commit := by
  obtain ⟨_, _, _, _, _, _, _, _, form⟩ := newEntry_eq ctx tx p prev ticker decimals
  rw [form]
  cases prev <;> rfl

theorem AssetRegistryEntry.settle_core_policy_commit (delta : Int64) (e : AssetRegistryEntry) :
    (e.settle delta).core_policy_commit = e.core_policy_commit := by
  unfold AssetRegistryEntry.settle
  split_ifs <;> rfl

theorem checkRegUpdate_core {ctx : BlockContext} {tx : CTransaction} {coins : List Coin}
    {prev : AssetRegistryEntry} (checked : checkRegUpdate ctx tx coins id prev reg = .ok ⟨⟩)
    (issued : 0 < prev.issued_total) : reg.coreCommit ctx.env.crypto = prev.core_policy_commit := by
  unfold checkRegUpdate at checked
  obtain ⟨_, core, _⟩ := bind_eq_ok.mp checked
  exact require_eq_ok.mp core issued

section Step

variable {env : ChainEnv} {nHeight : Nat} {db : ModelDb} {view next : CCoinsView} {block : CBlock}
  {undo : CBlockUndo}

theorem connectBlock_commit (repeated : CoreRepeated env.crypto ⟨view, block⟩)
    (above : block.getHash env.crypto ≠ env.params.hashGenesisBlock)
    (connected : connectBlock (contextAt env nHeight block) db view block = .ok (next, undo)) (id : Uint256) :
    (∀ e, view.policies.get? id = some e → ∃ e', next.policies.get? id = some e' ∧
      e'.core_policy_commit = e.core_policy_commit) ∧
    (∀ reg ∈ blockRegs block, reg.asset_id = id → ∃ e', next.policies.get? id = some e' ∧
      reg.coreCommit env.crypto = e'.core_policy_commit) ∧
    (view.policies.get? id = none → ∀ e', next.policies.get? id = some e' →
      ∃ reg ∈ blockRegs block, reg.asset_id = id) := by
  have place := fun reg => @mem_blockRegs block reg env.crypto nHeight view.coins
  have step := connectBlock_entry connected id
  generalize after : next.policies.get? id = entry at step
  cases step with
  | genesis hash => exact absurd hash above
  | @block staged _ limit taken cap =>
    cases taken with
    | kept silent =>
      -- Without a registration only fees and totals change.
      refine ⟨fun e known => ?_, fun reg inside named => ?_, fun unknown e' made => ?_⟩
      · rw [known]
        exact ⟨_, rfl, AssetRegistryEntry.settle_core_policy_commit _ _⟩
      · obtain ⟨tx, found, p, member, listed, rfl⟩ := (place reg).mp inside
        exact absurd (List.mem_flatMap.mpr ⟨_, member, named ▸ List.mem_map_of_mem listed⟩) silent
      · rw [unknown] at made
        cases made
    | @registered tx found p new member listed named accepted =>
      obtain ⟨ticker, decimals, rfl⟩ := accepted.entry
      have inside : p.reg ∈ blockRegs block := (place p.reg).mpr ⟨tx, found, p, member, listed, rfl⟩
      -- Whatever was stored, the registration matches what is stored now.
      have matches_ : p.reg.coreCommit env.crypto = (newEntry (contextAt env nHeight block) tx p
          ((view.policies.get? id).map (AssetRegistryEntry.credit undo.fee_undo id)) ticker
            decimals).core_policy_commit := by
        rw [newEntry_core_policy_commit]
        cases known : view.policies.get? id with
        | none => rfl
        | some e =>
          have history := accepted.history
          rw [known] at history
          by_cases issued : e.issued_total = 0
          · exact repeated p.reg inside e (named ▸ known) issued
          · exact checkRegUpdate_core history (UInt64.pos_iff_ne_zero.mpr issued)
      refine ⟨fun e known => ⟨_, rfl, ?_⟩, fun reg inside' named' => ⟨_, rfl, ?_⟩, fun _ _ _ => ⟨p.reg, inside, named⟩⟩
      · rw [AssetRegistryEntry.settle_core_policy_commit, newEntry_core_policy_commit, known]
        rfl
      · -- It is the only registration of the asset in the block.
        obtain ⟨tx', found', p', member', listed', rfl⟩ := (place reg).mp inside'
        obtain ⟨_, rfl⟩ := registration_unique limit member' member listed' listed
          (named'.trans named.symm)
        rw [AssetRegistryEntry.settle_core_policy_commit]
        exact matches_

theorem CommitsOk.connect {regs : List IssuerReg} (ok : CommitsOk env.crypto regs view.policies)
    (repeated : CoreRepeated env.crypto ⟨view, block⟩)
    (above : block.getHash env.crypto ≠ env.params.hashGenesisBlock)
    (connected : connectBlock (contextAt env nHeight block) db view block = .ok (next, undo)) :
    CommitsOk env.crypto (regs ++ blockRegs block) next.policies where
  stored reg member := by
    obtain ⟨kept, taken, _⟩ := connectBlock_commit repeated above connected reg.asset_id
    rcases List.mem_append.mp member with old | new
    · obtain ⟨e, known, same⟩ := ok.stored reg old
      obtain ⟨e', known', equal⟩ := kept e known
      exact ⟨e', known', same.trans equal.symm⟩
    · exact taken reg new rfl
  known id e' known' := by
    obtain ⟨_, _, first⟩ := connectBlock_commit repeated above connected id
    cases known : view.policies.get? id with
    | some e =>
      obtain ⟨reg, member, named⟩ := ok.known id e known
      exact ⟨reg, List.mem_append_left _ member, named⟩
    | none =>
      obtain ⟨reg, member, named⟩ := first known e' known'
      exact ⟨reg, List.mem_append_right _ member, named⟩

end Step

def OtherFailure (failure : Failure) : Prop := failure ≠ .consensus "policy-core-changed"

instance (failure : Failure) : Decidable (OtherFailure failure) := inferInstanceAs (Decidable (failure ≠ _))

section Rejections

variable {ctx : BlockContext} {tx : CTransaction} {coins : List Coin}
  {spent : List (Uint256 × Int)} {pass : RegistryPass} {p : PendingIssuerReg}

theorem resolveTicker_otherFailure (params : Params) (view : CCoinsView) (id : Uint256)
    (prev : Option AssetRegistryEntry) (ticker : Bytes) :
    FailsOnly OtherFailure (resolveTicker params view spent id prev ticker) := by
  unfold resolveTicker
  dsimp only
  split_ifs
  · exact .bind (.require (by decide)) fun _ => .ok _
  · exact .ok _
  · -- A child asks for its root, a root ticker for nothing but its own name.
    split
    · exact .bind (.require (by decide)) fun _ => .bind (.demand (by decide)) fun _ =>
        .bind (.demand (by decide)) fun _ => .bind (.require (by decide)) fun _ =>
        .bind (.ok _) fun _ => .bind (.require (by decide)) fun _ => .ok _
    · exact .bind (.require (by decide)) fun _ => .bind (.ok _) fun _ => .bind (.require (by decide)) fun _ => .ok _

theorem resolveDecimals_otherFailure (prev : Option AssetRegistryEntry) (decimals : UInt8) :
    FailsOnly OtherFailure (resolveDecimals prev decimals) := by
  unfold resolveDecimals
  dsimp only
  split_ifs <;> exact .bind (.require (by decide)) fun _ => .ok _

theorem installRegVk_otherFailure (c : Crypto) (reg : IssuerReg) :
    FailsOnly OtherFailure (installRegVk c pass reg) := by
  unfold installRegVk
  split_ifs
  · refine .bind (.require (by decide)) fun _ => ?_
    dsimp only
    split
    · exact .ok _
    · exact .bind (.require (by decide)) fun _ => .bind (.require (by decide)) fun _ => .ok _
    · exact .error (by decide)
    · exact .bind (.require (by decide)) fun _ => .bind (.require (by decide)) fun _ =>
        .bind (.require (by decide)) fun _ => .ok _
  · exact .ok _

theorem checkRegDelegate_otherFailure (view : CCoinsView) (prev : Option AssetRegistryEntry)
    (reg : IssuerReg) : FailsOnly OtherFailure (checkRegDelegate view prev reg) := by
  unfold checkRegDelegate
  split
  · next reason named =>
    refine .error fun same => ?_
    obtain rfl : reason = "policy-core-changed" := by simpa using same
    -- None of the reasons of the delegation rules is this one.
    unfold validateDelegateRegistration at named
    split_ifs at named <;> try simp at named
    all_goals
      split at named
      · simp at named
      · split_ifs at named <;> simp at named
  · exact .ok _

theorem installRegIcu_otherFailure (env : ChainEnv) (prev : Option AssetRegistryEntry)
    (reg : IssuerReg) : FailsOnly OtherFailure (installRegIcu env pass prev reg) := by
  unfold installRegIcu
  split_ifs
  · exact .bind (.demand (by decide)) fun _ => .ok _
  · exact .ok _

theorem checkRegUpdate_otherFailure {prev : AssetRegistryEntry}
    (same : reg.coreCommit ctx.env.crypto = prev.core_policy_commit) :
    FailsOnly OtherFailure (checkRegUpdate ctx tx coins id prev reg) := by
  unfold checkRegUpdate
  unfold IssuerReg.coreCommit at same
  simp only [same, implies_true]
  refine .bind (.ok _) fun _ => .bind (.require (by decide)) fun _ => .bind (.require (by decide)) fun _ => ?_
  split_ifs
  · exact .bind (.require (by decide)) fun _ => .bind (.require (by decide)) fun _ => .require (by decide)
  · exact .ok _

theorem registerAsset_otherFailure
    (same : ∀ e, pass.view.policies.get? p.reg.asset_id = some e →
      p.reg.coreCommit ctx.env.crypto = e.core_policy_commit) :
    FailsOnly OtherFailure (registerAsset ctx tx coins spent pass p) := by
  unfold registerAsset
  refine .bind ?_ fun _ => .bind (resolveTicker_otherFailure _ _ _ _ _) fun _ =>
    .bind (resolveDecimals_otherFailure _ _) fun _ => .bind (.require (by decide)) fun _ =>
    .bind (installRegVk_otherFailure _ _) fun _ => .bind (checkRegDelegate_otherFailure _ _ _) fun _ =>
    .bind (installRegIcu_otherFailure _ _ _) fun _ => .bind ?_ fun _ => .ok _
  · unfold checkRegTerms
    exact .bind (.require (by decide)) fun _ => .bind (.require (by decide)) fun _ => .require (by decide)
  · unfold checkRegHistory
    split
    · next prev known => exact checkRegUpdate_otherFailure (same prev known)
    · exact .ok _

end Rejections

section Chain

variable {env : ChainEnv} {base : Nat} {bestBlock : Uint256} {steps : List ChainStep}
  {view : CCoinsView}

theorem ConnectChain.commitsOk (chain : ConnectChain env base { bestBlock } steps view)
    (repeated : ∀ s ∈ steps, CoreRepeated env.crypto s) :
    CommitsOk env.crypto (chainRegs steps) view.policies := by
  induction chain with
  | nil => exact ⟨by simp [chainRegs], by simp⟩
  | snoc earlier above connected ih =>
    rw [chainRegs_append, chainRegs_singleton]
    exact (ih fun s member => repeated s (List.mem_append_left _ member)).connect
      (repeated _ (by simp)) above connected

theorem CommitsOk.current {c : Crypto} {id : Uint256} {e : AssetRegistryEntry}
    (ok : CommitsOk c (chainRegs steps) view.policies) (known : view.policies.get? id = some e) :
    ∃ reg, currentReg steps id = some reg ∧ reg.coreCommit c = e.core_policy_commit := by
  obtain ⟨reg, member, named⟩ := ok.known id e known
  obtain ⟨last, current⟩ : ∃ last, currentReg steps id = some last := by
    refine Option.isSome_iff_exists.mp (List.find?_isSome.mpr ?_)
    exact ⟨reg, List.mem_reverse.mpr member, by simpa using named⟩
  obtain ⟨inside, own⟩ := mem_of_currentReg current
  obtain ⟨e', known', same⟩ := ok.stored last inside
  rw [own, known] at known'
  cases known'
  exact ⟨last, current, same⟩

/-- In every chain whose registrations of assets without units repeat the stored commitment, the
core policy is frozen from the first issued unit on, and a registration that repeats it is never
refused for changing it. No two core policies of the chain share a commitment. -/
theorem corePolicy_frozen (chain : ConnectChain env base { bestBlock } steps view)
    (repeated : ∀ s ∈ steps, CoreRepeated env.crypto s) (apart : ∀ reg ∈ chainRegs steps, ∀ reg' ∈ chainRegs steps,
      reg.coreCommit env.crypto = reg'.coreCommit env.crypto → reg.corePolicy = reg'.corePolicy)
    (id : Uint256) : (∀ before s after e, steps = before ++ s :: after → s.view.policies.get? id = some e →
      0 < e.issued_total → ∃ current, currentReg before id = some current ∧
        ∀ reg ∈ chainRegs (s :: after), reg.asset_id = id → reg.corePolicy = current.corePolicy) ∧
    ∀ current, currentReg steps id = some current →
      ∀ (ctx : BlockContext) (tx : CTransaction) (coins : List Coin) (spent : List (Uint256 × Int))
        (pass : RegistryPass) (p : PendingIssuerReg) (fees : List FeeUndoEntry),
        ctx.env = env → p.reg.asset_id = id → p.reg.corePolicy = current.corePolicy →
        pass.view.policies.get? id = (view.policies.get? id).map (AssetRegistryEntry.credit fees id) →
        registerAsset ctx tx coins spent pass p ≠ .error (.consensus "policy-core-changed") := by
  have ok := chain.commitsOk repeated
  refine ⟨fun before s after e split known issued => ?_,
    fun current inForce ctx tx coins spent pass p fees same named repeats entry failed => ?_⟩
  · -- The commitment stored at the start of the step is the one in force, and it never changes.
    have early : ConnectChain env base { bestBlock } before s.view := by
      exact chain.prefix_of_eq split
    obtain ⟨current, inForce, _⟩ := (early.commitsOk fun t member => repeated t (by simp [split, member])).current known
    refine ⟨current, inForce, fun reg member own => ?_⟩
    obtain ⟨first, named⟩ := mem_of_currentReg inForce
    have inside : current ∈ chainRegs steps := by
      rw [split, chainRegs_append]
      exact List.mem_append_left _ first
    have inside' : reg ∈ chainRegs steps := by
      rw [split, chainRegs_append]
      exact List.mem_append_right _ member
    refine apart reg inside' current inside ?_
    obtain ⟨e₁, known₁, stored₁⟩ := ok.stored reg inside'
    obtain ⟨e₂, known₂, stored₂⟩ := ok.stored current inside
    rw [own] at known₁
    rw [named, known₁] at known₂
    cases known₂
    exact stored₁.trans stored₂.symm
  · refine registerAsset_otherFailure (fun e' found => ?_) _ failed rfl
    obtain ⟨inside, own⟩ := mem_of_currentReg inForce
    obtain ⟨e, known, stored⟩ := ok.stored current inside
    rw [own] at known
    rw [named, entry, known] at found
    cases found
    rw [same, coreCommit_eq_of_corePolicy repeats]
    exact stored

end Chain

section OnRegChain

open RegChain

theorem chainRegs_step (steps : List ChainStep) (node : Node) (tx : CTransaction) :
    chainRegs (steps ++ [node.step tx]) = chainRegs steps ++ regsOf tx.vout := by
  rw [chainRegs_append, chainRegs_singleton]
  exact congrArg _ (blockRegs_signed node tx)

theorem chainRegs_quiet {steps : List ChainStep} (silent : ∀ s ∈ steps, blockRegs s.block = []) :
    chainRegs steps = [] := List.flatMap_eq_nil_iff.mpr silent

/-- A chain that issues and votes under one core policy: it is frozen before the vote. -/
theorem corePolicy_frozen_before_vote : ∃ (renewed voted : Node) (steps : List ChainStep)
    (e : AssetRegistryEntry), ConnectChain env.toChainEnv 1 { bestBlock := genesis.getHash crypto }
      (steps ++ [renewed.step vote]) voted.state.coinsTip ∧
    renewed.state.coinsTip.policies.get? 7 = some e ∧ 0 < e.issued_total ∧
    ∃ current, currentReg steps 7 = some current ∧ ∀ reg ∈ chainRegs [renewed.step vote], reg.asset_id = 7 →
        reg.corePolicy = current.corePolicy := by
  obtain ⟨base, registered, ⟨renewed, voted, day⟩, _⟩ := assetDays_exist
  obtain ⟨steps, silent, _, chain⟩ := day.chain
  obtain ⟨e₂, known₂, terms₂, _⟩ := Node.holds_eq_true day.renewed_terms
  have issued : 0 < e₂.issued_total := by
    rw [show e₂.issued_total = 100 from congrArg EntryTerms.issued_total terms₂]
    decide
  -- Before anything is issued, the renewal repeats the stored commitment.
  have repeated : ∀ s ∈ steps ++ [base.step registration] ++ [registered.step renewal] ++
      [renewed.step vote], CoreRepeated crypto s := by
    refine day.regs_meet silent (fun e terms _ => ?_) fun e terms unissued => ?_
    · exact (congrArg EntryTerms.core_policy_commit terms).symm
    · rw [show e.issued_total = 100 from congrArg EntryTerms.issued_total terms] at unissued
      exact absurd unissued (by decide)
  have regs : chainRegs (steps ++ [base.step registration] ++ [registered.step renewal] ++
      [renewed.step vote]) = [firstReg, firstReg, reversedReg] := by
    rw [chainRegs_step, chainRegs_step, chainRegs_step, chainRegs_quiet silent, regsOf_registration,
      regsOf_renewal, regsOf_vote]
    rfl
  have frozen := (corePolicy_frozen chain repeated (by
    rw [regs]
    -- All three registrations have one core policy.
    have same : ∀ reg ∈ [firstReg, firstReg, reversedReg], reg.corePolicy = firstReg.corePolicy := by
      decide +kernel
    intro reg member reg' member' _
    rw [same reg member, same reg' member']) 7).1 _ (renewed.step vote) [] e₂ rfl known₂ issued
  exact ⟨renewed, voted, _, e₂, chain, known₂, issued, frozen⟩

/-- A core policy changed before anything was issued: then the terms in force are refused as a
change, and other terms are accepted. -/
theorem corePolicy_not_frozen : ∃ (issued reversed : Node) (steps : List ChainStep)
    (e : AssetRegistryEntry), ConnectChain env.toChainEnv 1 { bestBlock := genesis.getHash crypto }
      steps issued.state.coinsTip ∧ issued.state.coinsTip.policies.get? 7 = some e ∧ 0 < e.issued_total ∧
    currentReg steps 7 = some changedReg ∧ regsOf repetition.vout = [changedReg] ∧
    (connectTip env issued.state (issued.signed repetition)).2 = .error (.consensus "policy-core-changed") ∧
    regsOf reversal.vout = [reversedReg] ∧ reversedReg.corePolicy ≠ changedReg.corePolicy ∧
    ConnectChain env.toChainEnv 1 { bestBlock := genesis.getHash crypto }
      (steps ++ [issued.step reversal]) reversed.state.coinsTip := by
  obtain ⟨base, registered, _, rotated, issued, reversed, day⟩ := assetDays_exist
  obtain ⟨steps, silent, height, chain⟩ := day.chain
  obtain ⟨e, known, terms, _⟩ := Node.holds_eq_true day.issued_terms
  refine ⟨issued, reversed, _, e, chain, known, ?_, ?_, regsOf_repetition, day.refuses, regsOf_reversal, ?_,
    (day.reverses.step height chain).2⟩
  · rw [show e.issued_total = 2 ^ 62 from congrArg EntryTerms.issued_total terms]
    decide +kernel
  · -- The last registration is the one of the issue.
    rw [currentReg, chainRegs_step, regsOf_issue, List.reverse_append]
    rfl
  · decide +kernel

end OnRegChain

end TensorCash
