import TensorCash.Validation.Credential
import TensorCash.Validation.RegChain

/-! A bond is released once fees reach the threshold; until then a rotation keeps most of it. -/

namespace TensorCash

open Checked

variable {tx : CTransaction} {found : List Coin} {p : PendingIssuerReg}

/-- A registration lowers a threshold only where the bump rule sees it, in 64 bits. -/
def ThresholdGuarded (s : ChainStep) : Prop :=
  ∀ reg ∈ blockRegs s.block, ∀ e, s.view.policies.get? reg.asset_id = some e →
    reg.unlock_fees_sats < e.unlock_fees_sats →
      (reg.icu_ctxt_commit ≠ e.icu_ctxt_commit ∨ reg.icu_visibility ≠ e.icu_visibility) ∧
        e.unlock_fees_base.toNat + UNLOCK_BUMP_MIN_DEFAULT.toNat < 2 ^ 64

def rotationMinimum (p : PendingIssuerReg) : Option AssetRegistryEntry → UInt64
  | none => UInt64.ofInt (Int.tdiv (p.out.nValue.toInt * 95) 100)
  | some e => if p.reg.unlock_fees_sats ≤ e.fees_accum_sats then 546 else e.rotation_min_sats

structure BondTerms (p : PendingIssuerReg) (prev : Option AssetRegistryEntry) (new : AssetRegistryEntry) : Prop where
  threshold : new.unlock_fees_sats = p.reg.unlock_fees_sats
  base : new.unlock_fees_base = p.reg.unlock_fees_sats
  fees : new.fees_accum_sats = (prev.map AssetRegistryEntry.fees_accum_sats).getD 0
  minimum : new.rotation_min_sats = rotationMinimum p prev

theorem newEntry_bondTerms (ctx : BlockContext) (tx : CTransaction) (p : PendingIssuerReg)
    (prev : Option AssetRegistryEntry) (ticker : Bytes) (decimals : UInt8) :
    BondTerms p prev (newEntry ctx tx p prev ticker decimals) := by
  obtain ⟨_, _, _, _, _, _, _, _, form⟩ := newEntry_eq ctx tx p prev ticker decimals
  rw [form]
  cases prev <;> exact ⟨rfl, rfl, rfl, rfl⟩

variable {prev : Option AssetRegistryEntry} {new : AssetRegistryEntry} {id : Uint256}
  {ctx : BlockContext}

theorem BondTerms.settle
    (terms : BondTerms p prev new) (delta : Int64) :
    BondTerms p prev (new.settle delta) := by
  unfold AssetRegistryEntry.settle
  split_ifs
  · exact ⟨terms.threshold, terms.base, terms.fees, terms.minimum⟩
  · exact ⟨terms.threshold, terms.base, terms.fees, terms.minimum⟩
  · exact terms

theorem BondTerms.base_eq
    (terms : BondTerms p prev new) : new.unlock_fees_base = new.unlock_fees_sats :=
  terms.base.trans terms.threshold.symm

structure BondStep (fees : List FeeUndoEntry) (id : Uint256) (e e' : AssetRegistryEntry) : Prop where
  fees : e'.fees_accum_sats = e.fees_accum_sats + feeAdd fees id
  base : e'.unlock_fees_base = e'.unlock_fees_sats
  threshold : e.unlock_fees_sats ≤ e'.unlock_fees_sats
  minimum : e'.fees_accum_sats < e'.unlock_fees_sats → e'.rotation_min_sats = e.rotation_min_sats

theorem BondTerms.step {p : PendingIssuerReg} {fees : List FeeUndoEntry}
    {e e' : AssetRegistryEntry} (terms : BondTerms p (some (e.credit fees id)) e')
    (raised : e.unlock_fees_sats ≤ p.reg.unlock_fees_sats) : BondStep fees id e e' where
  fees := terms.fees
  base := terms.base_eq
  threshold := by
    rw [terms.threshold]
    exact raised
  minimum locked := by
    rw [terms.fees, terms.threshold] at locked
    rw [terms.minimum]
    exact if_neg (UInt64.not_le.mpr locked)

theorem checkRegUpdate_bump {coins : List Coin}
    {prev : AssetRegistryEntry} {reg : IssuerReg}
    (checked : checkRegUpdate ctx tx coins id prev reg = .ok ⟨⟩)
    (changed : reg.icu_ctxt_commit ≠ prev.icu_ctxt_commit ∨ reg.icu_visibility ≠ prev.icu_visibility) :
    prev.unlock_fees_base + UNLOCK_BUMP_MIN_DEFAULT ≤ reg.unlock_fees_sats := by
  unfold checkRegUpdate at checked
  obtain ⟨_, _, checked⟩ := bind_eq_ok.mp checked
  obtain ⟨_, _, checked⟩ := bind_eq_ok.mp checked
  obtain ⟨_, bump, _⟩ := bind_eq_ok.mp checked
  rcases require_eq_ok.mp bump with ⟨text, visibility⟩ | raised
  · rcases changed with differ | differ
    · exact absurd text differ
    · exact absurd visibility differ
  · exact raised

section Block

variable {env : ChainEnv} {nHeight : Nat} {db : ModelDb} {view next : CCoinsView} {block : CBlock}
  {undo : CBlockUndo} {id : Uint256}

theorem connectBlock_bondStep {e : AssetRegistryEntry} (guarded : ThresholdGuarded ⟨view, block⟩)
    (above : block.getHash env.crypto ≠ env.params.hashGenesisBlock)
    (connected : connectBlock (contextAt env nHeight block) db view block = .ok (next, undo))
    (known : view.policies.get? id = some e) (base : e.unlock_fees_base = e.unlock_fees_sats) :
    ∃ e', next.policies.get? id = some e' ∧ BondStep undo.fee_undo id e e' := by
  have step := connectBlock_entry connected id
  generalize next.policies.get? id = entry at step
  rw [known] at step
  cases step with
  | genesis hash => exact absurd hash above
  | block _ limit taken cap =>
    cases taken with
    | kept silent =>
      refine ⟨_, rfl, ?_⟩
      -- Only fees and totals have changed.
      unfold AssetRegistryEntry.settle
      split_ifs <;> exact ⟨rfl, base, UInt64.le_refl _, fun _ => rfl⟩
    | @registered tx found p new member listed named accepted =>
      obtain ⟨ticker, decimals, rfl⟩ := accepted.entry
      refine ⟨_, rfl, ((newEntry_bondTerms _ _ _ _ _ _).settle _).step ?_⟩
      -- A lower threshold would have met the bump rule.
      by_contra below
      have lower : p.reg.unlock_fees_sats < e.unlock_fees_sats := UInt64.not_le.mp below
      obtain ⟨changed, fits⟩ := guarded p.reg
        ((mem_blockRegs env.crypto nHeight view.coins).mpr ⟨tx, found, p, member, listed, rfl⟩) e
        (named ▸ known) lower
      have update : checkRegUpdate (contextAt env nHeight block) tx found p.reg.asset_id
          (e.credit undo.fee_undo id) p.reg = .ok ⟨⟩ := accepted.history
      have raised := checkRegUpdate_bump update changed
      rw [UInt64.le_iff_toNat_le, UInt64.toNat_add] at raised
      have stored : (e.credit undo.fee_undo id).unlock_fees_base = e.unlock_fees_base := rfl
      rw [stored, Nat.mod_eq_of_lt fits, base] at raised
      rw [UInt64.lt_iff_toNat_lt] at lower
      omega

theorem connectBlock_firstBond (above : block.getHash env.crypto ≠ env.params.hashGenesisBlock)
    (connected : connectBlock (contextAt env nHeight block) db view block = .ok (next, undo))
    (member : (tx, found) ∈ blockSpends env.crypto nHeight view.coins block.vtx)
    (listed : p ∈ pendingRegs tx) (unknown : view.policies.get? p.reg.asset_id = none) :
    ∃ e, next.policies.get? p.reg.asset_id = some e ∧ BondTerms p none e := by
  obtain ⟨new, accepted, stored⟩ := connectBlock_registers above connected member listed
  rw [unknown] at accepted
  obtain ⟨ticker, decimals, rfl⟩ := accepted.entry
  exact ⟨_, stored, (newEntry_bondTerms _ _ _ _ _ _).settle _⟩

end Block

theorem rotationMinimum_first (positive : 0 ≤ p.out.nValue.toInt) (bounded : p.out.nValue.toInt ≤ MAX_MONEY) :
    (rotationMinimum p none).toBitVec.toInt = p.out.nValue.toInt * 95 / 100 := by
  unfold rotationMinimum
  dsimp only
  have range : MAX_MONEY * 95 / 100 < 2 ^ 63 := by decide
  have share : 0 ≤ p.out.nValue.toInt * 95 / 100 ∧ p.out.nValue.toInt * 95 / 100 < 2 ^ 63 := by
    omega
  rw [Int.tdiv_eq_ediv_of_nonneg (by omega)]
  obtain ⟨n, number⟩ := Int.eq_ofNat_of_zero_le share.1
  rw [number] at share ⊢
  have form : UInt64.ofInt (n : Int) = UInt64.ofNat n := by
    rw [UInt64.ofInt]
    have small : ((n : Int) % 2 ^ 64).toNat = n := by omega
    rw [small]
  have exact_ : (UInt64.ofNat n).toBitVec.toNat = n := by
    show (UInt64.ofNat n).toNat = n
    rw [UInt64.toNat_ofNat']
    omega
  rw [form, BitVec.toInt_eq_toNat_of_lt (by omega), exact_]

theorem out_mem_of_pendingRegs (listed : p ∈ pendingRegs tx) : p.out ∈ tx.vout := by
  obtain ⟨⟨out, index⟩, member, made⟩ := List.mem_filterMap.mp listed
  obtain ⟨reg, _, rfl⟩ := Option.map_eq_some_iff.mp made
  exact List.fst_mem_of_mem_zipIdx member

theorem bond_range {db : ModelDb} {view assets : CCoinsView} {block : CBlock}
    {undo : CBlockUndo} {pass : CoinsPass} (accepted : BlockAccepted ctx db view block pass assets undo)
    (member : (tx, found) ∈ blockSpends ctx.env.crypto ctx.nHeight view.coins block.vtx)
    (listed : p ∈ pendingRegs tx) : 0 ≤ p.out.nValue.toInt ∧ p.out.nValue.toInt ≤ MAX_MONEY := by
  obtain ⟨_, _, _, _, _, checked⟩ := checkBlock_transactions accepted.checked
  have inside : tx ∈ block.vtx := by
    rw [← blockSpends_map_fst ctx.env.crypto ctx.nHeight view.coins block.vtx]
    exact List.mem_map_of_mem (f := Prod.fst) member
  exact checkTransaction_values (checked tx inside) p.out (out_mem_of_pendingRegs listed)

section Chain

variable {env : ChainEnv} {base : Nat} {bestBlock : Uint256} {steps : List ChainStep}
  {start view : CCoinsView} {id : Uint256}

theorem ConnectChain.credentials (chain : ConnectChain env base { bestBlock } steps view) :
    CredentialsOk view.coins view.policies := by
  induction chain with
  | nil => exact ⟨by simp, by simp⟩
  | snoc _ _ connected ih => exact ih.connect connected

theorem ConnectChain.base_eq (chain : ConnectChain env base { bestBlock } steps view) :
    ∀ id e, view.policies.get? id = some e → e.unlock_fees_base = e.unlock_fees_sats := by
  induction chain with
  | nil => simp
  | snoc _ above connected ih =>
    intro id e' known'
    have step := connectBlock_entry connected id
    rw [known'] at step
    generalize after : some e' = entry at step
    cases step with
    | genesis hash => exact absurd hash above
    | @block staged _ _ taken _ =>
      obtain ⟨e, rfl, rfl⟩ := Option.map_eq_some_iff.mp after.symm
      generalize same : some e = now at taken
      cases taken with
      | kept =>
        obtain ⟨old, known, rfl⟩ := Option.map_eq_some_iff.mp same.symm
        have stored := ih id old known
        unfold AssetRegistryEntry.settle
        split_ifs <;> exact stored
      | registered _ _ _ accepted =>
        cases same
        obtain ⟨ticker, decimals, rfl⟩ := accepted.entry
        exact ((newEntry_bondTerms _ _ _ _ _ _).settle _).base_eq

theorem ConnectChain.threshold_mono (chain : ConnectChain env base { bestBlock } steps view)
    (guarded : ∀ s ∈ steps, ThresholdGuarded s) : ∀ s ∈ steps, ∀ e, s.view.policies.get? id = some e →
      ∃ e', view.policies.get? id = some e' ∧ e.unlock_fees_sats ≤ e'.unlock_fees_sats := by
  induction chain with
  | nil => simp
  | @snoc steps view next block db undo earlier above connected ih =>
    intro s member e known
    have each := ih fun s inside => guarded s (List.mem_append_left _ inside)
    -- The last block takes over whatever the chain before has come to.
    obtain ⟨mid, there, lower⟩ : ∃ mid, view.policies.get? id = some mid ∧
        e.unlock_fees_sats ≤ mid.unlock_fees_sats := by
      rcases List.mem_append.mp member with old | new
      · exact each s old e known
      · obtain rfl := List.mem_singleton.mp new
        exact ⟨e, known, UInt64.le_refl _⟩
    obtain ⟨e', found, step⟩ := connectBlock_bondStep (guarded _ (by simp)) above connected there
      (earlier.base_eq id mid there)
    exact ⟨e', found, UInt64.le_trans lower step.threshold⟩

def FeesBelow (id : Uint256) (limit : UInt64) (steps : List ChainStep) (view : CCoinsView) : Prop :=
  (∀ s ∈ steps, ∀ e, s.view.policies.get? id = some e → e.fees_accum_sats < limit) ∧
    ∀ e, view.policies.get? id = some e → e.fees_accum_sats < limit

theorem ConnectChain.minimum_kept {before rest : List ChainStep} {first : ChainStep}
    (chain : ConnectChain env base { bestBlock } steps view)
    (split : steps = before ++ first :: rest) (guarded : ∀ s ∈ steps, ThresholdGuarded s)
    (member :
       (tx, found) ∈ blockSpends env.crypto (base + before.length) first.view.coins first.block.vtx)
    (listed : p ∈ pendingRegs tx) (unknown : first.view.policies.get? p.reg.asset_id = none) :
    ∃ e, view.policies.get? p.reg.asset_id = some e ∧ p.reg.unlock_fees_sats ≤ e.unlock_fees_sats ∧
      (FeesBelow p.reg.asset_id p.reg.unlock_fees_sats rest view →
       e.rotation_min_sats = rotationMinimum p none ∧
       e.rotation_min_sats.toBitVec.toInt = p.out.nValue.toInt * 95 / 100) := by
  induction chain generalizing rest with
  | nil => simp at split
  | @snoc steps view next block db undo earlier above connected ih =>
    rcases List.eq_nil_or_concat rest with rfl | ⟨init, last, rfl⟩
    · -- The block of the first registration.
      obtain ⟨rfl, same⟩ := List.append_inj' split rfl
      obtain rfl := (List.cons.inj same).1
      obtain ⟨e, known, terms⟩ := connectBlock_firstBond above connected member listed unknown
      obtain ⟨_, _, accepted, _⟩ := connectBlock_accepted above connected
      obtain ⟨positive, bounded⟩ := bond_range accepted member listed
      refine ⟨e, known, by rw [terms.threshold]; exact UInt64.le_refl _, fun _ => ?_⟩
      rw [terms.minimum]
      exact ⟨rfl, rotationMinimum_first positive bounded⟩
    · -- A later block, which the rule on rotations has seen locked.
      rw [List.concat_eq_append, ← List.cons_append, ← List.append_assoc] at split
      obtain ⟨rfl, same⟩ := List.append_inj' split rfl
      obtain rfl := (List.cons.inj same).1
      obtain ⟨e, known, floor, kept⟩ := ih rfl
        (fun s inside => guarded s (List.mem_append_left _ inside))
      obtain ⟨e', known', step⟩ := connectBlock_bondStep (guarded _ (by simp)) above connected known
        (earlier.base_eq _ e known)
      have higher := UInt64.le_trans floor step.threshold
      refine ⟨e', known', higher, fun below => ?_⟩
      have locked := UInt64.lt_of_lt_of_le (below.2 e' known') higher
      rw [step.minimum locked]
      refine kept ⟨fun s inside => below.1 s (by simp [inside]), fun e'' known'' => ?_⟩
      exact below.1 ⟨view, block⟩ (by simp) e'' known''

/-- In every chain whose registrations lower no threshold unseen by the bump rule, no threshold
falls. And while the collected fees are below the first threshold, whatever spends the credential
brings exactly one new one, with a bond that keeps the minimum of the first. -/
theorem bond_locked {before mid : List ChainStep} {first last : ChainStep}
    {tx : CTransaction} {found : List Coin} {p : PendingIssuerReg}
    (chain : ConnectChain env base { bestBlock } steps view)
    (split : steps = before ++ first :: (mid ++ [last])) (guarded : ∀ s ∈ steps, ThresholdGuarded s)
    (member : (tx, found) ∈ blockSpends env.crypto (base + before.length) first.view.coins first.block.vtx)
    (listed : p ∈ pendingRegs tx) (unknown : first.view.policies.get? p.reg.asset_id = none) :
    (∀ s ∈ steps, ∀ e, s.view.policies.get? p.reg.asset_id = some e →
      ∃ e', view.policies.get? p.reg.asset_id = some e' ∧ e.unlock_fees_sats ≤ e'.unlock_fees_sats) ∧
    (FeesBelow p.reg.asset_id p.reg.unlock_fees_sats (mid ++ [last]) view →
      ∀ tx' found' i coin reg, (tx', found') ∈ blockSpends env.crypto
          (base + (before ++ first :: mid).length) last.view.coins last.block.vtx →
        (i, coin) ∈ tx'.vin.zip found' → parseIssuerReg coin.out.vExt = some reg →
        reg.asset_id = p.reg.asset_id → ∃ p', pendingOf (pendingRegs tx') p.reg.asset_id = [p'] ∧
            p.out.nValue.toInt * 95 / 100 ≤ p'.out.nValue.toInt) := by
  refine ⟨chain.threshold_mono guarded, fun below tx' found' i coin reg member' inside parsed own => ?_⟩
  have front : before ++ first :: (mid ++ [last]) = (before ++ first :: mid) ++ [last] := by simp
  rw [split, front] at chain
  obtain ⟨db, undo, earlier, above, connected⟩ := chain.last_connected
  obtain ⟨pass, assets, accepted, rfl⟩ := connectBlock_accepted above connected
  -- The coin is the credential of the entry before the block, with the block's fees on it.
  obtain ⟨cur, p', known, _, alone, bond⟩ :=
    ((accepted.credentials earlier.credentials).2 tx' found' i coin reg member' inside parsed).spends
  rw [own] at known alone
  rw [creditFees_get?, Option.map_eq_some_iff] at known
  obtain ⟨e, known, rfl⟩ := known
  obtain ⟨e₀, known₀, floor, kept⟩ := earlier.minimum_kept rfl
    (fun s inside => guarded s (by rw [split, front]; exact List.mem_append_left _ inside)) member
    listed unknown
  rw [known] at known₀
  cases known₀
  obtain ⟨e', known', step⟩ := connectBlock_bondStep
    (guarded last (by rw [split, front]; simp)) above connected known
    (earlier.base_eq _ e known)
  -- The fees with this block's are still below the threshold, so the bond is locked.
  have locked : (e.credit undo.fee_undo p.reg.asset_id).isUnlocked = false := by
    have now := below.2 e' known'
    rw [step.fees] at now
    have fees := UInt64.lt_of_lt_of_le now floor
    unfold AssetRegistryEntry.isUnlocked
    exact decide_eq_false (UInt64.not_le.mpr fees)
  obtain ⟨_, minimum⟩ := kept ⟨fun s inside => below.1 s (by simp [inside]),
    fun e'' known'' => below.1 last (by simp) e'' known''⟩
  refine ⟨p', alone, ?_⟩
  unfold BondKept at bond
  rw [locked, if_neg Bool.false_ne_true] at bond
  have stored : (e.credit undo.fee_undo p.reg.asset_id).rotation_min_sats = e.rotation_min_sats := rfl
  rw [stored] at bond
  split_ifs at bond with zero
  · exact minimum ▸ bond
  · -- A minimum of nothing is kept by every bond.
    have listed' : p' ∈ pendingRegs tx' := (mem_pendingOf.mp (by rw [alone]; simp)).1
    have positive := (bond_range accepted member' listed').1
    rw [not_not.mp zero] at minimum
    have nothing : (0 : UInt64).toBitVec.toInt = 0 := rfl
    omega

end Chain

section OnRegChain

open RegChain

theorem feesBelow_before_vote {base registered renewed voted : Node}
    (day : VoteDay base registered renewed voted) :
    FeesBelow 7 10000000000 ([registered.step renewal] ++ [renewed.step vote])
      voted.state.coinsTip := by
  obtain ⟨e₁, known₁, _, fees₁⟩ := Node.holds_eq_true day.registered_terms
  obtain ⟨e₂, known₂, _, fees₂⟩ := Node.holds_eq_true day.renewed_terms
  obtain ⟨e₃, known₃, _, fees₃⟩ := Node.holds_eq_true day.voted_terms
  refine ⟨?_, fun e known => ?_⟩
  · simp only [List.mem_append, List.mem_singleton]
    rintro s (rfl | rfl) e known
    · obtain rfl := Option.mem_unique known₁ known
      exact fees₁
    · obtain rfl := Option.mem_unique known₂ known
      exact fees₂
  · obtain rfl := Option.mem_unique known₃ known
    exact fees₃

/-- A chain that keeps one threshold: the vote brings a new credential with most of the first
bond. -/
theorem bond_locked_on_vote : ∃ (base registered renewed voted : Node) (steps : List ChainStep),
    ConnectChain env.toChainEnv 1 { bestBlock := genesis.getHash crypto }
      (steps ++ base.step registration :: ([registered.step renewal] ++ [renewed.step vote]))
      voted.state.coinsTip ∧ FeesBelow 7 10000000000 ([registered.step renewal] ++ [renewed.step vote])
      voted.state.coinsTip ∧ ∃ p, pendingOf (pendingRegs vote) 7 = [p] ∧ 475000000 ≤ p.out.nValue.toInt := by
  obtain ⟨base, registered, ⟨renewed, voted, day⟩, _⟩ := assetDays_exist
  obtain ⟨steps, silent, height, chain⟩ := day.chain
  have split : steps ++ [base.step registration] ++ [registered.step renewal] ++ [renewed.step vote] =
        steps ++ base.step registration :: ([registered.step renewal] ++ [renewed.step vote]) := by
    simp
  -- No registration states a lower threshold than the one before.
  have guarded : ∀ s ∈ steps ++ [base.step registration] ++ [registered.step renewal] ++
      [renewed.step vote], ThresholdGuarded s := by
    refine day.regs_meet silent (fun e terms lower => ?_) fun e terms lower => ?_
    all_goals
      rw [show e.unlock_fees_sats = _ from congrArg EntryTerms.unlock_fees_sats terms] at lower
      exact absurd lower (UInt64.lt_irrefl _)
  obtain ⟨found, member, _⟩ := day.registers.spends
  obtain ⟨found', member', outs'⟩ := day.votes.spends
  rw [Node.spends, height] at member
  obtain ⟨p, listed, registers, value⟩ : ∃ p ∈ pendingRegs registration, p.reg = firstReg ∧
      p.out.nValue.toInt = 500000000 := by
    decide +kernel
  -- The vote spends the credential with its first input.
  obtain ⟨coin, _, rfl, bearer, _⟩ := List.map_eq_cons_iff.mp outs'
  obtain ⟨i, inputs, first⟩ : ∃ i inputs, vote.vin = i :: inputs := ⟨_, _, rfl⟩
  have parsed : parseIssuerReg coin.out.vExt = some firstReg := by
    rw [bearer]
    decide +kernel
  have place : renewed.state.chain.length =
      1 + (steps ++ base.step registration :: [registered.step renewal]).length := by
    rw [day.renews.length, day.registers.length, height, List.length_append]
    rfl
  rw [Node.spends, place] at member'
  have own : p.reg.asset_id = 7 := by rw [registers]; rfl
  have fees := feesBelow_before_vote day
  obtain ⟨p', alone, bond⟩ := (bond_locked chain split guarded member listed
    (by rw [own]; exact day.unknown)).2 (by rw [registers]; exact fees) vote _ i coin firstReg member'
      (by rw [first]; exact List.mem_cons_self) parsed (by rw [registers])
  rw [own] at alone
  rw [value] at bond
  exact ⟨base, registered, renewed, voted, steps, split ▸ chain, fees, p', alone, bond⟩

/-- A rotation that keeps the text lowers the threshold with almost no fees collected: the bump rule
does not look at it. -/
theorem threshold_lowered : ∃ (registered rotated : Node) (steps : List ChainStep)
    (e e' : AssetRegistryEntry), ConnectChain env.toChainEnv 1 { bestBlock := genesis.getHash crypto }
      (steps ++ [registered.step rotation]) rotated.state.coinsTip ∧
    registered.state.coinsTip.policies.get? 7 = some e ∧ rotated.state.coinsTip.policies.get? 7 = some e' ∧
    e'.unlock_fees_sats < e.unlock_fees_sats ∧ e.fees_accum_sats < e.unlock_fees_sats := by
  obtain ⟨base, registered, _, rotated, issued, reversed, day⟩ := assetDays_exist
  obtain ⟨steps, _, _, chain⟩ := day.chain
  obtain ⟨e, known, terms, fees⟩ := Node.holds_eq_true day.registered_terms
  obtain ⟨e', known', terms', _⟩ := Node.holds_eq_true day.rotated_terms
  have threshold : e.unlock_fees_sats = 10000000000 := congrArg EntryTerms.unlock_fees_sats terms
  have lowered : e'.unlock_fees_sats = 500000000 := congrArg EntryTerms.unlock_fees_sats terms'
  refine ⟨registered, rotated, _, e, e', chain.prefix_of_eq rfl, known, known', ?_, ?_⟩
  · rw [threshold, lowered]
    decide
  · rw [threshold]
    exact fees

end OnRegChain

end TensorCash
