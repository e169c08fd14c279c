import TensorCash.Assets.RootHistory
import TensorCash.Consensus.RootWindow
import TensorCash.Validation.CorePolicy
import TensorCash.Validation.RegChain
import TensorCash.Validation.Turn

/-! Along a chain the rings of an entry hold roots with the keys that they were registered under. -/

namespace TensorCash

open Checked

variable {e : AssetRegistryEntry} {regs : List IssuerReg} {root : Uint256}

structure CommitsRoot (id root vk : Uint256) (reg : IssuerReg) : Prop where
  named : reg.asset_id = id
  kyc : reg.kyc_flags ≠ 0
  root : reg.compliance_root_commit = root
  key : reg.zk_vk_commitment = vk
  set : vk ≠ 0

structure RootsFiled (regs : List IssuerReg) (id : Uint256) (e : AssetRegistryEntry) : Prop where
  logged : ∃ log, Logged log (some e) ∧ ∀ r ∈ log.records, ∃ reg ∈ regs, CommitsRoot id r.1.root_commit r.2 reg
  active : e.compliance_root_commit ≠ 0 → ∃ reg ∈ regs, CommitsRoot id e.compliance_root_commit e.zk_vk_commitment reg

def SameRoots (e e' : AssetRegistryEntry) : Prop :=
  e'.compliance_root_commit = e.compliance_root_commit ∧ e'.zk_vk_commitment = e.zk_vk_commitment ∧
    e'.compliance_root_history = e.compliance_root_history ∧
    e'.compliance_root_history_vk = e.compliance_root_history_vk

theorem RootsFiled.of_same {id : Uint256} {e' : AssetRegistryEntry}
    (filed : RootsFiled regs id e) (same : SameRoots e e') : RootsFiled regs id e' := by
  obtain ⟨root, vk, roots, keys⟩ := same
  obtain ⟨⟨log, ⟨active, rings, key_rings⟩, records⟩, current⟩ := filed
  refine ⟨⟨log, ⟨?_, ?_, ?_⟩, records⟩, ?_⟩
  · exact root.trans active
  · exact roots.trans rings
  · exact keys.trans key_rings
  · rw [root, vk]
    exact current

theorem RootsFiled.mono {more : List IssuerReg} {id : Uint256} (filed : RootsFiled regs id e)
    (sub : regs ⊆ more) : RootsFiled more id e := by
  obtain ⟨⟨log, logged, records⟩, active⟩ := filed
  refine ⟨⟨log, logged, fun r member => ?_⟩, fun set => ?_⟩
  · obtain ⟨reg, inside, commits⟩ := records r member
    exact ⟨reg, sub inside, commits⟩
  · obtain ⟨reg, inside, commits⟩ := active set
    exact ⟨reg, sub inside, commits⟩

theorem sameRoots_settle (delta : Int64) (e : AssetRegistryEntry) : SameRoots e (e.settle delta) := by
  unfold AssetRegistryEntry.settle
  split_ifs <;> exact ⟨rfl, rfl, rfl, rfl⟩

theorem applyComplianceRootUpdate_active (now : AssetRegistryEntry) (prev : Option AssetRegistryEntry)
    (new_root active_vk : Uint256) (height : Nat) (txid : Uint256) :
    (applyComplianceRootUpdate now prev new_root active_vk height txid).compliance_root_commit = new_root ∧
      (applyComplianceRootUpdate now prev new_root active_vk height txid).zk_vk_commitment =
        now.zk_vk_commitment := by
  unfold applyComplianceRootUpdate
  dsimp only
  by_cases cleared : new_root = 0
  · rw [if_pos cleared]
    exact ⟨cleared.symm, rfl⟩
  · rw [if_neg cleared]
    split_ifs <;> exact ⟨rfl, rfl⟩

theorem newEntry_rootsFiled {ctx : BlockContext} {tx : CTransaction} {p : PendingIssuerReg}
    {prev : Option AssetRegistryEntry} {ticker : Bytes} {decimals : UInt8}
    (filed : ∀ e, prev = some e → RootsFiled regs p.reg.asset_id e) (inside : p.reg ∈ regs)
    (keyed : p.reg.kyc_flags ≠ 0 → p.reg.zk_vk_commitment ≠ 0) :
    RootsFiled regs p.reg.asset_id (newEntry ctx tx p prev ticker decimals) := by
  unfold newEntry withCompliance
  dsimp only
  by_cases plain : p.reg.kyc_flags = 0
  · -- Without compliance flags the entry is written without roots.
    rw [if_pos plain]
    exact ⟨⟨{}, ⟨rfl, rfl, rfl⟩, by simp⟩, fun set => absurd rfl set⟩
  rw [if_neg plain]
  have own : CommitsRoot p.reg.asset_id p.reg.compliance_root_commit p.reg.zk_vk_commitment p.reg :=
    ⟨rfl, plain, rfl, rfl, keyed plain⟩
  obtain ⟨log, logged, records⟩ : ∃ log, Logged log prev ∧
      ∀ r ∈ log.records, ∃ reg ∈ regs, CommitsRoot p.reg.asset_id r.1.root_commit r.2 reg := by
    cases prev with
    | none => exact ⟨{}, ⟨rfl, rfl, rfl⟩, by simp⟩
    | some e => exact (filed e rfl).logged
  -- The rest of the entry, as the update finds it.
  let u : RootUpdate := {
    now := { registeredEntry ctx (tx.txid ctx.env.crypto) p prev ticker decimals with
      has_kyc := true, zk_vk_commitment := p.reg.zk_vk_commitment
      max_root_age := p.reg.max_root_age, tfr_flags := p.reg.tfr_flags }
    new_root := p.reg.compliance_root_commit
    active_vk := p.reg.zk_vk_commitment
    height := ctx.nHeight
    txid := tx.txid ctx.env.crypto }
  have updated : Logged (log.update u) (some (u.apply prev)) := logged.update u
  refine ⟨⟨log.update u, updated, fun r member => ?_⟩, fun set => ?_⟩
  -- A record of the new log is an old one, or that of this registration.
  · unfold RootLog.update at member
    split_ifs at member
    · cases member
    · exact records r member
    · rcases List.mem_append.mp member with old | new
      · exact records r old
      · obtain rfl := List.mem_singleton.mp new
        exact ⟨p.reg, inside, own⟩
  · -- Whichever branch is taken, root and key are the registration's.
    obtain ⟨root, key⟩ := applyComplianceRootUpdate_active u.now prev u.new_root u.active_vk u.height u.txid
    refine ⟨p.reg, inside, ⟨rfl, plain, root.symm, key.symm, ?_⟩⟩
    exact fun none => keyed plain (key.symm.trans none)

section Chain

variable {env : ChainEnv} {base : Nat} {bestBlock : Uint256} {steps : List ChainStep}
  {view : CCoinsView} {id : Uint256} {e : AssetRegistryEntry}

theorem ConnectChain.rootsFiled (chain : ConnectChain env base { bestBlock } steps view) :
    ∀ e, view.policies.get? id = some e → RootsFiled (chainRegs steps) id e := by
  induction chain with
  | nil => simp
  | @snoc steps mid next block db undo earlier above connected ih =>
    intro e' known'
    rw [chainRegs_append, chainRegs_singleton]
    have step := connectBlock_entry connected id
    rw [known'] at step
    generalize after : some e' = entry at step
    cases step with
    | genesis hash => exact absurd hash above
    | @block staged _ _ taken _ =>
      obtain ⟨now, rfl, rfl⟩ := Option.map_eq_some_iff.mp after.symm
      refine RootsFiled.of_same ?_ (sameRoots_settle _ now)
      -- The entry before the block, with its fees.
      have before : ∀ e, (mid.policies.get? id).map (AssetRegistryEntry.credit undo.fee_undo id) =
          some e → RootsFiled (chainRegs steps ++ blockRegs block) id e := by
        intro e credited
        obtain ⟨old, known, rfl⟩ := Option.map_eq_some_iff.mp credited
        have credited : SameRoots old (old.credit undo.fee_undo id) := ⟨rfl, rfl, rfl, rfl⟩
        exact ((ih old known).of_same credited).mono (List.subset_append_left _ _)
      generalize same : some now = result at taken
      cases taken with
      | kept => exact before now same.symm
      | @registered tx coins p new member listed named accepted =>
        cases same
        obtain ⟨ticker, decimals, rfl⟩ := accepted.entry
        subst named
        -- At its turn the registration had to show its key.
        obtain ⟨_, _, _, ⟨turn⟩, _⟩ := connectBlock_turn (by exact above) connected member listed
        refine newEntry_rootsFiled before ?_ (registerAsset_key turn.registers)
        exact List.mem_append_right _ ((mem_blockRegs _ _ _).mpr ⟨tx, coins, p, member, listed, rfl⟩)

theorem uint256ToBytesBE_injective : Function.Injective uint256ToBytesBE := fun _ _ same =>
  Uint256.bytes_injective (List.reverse_injective same)

theorem admitRoot_active (self : e.compliance_delegate_asset_id = 0) (nSpendHeight : Nat) :
    admitRoot id e none nSpendHeight (uint256ToBytesBE e.compliance_root_commit) = .ok e.zk_vk_commitment := by
  refine bind_eq_ok.mpr ⟨_, if_pos self, rootStep_eq_ok.mpr ⟨by simp, ?_⟩⟩
  simp [matchRoot]

/-- What the root step selects: the active key, or the key of a record of the root. -/
theorem admitRoot_logged {log : RootLog} (logged : Logged log (some e))
    (self : e.compliance_delegate_asset_id = 0) {nSpendHeight : Nat} {hist : ComplianceRootHistory}
    (ring : hist ∈ e.compliance_root_history) (same : hist.root_commit = root)
    (reached : hist.activation_height ≤ nSpendHeight)
    (fresh : (nSpendHeight : Int) - hist.activation_height ≤ castInt e.max_root_age) :
    ∃ vk, admitRoot id e none nSpendHeight (uint256ToBytesBE root) = .ok vk ∧
      (root = e.compliance_root_commit ∧ vk = e.zk_vk_commitment ∨ ∃ r ∈ log.records, r.1.root_commit = root ∧
          vk = if r.2 = 0 then e.zk_vk_commitment else r.2) := by
  have roots : e.compliance_root_history = log.ring.map Prod.fst := logged.roots
  have keys : e.compliance_root_history_vk = log.ring.map Prod.snd := logged.keys
  suffices found : ∃ policy, resolveEffectiveKycPolicy id e none = .ok policy ∧
      policy.delegated = false ∧ ∃ vk, matchRoot policy nSpendHeight (uint256ToBytesBE root) = some vk ∧
      (root = e.compliance_root_commit ∧ vk = e.zk_vk_commitment ∨ ∃ r ∈ log.records, r.1.root_commit = root ∧
          vk = if r.2 = 0 then e.zk_vk_commitment else r.2) by
    obtain ⟨policy, resolved, own, vk, matched, selected⟩ := found
    exact ⟨vk, bind_eq_ok.mpr ⟨policy, resolved, rootStep_eq_ok.mpr ⟨by simp [own], matched⟩⟩, selected⟩
  refine ⟨_, if_pos self, rfl, ?_⟩
  by_cases active : root = e.compliance_root_commit
  -- The active root is compared first, and selects the active key.
  · exact ⟨_, if_pos (congrArg uint256ToBytesBE active), .inl ⟨active, rfl⟩⟩
  -- The ring has a match, so the scan ends at a first one.
  obtain ⟨i, place⟩ := List.mem_iff_getElem?.mp ring
  have some_match : (e.compliance_root_history.zipIdx.find? fun x =>
      uint256ToBytesBE root = uint256ToBytesBE x.1.root_commit && x.1.activation_height ≤ nSpendHeight &&
        (nSpendHeight : Int) - x.1.activation_height ≤ castInt e.max_root_age).isSome := by
    refine List.find?_isSome.mpr ⟨(hist, i), List.mem_zipIdx_iff_getElem?.mpr place, ?_⟩
    simp [same, reached, fresh]
  obtain ⟨⟨first, j⟩, scan⟩ := Option.isSome_iff_exists.mp some_match
  have fits := List.find?_some scan
  simp only [Bool.and_eq_true, decide_eq_true_eq] at fits
  have there := List.mem_zipIdx_iff_getElem?.mp (List.mem_of_find?_eq_some scan)
  dsimp only at there
  rw [roots, List.getElem?_map, Option.map_eq_some_iff] at there
  obtain ⟨r, recorded, rfl⟩ := there
  -- The two rings are parallel, so the key at the place is the record's.
  have keyed : e.compliance_root_history_vk[j]? = some r.2 := by
    rw [keys, List.getElem?_map, recorded]
    rfl
  refine ⟨_, ?_, .inr ⟨r, (List.drop_sublist _ _).subset (List.mem_of_getElem? recorded),
    (uint256ToBytesBE_injective fits.1.1).symm, rfl⟩⟩
  unfold matchRoot
  dsimp only
  rw [if_neg fun eq => active (uint256ToBytesBE_injective eq), scan, Option.map_some]
  dsimp only
  rw [keyed]

def CommitsTo (id root : Uint256) (reg : IssuerReg) : Prop :=
  reg.asset_id = id ∧ reg.kyc_flags ≠ 0 ∧ reg.compliance_root_commit = root

theorem CommitsRoot.commitsTo {vk : Uint256} {reg : IssuerReg} (commits : CommitsRoot id root vk reg) :
    CommitsTo id root reg := ⟨commits.named, commits.kyc, commits.root⟩

/-- A root that is active under a key keeps it: whatever rotations follow, a spend that names the
root is checked under that key while a record of the root in the ring is within the window, which is
below `2 ^ 31`. The asset commits to the root under one key only. -/
theorem recentProofs_survive (chain : ConnectChain env base { bestBlock } steps view) {s : ChainStep}
    (member : s ∈ steps) {e₀ : AssetRegistryEntry} {R V : Uint256} {proved : Nat}
    (known₀ : s.view.policies.get? id = some e₀) (self₀ : e₀.compliance_delegate_asset_id = 0)
    (active : e₀.compliance_root_commit = R) (set : R ≠ 0)
    (accepted : admitRoot id e₀ none proved (uint256ToBytesBE R) = .ok V)
    (known : view.policies.get? id = some e) (self : e.compliance_delegate_asset_id = 0)
    (window : e.max_root_age = e₀.max_root_age) (small : e₀.max_root_age.toNat < 2 ^ 31)
    (single : ∀ reg ∈ chainRegs steps, ∀ reg' ∈ chainRegs steps, CommitsTo id R reg →
      CommitsTo id R reg' → reg.zk_vk_commitment = reg'.zk_vk_commitment)
    {hist : ComplianceRootHistory} (ring : hist ∈ e.compliance_root_history)
    (root : hist.root_commit = R) {nSpendHeight : Nat} (reached : hist.activation_height ≤ nSpendHeight)
    (fresh : nSpendHeight - hist.activation_height ≤ e₀.max_root_age.toNat) :
    admitRoot id e none nSpendHeight (uint256ToBytesBE R) = .ok V := by
  subst active
  -- The proof was accepted under the key of the registration that the chain had filed by then.
  obtain rfl : e₀.zk_vk_commitment = V := Except.ok.inj ((admitRoot_active self₀ proved).symm.trans accepted)
  obtain ⟨front, rest, rfl⟩ := List.append_of_mem member
  obtain ⟨first, early, commits₀⟩ := ((chain.prefix_of_eq rfl).rootsFiled e₀ known₀).active set
  have inside₀ : first ∈ chainRegs (front ++ s :: rest) := by
    rw [chainRegs_append]
    exact List.mem_append_left _ early
  have one_key : ∀ reg ∈ chainRegs (front ++ s :: rest), ∀ vk,
      CommitsRoot id e₀.compliance_root_commit vk reg → vk = e₀.zk_vk_commitment := by
    intro reg inside vk commits
    rw [← commits.key, ← commits₀.key]
    exact single reg inside first inside₀ commits.commitsTo commits₀.commitsTo
  obtain ⟨⟨log, logged, records⟩, current⟩ := chain.rootsFiled e known
  -- Below 2 ^ 31 the cast to a signed number keeps the window.
  have age : castInt e.max_root_age = e₀.max_root_age.toNat := by
    rw [window, castInt, BitVec.toInt_eq_toNat_of_lt (by rw [UInt32.toNat_toBitVec]; omega), UInt32.toNat_toBitVec]
  have within : (nSpendHeight : Int) - hist.activation_height ≤ castInt e.max_root_age := by
    rw [age]
    omega
  obtain ⟨vk, admitted, selected⟩ := admitRoot_logged logged self ring root reached within
  rw [admitted]
  congr 1
  rcases selected with ⟨now, rfl⟩ | ⟨r, recorded, same, rfl⟩
  · -- The root is active again, or still.
    obtain ⟨reg, inside, commits⟩ := current (now ▸ set)
    exact one_key reg inside _ (now ▸ commits)
  · obtain ⟨reg, inside, commits⟩ := records r recorded
    -- A record without a key would fall back on the active one; this one has a key.
    rw [if_neg commits.set]
    exact one_key reg inside _ (same ▸ commits)

end Chain

namespace RegChain

theorem KeyDay.chain {base registered rotated returned : Node} (quiet : base.blocks.flatMap blockRegs = [])
    (day : KeyDay base registered rotated returned) : ∃ steps, (∀ s ∈ steps, blockRegs s.block = []) ∧
      ConnectChain env.toChainEnv 1 { bestBlock := genesis.getHash crypto }
        (steps ++ [base.step keyRegistration] ++ [registered.step keyRotation])
        rotated.state.coinsTip ∧ ConnectChain env.toChainEnv 1 { bestBlock := genesis.getHash crypto }
        (steps ++ [base.step keyRegistration] ++ [registered.step keyRotation] ++
          [rotated.step keyReturn]) returned.state.coinsTip := by
  obtain ⟨steps, silent, height, chain⟩ := Node.quiet_chain quiet
  obtain ⟨height, chain⟩ := day.registers.step height chain
  obtain ⟨height, chain⟩ := day.rotates.step height chain
  exact ⟨steps, silent, chain, (day.returns.step height chain).2⟩

theorem Node.roots_eq_some {node : Node} {terms : RootTerms} (evaluated : node.roots = some terms) :
    ∃ e, node.state.coinsTip.policies.get? 7 = some e ∧ rootTerms e = terms :=
  Option.map_eq_some_iff.mp evaluated

theorem regsOf_keys : regsOf keyRegistration.vout = [keyReg 1 [1]] ∧
    regsOf keyRotation.vout = [keyReg 2 [2]] ∧ regsOf keyReturn.vout = [keyReg 1 [2]] := by
  decide +kernel

theorem exists_record {terms : RootTerms} (same : rootTerms e = terms)
    {i : Nat} {height : Nat} (roots : terms.roots[i]? = some root) (heights : terms.heights[i]? = some height) :
    ∃ hist ∈ e.compliance_root_history, hist.root_commit = root ∧ hist.activation_height = height := by
  subst same
  simp only [rootTerms, List.getElem?_map, Option.map_eq_some_iff] at roots heights
  obtain ⟨hist, there, named⟩ := roots
  obtain ⟨again, here, dated⟩ := heights
  obtain rfl := Option.mem_unique there here
  exact ⟨hist, List.mem_of_getElem? there, named, dated⟩

end RegChain

open RegChain in
/-- After one rotation to a new root and a new key, the first root is admitted under its own key. -/
theorem recentProofs_survive_rotation :
    ∃ (rotated : Node) (e : AssetRegistryEntry), rotated.state.coinsTip.policies.get? 7 = some e ∧
      e.compliance_root_commit = 2 ∧ e.zk_vk_commitment = crypto.hash [2] ∧
      admitRoot 7 e none 150 (uint256ToBytesBE 1) = .ok (crypto.hash [1]) := by
  obtain ⟨base, quiet, _, _, ⟨registered, rotated, returned, day⟩, _⟩ := laterDays_exist
  obtain ⟨steps, silent, chain, _⟩ := day.chain quiet
  obtain ⟨e₀, known₀, terms₀⟩ := Node.roots_eq_some day.registered_roots
  obtain ⟨e, known, terms⟩ := Node.roots_eq_some day.rotated_roots
  obtain ⟨hist, ring, root, height⟩ := exists_record terms (i := 0) rfl rfl
  have regs : chainRegs (steps ++ [base.step keyRegistration] ++ [registered.step keyRotation]) =
      [keyReg 1 [1], keyReg 2 [2]] := by
    rw [chainRegs_step, chainRegs_step, chainRegs_quiet silent, regsOf_keys.1, regsOf_keys.2.1]
    rfl
  have self₀ : e₀.compliance_delegate_asset_id = 0 := congrArg RootTerms.source terms₀
  have age₀ : e₀.max_root_age = 100 := congrArg RootTerms.max_root_age terms₀
  have age : e.max_root_age = 100 := congrArg RootTerms.max_root_age terms
  have root₀ : e₀.compliance_root_commit = 1 := congrArg RootTerms.root terms₀
  have key₀ : e₀.zk_vk_commitment = crypto.hash [1] := congrArg RootTerms.vk terms₀
  refine ⟨rotated, e, known, congrArg RootTerms.root terms, congrArg RootTerms.vk terms, ?_⟩
  have proved : admitRoot 7 e₀ none 102 (uint256ToBytesBE 1) = .ok (crypto.hash [1]) := by
    rw [← key₀, ← root₀]
    exact admitRoot_active self₀ 102
  refine recentProofs_survive chain (s := registered.step keyRotation) (by simp) known₀ self₀ root₀
    (by decide) proved known (congrArg RootTerms.source terms) (age.trans age₀.symm)
    (by rw [age₀]; decide) ?_ ring root (by rw [height]; decide) (by rw [height, age₀]; decide)
  -- Only the first registration commits to the root.
  rw [regs]
  have only : ∀ reg ∈ [keyReg 1 [1], keyReg 2 [2]], CommitsTo 7 1 reg → reg.zk_vk_commitment = crypto.hash [1] := by
    intro reg member commits
    simp only [List.mem_cons, List.not_mem_nil, or_false] at member
    rcases member with rfl | rfl
    · rfl
    · exact absurd commits.2.2 (by decide)
  intro reg member reg' member' commits commits'
  rw [only reg member commits, only reg' member' commits']

open RegChain in
/-- Once the first root has come back under the second key, proofs under the first key are checked
under the second, although the first record is still fresh in the ring. -/
theorem recentProofs_rejected : ∃ (registered returned : Node) (e₀ e : AssetRegistryEntry)
    (steps : List ChainStep), ConnectChain env.toChainEnv 1 { bestBlock := genesis.getHash crypto } steps
        returned.state.coinsTip ∧ (∃ s ∈ steps, s.view.policies.get? 7 = some e₀) ∧
      chainRegs steps = [keyReg 1 [1], keyReg 2 [2], keyReg 1 [2]] ∧
      admitRoot 7 e₀ none 102 (uint256ToBytesBE 1) = .ok (crypto.hash [1]) ∧
      registered.state.coinsTip.policies.get? 7 = some e₀ ∧ returned.state.coinsTip.policies.get? 7 = some e ∧
      (∃ hist ∈ e.compliance_root_history, hist.root_commit = 1 ∧ hist.activation_height = 101) ∧
      e.max_root_age = 100 ∧ admitRoot 7 e none 150 (uint256ToBytesBE 1) = .ok (crypto.hash [2]) ∧
      crypto.hash [1] ≠ crypto.hash [2] := by
  obtain ⟨base, quiet, _, _, ⟨registered, rotated, returned, day⟩, _⟩ := laterDays_exist
  obtain ⟨steps, silent, _, chain⟩ := day.chain quiet
  obtain ⟨e₀, known₀, terms₀⟩ := Node.roots_eq_some day.registered_roots
  obtain ⟨e, known, terms⟩ := Node.roots_eq_some day.returned_roots
  have regs : chainRegs (steps ++ [base.step keyRegistration] ++ [registered.step keyRotation] ++
      [rotated.step keyReturn]) = [keyReg 1 [1], keyReg 2 [2], keyReg 1 [2]] := by
    rw [chainRegs_step, chainRegs_step, chainRegs_step, chainRegs_quiet silent, regsOf_keys.1,
      regsOf_keys.2.1, regsOf_keys.2.2]
    rfl
  have first : admitRoot 7 e₀ none 102 (uint256ToBytesBE 1) = .ok (crypto.hash [1]) := by
    rw [← show e₀.compliance_root_commit = 1 from congrArg RootTerms.root terms₀,
      ← show e₀.zk_vk_commitment = crypto.hash [1] from congrArg RootTerms.vk terms₀]
    exact admitRoot_active (congrArg RootTerms.source terms₀) 102
  have second : admitRoot 7 e none 150 (uint256ToBytesBE 1) = .ok (crypto.hash [2]) := by
    rw [← show e.compliance_root_commit = 1 from congrArg RootTerms.root terms,
      ← show e.zk_vk_commitment = crypto.hash [2] from congrArg RootTerms.vk terms]
    exact admitRoot_active (congrArg RootTerms.source terms) 150
  exact ⟨registered, returned, e₀, e, _, chain,
    ⟨registered.step keyRotation, by simp, known₀⟩, regs, first, known₀, known,
    exists_record terms (i := 0) rfl rfl, congrArg RootTerms.max_root_age terms, second, by decide⟩

end TensorCash
