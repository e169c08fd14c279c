import TensorCash.Validation.RegChain

/-! A changed cap asks for a vote, and nothing passes without a quorum to meet. -/

namespace TensorCash

open Checked

structure CapKeeps (e e' : AssetRegistryEntry) : Prop where
  cap : e'.issuance_cap_units = e.issuance_cap_units
  quorum : e'.policy_quorum_bps = e.policy_quorum_bps
  issued : e.issuance_cap_units ≠ 0 → e.issued_total ≤ e.issuance_cap_units → e'.issued_total ≤ e'.issuance_cap_units

theorem CapKeeps.refl (e : AssetRegistryEntry) : CapKeeps e e := ⟨rfl, rfl, fun _ within => within⟩

theorem CapKeeps.trans {a b c : AssetRegistryEntry} (first : CapKeeps a b) (second : CapKeeps b c) :
    CapKeeps a c :=
  ⟨second.cap.trans first.cap, second.quorum.trans first.quorum, fun capped within =>
    second.issued (first.cap ▸ capped) (first.issued capped within)⟩

variable {ctx : BlockContext} {tx : CTransaction} {coins : List Coin} {id : Uint256}
  {prev e : AssetRegistryEntry}

theorem checkRegUpdate_unvoted
    {reg : IssuerReg}
    (checked : checkRegUpdate ctx tx coins id prev reg = .ok ⟨⟩)
    (unvoted : prev.policy_quorum_bps = 0) : governanceChanged prev reg = false := by
  unfold checkRegUpdate at checked
  simp only [require_bind_eq_ok] at checked
  obtain ⟨_, _, _, voted⟩ := checked
  cases changed : governanceChanged prev reg with
  | false => rfl
  | true =>
    rw [if_pos changed] at voted
    simp only [require_bind_eq_ok] at voted
    exact absurd unvoted voted.2.1

theorem RegistersAs.capKeeps
    {p : PendingIssuerReg} {new : AssetRegistryEntry}
    (accepted : RegistersAs ctx tx coins p (some prev) new) (unvoted : prev.policy_quorum_bps = 0) :
    CapKeeps prev new := by
  -- Without a quorum nothing that needs a vote has changed, and the cap is among it.
  have same := checkRegUpdate_unvoted accepted.history unvoted
  simp only [governanceChanged, Bool.or_eq_false_iff, decide_eq_false_iff_not, not_not] at same
  obtain ⟨ticker, decimals, rfl⟩ := accepted.entry
  obtain ⟨_, _, _, _, _, _, _, _, entry⟩ := newEntry_eq ctx tx p (some prev) ticker decimals
  rw [entry]
  refine ⟨same.2, same.1.2, fun _ within => ?_⟩
  show prev.issued_total ≤ p.reg.issuance_cap_units
  rw [same.2]
  exact within

theorem capKeeps_settle {delta : Int64} (cap : CapKept delta e) :
    CapKeeps e (e.settle delta) := by
  unfold AssetRegistryEntry.settle
  split_ifs with minted burned
  · refine ⟨rfl, rfl, fun capped _ => ?_⟩
    -- A cap that is set has been compared with the new total.
    by_contra beyond
    exact cap ⟨UInt64.pos_iff_ne_zero.mpr capped, minted, UInt64.not_le.mp beyond⟩
  · exact ⟨rfl, rfl, fun _ within => within⟩
  · exact .refl e

theorem connectBlock_capKeeps {db : ModelDb} {view next : CCoinsView}
    {block : CBlock} {undo : CBlockUndo}
    (connected : connectBlock ctx db view block = .ok (next, undo))
    (known : view.policies.get? id = some e) (unvoted : e.policy_quorum_bps = 0) :
    ∃ e', next.policies.get? id = some e' ∧ CapKeeps e e' := by
  have step := connectBlock_entry connected id
  rw [known] at step
  generalize after : next.policies.get? id = entry at step
  cases step with
  | genesis _ => exact ⟨e, rfl, .refl e⟩
  | @block staged _ _ taken cap =>
    -- The fees are credited first; then at most one registration is taken.
    have credited : CapKeeps e (e.credit undo.fee_undo id) := ⟨rfl, rfl, fun _ within => within⟩
    obtain ⟨now, rfl, kept⟩ : ∃ now, staged = some now ∧ CapKeeps e now := by
      cases taken with
      | kept _ => exact ⟨_, rfl, credited⟩
      | registered _ _ _ accepted => exact ⟨_, rfl, credited.trans (accepted.capKeeps unvoted)⟩
    exact ⟨_, rfl, kept.trans (capKeeps_settle (cap now rfl))⟩

section Chain

variable {env : ChainEnv} {base : Nat} {start view : CCoinsView} {steps : List ChainStep}
  {id : Uint256} {e : AssetRegistryEntry}

theorem ConnectChain.capKeeps (chain : ConnectChain env base start steps view) {s : ChainStep}
    (member : s ∈ steps) (known : s.view.policies.get? id = some e) (unvoted : e.policy_quorum_bps = 0) :
    ∃ e', view.policies.get? id = some e' ∧ CapKeeps e e' := by
  induction chain with
  | nil => cases member
  | @snoc steps mid next block db undo earlier above connected ih =>
    obtain ⟨m, there, kept⟩ : ∃ m, mid.policies.get? id = some m ∧ CapKeeps e m := by
      rcases List.mem_append.mp member with old | new
      · exact ih old
      · obtain rfl := List.mem_singleton.mp new
        exact ⟨e, known, .refl e⟩
    -- The quorum is kept as well, so the next block meets the same rule.
    obtain ⟨e', found, step⟩ := connectBlock_capKeeps connected there (kept.quorum.trans unvoted)
    exact ⟨e', found, kept.trans step⟩

/-- Along an accepted chain an asset with a cap and no quorum keeps its cap to the unit, and units
within it stay within it. -/
theorem issuanceCap_frozen (chain : ConnectChain env base start steps view) {s : ChainStep}
    (member : s ∈ steps) (known : s.view.policies.get? id = some e)
    (capped : e.issuance_cap_units ≠ 0) (unvoted : e.policy_quorum_bps = 0) :
    ∃ e', view.policies.get? id = some e' ∧ e'.issuance_cap_units = e.issuance_cap_units ∧
      (e.issued_total ≤ e.issuance_cap_units → e'.issued_total ≤ e'.issuance_cap_units) := by
  obtain ⟨e', found, kept⟩ := chain.capKeeps member known unvoted
  exact ⟨e', found, kept.cap, kept.issued capped⟩

end Chain

namespace RegChain

theorem CapDay.chain {base registered issued voted renewed : Node} (day : CapDay base registered issued voted renewed) :
    ∃ steps, ConnectChain env.toChainEnv 1 { bestBlock := genesis.getHash crypto }
        (steps ++ [issued.step capVote]) voted.state.coinsTip ∧
      ConnectChain env.toChainEnv 1 { bestBlock := genesis.getHash crypto }
        (steps ++ [issued.step capVote] ++ [voted.step capRenewal]) renewed.state.coinsTip := by
  obtain ⟨steps, _, height, chain⟩ := base.connectChain
  obtain ⟨height, chain⟩ := day.registers.step height chain
  obtain ⟨height, chain⟩ := day.issues.step height chain
  obtain ⟨height, chain⟩ := day.votes.step height chain
  exact ⟨_, chain, (day.renews.step height chain).2⟩

theorem Node.cap_eq_some {node : Node} {cap issued : UInt64} {quorum : UInt16}
    (evaluated : node.cap = some (cap, issued, quorum)) :
    ∃ e, node.state.coinsTip.policies.get? 7 = some e ∧ e.issuance_cap_units = cap ∧
      e.issued_total = issued ∧ e.policy_quorum_bps = quorum := by
  obtain ⟨e, known, terms⟩ := Option.map_eq_some_iff.mp evaluated
  simp only [capTerms, Prod.mk.injEq] at terms
  exact ⟨e, known, terms⟩

end RegChain

open RegChain in
/-- After the vote there is no quorum any more, and the renewal repeats the cap. -/
theorem issuanceCap_frozen_after_vote : ∃ (voted renewed : Node) (steps : List ChainStep)
    (e e' : AssetRegistryEntry), ConnectChain env.toChainEnv 1 { bestBlock := genesis.getHash crypto }
        (steps ++ [voted.step capRenewal]) renewed.state.coinsTip ∧
      voted.state.coinsTip.policies.get? 7 = some e ∧ e.issuance_cap_units = 50 ∧
      renewed.state.coinsTip.policies.get? 7 = some e' ∧ e'.issuance_cap_units = 50 := by
  obtain ⟨base, _, ⟨registered, issued, voted, renewed, day⟩, _⟩ := laterDays_exist
  obtain ⟨steps, _, chain⟩ := day.chain
  obtain ⟨e, known, cap, _, quorum⟩ := Node.cap_eq_some day.voted_cap
  obtain ⟨e', found, same, _⟩ := issuanceCap_frozen chain
    (s := voted.step capRenewal) (by simp) known (by rw [cap]; decide) quorum
  exact ⟨voted, renewed, _, e, e', chain, known, cap, found, same.trans cap⟩

open RegChain in
/-- With a quorum the holders lower the cap from a thousand to fifty when a hundred units are
issued. -/
theorem issuanceCap_lowered : ∃ (issued voted : Node) (steps : List ChainStep) (e e' : AssetRegistryEntry),
    ConnectChain env.toChainEnv 1 { bestBlock := genesis.getHash crypto }
        (steps ++ [issued.step capVote]) voted.state.coinsTip ∧
      issued.state.coinsTip.policies.get? 7 = some e ∧ e.issuance_cap_units = 1000 ∧
      e.issued_total = 100 ∧ voted.state.coinsTip.policies.get? 7 = some e' ∧
      e'.issuance_cap_units = 50 ∧ e'.issued_total = 100 := by
  obtain ⟨base, _, ⟨registered, issued, voted, renewed, day⟩, _⟩ := laterDays_exist
  obtain ⟨steps, chain, _⟩ := day.chain
  obtain ⟨e, known, cap, units, _⟩ := Node.cap_eq_some day.issued_cap
  obtain ⟨e', found, cap', units', _⟩ := Node.cap_eq_some day.voted_cap
  exact ⟨issued, voted, steps, e, e', chain, known, cap, units, found, cap', units'⟩

end TensorCash
