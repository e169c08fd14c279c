import TensorCash.Validation.RegChain

/-! Votes and threshold are counted in 64 bits; here both are compared with the exact numbers. -/

namespace TensorCash

open Checked

def ballotAmounts (tx : CTransaction) (coins : List Coin) (id : Uint256) : List UInt64 :=
  (coins.zip tx.vout).filterMap fun (coin, out) =>
    match parseAssetTag coin.out.vExt, parseAssetTag out.vExt with
    | some tag_in, some tag_out =>
      if tag_in.id = id ∧ tag_out.id = id ∧ tag_in.amount = tag_out.amount then
        some tag_in.amount
      else none
    | _, _ => none

def ballots (tx : CTransaction) (coins : List Coin) (id : Uint256) : Nat :=
  ((ballotAmounts tx coins id).map UInt64.toNat).sum

def quorumThreshold (e : AssetRegistryEntry) : Int :=
  e.policy_quorum_bps.toNat * ((e.issued_total.toNat : Int) - e.burned_total.toNat)

theorem toNat_sum_le (amounts : List UInt64) : amounts.sum.toNat ≤ (amounts.map UInt64.toNat).sum := by
  induction amounts with
  | nil => simp
  | cons first rest ih =>
    rw [List.sum_cons, List.map_cons, List.sum_cons, UInt64.toNat_add]
    exact (Nat.mod_le _ _).trans (Nat.add_le_add_left ih _)

theorem ballotUnits_le_ballots (tx : CTransaction) (coins : List Coin) (id : Uint256) :
    (ballotUnits tx coins id).toNat ≤ ballots tx coins id := toNat_sum_le (ballotAmounts tx coins id)

theorem requiredUnits_toNat {e : AssetRegistryEntry} (solvent : e.burned_total ≤ e.issued_total) :
    ((requiredUnits e).toNat : Int) = (quorumThreshold e + 9999) % 2 ^ 64 / 10000 := by
  have supply : (e.issued_total - e.burned_total).toNat =
      e.issued_total.toNat - e.burned_total.toNat := UInt64.toNat_sub_of_le _ _ solvent
  have bps : e.policy_quorum_bps.toUInt64.toNat = e.policy_quorum_bps.toNat := by simp
  have order : e.burned_total.toNat ≤ e.issued_total.toNat := UInt64.le_iff_toNat_le.mp solvent
  unfold requiredUnits quorumThreshold
  rw [UInt64.toNat_div, UInt64.toNat_add, UInt64.toNat_mul, supply, bps]
  push_cast [order]
  simp [Int.add_emod]

theorem requiredUnits_sound_iff (e : AssetRegistryEntry) :
    (∀ votes : UInt64, requiredUnits e ≤ votes → quorumThreshold e ≤ 10000 * votes.toNat) ↔
      quorumThreshold e + 9999 < 2 ^ 64 := by
  by_cases solvent : e.burned_total ≤ e.issued_total
  · have required := requiredUnits_toNat solvent
    have order : e.burned_total.toNat ≤ e.issued_total.toNat := UInt64.le_iff_toNat_le.mp solvent
    have positive : 0 ≤ quorumThreshold e := by
      unfold quorumThreshold
      exact Int.mul_nonneg (by omega) (by omega)
    constructor
    · -- The code's own threshold is a number of votes that it is content with.
      intro sound
      have own := sound (requiredUnits e) (UInt64.le_refl _)
      omega
    · intro fits votes enough
      have count : (requiredUnits e).toNat ≤ votes.toNat := UInt64.le_iff_toNat_le.mp enough
      omega
  · -- With more burned than issued the exact threshold is not positive.
    have order : e.issued_total.toNat < e.burned_total.toNat := by
      rw [UInt64.le_iff_toNat_le] at solvent
      omega
    have negative : quorumThreshold e ≤ 0 := by
      unfold quorumThreshold
      exact Int.mul_nonpos_of_nonneg_of_nonpos (by omega) (by omega)
    exact ⟨fun _ => by omega, fun _ votes _ => by omega⟩

theorem eq_zero_of_ofInt64_eq_zero {d : Int} (zero : Int64.ofInt d = 0) (small : |d| < 2 ^ 64) : d = 0 := by
  have wrapped : d.bmod (2 ^ 64) = 0 := by
    have := congrArg Int64.toInt zero
    simpa [Int64.toInt_ofInt] using this
  have bounds := abs_lt.mp small
  have divides : (2 ^ 64 : Int) ∣ d := by
    have := Int.dvd_of_bmod_eq_zero wrapped
    exact_mod_cast this
  obtain ⟨k, rfl⟩ := divides
  omega

theorem checkRegUpdate_governed {ctx : BlockContext} {tx : CTransaction} {coins : List Coin}
    {id : Uint256} {prev : AssetRegistryEntry} {reg : IssuerReg}
    (changed : governanceChanged prev reg = true)
    (checked : checkRegUpdate ctx tx coins id prev reg = .ok ⟨⟩) :
    Int64.ofInt (assetDelta (coins.map Coin.out) tx.vout id) = 0 ∧
    requiredUnits prev ≤ ballotUnits tx coins id := by
  unfold checkRegUpdate at checked
  rw [if_pos changed] at checked
  simp only [bind_eq_ok, require_eq_ok] at checked
  obtain ⟨_, _, _, _, _, _, _, still, _, _, enough⟩ := checked
  exact ⟨still, enough⟩

/-- An accepted rotation that changes the text, the visibility, the quorum or the cap of a
registered asset has the exact quorum behind it and leaves the units alone, as long as threshold and
change fit 64 bits. A threshold that does not fit is met by too few votes. -/
theorem rotation_has_quorum {ctx : BlockContext} {db : ModelDb} {view next : CCoinsView}
    {block : CBlock} {undo : CBlockUndo} {tx : CTransaction} {coins : List Coin}
    {p : PendingIssuerReg} {prev : AssetRegistryEntry} (above : ctx.blockHash ≠ ctx.env.params.hashGenesisBlock)
    (connected : connectBlock ctx db view block = .ok (next, undo))
    (member : (tx, coins) ∈ blockSpends ctx.env.crypto ctx.nHeight view.coins block.vtx)
    (listed : p ∈ pendingRegs tx) (known : view.policies.get? p.reg.asset_id = some prev)
    (changed : governanceChanged prev p.reg = true) : (quorumThreshold prev + 9999 < 2 ^ 64 →
      |assetDelta (coins.map Coin.out) tx.vout p.reg.asset_id| < 2 ^ 64 →
        quorumThreshold prev ≤ 10000 * ballots tx coins p.reg.asset_id ∧
          unitsOf p.reg.asset_id (tagsOf tx.vout) = unitsOf p.reg.asset_id (tagsOf (coins.map Coin.out))) ∧
      ((∀ votes : UInt64, requiredUnits prev ≤ votes →
        quorumThreshold prev ≤ 10000 * votes.toNat) ↔ quorumThreshold prev + 9999 < 2 ^ 64) := by
  refine ⟨fun fits small => ?_, requiredUnits_sound_iff prev⟩
  obtain ⟨new, accepted, _⟩ := connectBlock_registers above connected member listed
  -- The fees of the block are credited before; the governed terms and the totals are as they were.
  have history := accepted.history
  rw [known] at history
  have update : checkRegUpdate ctx tx coins p.reg.asset_id
      (prev.credit undo.fee_undo p.reg.asset_id) p.reg = .ok ⟨⟩ := history
  obtain ⟨still, enough⟩ := checkRegUpdate_governed changed update
  have votes : quorumThreshold prev ≤ 10000 * (ballotUnits tx coins p.reg.asset_id).toNat :=
    (requiredUnits_sound_iff prev).mpr fits _ enough
  have counted := ballotUnits_le_ballots tx coins p.reg.asset_id
  have delta := eq_zero_of_ofInt64_eq_zero still small
  unfold assetDelta at delta
  exact ⟨by omega, by omega⟩

theorem ballots_eq_of_outs (tx : CTransaction) {coins : List Coin} {outs : List CTxOut}
    (same : coins.map Coin.out = outs) (id : Uint256) :
    ballots tx coins id = ballots tx (outs.map fun out => ⟨out, 0, false⟩) id := by
  subst same
  unfold ballots ballotAmounts
  congr 2
  rw [List.map_map, List.zip_map_left, List.filterMap_map]
  rfl

open RegChain in
/-- Every holder votes for the end of the quorum, and the rotation has the exact quorum. -/
theorem rotation_has_quorum_for_vote :
    ∃ (renewed voted : Node) (found : List Coin) (p : PendingIssuerReg) (prev : AssetRegistryEntry),
      renewed.Takes vote [credential firstReg, units 100] voted ∧
      (vote, found) ∈ renewed.spends vote ∧ p ∈ pendingRegs vote ∧ p.reg = reversedReg ∧
      renewed.state.coinsTip.policies.get? 7 = some prev ∧
      governanceChanged prev reversedReg = true ∧ quorumThreshold prev = 10000 * 100 ∧
      quorumThreshold prev ≤ 10000 * ballots vote found 7 := by
  obtain ⟨base, registered, ⟨renewed, voted, day⟩, _⟩ := assetDays_exist
  obtain ⟨above, undo, connected⟩ := day.votes.connected
  obtain ⟨found, member, outs⟩ := day.votes.spends
  obtain ⟨e, known, terms, _⟩ := Node.holds_eq_true day.renewed_terms
  obtain ⟨p, listed, registers⟩ : ∃ p ∈ pendingRegs vote, p.reg = reversedReg := by
    rw [← List.mem_map, pendingRegs_map_reg, regsOf_vote]
    exact List.mem_singleton.mpr rfl
  have own : p.reg.asset_id = 7 := by rw [registers]; rfl
  have quorum : e.policy_quorum_bps = 10000 := congrArg EntryTerms.policy_quorum_bps terms
  have issued : e.issued_total = 100 := congrArg EntryTerms.issued_total terms
  have burned : e.burned_total = 0 := congrArg EntryTerms.burned_total terms
  have changed : governanceChanged e reversedReg = true := by
    simp [governanceChanged, quorum, reversedReg]
  have threshold : quorumThreshold e = 10000 * 100 := by
    simp [quorumThreshold, quorum, issued, burned]
  have still : assetDelta (found.map Coin.out) vote.vout 7 = 0 := by
    rw [outs]
    decide +kernel
  refine ⟨renewed, voted, found, p, e, day.votes, member, listed, registers, known, changed, threshold, ?_⟩
  have quorate := (rotation_has_quorum (by exact above) connected member listed (own ▸ known)
    (registers ▸ changed)).1 (by rw [threshold]; decide) (by rw [own, still, abs_zero]; decide)
  rw [own] at quorate
  exact quorate.1

open RegChain in
/-- With more units than the threshold has room for, the quorum falls without a vote: the product is
taken in 64 bits. -/
theorem rotation_without_votes : ∃ (issued reversed : Node) (found : List Coin)
    (p : PendingIssuerReg) (prev : AssetRegistryEntry), issued.Takes reversal [credential changedReg] reversed ∧
      (reversal, found) ∈ issued.spends reversal ∧ p ∈ pendingRegs reversal ∧ p.reg = reversedReg ∧
      issued.state.coinsTip.policies.get? 7 = some prev ∧ governanceChanged prev reversedReg = true ∧
      quorumThreshold prev = 10000 * 2 ^ 62 ∧ ballots reversal found 7 = 0 := by
  obtain ⟨base, registered, _, rotated, issued, reversed, day⟩ := assetDays_exist
  obtain ⟨found, member, outs⟩ := day.reverses.spends
  obtain ⟨e, known, terms, _⟩ := Node.holds_eq_true day.issued_terms
  obtain ⟨p, listed, registers⟩ : ∃ p ∈ pendingRegs reversal, p.reg = reversedReg := by
    rw [← List.mem_map, pendingRegs_map_reg, regsOf_reversal]
    exact List.mem_singleton.mpr rfl
  have quorum : e.policy_quorum_bps = 10000 := congrArg EntryTerms.policy_quorum_bps terms
  have supply : e.issued_total = 2 ^ 62 := congrArg EntryTerms.issued_total terms
  have burned : e.burned_total = 0 := congrArg EntryTerms.burned_total terms
  refine ⟨issued, reversed, found, p, e, day.reverses, member, listed, registers, known, ?_, ?_, ?_⟩
  · simp [governanceChanged, quorum, reversedReg]
  · rw [quorumThreshold, quorum, supply, burned]
    decide +kernel
  · rw [ballots_eq_of_outs reversal outs]
    decide +kernel

end TensorCash
