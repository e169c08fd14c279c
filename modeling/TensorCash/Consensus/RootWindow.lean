import TensorCash.Consensus.TxInputs

/-! A root is admitted when it is active, or in the history and within `max_root_age`, an unsigned
number compared as a signed one. -/

namespace TensorCash

open Checked

variable {root_elem : Bytes} {policy : EffectiveKycPolicy} {nSpendHeight : Nat} {age : UInt32}

def admitRoot (id : Uint256) (B : AssetRegistryEntry) (source : Option AssetRegistryEntry)
    (nSpendHeight : Nat) (root_elem : Bytes) : Except String Uint256 := do
  let policy ← resolveEffectiveKycPolicy id B source
  rootStep policy nSpendHeight root_elem

/-- A window that is left alone, or one that is set and made larger. -/
def Wider (age age' : UInt32) : Prop := age = age' ∨ age ≠ 0 ∧ age ≤ age'

/-- Below its sign bit a window keeps its order as a signed number. -/
theorem castInt_mono {age' : UInt32} (le : age ≤ age') (small : age'.toNat < 2 ^ 31) :
    castInt age ≤ castInt age' := by
  have order : age.toNat ≤ age'.toNat := UInt32.le_iff_toNat_le.mp le
  have cast : ∀ x : UInt32, x.toNat < 2 ^ 31 → castInt x = x.toNat := by
    intro x below
    unfold castInt
    rw [BitVec.toInt_eq_toNat_of_lt (by rw [UInt32.toNat_toBitVec]; omega), UInt32.toNat_toBitVec]
  rw [cast age (by omega), cast age' small]
  exact_mod_cast order

/-- From its sign bit on a window is negative. -/
theorem castInt_of_large (large : 2 ^ 31 ≤ age.toNat) : castInt age = (age.toNat : Int) - 2 ^ 32 := by
  unfold castInt
  rw [BitVec.toInt_eq_toNat_cond, UInt32.toNat_toBitVec, if_neg (by omega)]
  norm_num

theorem Wider.effectiveMaxRootAge {source source' follower follower' : UInt32}
    (sources : Wider source source') (followers : Wider follower follower') :
    Wider (effectiveMaxRootAge source follower) (TensorCash.effectiveMaxRootAge source' follower') := by
  unfold TensorCash.effectiveMaxRootAge Wider
  unfold Wider at sources followers
  simp only [UInt32.le_iff_toNat_le, ne_eq, ← UInt32.toNat_inj] at *
  have mins : ∀ x y : UInt32, (min x y).toNat = min x.toNat y.toNat := by
    intro x y
    rw [UInt32.toNat_min]
  have zero : (0 : UInt32).toNat = 0 := rfl
  -- An unset window counts for nothing, so that the cases are those of two minima.
  split_ifs <;> simp only [mins, zero] at * <;> omega

theorem matchRoot_wider (wider : castInt policy.max_root_age ≤ castInt age)
    (found : (matchRoot policy nSpendHeight root_elem).isSome) :
    (matchRoot { policy with max_root_age := age } nSpendHeight root_elem).isSome := by
  unfold matchRoot at found ⊢
  dsimp only at found ⊢
  split_ifs at found ⊢ with active
  · rfl
  -- The same record is young enough, though an older one may now be found first.
  · rw [Option.isSome_map, List.find?_isSome] at found ⊢
    obtain ⟨⟨hist, i⟩, member, fits⟩ := found
    refine ⟨(hist, i), member, ?_⟩
    simp only [Bool.and_eq_true, decide_eq_true_eq] at fits ⊢
    exact ⟨fits.1, by omega⟩

theorem rootStep_eq_ok {vk : Uint256} : rootStep policy nSpendHeight root_elem = .ok vk ↔
      ¬ (policy.delegated ∧ 0 < policy.max_root_age ∧ 0 < policy.active_root_activation_height ∧
        castInt policy.max_root_age < (nSpendHeight : Int) - policy.active_root_activation_height) ∧
        matchRoot policy nSpendHeight root_elem = some vk := by
  unfold rootStep
  rw [require_bind_eq_ok, demand_eq_ok]

theorem rootStep_wider {vk : Uint256} (wider : Wider policy.max_root_age age) (small : age.toNat < 2 ^ 31)
    (admitted : rootStep policy nSpendHeight root_elem = .ok vk) :
    ∃ vk', rootStep { policy with max_root_age := age } nSpendHeight root_elem = .ok vk' := by
  rcases wider with rfl | ⟨set, le⟩
  · exact ⟨vk, admitted⟩
  · obtain ⟨alive, found⟩ := rootStep_eq_ok.mp admitted
    have order := castInt_mono le small
    obtain ⟨vk', found'⟩ := Option.isSome_iff_exists.mp
      (matchRoot_wider order (Option.isSome_of_mem found))
    refine ⟨vk', rootStep_eq_ok.mpr ⟨fun stale => alive ?_, found'⟩⟩
    -- A window that was set before had a heartbeat to meet, too.
    obtain ⟨delegated, _, active, old⟩ := stale
    exact ⟨delegated, UInt32.pos_iff_ne_zero.mpr set, active, by dsimp only at old; omega⟩

/-- No heartbeat of a source holds the follower back: there is none, or the window is above `2 ^ 32`
less the age of the source's active root. -/
def Unfrozen (policy : EffectiveKycPolicy) (nSpendHeight : Nat) : Prop :=
  policy.delegated = true → policy.active_root_activation_height = 0 ∨
    nSpendHeight + 2 ^ 32 ≤ policy.max_root_age.toNat + policy.active_root_activation_height

/-- A window with the sign bit admits the active root only, and that if nothing is frozen. -/
theorem rootStep_of_large (large : 2 ^ 31 ≤ policy.max_root_age.toNat) :
    (∃ vk, rootStep policy nSpendHeight root_elem = .ok vk) ↔
      root_elem = uint256ToBytesBE policy.compliance_root_commit ∧ Unfrozen policy nSpendHeight := by
  have negative := castInt_of_large large
  have below := policy.max_root_age.toNat_lt
  have set : 0 < policy.max_root_age := UInt32.lt_iff_toNat_lt.mpr (by simp; omega)
  constructor
  · rintro ⟨vk, admitted⟩
    obtain ⟨alive, found⟩ := rootStep_eq_ok.mp admitted
    refine ⟨?_, fun delegated => ?_⟩
    · -- No age is below a negative number.
      by_contra other
      rw [matchRoot, if_neg other] at found
      obtain ⟨⟨hist, i⟩, here, _⟩ := Option.map_eq_some_iff.mp found
      have fits := List.find?_some here
      simp only [Bool.and_eq_true, decide_eq_true_eq] at fits
      omega
    · by_contra frozen
      obtain ⟨active, short⟩ := not_or.mp frozen
      exact alive ⟨delegated, set, by omega, by omega⟩
  · rintro ⟨active, unfrozen⟩
    refine ⟨policy.vk_commitment, rootStep_eq_ok.mpr ⟨fun stale => ?_, if_pos active⟩⟩
    obtain ⟨delegated, _, height, old⟩ := stale
    rcases unfrozen delegated with none_ | room
    · omega
    · omega

theorem resolveEffectiveKycPolicy_wider {id : Uint256} {B : AssetRegistryEntry}
    {source : Option AssetRegistryEntry} {own followed : UInt32} (wider : Wider B.max_root_age own)
    (sources : ∀ s, source = some s → Wider s.max_root_age followed)
    (resolved : resolveEffectiveKycPolicy id B source = .ok policy) : ∃ age, Wider policy.max_root_age age ∧
      resolveEffectiveKycPolicy id { B with max_root_age := own }
        (source.map fun s => { s with max_root_age := followed }) = .ok { policy with max_root_age := age } := by
  unfold resolveEffectiveKycPolicy at resolved ⊢
  dsimp only at resolved ⊢
  by_cases self : B.compliance_delegate_asset_id = 0
  -- An asset of its own has its own window.
  · rw [if_pos self] at resolved ⊢
    cases resolved
    exact ⟨own, wider, rfl⟩
  · rw [if_neg self] at resolved ⊢
    split_ifs at resolved ⊢
    cases source with
    | none => cases resolved
    | some s =>
      dsimp only [Option.map_some] at resolved ⊢
      split_ifs at resolved ⊢
      cases resolved
      exact ⟨_, (sources s rfl).effectiveMaxRootAge wider, rfl⟩

/-- **A root that is admitted is admitted under a larger window** exactly when that window is below
`2 ^ 31`, or the root is the active one and no heartbeat is in force; and a self-governed asset
admits its active root under every window. -/
theorem rootAge_monotone_iff (id : Uint256) (B : AssetRegistryEntry) (source : Option AssetRegistryEntry)
    (nSpendHeight : Nat) :
    (∀ (own followed : UInt32) (root_elem : Bytes) (vk : Uint256), Wider B.max_root_age own →
      (∀ s, source = some s → Wider s.max_root_age followed) →
      admitRoot id B source nSpendHeight root_elem = .ok vk →
      ((∃ vk', admitRoot id { B with max_root_age := own }
          (source.map fun s => { s with max_root_age := followed }) nSpendHeight root_elem = .ok vk') ↔
        ∀ policy, resolveEffectiveKycPolicy id { B with max_root_age := own }
            (source.map fun s => { s with max_root_age := followed }) = .ok policy →
          policy.max_root_age.toNat < 2 ^ 31 ∨
            root_elem = uint256ToBytesBE policy.compliance_root_commit ∧ Unfrozen policy nSpendHeight)) ∧
    (B.compliance_delegate_asset_id = 0 → ∀ own : UInt32,
      admitRoot id { B with max_root_age := own } source nSpendHeight
        (uint256ToBytesBE B.compliance_root_commit) = .ok B.zk_vk_commitment) := by
  refine ⟨fun own followed root_elem vk wider sources admitted => ?_, fun self own => ?_⟩
  · obtain ⟨policy, resolved, admitted⟩ := bind_eq_ok.mp admitted
    obtain ⟨age, ages, again⟩ := resolveEffectiveKycPolicy_wider wider sources resolved
    simp only [again, Except.ok.injEq, forall_eq']
    have widened : (∃ vk', admitRoot id { B with max_root_age := own }
        (source.map fun s => { s with max_root_age := followed }) nSpendHeight root_elem = .ok vk') ↔
        ∃ vk', rootStep { policy with max_root_age := age } nSpendHeight root_elem = .ok vk' := by
      simp only [admitRoot, again]
      rfl
    rw [widened]
    by_cases small : age.toNat < 2 ^ 31
    · exact iff_of_true (rootStep_wider ages small admitted) (.inl small)
    · rw [rootStep_of_large (by simpa using small)]
      exact (or_iff_right small).symm
  · refine bind_eq_ok.mpr ⟨_, if_pos self, rootStep_eq_ok.mpr ⟨by simp, ?_⟩⟩
    simp [matchRoot]

def agedEntry (max_root_age : UInt32) : AssetRegistryEntry :=
  { has_kyc := true, zk_vk_commitment := 5, max_root_age, compliance_root_commit := 2
    compliance_root_history := [⟨1, 95, 0⟩, ⟨2, 97, 0⟩], compliance_root_history_vk := [4, 5]
    active_root_activation_height := 97 }

/-- A root of age five is admitted within ten blocks, so it is within twenty. -/
theorem rootAge_monotone_to_twenty : admitRoot 7 (agedEntry 10) none 100 (uint256ToBytesBE 1) = .ok 4 ∧
      ∃ vk, admitRoot 7 (agedEntry 20) none 100 (uint256ToBytesBE 1) = .ok vk := by
  have admitted : admitRoot 7 (agedEntry 10) none 100 (uint256ToBytesBE 1) = .ok 4 := by decide
  refine ⟨admitted, ((rootAge_monotone_iff 7 (agedEntry 10) none 100).1 20 0 _ 4 ?_ ?_ admitted).mpr ?_⟩
  · exact .inr (by decide)
  · simp
  · intro policy resolved
    cases resolved
    exact .inl (by decide)

def admitFollowed (max_root_age : UInt32) : Except String Uint256 :=
  admitRoot 8 { has_kyc := true, compliance_delegate_asset_id := 7 }
    (some { agedEntry max_root_age with
      zk_vk_commitment := 0xd818e84e52a863309dd9e2ba5240924fcafd585b7e21d12b0c2e5631a013e245 })
    100 (uint256ToBytesBE 2)

/-- The same root is refused when the window is widened to `2 ^ 31`, a negative number to the
comparison, which makes even an active root stale for a follower. -/
theorem rootAge_not_monotone : admitRoot 7 (agedEntry 10) none 100 (uint256ToBytesBE 1) = .ok 4 ∧
      admitRoot 7 (agedEntry (2 ^ 31)) none 100 (uint256ToBytesBE 1) = .error "zk-root-mismatch" ∧
      (∃ vk, admitFollowed 10 = .ok vk) ∧ admitFollowed (2 ^ 31) = .error "kyc-delegate-source-stale" := by
  refine ⟨by decide, by decide, ⟨_, rfl⟩, by decide⟩

end TensorCash
