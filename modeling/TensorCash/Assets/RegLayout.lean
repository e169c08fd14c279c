import TensorCash.Assets.Readers

/-! `ParseIssuerRegV1` of `assets/asset_parser_v1.cpp` reads a registration from a string that it
determines. -/

namespace TensorCash

open Codec

def IssuerReg.fields (reg : IssuerReg) : List Bytes :=
  [reg.asset_id.bytes, serUInt32 reg.policy_bits, leBytes 2 reg.allowed_spk_families.toNat, [reg.format_version],
    [UInt8.ofNat reg.ticker.length], reg.ticker, [reg.decimals], serUInt64 reg.unlock_fees_sats,
    serUInt32 reg.kyc_flags, reg.zk_vk_commitment.bytes, serUInt32 reg.max_root_age, serUInt32 reg.tfr_flags,
    reg.compliance_root_commit.bytes, serUInt32 reg.icu_flags, serUInt64 reg.issuance_cap_units,
    reg.icu_ctxt_commit.bytes, reg.icu_plain_commit.bytes, reg.kdf_salt, [reg.icu_version], [reg.icu_visibility],
    reg.core_policy_commit.bytes, [reg.policy_epoch], leBytes 2 reg.policy_quorum_bps.toNat,
    if reg.format_version = ISSUER_REG_FORMAT_V2 then reg.compliance_delegate_asset_id.bytes else []]

/-- How long the fields are, when the ticker and the delegate are. -/
def IssuerReg.widths (ticker delegate : Nat) : List Nat :=
  [32, 4, 2, 1, 1, ticker, 1, 8, 4, 32, 4, 4, 32, 4, 8, 32, 32, 16, 1, 1, 32, 1, 2, delegate]

def IssuerReg.delegateWidth (reg : IssuerReg) : Nat :=
  if reg.format_version = ISSUER_REG_FORMAT_V2 then 32 else 0

theorem IssuerReg.sum_widths (ticker delegate : Nat) :
    ((IssuerReg.widths ticker delegate).drop 5).sum = 214 + ticker + delegate := by
  simp only [IssuerReg.widths, List.drop_succ_cons, List.drop_zero, List.sum_cons, List.sum_nil]
  omega

variable {v : Bytes} {reg : IssuerReg}

theorem fields_of_parse (accepted : parseIssuerRegV1 v = some reg) :
    v = reg.fields.flatten ∧ reg.ticker.length ≤ 23 ∧ reg.kdf_salt.length = 16 := by
  unfold parseIssuerRegV1 at accepted
  -- Every read gives back the bytes it took, which rebuilds the string from its front.
  obtain ⟨_, r0⟩ := refuse_bind.mp accepted
  obtain ⟨asset_id, _, rfl, r1⟩ := hash_take.mp r0
  obtain ⟨policy_bits, _, rfl, r2⟩ := uint32_take.mp r1
  obtain ⟨families, _, rfl, r3⟩ := uint16_take.mp r2
  obtain ⟨format_version, _, rfl, r4⟩ := byte_take.mp r3
  obtain ⟨_, r5⟩ := refuse_bind.mp r4
  obtain ⟨ticker_len, _, rfl, r6⟩ := byte_take.mp r5
  obtain ⟨short, r7⟩ := refuse_bind.mp r6
  obtain ⟨ticker, _, rfl, size, r8⟩ := takeBytes_bind.mp r7
  obtain ⟨_, r9⟩ := refuse_bind.mp r8
  obtain ⟨decimals, _, rfl, r10⟩ := byte_take.mp r9
  obtain ⟨_, r11⟩ := refuse_bind.mp r10
  obtain ⟨unlock_fees, _, rfl, r12⟩ := uint64_take.mp r11
  obtain ⟨_, r13⟩ := refuse_bind.mp r12
  obtain ⟨kyc_flags, _, rfl, r14⟩ := uint32_take.mp r13
  obtain ⟨vk, _, rfl, r15⟩ := hash_take.mp r14
  obtain ⟨max_root_age, _, rfl, r16⟩ := uint32_take.mp r15
  obtain ⟨tfr_flags, _, rfl, r17⟩ := uint32_take.mp r16
  obtain ⟨root, _, rfl, r18⟩ := hash_take.mp r17
  obtain ⟨icu_flags, _, rfl, r19⟩ := uint32_take.mp r18
  obtain ⟨cap, _, rfl, r20⟩ := uint64_take.mp r19
  obtain ⟨ctxt, _, rfl, r21⟩ := hash_take.mp r20
  obtain ⟨plain, _, rfl, r22⟩ := hash_take.mp r21
  obtain ⟨kdf_salt, _, rfl, salt, r23⟩ := takeBytes_bind.mp r22
  obtain ⟨icu_version, _, rfl, r24⟩ := byte_take.mp r23
  obtain ⟨_, r25⟩ := refuse_bind.mp r24
  obtain ⟨visibility, _, rfl, r26⟩ := byte_take.mp r25
  obtain ⟨_, r27⟩ := refuse_bind.mp r26
  obtain ⟨core, _, rfl, r28⟩ := hash_take.mp r27
  obtain ⟨epoch, _, rfl, r29⟩ := byte_take.mp r28
  obtain ⟨quorum, w, rfl, r30⟩ := uint16_take.mp r29
  obtain ⟨_, r31⟩ := refuse_bind.mp r30
  obtain ⟨⟨delegate, p⟩, chosen, r32⟩ := choice_bind.mp r31
  obtain ⟨_, r33⟩ := refuse_bind.mp r32
  obtain ⟨used, r34⟩ := refuse_bind.mp r33
  obtain rfl := not_not.mp used
  cases r34
  have last : w = if format_version = ISSUER_REG_FORMAT_V2 then delegate.bytes else [] := by
    split_ifs at chosen ⊢
    · rw [takeUint256_eq_some.mp chosen, List.append_nil]
    · exact (Prod.mk.inj (Option.some.inj chosen)).2
  have length_byte : UInt8.ofNat ticker.length = ticker_len := by rw [size, UInt8.ofNat_toNat]
  refine ⟨?_, ?_, salt⟩
  · simp only [IssuerReg.fields, List.flatten_cons, List.flatten_nil, List.append_nil, length_byte, last]
  · have := UInt8.le_iff_toNat_le.mp (UInt8.not_lt.mp short)
    show ticker.length ≤ 23
    rw [size]
    exact this

/-- The fields take the whole string, each its own part of it. -/
theorem widths_of_parse (accepted : parseIssuerRegV1 v = some reg) :
    reg.fields.map List.length = IssuerReg.widths reg.ticker.length reg.delegateWidth := by
  obtain ⟨_, _, salt⟩ := fields_of_parse accepted
  have delegate : (if reg.format_version = ISSUER_REG_FORMAT_V2 then reg.compliance_delegate_asset_id.bytes
      else []).length = reg.delegateWidth := by
    unfold IssuerReg.delegateWidth
    split_ifs
    · exact Uint256.bytes_length _
    · rfl
  simp [IssuerReg.fields, IssuerReg.widths, delegate, salt, serUInt32, serUInt64]

/-- The format and the length of the ticker stand at fixed places and say how long the string is. -/
theorem frame_of_parse (accepted : parseIssuerRegV1 v = some reg) :
    ∃ before behind, v = before ++ reg.format_version :: UInt8.ofNat reg.ticker.length :: behind ∧
      before.length = 38 ∧ behind.length = 214 + reg.ticker.length + reg.delegateWidth := by
  obtain ⟨whole, _⟩ := fields_of_parse accepted
  have widths := widths_of_parse accepted
  refine ⟨(reg.fields.take 3).flatten, (reg.fields.drop 5).flatten, whole.trans rfl, ?_, ?_⟩
  · rw [List.length_flatten, List.map_take, widths]
    rfl
  · rw [List.length_flatten, List.map_drop, widths, IssuerReg.sum_widths]

/-- Of two accepted strings neither goes on behind the other. -/
theorem eq_of_parse_append {more : Bytes} {reg' : IssuerReg} (accepted : parseIssuerRegV1 v = some reg)
    (accepted' : parseIssuerRegV1 (v ++ more) = some reg') : more = [] := by
  obtain ⟨before, behind, rfl, size, long⟩ := frame_of_parse accepted
  obtain ⟨before', behind', whole, size', long'⟩ := frame_of_parse accepted'
  rw [List.append_assoc, List.cons_append, List.cons_append] at whole
  obtain ⟨_, tails⟩ := List.append_inj whole (size.trans size'.symm)
  obtain ⟨format, tails⟩ := List.cons.inj tails
  obtain ⟨ticker, tails⟩ := List.cons.inj tails
  have ticker_length : reg.ticker.length = reg'.ticker.length := by
    have := (fields_of_parse accepted).2.1
    have := (fields_of_parse accepted').2.1
    rw [← UInt8.toNat_inj, UInt8.toNat_ofNat', UInt8.toNat_ofNat'] at ticker
    omega
  have delegate : reg.delegateWidth = reg'.delegateWidth := by rw [IssuerReg.delegateWidth, format]; rfl
  have := congrArg List.length tails
  rw [List.length_append] at this
  exact List.eq_nil_of_length_eq_zero (by omega)

/-- An accepted string is its registration, field by field, and no prefix or extension of it is
accepted. -/
theorem parseIssuerRegV1_exact (v : Bytes) (reg : IssuerReg)
    (accepted : parseIssuerRegV1 v = some reg) :
    v = reg.fields.flatten ∧
    reg.fields.map List.length = IssuerReg.widths reg.ticker.length reg.delegateWidth ∧
    (∀ w, parseIssuerRegV1 w = some reg → w = v) ∧
    ∀ w, w ≠ v → w <+: v ∨ v <+: w → parseIssuerRegV1 w = none := by
  have whole := (fields_of_parse accepted).1
  refine ⟨whole, widths_of_parse accepted, fun w same => ?_, fun w other overlap => ?_⟩
  · rw [whole, (fields_of_parse same).1]
  · by_contra read
    obtain ⟨reg', accepted'⟩ := Option.ne_none_iff_exists'.mp read
    rcases overlap with ⟨more, rfl⟩ | ⟨more, rfl⟩
    · rw [eq_of_parse_append accepted' accepted, List.append_nil] at other
      exact other rfl
    · rw [eq_of_parse_append accepted accepted', List.append_nil] at other
      exact other rfl

/-- Asset 7 under the ticker ABC. -/
def namedReg : Bytes :=
  Uint256.bytes 7 ++ List.replicate 6 0 ++ [ISSUER_REG_FORMAT_V1, 3, 65, 66, 67] ++ List.replicate 214 0

theorem parseIssuerRegV1_exact_named : parseIssuerRegV1 (namedReg ++ [0]) = none := by
  have accepted : (parseIssuerRegV1 namedReg).isSome := by decide +kernel
  obtain ⟨reg, accepted⟩ := Option.isSome_iff_exists.mp accepted
  refine (parseIssuerRegV1_exact _ reg accepted).2.2.2 _ (fun same => ?_) (.inr ⟨[0], rfl⟩)
  simpa using congrArg List.length same

end TensorCash
