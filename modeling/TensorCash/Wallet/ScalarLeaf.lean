import TensorCash.Wallet.ScalarNotes

/-! The leaf of a scalar contract is one script for its terms, and the parser reads no other
script. -/

namespace TensorCash

open Codec ScalarNotes

namespace Settlement

/-- `ScalarCfdLeaf`; a height that is read is not negative. -/
structure ScalarCfdLeaf where
  contract_id : Uint256
  template_version : UInt8
  settle_lock_height : Nat
  source_type : UInt8
  underlying_asset_id : Uint256
  feed_id : UInt32
  fixing_ref : UInt64
  publication_deadline_height : UInt32
  payoff_mode : UInt8
  scalar_format_id : UInt16
  strike : Uint256
  fallback_scalar : Uint256
  lambda_q : UInt32
  loss_direction : UInt8
  collateral_asset_id : Uint256
  vault_im : UInt64
  owner_key : Bytes
  cp_key : Bytes
deriving DecidableEq

def SCALAR_CFD_TEMPLATE_VERSION_V1 : UInt8 := 0x01

def readExactPush (s : CScript) (len : Nat) : Option (Bytes × CScript) := do
  let (op, vch, s) ← getScriptOp s
  if op.toNat ≠ len then none
  if vch.length ≠ len then none
  some (vch, s)

def readBareOpcode (s : CScript) (expect : UInt8) : Option CScript := do
  let (op, vch, s) ← getScriptOp s
  if op = expect ∧ vch = [] then some s else none

def readCltvPush (s : CScript) : Option (Nat × CScript) := do
  let (op, vch, s) ← getScriptOp s
  if vch.length < 1 ∨ 5 < vch.length then none
  if op.toNat ≠ vch.length then none
  let v ← (scriptNum vch true 5).toOption
  if v < 0 then none
  some (v.toNat, s)

def readField {α : Type} (len : Nat) (take : Bytes → Option (α × Bytes)) (s : CScript) :
    Option (α × CScript) := do
  let (vch, s) ← readExactPush s len
  let (x, _) ← take vch
  some (x, s)

def parseScalarCfdLeaf (leaf : CScript) : Option ScalarCfdLeaf := do
  let (contract_id, s) ← readField 32 takeUint256 leaf
  let s ← readBareOpcode s OP_DROP
  let (template_version, s) ← readField 1 takeUInt8 s
  guard (template_version = SCALAR_CFD_TEMPLATE_VERSION_V1)
  let (settle_lock_height, s) ← readCltvPush s
  let s ← readBareOpcode s OP_CHECKLOCKTIMEVERIFY
  let s ← readBareOpcode s OP_DROP
  let (source_type, s) ← readField 1 takeUInt8 s
  guard (source_type = ISSUER_PUBLISHED ∨ source_type = CHAIN_INTRINSIC)
  let (underlying_asset_id, s) ← readField 32 takeUint256 s
  guard (source_type = CHAIN_INTRINSIC → underlying_asset_id = 0)
  let (feed_id, s) ← readField 4 takeUInt32 s
  let (fixing_ref, s) ← readField 8 takeUInt64 s
  let (publication_deadline_height, s) ← readField 4 takeUInt32 s
  let (payoff_mode, s) ← readField 1 takeUInt8 s
  guard (payoff_mode = PAYOFF_STRIKE ∨ payoff_mode = PAYOFF_REALIZED)
  let (scalar_format_id, s) ← readField 2 takeUInt16 s
  let (strike, s) ← readField 32 takeUint256 s
  let (fallback_scalar, s) ← readField 32 takeUint256 s
  let (lambda_q, s) ← readField 4 takeUInt32 s
  let (loss_direction, s) ← readField 1 takeUInt8 s
  guard (loss_direction = 0x00 ∨ loss_direction = 0x01)
  let (collateral_asset_id, s) ← readField 32 takeUint256 s
  let (vault_im, s) ← readField 8 takeUInt64 s
  let (owner_key, s) ← readExactPush s 32
  let (cp_key, s) ← readExactPush s 32
  let s ← readBareOpcode s OP_SCALAR_CFD_SETTLE
  guard (s = [])
  some ⟨contract_id, template_version, settle_lock_height, source_type, underlying_asset_id, feed_id, fixing_ref,
    publication_deadline_height, payoff_mode, scalar_format_id, strike, fallback_scalar, lambda_q, loss_direction,
    collateral_asset_id, vault_im, owner_key, cp_key⟩

def buildScalarCfdLeaf (leaf : ScalarCfdLeaf) : CScript :=
  [pushOf leaf.contract_id.bytes, [OP_DROP], pushOf [leaf.template_version],
    pushOf (scriptNumSerialize leaf.settle_lock_height), [OP_CHECKLOCKTIMEVERIFY], [OP_DROP],
    pushOf [leaf.source_type], pushOf leaf.underlying_asset_id.bytes, pushOf (serUInt32 leaf.feed_id),
    pushOf (serUInt64 leaf.fixing_ref), pushOf (serUInt32 leaf.publication_deadline_height),
    pushOf [leaf.payoff_mode], pushOf (leBytes 2 leaf.scalar_format_id.toNat), pushOf leaf.strike.bytes,
    pushOf leaf.fallback_scalar.bytes, pushOf (serUInt32 leaf.lambda_q), pushOf [leaf.loss_direction],
    pushOf leaf.collateral_asset_id.bytes, pushOf (serUInt64 leaf.vault_im), pushOf leaf.owner_key,
    pushOf leaf.cp_key, [OP_SCALAR_CFD_SETTLE]].flatten

structure ScalarCfdLeaf.Canonical (leaf : ScalarCfdLeaf) : Prop where
  version : leaf.template_version = SCALAR_CFD_TEMPLATE_VERSION_V1
  height : 0 < leaf.settle_lock_height ∧ leaf.settle_lock_height < 2 ^ 39
  source : leaf.source_type = ISSUER_PUBLISHED ∨ leaf.source_type = CHAIN_INTRINSIC
  underlying : leaf.source_type = CHAIN_INTRINSIC → leaf.underlying_asset_id = 0
  payoff : leaf.payoff_mode = PAYOFF_STRIKE ∨ leaf.payoff_mode = PAYOFF_REALIZED
  loss : leaf.loss_direction = 0x00 ∨ leaf.loss_direction = 0x01
  owner : leaf.owner_key.length = 32
  counterparty : leaf.cp_key.length = 32

theorem eq_nil_or_ends (v : Bytes) : v = [] ∨ ∃ front last, v = front ++ [last] := by
  simpa only [List.concat_eq_append] using List.eq_nil_or_concat v

variable {digits vch : Bytes} {last op : UInt8} {n : Nat} {rest : CScript}

theorem leNat_concat_pos (nonzero : last ≠ 0) : 0 < leNat (digits ++ [last]) := by
  have positive : 0 < last.toNat := Nat.pos_of_ne_zero fun zero => nonzero (UInt8.toNat_inj.mp zero)
  rw [leNat_concat]
  exact Nat.lt_add_left _ (Nat.mul_pos (Nat.pow_pos (by decide)) positive)

theorem numBytes_leNat {fuel : Nat} (nonzero : last ≠ 0)
    (fits : digits.length < fuel) : numBytes fuel (leNat (digits ++ [last])) = digits ++ [last] := by
  induction digits generalizing fuel with
  | nil =>
    obtain ⟨fuel, rfl⟩ := Nat.exists_eq_succ_of_ne_zero (by omega : fuel ≠ 0)
    have top : last.toNat / 256 = 0 := Nat.div_eq_of_lt last.toNat_lt
    have positive : last.toNat ≠ 0 := fun zero => nonzero (UInt8.toNat_inj.mp zero)
    simp [leNat, numBytes, numBytes_zero, top, positive]
  | cons b rest ih =>
    obtain ⟨fuel, rfl⟩ := Nat.exists_eq_succ_of_ne_zero (by omega : fuel ≠ 0)
    have more : 0 < leNat (rest ++ [last]) := leNat_concat_pos nonzero
    have byte : UInt8.ofNat (b.toNat + 256 * leNat (rest ++ [last])) = b := by
      rw [← UInt8.toNat_inj, UInt8.toNat_ofNat']
      have := b.toNat_lt
      omega
    have shifted : (b.toNat + 256 * leNat (rest ++ [last])) / 256 = leNat (rest ++ [last]) := by
      have := b.toNat_lt
      omega
    rw [List.cons_append, leNat, numBytes, if_neg (by omega), byte, shifted, ih (by simpa using fits)]

theorem serialize_of_scriptNum
    (read : scriptNum (digits ++ [last]) true 5 = .ok (n : Int)) :
    0 < n ∧ n < 2 ^ 39 ∧ digits ++ [last] = scriptNumSerialize n := by
  unfold scriptNum at read
  simp only [List.getLast?_concat, Option.getD_some, List.dropLast_concat, List.length_append,
    List.length_singleton, true_and, ne_eq, List.append_eq_nil_iff, List.cons_ne_self, and_false,
    not_false_eq_true] at read
  split_ifs at read with long loose sign
  · have below : ¬ 0x80 ≤ last := fun high => (high_bit last).1 high sign
    obtain rfl : leNat (digits ++ [last]) = n := by exact_mod_cast Except.ok.inj read
    have small : leNat (digits ++ [last]) < 2 ^ 39 := by
      have wide : 256 ^ digits.length ≤ 256 ^ 4 := Nat.pow_le_pow_right (by decide) (by omega)
      have top : last.toNat ≤ 127 := by
        have := mt UInt8.le_iff_toNat_le.mpr below
        simp only [UInt8.reduceToNat] at this
        omega
      have rest := leNat_lt digits
      have high := Nat.mul_le_mul_left (256 ^ digits.length) top
      rw [leNat_concat]
      omega
    by_cases zero : last = 0
    · -- A last byte without a digit is there for the sign bit of the one before it.
      subst zero
      rcases eq_nil_or_ends digits with rfl | ⟨front, prev, rfl⟩
      · exact absurd ⟨rfl, .inl (by simp)⟩ loose
      · have high : 0x80 ≤ prev := by
          by_contra low
          exact loose ⟨rfl, .inr (by simpa using ((high_bit prev).2 low).1)⟩
        have nonzero : prev ≠ 0 := by
          rintro rfl
          exact absurd high (by decide)
        rw [leNat_append_zero] at small ⊢
        refine ⟨leNat_concat_pos nonzero, small, ?_⟩
        rw [scriptNumSerialize, numBytes_leNat nonzero (by simp at long; omega)]
        simp [high]
    · refine ⟨leNat_concat_pos zero, small, ?_⟩
      rw [scriptNumSerialize, numBytes_leNat zero (by omega)]
      simp [below]
  · -- A negative number is not zero in its minimal form.
    have none_left : leNat (digits ++ [last &&& 0x7f]) = 0 := by
      have := Except.ok.inj read
      omega
    rw [leNat_concat] at none_left
    have clear : last &&& 0x7f = 0 := by
      by_contra set_bits
      have := @leNat_concat_pos digits _ set_bits
      rw [leNat_concat] at this
      omega
    refine absurd ⟨clear, ?_⟩ loose
    rcases eq_nil_or_ends digits with rfl | ⟨front, prev, rfl⟩
    · exact .inl (by simp)
    · by_cases nonzero : prev = 0
      · exact .inr (by simp [nonzero])
      · have := @leNat_concat_pos front _ nonzero
        omega

theorem length_of_scriptNum (positive : 0 < n)
    (read : scriptNum vch true 5 = .ok (n : Int)) : 1 ≤ vch.length ∧ vch.length ≤ 5 := by
  constructor
  · cases vch with
    | nil =>
      simp [scriptNum, leNat] at read
      omega
    | cons => simp
  · by_contra long
    unfold scriptNum at read
    rw [if_pos (not_le.mp long)] at read
    cases read

theorem getScriptOp_op {opcode : UInt8} {body : CScript}
    (read : getScriptOp (opcode :: body) = some (op, vch, rest)) : opcode = op := by
  unfold getScriptOp at read
  dsimp only at read
  split at read
  · obtain ⟨⟨size, body⟩, _, read⟩ := Option.bind_eq_some_iff.mp read
    dsimp only at read
    split_ifs at read
    exact (Prod.mk.inj (Option.some.inj read)).1
  · exact (Prod.mk.inj (Option.some.inj read)).1

theorem getScriptOp_direct {s : CScript} (short : vch.length ≤ 75)
    (direct : op.toNat = vch.length) : getScriptOp s = some (op, vch, rest) ↔ s = pushOf vch ++ rest := by
  have name : UInt8.ofNat vch.length = op := by rw [← direct, UInt8.ofNat_toNat]
  constructor
  · intro read
    have below : op < OP_PUSHDATA1 := by
      rw [UInt8.lt_iff_toNat_lt, direct]
      exact lt_of_le_of_lt short (by decide)
    have inside : op ≤ OP_PUSHDATA4 := UInt8.le_of_lt (UInt8.lt_trans below (by decide))
    cases s with
    | nil => cases read
    | cons opcode body =>
      obtain rfl := getScriptOp_op read
      simp only [getScriptOp, inside, below, if_true, Option.bind_some, Option.ite_none_left_eq_some,
        Option.some.injEq, Prod.mk.injEq, true_and] at read
      obtain ⟨_, rfl, rfl⟩ := read
      rw [pushOf, if_pos (lt_of_le_of_lt short (by decide)), name, List.cons_append, List.take_append_drop]
  · rintro rfl
    rw [getScriptOp_pushOf short, name]

theorem toOption_eq_some {ε α : Type} {x : Except ε α} {a : α} : x.toOption = some a ↔ x = .ok a := by
  cases x <;> simp [Except.toOption]

section Reads

variable {s rest : CScript}

theorem readExactPush_eq_some {len : Nat} {vch : Bytes} (short : len ≤ 75) :
    readExactPush s len = some (vch, rest) ↔ s = pushOf vch ++ rest ∧ vch.length = len := by
  unfold readExactPush
  simp only [Option.bind_eq_bind, Option.bind_eq_some_iff, Option.ite_none_left_eq_some, Prod.exists,
    Option.bind_none, not_not, Option.some.injEq, Prod.mk.injEq]
  constructor
  · rintro ⟨op, v, r, read, rfl, same, rfl, rfl⟩
    exact ⟨(getScriptOp_direct (by omega) same.symm).mp read, same⟩
  · rintro ⟨rfl, rfl⟩
    have code : (UInt8.ofNat vch.length).toNat = vch.length := by
      rw [UInt8.toNat_ofNat']
      omega
    exact ⟨_, _, _, getScriptOp_pushOf short, code, rfl, rfl, rfl⟩

theorem readField_eq_some {α : Type} {len : Nat} {take : Bytes → Option (α × Bytes)} {ser : α → Bytes} {x : α}
    (takes : ∀ {v x r}, take v = some (x, r) ↔ v = ser x ++ r) (wide : ∀ x, (ser x).length = len)
    (short : len ≤ 75) : readField len take s = some (x, rest) ↔ s = pushOf (ser x) ++ rest := by
  simp only [readField, Option.bind_eq_bind, Option.bind_eq_some_iff, Prod.exists, readExactPush_eq_some short, takes,
    Option.some.injEq, Prod.mk.injEq]
  constructor
  · rintro ⟨_, r, ⟨rfl, size⟩, y, more, rfl, rfl, rfl⟩
    obtain rfl : more = [] := by
      rw [List.length_append, wide] at size
      exact List.eq_nil_of_length_eq_zero (by omega)
    rw [List.append_nil]
  · rintro rfl
    exact ⟨_, _, ⟨rfl, wide x⟩, x, [], by rw [List.append_nil], rfl, rfl⟩

theorem readBareOpcode_eq_some {expect : UInt8} (above : ¬ expect ≤ OP_PUSHDATA4) :
    readBareOpcode s expect = some rest ↔ s = expect :: rest := by
  simp only [readBareOpcode, Option.bind_eq_bind, Option.bind_eq_some_iff, Prod.exists,
    Option.ite_none_right_eq_some, Option.some.injEq]
  constructor
  · rintro ⟨op, v, r, read, ⟨rfl, rfl⟩, rfl⟩
    cases s with
    | nil => cases read
    | cons opcode body =>
      obtain rfl := getScriptOp_op read
      rw [getScriptOp_opcode above] at read
      cases read
      rfl
  · rintro rfl
    exact ⟨_, _, _, getScriptOp_opcode above, ⟨rfl, rfl⟩, rfl⟩

theorem readCltvPush_eq_some {n : Nat} : readCltvPush s = some (n, rest) ↔
    s = pushOf (scriptNumSerialize n) ++ rest ∧ 0 < n ∧ n < 2 ^ 39 := by
  unfold readCltvPush
  simp only [Option.bind_eq_bind, Option.bind_eq_some_iff, Option.ite_none_left_eq_some, Prod.exists,
    Option.bind_none, not_not, Option.some.injEq, Prod.mk.injEq, toOption_eq_some]
  constructor
  · rintro ⟨op, v, r, read, size, direct, value, number, sign, rfl, rfl⟩
    rcases eq_nil_or_ends v with rfl | ⟨digits, last, rfl⟩
    · simp at size
    · rw [← Int.toNat_of_nonneg (not_lt.mp sign)] at number
      obtain ⟨positive, small, written⟩ := serialize_of_scriptNum number
      rw [← written]
      exact ⟨(getScriptOp_direct (by omega) direct).mp read, positive, small⟩
  · rintro ⟨rfl, positive, small⟩
    have number := scriptNum_serialize positive small true
    have size := length_of_scriptNum positive number
    have code : (UInt8.ofNat (scriptNumSerialize n).length).toNat = (scriptNumSerialize n).length := by
      rw [UInt8.toNat_ofNat']
      omega
    exact ⟨_, _, _, getScriptOp_pushOf (by omega), by omega, code, n, number, by omega, by simp, rfl⟩

end Reads

section Binds

variable {β : Type} {y : β} {s : CScript}

theorem field_bind {α : Type} {len : Nat} {take : Bytes → Option (α × Bytes)} {ser : α → Bytes}
    {f : α × CScript → Option β} (takes : ∀ {v x r}, take v = some (x, r) ↔ v = ser x ++ r)
    (wide : ∀ x, (ser x).length = len) (short : len ≤ 75) :
    (readField len take s >>= f) = some y ↔ ∃ x rest, s = pushOf (ser x) ++ rest ∧ f (x, rest) = some y := by
  simp only [Option.bind_eq_bind, Option.bind_eq_some_iff, Prod.exists, readField_eq_some takes wide short]

theorem hash_bind {f : Uint256 × CScript → Option β} : (readField 32 takeUint256 s >>= f) = some y ↔
    ∃ x rest, s = pushOf x.bytes ++ rest ∧ f (x, rest) = some y :=
  field_bind takeUint256_eq_some Uint256.bytes_length (by decide)

theorem byte_bind {f : UInt8 × CScript → Option β} :
    (readField 1 takeUInt8 s >>= f) = some y ↔
      ∃ x rest, s = pushOf [x] ++ rest ∧ f (x, rest) = some y :=
  field_bind takeUInt8_eq_some (fun _ => rfl) (by decide)

theorem uint16_bind {f : UInt16 × CScript → Option β} : (readField 2 takeUInt16 s >>= f) = some y ↔
    ∃ x rest, s = pushOf (leBytes 2 x.toNat) ++ rest ∧ f (x, rest) = some y :=
  field_bind takeUInt16_eq_some (fun _ => leBytes_length _ _) (by decide)

theorem uint32_bind {f : UInt32 × CScript → Option β} : (readField 4 takeUInt32 s >>= f) = some y ↔
    ∃ x rest, s = pushOf (serUInt32 x) ++ rest ∧ f (x, rest) = some y :=
  field_bind takeUInt32_eq_some (fun _ => leBytes_length _ _) (by decide)

theorem uint64_bind {f : UInt64 × CScript → Option β} : (readField 8 takeUInt64 s >>= f) = some y ↔
    ∃ x rest, s = pushOf (serUInt64 x) ++ rest ∧ f (x, rest) = some y :=
  field_bind takeUInt64_eq_some (fun _ => leBytes_length _ _) (by decide)

theorem key_bind {f : Bytes × CScript → Option β} : (readExactPush s 32 >>= f) = some y ↔
    ∃ v rest, s = pushOf v ++ rest ∧ v.length = 32 ∧ f (v, rest) = some y := by
  simp only [Option.bind_eq_bind, Option.bind_eq_some_iff, Prod.exists, and_assoc,
    @readExactPush_eq_some s _ 32 _ (by decide)]

theorem opcode_bind {expect : UInt8} {f : CScript → Option β} (above : ¬ expect ≤ OP_PUSHDATA4) :
    (readBareOpcode s expect >>= f) = some y ↔ ∃ rest, s = expect :: rest ∧ f rest = some y := by
  simp only [Option.bind_eq_bind, Option.bind_eq_some_iff, readBareOpcode_eq_some above]

theorem cltv_bind {f : Nat × CScript → Option β} : (readCltvPush s >>= f) = some y ↔
    ∃ n rest, s = pushOf (scriptNumSerialize n) ++ rest ∧ (0 < n ∧ n < 2 ^ 39) ∧ f (n, rest) = some y := by
  simp only [Option.bind_eq_bind, Option.bind_eq_some_iff, Prod.exists, readCltvPush_eq_some, and_assoc]

theorem guard_bind {p : Prop} [Decidable p] {f : Unit → Option β} :
    (guard p >>= f) = some y ↔ p ∧ f () = some y := by
  by_cases holds : p <;> simp [guard, holds]

end Binds

/-- The parser reads exactly the scripts that are built from terms of the template. -/
theorem scalarCfdLeaf_canonical (script : CScript) (leaf : ScalarCfdLeaf) :
    parseScalarCfdLeaf script = some leaf ↔ leaf.Canonical ∧ script = buildScalarCfdLeaf leaf := by
  have drop : ¬ OP_DROP ≤ OP_PUSHDATA4 := by decide
  have cltv : ¬ OP_CHECKLOCKTIMEVERIFY ≤ OP_PUSHDATA4 := by decide
  have settle : ¬ OP_SCALAR_CFD_SETTLE ≤ OP_PUSHDATA4 := by decide
  unfold parseScalarCfdLeaf
  constructor
  · intro accepted
    obtain ⟨contract_id, _, rfl, r1⟩ := hash_bind.mp accepted
    obtain ⟨_, rfl, r2⟩ := (opcode_bind drop).mp r1
    obtain ⟨version, _, rfl, r3⟩ := byte_bind.mp r2
    obtain ⟨known, r4⟩ := guard_bind.mp r3
    obtain ⟨height, _, rfl, range, r5⟩ := cltv_bind.mp r4
    obtain ⟨_, rfl, r6⟩ := (opcode_bind cltv).mp r5
    obtain ⟨_, rfl, r7⟩ := (opcode_bind drop).mp r6
    obtain ⟨source, _, rfl, r8⟩ := byte_bind.mp r7
    obtain ⟨source_known, r9⟩ := guard_bind.mp r8
    obtain ⟨underlying, _, rfl, r10⟩ := hash_bind.mp r9
    obtain ⟨unused, r11⟩ := guard_bind.mp r10
    obtain ⟨feed, _, rfl, r12⟩ := uint32_bind.mp r11
    obtain ⟨fixing, _, rfl, r13⟩ := uint64_bind.mp r12
    obtain ⟨deadline, _, rfl, r14⟩ := uint32_bind.mp r13
    obtain ⟨payoff, _, rfl, r15⟩ := byte_bind.mp r14
    obtain ⟨payoff_known, r16⟩ := guard_bind.mp r15
    obtain ⟨format, _, rfl, r17⟩ := uint16_bind.mp r16
    obtain ⟨strike, _, rfl, r18⟩ := hash_bind.mp r17
    obtain ⟨fallback, _, rfl, r19⟩ := hash_bind.mp r18
    obtain ⟨leverage, _, rfl, r20⟩ := uint32_bind.mp r19
    obtain ⟨loss, _, rfl, r21⟩ := byte_bind.mp r20
    obtain ⟨loss_known, r22⟩ := guard_bind.mp r21
    obtain ⟨collateral, _, rfl, r23⟩ := hash_bind.mp r22
    obtain ⟨margin, _, rfl, r24⟩ := uint64_bind.mp r23
    obtain ⟨owner, _, rfl, owner_size, r25⟩ := key_bind.mp r24
    obtain ⟨cp, _, rfl, cp_size, r26⟩ := key_bind.mp r25
    obtain ⟨_, rfl, r27⟩ := (opcode_bind settle).mp r26
    obtain ⟨rfl, r28⟩ := guard_bind.mp r27
    cases r28
    refine ⟨⟨known, range, source_known, unused, payoff_known, loss_known, owner_size, cp_size⟩, ?_⟩
    simp only [buildScalarCfdLeaf, List.flatten_cons, List.flatten_nil, List.append_nil, List.cons_append,
      List.nil_append]
  · rintro ⟨⟨version, height, source, underlying, payoff, loss, owner, counterparty⟩, rfl⟩
    simp only [buildScalarCfdLeaf, List.flatten_cons, List.flatten_nil, List.append_nil, List.cons_append,
      List.nil_append]
    refine hash_bind.mpr ⟨_, _, rfl, (opcode_bind drop).mpr ⟨_, rfl, ?_⟩⟩
    refine byte_bind.mpr ⟨_, _, rfl, guard_bind.mpr ⟨version, cltv_bind.mpr ⟨_, _, rfl, height, ?_⟩⟩⟩
    refine (opcode_bind cltv).mpr ⟨_, rfl, (opcode_bind drop).mpr ⟨_, rfl, ?_⟩⟩
    refine byte_bind.mpr ⟨_, _, rfl, guard_bind.mpr ⟨source, hash_bind.mpr ⟨_, _, rfl, ?_⟩⟩⟩
    refine guard_bind.mpr ⟨underlying, uint32_bind.mpr ⟨_, _, rfl, uint64_bind.mpr ⟨_, _, rfl, ?_⟩⟩⟩
    refine uint32_bind.mpr ⟨_, _, rfl, byte_bind.mpr ⟨_, _, rfl, guard_bind.mpr ⟨payoff, ?_⟩⟩⟩
    refine uint16_bind.mpr ⟨_, _, rfl, hash_bind.mpr ⟨_, _, rfl, hash_bind.mpr ⟨_, _, rfl, ?_⟩⟩⟩
    refine uint32_bind.mpr ⟨_, _, rfl, byte_bind.mpr ⟨_, _, rfl, guard_bind.mpr ⟨loss, ?_⟩⟩⟩
    refine hash_bind.mpr ⟨_, _, rfl, uint64_bind.mpr ⟨_, _, rfl, key_bind.mpr ⟨_, _, rfl, owner, ?_⟩⟩⟩
    refine key_bind.mpr ⟨_, _, rfl, counterparty, (opcode_bind settle).mpr ⟨_, rfl, ?_⟩⟩
    exact guard_bind.mpr ⟨rfl, rfl⟩

def laterLeaf : ScalarCfdLeaf :=
  ⟨1, SCALAR_CFD_TEMPLATE_VERSION_V1, 200, ISSUER_PUBLISHED, 7, 1, 1, 190, 2, 1, 5, 5,
  0x10000, 0, 0, 1000, List.replicate 32 1, List.replicate 32 2⟩

theorem laterLeaf_refused : parseScalarCfdLeaf (buildScalarCfdLeaf laterLeaf) = none := by
  decide +kernel

end Settlement

end TensorCash
