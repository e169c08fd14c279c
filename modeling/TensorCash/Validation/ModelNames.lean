import TensorCash.Validation.Contextual

/-! A model is filed under the hash of `name@commit`, and neither part is barred from containing an
`@`. -/

namespace TensorCash

open Checked

/-- The text that `HashSHA256` hashes. -/
def ModelMetadata.joined (metadata : ModelMetadata) : Bytes :=
  metadata.model_name ++ ascii ['@'] ++ metadata.model_commit

theorem joined_eq_iff {name commit name' commit' : Bytes}
    (same : name ++ ascii ['@'] ++ commit = name' ++ ascii ['@'] ++ commit') :
    (name = name' ∧ commit = commit') ↔ name.count 64 = name'.count 64 := by
  -- A name that is longer than another one goes on with the separator of the other.
  have longer {front rest front' rest' more : Bytes} (split : front' = front ++ more)
      (behind : ascii ['@'] ++ rest = more ++ (ascii ['@'] ++ rest')) (counts : front.count 64 = front'.count 64) :
      more = [] := by
    cases more with
    | nil => rfl
    | cons b more =>
      obtain rfl : 64 = b := (List.cons.inj behind).1
      rw [split, List.count_append, List.count_cons_self] at counts
      omega
  constructor
  · rintro ⟨rfl, rfl⟩
    rfl
  · intro counts
    rw [List.append_assoc, List.append_assoc] at same
    rcases List.append_eq_append_iff.mp same with ⟨more, split, behind⟩ | ⟨more, split, behind⟩
    · obtain rfl := longer split behind counts
      exact ⟨by simpa using split.symm, List.append_cancel_left behind⟩
    · obtain rfl := longer split behind counts.symm
      exact ⟨by simpa using split, (List.append_cancel_left behind).symm⟩

section Deposits

variable {c : Crypto} {params : Params} {tx tx' : CTransaction} {p p' : ModelDepositPayload}

theorem parseModelDepositTx_hash (read : parseModelDepositTx c params tx = some p) :
    p.model_hash = c.sha256 p.metadata.joined := by
  unfold parseModelDepositTx at read
  simp only [Option.ite_none_left_eq_some, Option.bind_eq_bind, Option.bind_eq_some_iff,
    Option.ite_none_right_eq_some, Option.some.injEq] at read
  obtain ⟨_, metadata, _, model_hash, _, key, _, ⟨_, named⟩, _, _, rfl⟩ := read
  exact named.symm

/-- Two deposits under one hash are for one name and commit exactly when the names have equally many
separators; a deposit opens its record under that hash; and a proof blob is resolved to the record
that it means exactly when hashes and separator counts agree. -/
theorem model_identity {pow : CProofBlob} {name commit : Bytes}
    (first : parseModelDepositTx c params tx = some p) (second : parseModelDepositTx c params tx' = some p')
    (named : pow.model_identifier = name ++ ascii ['@'] ++ commit)
    (apart : Set.InjOn c.sha256 {p.metadata.joined, p'.metadata.joined, pow.model_identifier}) :
    (p.model_hash = p'.model_hash → ((p.metadata.model_name = p'.metadata.model_name ∧
        p.metadata.model_commit = p'.metadata.model_commit) ↔
        p.metadata.model_name.count 64 = p'.metadata.model_name.count 64)) ∧
    (∀ (ctx : TipContext) (s s' : Stage), ctx.crypto = c → ctx.params = params → connectDeposit ctx s tx = .ok s' →
      (s'.db.models.get? p.model_hash).map ModelRecord.metadata = some p.metadata) ∧
    ((p.metadata.model_name = name ∧ p.metadata.model_commit = commit) ↔
      pow.getModelHash c = p.model_hash ∧ p.metadata.model_name.count 64 = name.count 64) := by
  have blob : pow.getModelHash c = c.sha256 pow.model_identifier := by
    have at_sign : pow.model_identifier.contains 64 = true := by
      simp [named, show ascii ['@'] = [64] by decide]
    rw [CProofBlob.getModelHash, if_pos at_sign]
  refine ⟨fun same => ?_, ?_, ?_⟩
  · rw [parseModelDepositTx_hash first, parseModelDepositTx_hash second] at same
    have texts := apart (by simp) (by simp) same
    exact joined_eq_iff texts
  · rintro ctx s s' rfl rfl connected
    rw [connectDeposit, first] at connected
    obtain ⟨_, _, connected⟩ := demand_bind_eq_ok.mp connected
    cases Option.some.inj ‹_›
    obtain ⟨_, _, connected⟩ := bind_eq_ok.mp connected
    cases connected
    simp [ModelDb.openDeposit, depositRecord]
  · rw [blob, parseModelDepositTx_hash first]
    constructor
    · rintro ⟨rfl, rfl⟩
      exact ⟨by rw [named]; rfl, rfl⟩
    · rintro ⟨same, counts⟩
      have texts := apart (by simp) (by simp) same
      exact (joined_eq_iff (texts.symm.trans named)).mpr counts

end Deposits

namespace RegChain

def depositTx (model_name model_commit : Bytes) : CTransaction :=
  { version := MODEL_REGISTER_DEPOSIT_TX_VERSION, vin := [], nLockTime := 0
    vout :=
      [⟨500000000, [OP_DUP, OP_HASH160, 20] ++ ownerKey.take 20 ++ [OP_EQUALVERIFY, OP_CHECKSIG], []⟩,
        tagged MODELREG_NAME_TAG model_name, tagged MODELREG_COMMIT_TAG model_commit,
        tagged MODELREG_DIFFICULTY_TAG (Codec.leBytes 8 (2 ^ 40)),
        tagged MODELREG_DEPOSIT_TAG (hashSHA256 crypto model_name model_commit).bytes,
        tagged MODELREG_OWNER_TAG ownerKey] }

/-- The same hash stands for `n@c` with commit `d` and for `n` with commit `c@d`. -/
theorem model_identity_split : let names := fun tx => (parseModelDepositTx crypto env.params tx).map fun p =>
      (p.model_hash, p.metadata.model_name, p.metadata.model_commit)
    let hash := crypto.sha256 (ascii ['n', '@', 'c', '@', 'd'])
    names (depositTx (ascii ['n', '@', 'c']) (ascii ['d'])) = some (hash, ascii ['n', '@', 'c'], ascii ['d']) ∧
      names (depositTx (ascii ['n']) (ascii ['c', '@', 'd'])) = some (hash, ascii ['n'], ascii ['c', '@', 'd']) := by
  exact ⟨rfl, rfl⟩

/-- A blob that works on `n@c` means the model of the deposit for `n` and `c`. -/
theorem model_identity_of_blob : (⟨hardModel.hash crypto, hardModel, ownerKey, crypto.hash160 ownerKey, 500000000, 0⟩ :
      ModelDepositPayload).metadata.model_name = ascii ['n'] := by
  have read : parseModelDepositTx crypto env.params (depositTx (ascii ['n']) (ascii ['c'])) =
      some ⟨hardModel.hash crypto, hardModel, ownerKey, crypto.hash160 ownerKey, 500000000, 0⟩ := by
    rfl
  have named : forkBlock.pow.model_identifier = ascii ['n'] ++ ascii ['@'] ++ ascii ['c'] := rfl
  have text : hardModel.joined = forkBlock.pow.model_identifier := rfl
  have found : forkBlock.pow.getModelHash crypto = hardModel.hash crypto := rfl
  exact ((model_identity read read named (by simp [text])).2.2.mpr ⟨found, rfl⟩).1

end RegChain

end TensorCash
