import TensorCash.Validation.RegChain

/-! A block that only the model registry rejects has already moved the coins. -/

namespace TensorCash

open Checked

/-- Whoever is banned on the stage was banned by the block at hand. -/
def BansAreNew (nHeight : Nat) (model_hash : Uint256) (s : Stage) : Prop :=
  ∀ record, s.db.models.get? model_hash = some record → record.status = .Banned →
    record.commit_block_height = nHeight

section Registry

variable {ctx : TipContext} {s : Stage} {db : ModelDb} {block : CBlock} {model_hash : Uint256}

/-- The verdict on a deposit registers or locks the model, and bans none. -/
theorem BansAreNew.decideVerification (new : BansAreNew ctx.nHeight model_hash s)
    (entry : Uint256 × VerificationValue) :
    BansAreNew ctx.nHeight model_hash (decideVerification ctx s entry) := by
  obtain ⟨judged, sched_value⟩ := entry
  simp only [TensorCash.decideVerification]
  split
  · exact new
  split
  · exact new
  · next old stored =>
    split
    · exact new
    intro record found banned
    have put : (s.db.settleVerification ctx judged old).models =
        s.db.models.insert judged (verifiedRecord ctx old) := by
      simp only [ModelDb.settleVerification, ModelDb.put]
      split_ifs <;> rfl
    rw [put, OrdMap.get?_insert] at found
    split_ifs at found with same
    · -- The record that is put is registered or locked.
      cases found
      simp only [verifiedRecord] at banned
      split_ifs at banned
      all_goals cases banned
    · exact new record found banned

/-- A ban by verdict is dated with the block. -/
theorem BansAreNew.decideChallenge (new : BansAreNew ctx.nHeight model_hash s)
    (entry : Uint256 × ChallengeValue) :
    BansAreNew ctx.nHeight model_hash (decideChallenge ctx s entry) := by
  obtain ⟨judged, sched_value⟩ := entry
  simp only [TensorCash.decideChallenge]
  split
  · exact new
  · next old stored =>
    split
    · exact new
    intro record found banned
    have put : (s.db.settleChallenge ctx judged old sched_value).models =
        s.db.models.insert judged (judgedRecord ctx old) := by
      simp only [ModelDb.settleChallenge, ModelDb.put]
      split_ifs <;> rfl
    rw [put, OrdMap.get?_insert] at found
    split_ifs at found with same
    · cases found
      simp only [judgedRecord, ModelRecord.clearChallenge] at banned ⊢
      split_ifs at banned ⊢
      · rfl
      · exact new old (same ▸ stored) banned
    · exact new record found banned

end Registry

end TensorCash
