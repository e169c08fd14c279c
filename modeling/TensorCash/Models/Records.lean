import TensorCash.Lib.OrdMap
import TensorCash.Consensus.Params
import TensorCash.Primitives.Script
import TensorCash.Primitives.Transaction

/-! `modeldb.h`: one ordered map for each column family that block validation reads. -/

namespace TensorCash

inductive ModelRegistrationStatus where
  | PendingDeposit
  | PendingVerification
  | Registered
  | Locked
  | Banned
deriving DecidableEq

/-- What a depositor says about a model; the strings are kept as bytes. -/
structure ModelMetadata where
  model_name : Bytes := []
  model_commit : Bytes := []
  difficulty : Int := 0
  cid : Bytes := []
  extra : Bytes := []
deriving DecidableEq

/-- One model's record. Heights are block heights, zero when not set. -/
structure ModelRecord where
  metadata : ModelMetadata := {}
  status : ModelRegistrationStatus := .PendingDeposit
  deposit_txid : Uint256 := 0
  deposit_vout : UInt32 := 0
  deposit_amount : Int := 0
  owner_key_hash : Bytes := []
  deposit_block_hash : Uint256 := 0
  deposit_block_height : Nat := 0
  commit_txid : Uint256 := 0
  commit_block_hash : Uint256 := 0
  commit_block_height : Nat := 0
  burn_txid : Uint256 := 0
  burn_vout : UInt32 := 0
  burn_block_height : Nat := 0
  verification_code : Nat := 0
  verification_details : String := ""
  verification_event_height : Nat := 0
  successful_commit_count : Nat := 0
  challenge_block_hash : Uint256 := 0
  challenge_deposit_txid : Uint256 := 0
  challenge_deposit_vout : UInt32 := 0
  challenge_deposit_height : Nat := 0
  challenge_commit_count : Nat := 0
  challenge_verdict_height : Nat := 0
deriving DecidableEq

def ModelRecord.deposit_outpoint (record : ModelRecord) : COutPoint :=
  ⟨record.deposit_txid, record.deposit_vout⟩

def ModelRecord.challenge_outpoint (record : ModelRecord) : COutPoint :=
  ⟨record.challenge_deposit_txid, record.challenge_deposit_vout⟩

def ModelRecord.clearChallenge (record : ModelRecord) : ModelRecord :=
  { record with
    challenge_block_hash := 0
    challenge_deposit_txid := 0
    challenge_deposit_vout := 0
    challenge_deposit_height := 0
    challenge_commit_count := 0
    challenge_verdict_height := 0 }

def UINT32_MAX : Nat := 4294967295

def saturatingSucc (count : Nat) : Nat := if count < UINT32_MAX then count + 1 else count

/-- A verification: pending in state 0, done in state 1. -/
structure VerificationValue where
  state : Nat := 0
  snapshot : Option ModelRecord := none
deriving DecidableEq

structure ChallengeValue where
  state : Nat := 0
  deposit_outpoint : COutPoint := ⟨0, COutPoint.NULL_INDEX⟩
  snapshot : Option ModelRecord := none
  verdict_snapshot : Option ModelRecord := none
deriving DecidableEq

/-- Schedules are keyed by height first, so that one height's entries stand together. -/
structure ScheduleKey where
  height : Nat
  hash : Uint256
deriving DecidableEq

instance : LinearOrder ScheduleKey :=
  LinearOrder.lift' (fun k => toLex (k.height, k.hash)) fun a b same => by
    cases a
    cases b
    simpa using same

structure ModelDb where
  models : OrdMap Uint256 ModelRecord := ∅
  deposits : OrdMap COutPoint Uint256 := ∅
  burns : OrdMap COutPoint Uint256 := ∅
  challengeDeposits : OrdMap COutPoint Uint256 := ∅
  verifications : OrdMap ScheduleKey VerificationValue := ∅
  challenges : OrdMap ScheduleKey ChallengeValue := ∅
deriving DecidableEq

/-- Stands in the burn index for a forfeited challenge deposit. -/
def CHALLENGE_BURN_SENTINEL : Uint256 := 0x00000000000000004c454e49544e45534e5255425f45474e454c4c4148430000

def scheduledAt {V : Type} (schedule : OrdMap ScheduleKey V) (height : Nat) : List (Uint256 × V) :=
  (schedule.entries.filter fun p => p.1.height = height).map fun p => (p.1.hash, p.2)

theorem mem_scheduledAt {V : Type} {schedule : OrdMap ScheduleKey V} {height : Nat}
    {model : Uint256} {value : V} :
    (model, value) ∈ scheduledAt schedule height ↔ schedule.get? ⟨height, model⟩ = some value := by
  rw [← OrdMap.mem_entries]
  constructor
  · intro member
    obtain ⟨⟨key, v⟩, inside, same⟩ := List.mem_map.mp member
    obtain ⟨stored, here⟩ := List.mem_filter.mp inside
    obtain ⟨rfl, rfl⟩ := Prod.mk.inj same
    have there : key.height = height := by simpa using here
    subst there
    exact stored
  · intro inside
    exact List.mem_map.mpr ⟨_, List.mem_filter.mpr ⟨inside, by simp⟩, rfl⟩

theorem scheduledAt_nodup {V : Type} (schedule : OrdMap ScheduleKey V) (height : Nat) :
    ((scheduledAt schedule height).map Prod.fst).Nodup := by
  -- Keys are sorted, so two entries of one height differ in the model.
  rw [scheduledAt, List.map_map, List.Nodup, List.pairwise_map, List.pairwise_filter]
  refine schedule.sorted.imp ?_
  intro a b less here there same
  have equal : a.1 = b.1 := by
    obtain ⟨⟨ha, ma⟩, va⟩ := a
    obtain ⟨⟨hb, mb⟩, vb⟩ := b
    simp_all
  exact absurd (equal ▸ less) (lt_irrefl _)

end TensorCash
