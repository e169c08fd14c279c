import TensorCash.Assets.Registry
import Mathlib.Data.List.DropRight

/-! The two rings of `ApplyComplianceRootUpdate`, compared with one log since the last clearing. -/

namespace TensorCash

structure RootUpdate where
  now : AssetRegistryEntry
  new_root : Uint256
  active_vk : Uint256
  height : Nat
  txid : Uint256

def AssetRegistryEntry.withoutHistory (e : AssetRegistryEntry) : AssetRegistryEntry :=
  { e with compliance_root_history := [], compliance_root_history_vk := [] }

/-- Every registration writes an entry of its own, so the rings of `now` start empty. -/
def RootUpdate.apply (u : RootUpdate) (prev : Option AssetRegistryEntry) : AssetRegistryEntry :=
  applyComplianceRootUpdate u.now.withoutHistory prev u.new_root u.active_vk u.height u.txid

def applyUpdates (start : Option AssetRegistryEntry) (updates : List RootUpdate) :
    Option AssetRegistryEntry := updates.foldl (fun prev u => some (u.apply prev)) start

/-- All roots that were recorded since the last clearing, with the keys of their updates. -/
structure RootLog where
  active : Uint256 := 0
  records : List (ComplianceRootHistory × Uint256) := []

def RootLog.update (log : RootLog) (u : RootUpdate) : RootLog :=
  if u.new_root = 0 then {}
  else if u.new_root = log.active then log
  else
    { active := u.new_root
      records := log.records ++ [(⟨u.new_root, u.height, u.txid⟩, u.active_vk)] }

def rootLog (updates : List RootUpdate) : RootLog := updates.foldl RootLog.update {}

def RootLog.ring (log : RootLog) : List (ComplianceRootHistory × Uint256) := log.records.rtake MAX_ROOT_HISTORY

structure Logged (log : RootLog) (e : Option AssetRegistryEntry) : Prop where
  active : (e.map AssetRegistryEntry.compliance_root_commit).getD 0 = log.active
  roots : (e.map AssetRegistryEntry.compliance_root_history).getD [] = log.ring.map Prod.fst
  keys : (e.map AssetRegistryEntry.compliance_root_history_vk).getD [] = log.ring.map Prod.snd

theorem alignVkHistory_length (vks : List Uint256) (pad : Uint256) :
    alignVkHistory vks vks.length pad = vks := by
  simp [alignVkHistory]

theorem rtake_concat {α : Type} (n : Nat) (records : List α) (x : α) :
    (records.rtake n ++ [x]).drop ((records.rtake n).length + 1 - n) = (records ++ [x]).rtake n := by
  simp only [List.rtake, List.length_drop, List.length_append, List.length_singleton]
  rcases Nat.lt_or_ge records.length n with room | full
  · -- Nothing has been dropped yet, and nothing is now.
    have none_dropped : records.length - n = 0 := by omega
    have none_now : records.length + 1 - n = 0 := by omega
    simp [none_dropped, none_now]
  · rcases Nat.eq_zero_or_pos n with rfl | positive
    · simp
    · -- One record comes in for each one that goes.
      have one : records.length - (records.length - n) + 1 - n = 1 := by omega
      have later : records.length + 1 - n = records.length - n + 1 := by omega
      rw [one, later, List.drop_append_of_le_length (by simp; omega), List.drop_drop,
        List.drop_append_of_le_length (by omega)]

theorem Logged.update {log : RootLog} {prev : Option AssetRegistryEntry} (logged : Logged log prev)
    (u : RootUpdate) : Logged (log.update u) (some (u.apply prev)) := by
  obtain ⟨active, roots, keys⟩ := logged
  have rings : ((prev.map AssetRegistryEntry.compliance_root_history_vk).getD []).length =
      ((prev.map AssetRegistryEntry.compliance_root_history).getD []).length := by
    rw [roots, keys, List.length_map, List.length_map]
  have aligned := fun pad => alignVkHistory_length
    ((prev.map AssetRegistryEntry.compliance_root_history_vk).getD []) pad
  rw [rings] at aligned
  unfold RootUpdate.apply applyComplianceRootUpdate RootLog.update
  by_cases cleared : u.new_root = 0
  · -- Without a root the rings are cleared, or stay as empty as they are written.
    rw [if_pos cleared, if_pos cleared]
    exact ⟨rfl, by simp [RootLog.ring, AssetRegistryEntry.withoutHistory],
      by simp [RootLog.ring, AssetRegistryEntry.withoutHistory]⟩
  · rw [if_neg cleared, if_neg cleared]
    dsimp only
    have changes : (prev.all fun p => decide (p.compliance_root_commit ≠ u.new_root)) = true ↔
        u.new_root ≠ log.active := by
      rw [← active]
      cases prev with
      | none => simp [cleared]
      | some p => simp [ne_comm]
    have inherited : (prev.map AssetRegistryEntry.compliance_root_history).getD
        u.now.withoutHistory.compliance_root_history = log.ring.map Prod.fst := roots
    have inherited_keys : (prev.map AssetRegistryEntry.compliance_root_history_vk).getD
        u.now.withoutHistory.compliance_root_history_vk = log.ring.map Prod.snd := keys
    rw [roots, keys] at aligned
    rw [inherited, inherited_keys, aligned]
    by_cases same : u.new_root = log.active
    · rw [if_neg (fun all => changes.mp all same), if_pos same]
      exact ⟨same, rfl, rfl⟩
    · -- A new root is recorded in both rings, which drop their oldest entries alike.
      rw [if_pos (changes.mpr same), if_neg same]
      refine ⟨rfl, ?_, ?_⟩
      · simp only [Option.map_some, Option.getD_some, RootLog.ring, ← rtake_concat, List.map_drop,
          List.map_append, List.map_cons, List.map_nil, List.length_map]
      · simp only [Option.map_some, Option.getD_some, RootLog.ring, ← rtake_concat, List.map_drop,
          List.map_append, List.map_cons, List.map_nil, List.length_map]

def AssetRegistryEntry.Fresh (e : AssetRegistryEntry) : Prop :=
  e.compliance_root_commit = 0 ∧ e.compliance_root_history = [] ∧ e.compliance_root_history_vk = []

theorem Logged.run {log : RootLog} {start : Option AssetRegistryEntry} (logged : Logged log start)
    (updates : List RootUpdate) : Logged (updates.foldl RootLog.update log) (applyUpdates start updates) := by
  unfold applyUpdates
  induction updates generalizing log start with
  | nil => exact logged
  | cons u rest ih => exact ih (logged.update u)

/-- What the log keeps through updates whose heights do not go back. -/
structure RootLog.Ordered (updates : List RootUpdate) (log : RootLog) : Prop where
  recorded : ∀ r ∈ log.records, ∃ u ∈ updates, r = (⟨u.new_root, u.height, u.txid⟩, u.active_vk)
  heights : log.records.Pairwise fun a b => a.1.activation_height ≤ b.1.activation_height
  last : log.active ≠ 0 → log.records.getLast?.map (fun r => r.1.root_commit) = some log.active

theorem RootLog.Ordered.update {earlier : List RootUpdate} {log : RootLog}
    (ordered : log.Ordered earlier) {u : RootUpdate} (later : ∀ v ∈ earlier, v.height ≤ u.height) :
    (log.update u).Ordered (earlier ++ [u]) := by
  obtain ⟨recorded, heights, last⟩ := ordered
  unfold RootLog.update
  split_ifs with cleared same
  · exact ⟨by simp, by simp, by simp⟩
  · refine ⟨fun r member => ?_, heights, last⟩
    obtain ⟨v, before, made⟩ := recorded r member
    exact ⟨v, List.mem_append_left _ before, made⟩
  · refine ⟨fun r member => ?_, ?_, fun _ => by simp⟩
    · rcases List.mem_append.mp member with old | new
      · obtain ⟨v, before, made⟩ := recorded r old
        exact ⟨v, List.mem_append_left _ before, made⟩
      · exact ⟨u, by simp, List.mem_singleton.mp new⟩
    · -- The new record has the height of its update, which no earlier record exceeds.
      refine List.pairwise_append.mpr ⟨heights, List.pairwise_singleton _ _, fun a old b new => ?_⟩
      obtain ⟨v, before, rfl⟩ := recorded a old
      obtain rfl := List.mem_singleton.mp new
      exact later v before

theorem rootLog_ordered {updates : List RootUpdate}
    (heights : updates.Pairwise fun u v => u.height ≤ v.height) : (rootLog updates).Ordered updates := by
  induction updates using List.reverseRecOn with
  | nil => exact ⟨by simp [rootLog], by simp [rootLog], by simp [rootLog]⟩
  | append_singleton earlier u ih =>
    obtain ⟨before, _, across⟩ := List.pairwise_append.mp heights
    have kept := (ih before).update fun v member => across v member u (List.mem_singleton_self u)
    rwa [rootLog, List.foldl_append, List.foldl_cons, List.foldl_nil]

theorem RootLog.getLast?_ring (log : RootLog) : log.ring.getLast? = log.records.getLast? := by
  unfold RootLog.ring List.rtake
  rcases Nat.eq_zero_or_pos log.records.length with none | some
  · simp [List.length_eq_zero_iff.mp none]
  · rw [List.getLast?_drop, if_neg]
    have capacity : MAX_ROOT_HISTORY = 32 := rfl
    omega

/-- However a fresh entry is updated, at heights that do not go back: the rings are the end of one
log of roots and keys, of equal length within the capacity, in the order of heights, and an active
root is the last of the ring. -/
theorem complianceHistory_lockstep {start : Option AssetRegistryEntry} {updates : List RootUpdate}
    (fresh : ∀ e, start = some e → e.Fresh)
    (heights : updates.Pairwise fun u v => u.height ≤ v.height) {e : AssetRegistryEntry}
    (result : applyUpdates start updates = some e) : (e.compliance_root_history = (rootLog updates).ring.map Prod.fst ∧
      e.compliance_root_history_vk = (rootLog updates).ring.map Prod.snd) ∧
      (∀ h vk, (h, vk) ∈ (rootLog updates).ring → ∃ u ∈ updates, u.new_root = h.root_commit ∧
        u.height = h.activation_height ∧ u.txid = h.txid ∧ u.active_vk = vk) ∧
      e.compliance_root_history_vk.length = e.compliance_root_history.length ∧
      e.compliance_root_history.length ≤ MAX_ROOT_HISTORY ∧
      e.compliance_root_history.Pairwise (fun a b => a.activation_height ≤ b.activation_height) ∧
      (e.compliance_root_commit ≠ 0 → e.compliance_root_history.getLast?.map ComplianceRootHistory.root_commit =
          some e.compliance_root_commit) := by
  have begins : Logged {} start := by
    cases start with
    | none => exact ⟨rfl, rfl, rfl⟩
    | some first =>
      obtain ⟨root, roots, keys⟩ := fresh first rfl
      exact ⟨root, roots, keys⟩
  have logged := begins.run updates
  rw [result] at logged
  obtain ⟨active, roots, keys⟩ := logged
  have active : e.compliance_root_commit = (rootLog updates).active := active
  have roots : e.compliance_root_history = (rootLog updates).ring.map Prod.fst := roots
  have keys : e.compliance_root_history_vk = (rootLog updates).ring.map Prod.snd := keys
  obtain ⟨recorded, ordered, last⟩ := rootLog_ordered heights
  have sublist : (rootLog updates).ring.Sublist (rootLog updates).records := List.drop_sublist _ _
  refine ⟨⟨roots, keys⟩, fun h vk member => ?_, ?_, ?_, ?_, fun set => ?_⟩
  · obtain ⟨u, inside, made⟩ := recorded _ (sublist.subset member)
    obtain ⟨rfl, rfl⟩ := Prod.mk.inj made
    exact ⟨u, inside, rfl, rfl, rfl, rfl⟩
  · rw [roots, keys, List.length_map, List.length_map]
  · rw [roots, List.length_map, RootLog.ring, List.rtake, List.length_drop]
    omega
  · rw [roots, List.pairwise_map]
    exact ordered.sublist sublist
  · rw [roots, List.getLast?_map, RootLog.getLast?_ring, Option.map_map, active]
    exact last (active ▸ set)

/-- Two roots under two keys, the second key then changed without a new root. -/
theorem complianceHistory_lockstep_after_two :
    ∃ e, applyUpdates none [⟨{}, 1, 5, 10, 0⟩, ⟨{}, 2, 6, 12, 0⟩, ⟨{}, 2, 7, 12, 0⟩] = some e ∧
      e.compliance_root_history_vk = [5, 6] ∧
      e.compliance_root_history_vk.length = e.compliance_root_history.length := by
  obtain ⟨e, result⟩ : ∃ e, applyUpdates none
      [⟨{}, 1, 5, 10, 0⟩, ⟨{}, 2, 6, 12, 0⟩, ⟨{}, 2, 7, 12, 0⟩] = some e := ⟨_, rfl⟩
  have lockstep := complianceHistory_lockstep (by simp) (by decide) result
  exact ⟨e, result, lockstep.1.2.trans (by decide), lockstep.2.2.1⟩

end TensorCash
