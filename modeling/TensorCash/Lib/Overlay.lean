import TensorCash.Lib.OrdMap

/-! For some keys, the last change that was asked for; reading falls back to what lies below. -/

namespace Overlay

variable {K V : Type*} [LinearOrder K]

/-- What a key reads as through an overlay, above a given answer. -/
def read (overlay : OrdMap K (Option V)) (below : Option V) (k : K) : Option V := (overlay.get? k).getD below

/-- The changes of a child take the place of the parent's for the keys they share. -/
def merge (parent child : OrdMap K (Option V)) : OrdMap K (Option V) :=
  child.entries.foldl (fun overlay change => overlay.insert change.1 change.2) parent

/-- The map with a list of changes made to it, the first one first. -/
def replay (changes : List (K × Option V)) (m : OrdMap K V) : OrdMap K V :=
  changes.foldl (fun m change => m.set change.1 change.2) m

theorem replay_append (first second : List (K × Option V)) (m : OrdMap K V) :
    replay (first ++ second) m = replay second (replay first m) := List.foldl_append

/-- The map with an overlay's changes made to it. -/
def commit (overlay : OrdMap K (Option V)) (m : OrdMap K V) : OrdMap K V := replay overlay.entries m

theorem lookup_eq_none_iff {W : Type*} {k : K} {changes : List (K × W)} :
    OrdMap.lookup k changes = none ↔ k ∉ changes.map Prod.fst := by
  induction changes with
  | nil => simp [OrdMap.lookup]
  | cons change rest ih =>
    by_cases own : change.1 = k
    · simp [OrdMap.lookup, own]
    · simp [OrdMap.lookup, own, ih, Ne.symm own]

theorem get?_foldl_insert (changes : List (K × V)) (distinct : (changes.map Prod.fst).Nodup)
    (m : OrdMap K V) (k : K) : (changes.foldl (fun m change => m.insert change.1 change.2) m).get? k =
      (OrdMap.lookup k changes).or (m.get? k) := by
  induction changes generalizing m with
  | nil => rfl
  | cons change rest ih =>
    rw [List.map_cons, List.nodup_cons] at distinct
    rw [List.foldl_cons, ih distinct.2, OrdMap.get?_insert, OrdMap.lookup]
    by_cases own : k = change.1
    · -- No later change has this key.
      rw [lookup_eq_none_iff.mpr (own ▸ distinct.1), if_pos own, if_pos own.symm]
      rfl
    · rw [if_neg own, if_neg fun same => own same.symm]

theorem get?_replay (changes : List (K × Option V)) (distinct : (changes.map Prod.fst).Nodup)
    (m : OrdMap K V) (k : K) : (replay changes m).get? k = (OrdMap.lookup k changes).getD (m.get? k) := by
  induction changes generalizing m with
  | nil => rfl
  | cons change rest ih =>
    rw [List.map_cons, List.nodup_cons] at distinct
    rw [replay, List.foldl_cons, ← replay, ih distinct.2, OrdMap.get?_set, OrdMap.lookup]
    by_cases own : k = change.1
    · rw [lookup_eq_none_iff.mpr (own ▸ distinct.1), if_pos own, if_pos own.symm]
      rfl
    · rw [if_neg own, if_neg fun same => own same.symm]

theorem get?_commit (overlay : OrdMap K (Option V)) (m : OrdMap K V) (k : K) :
    (commit overlay m).get? k = read overlay (m.get? k) k := get?_replay overlay.entries overlay.nodup_keys m k

theorem get?_merge (parent child : OrdMap K (Option V)) (k : K) :
    (merge parent child).get? k = (child.get? k).or (parent.get? k) :=
  get?_foldl_insert child.entries child.nodup_keys parent k

@[simp] theorem commit_empty (m : OrdMap K V) : commit ∅ m = m := rfl

theorem commit_insert (overlay : OrdMap K (Option V)) (k : K) (change : Option V) (m : OrdMap K V) :
    commit (overlay.insert k change) m = (commit overlay m).set k change := by
  ext1 j
  rw [get?_commit, OrdMap.get?_set, get?_commit, read, read, OrdMap.get?_insert]
  split_ifs with own
  · rfl
  · rfl

theorem commit_merge (parent child : OrdMap K (Option V)) (m : OrdMap K V) :
    commit (merge parent child) m = commit child (commit parent m) := by
  ext1 k
  rw [get?_commit, get?_commit, get?_commit, read, read, read, get?_merge]
  cases child.get? k with
  | none => rfl
  | some change => rfl

end Overlay
