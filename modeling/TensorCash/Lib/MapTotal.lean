import TensorCash.Lib.OrdMap
import Mathlib.Algebra.GroupWithZero.Nat
import Mathlib.Data.List.Forall2

/-! The total weight of the values of a finite map, and what writing and erasing do to it. -/

namespace OrdMap

section Total

variable {K V : Type*} [LinearOrder K] {w : V → Nat} {m : OrdMap K V}

/-- The weights of all values together. -/
def total (w : V → Nat) (m : OrdMap K V) : Nat := (m.entries.map fun p => w p.2).sum

@[simp] theorem total_empty : total w (∅ : OrdMap K V) = 0 := rfl

theorem sum_insertSorted_le (k : K) (v : V) (l : List (K × V)) :
    ((insertSorted k v l).map fun p => w p.2).sum ≤ (l.map fun p => w p.2).sum + w v := by
  induction l with
  | nil => simp [insertSorted]
  | cons entry rest ih =>
    obtain ⟨a, u⟩ := entry
    unfold insertSorted
    split_ifs <;> simp only [List.map_cons, List.sum_cons] <;> omega

/-- A value that is written over is lost, so there is no equality here. -/
theorem total_insert_le (k : K) (v : V) : total w (m.insert k v) ≤ total w m + w v :=
  sum_insertSorted_le k v m.entries

theorem sum_filter_ne {k : K} {v : V} {l : List (K × V)} (sorted : l.Pairwise (fun a b => a.1 < b.1))
    (found : lookup k l = some v) :
    ((l.filter fun p => p.1 ≠ k).map fun p => w p.2).sum + w v = (l.map fun p => w p.2).sum := by
  induction l with
  | nil => simp [lookup] at found
  | cons entry rest ih =>
    obtain ⟨a, u⟩ := entry
    rw [List.pairwise_cons] at sorted
    by_cases same : a = k
    · subst same
      obtain rfl : u = v := by simpa [lookup] using found
      -- The keys behind the head are larger, so nothing else goes.
      have kept : (rest.filter fun p => p.1 ≠ a) = rest :=
        List.filter_eq_self.mpr fun p member => by simpa using (sorted.1 p member).ne'
      rw [List.filter_cons_of_neg (by simp), kept, List.map_cons, List.sum_cons, Nat.add_comm]
    · rw [lookup, if_neg same] at found
      rw [List.filter_cons_of_pos (by simpa using same), List.map_cons, List.map_cons, List.sum_cons,
        List.sum_cons, Nat.add_assoc, ih sorted.2 found]

theorem total_erase {k : K} {v : V} (found : m.get? k = some v) : total w (m.erase k) + w v = total w m :=
  sum_filter_ne m.sorted found

/-- Erasing distinct keys takes away what they held, each once. -/
theorem total_erase_each {keys : List K} {values : List V} (distinct : keys.Nodup)
    (found : List.Forall₂ (fun k v => m.get? k = some v) keys values) :
    total w (keys.foldl OrdMap.erase m) + (values.map w).sum = total w m := by
  induction keys generalizing m values with
  | nil =>
    cases found
    simp
  | cons k rest ih =>
    obtain ⟨fresh, distinct⟩ := List.nodup_cons.mp distinct
    cases found with
    | @cons _ v _ others here later =>
      -- The keys that are left are other keys, so they are still found.
      have still : List.Forall₂ (fun j v => (m.erase k).get? j = some v) rest others := by
        refine List.forall₂_iff_zip.mpr ⟨later.length_eq, fun {j u} paired => ?_⟩
        have other : j ≠ k := fun same => fresh (same ▸ (List.of_mem_zip paired).1)
        rw [get?_erase, if_neg other]
        exact (List.forall₂_iff_zip.mp later).2 paired
      have rest_taken := ih distinct still
      have first_taken := total_erase (w := w) here
      rw [List.foldl_cons, List.map_cons, List.sum_cons]
      omega

/-- Values that are no heavier, under no more keys, weigh no more in total. -/
theorem total_le_total {m' : OrdMap K V}
    (among : ∀ k v, m'.get? k = some v → ∃ old, m.get? k = some old ∧ w v ≤ w old) :
    total w m' ≤ total w m := by
  have distinct := m'.nodup_keys
  have each : ∀ p ∈ m'.entries, ∃ old, m.get? p.1 = some old ∧ w p.2 ≤ w old :=
    fun p member => among p.1 p.2 (mem_entries.mp member)
  unfold total at *
  -- Key by key, the heavier entry is taken out of the other map.
  clear among
  generalize m'.entries = l at distinct each
  induction l generalizing m with
  | nil => exact Nat.zero_le _
  | cons p rest ih =>
    obtain ⟨fresh, distinct⟩ := List.nodup_cons.mp distinct
    obtain ⟨old, found, lighter⟩ := each p List.mem_cons_self
    have taken := total_erase (w := w) found
    have smaller := ih (m := m.erase p.1) distinct fun q member => by
      have other : q.1 ≠ p.1 := fun same => fresh (same ▸ List.mem_map_of_mem (f := Prod.fst) member)
      rw [get?_erase, if_neg other]
      exact each q (List.mem_cons_of_mem _ member)
    unfold total at taken
    rw [List.map_cons, List.sum_cons]
    omega

end Total

end OrdMap
