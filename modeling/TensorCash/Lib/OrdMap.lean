import Mathlib.Algebra.BigOperators.Group.List.Basic
import Mathlib.Order.Basic
import Mathlib.Order.Lattice
import Mathlib.Data.List.Pairwise

/-! Finite maps kept as key-sorted lists, so that equal lookups mean equal maps. -/

/-- A finite map whose entries are listed once each, in increasing key order. -/
structure OrdMap (K : Type*) (V : Type*) [LinearOrder K] where
  entries : List (K × V)
  sorted : entries.Pairwise (fun a b => a.1 < b.1)

namespace OrdMap

section Entries

variable {K V : Type*} [LinearOrder K]

def lookup (k : K) : List (K × V) → Option V
  | [] => none
  | (a, v) :: rest => if a = k then some v else lookup k rest

def insertSorted (k : K) (v : V) : List (K × V) → List (K × V)
  | [] => [(k, v)]
  | (a, w) :: rest =>
    if k < a then (k, v) :: (a, w) :: rest
    else if a = k then (k, v) :: rest
    else (a, w) :: insertSorted k v rest

variable {k : K} {v : V} {l : List (K × V)}

theorem mem_of_lookup (found : lookup k l = some v) : (k, v) ∈ l := by
  induction l with
  | nil => simp [lookup] at found
  | cons entry rest ih =>
    obtain ⟨a, w⟩ := entry
    by_cases same : a = k
    · simp_all [lookup]
    · simp only [lookup, if_neg same] at found
      exact List.mem_cons_of_mem _ (ih found)

theorem lookup_of_mem
    (sorted : l.Pairwise (fun a b => a.1 < b.1)) (member : (k, v) ∈ l) : lookup k l = some v := by
  induction l with
  | nil => simp at member
  | cons entry rest ih =>
    obtain ⟨a, w⟩ := entry
    rw [List.pairwise_cons] at sorted
    rcases List.mem_cons.mp member with same | later
    · simp_all [lookup]
    · -- A later entry has a larger key, so the head does not answer in its place.
      have differ : a ≠ k := ne_of_lt (sorted.1 _ later)
      simp only [lookup, if_neg differ]
      exact ih sorted.2 later

theorem lookup_insertSorted (k : K) (v : V) (j : K) (l : List (K × V)) :
    lookup j (insertSorted k v l) = if j = k then some v else lookup j l := by
  induction l with
  | nil =>
    by_cases same : j = k
    · simp [insertSorted, lookup, same]
    · simp [insertSorted, lookup, same, Ne.symm same]
  | cons entry rest ih =>
    obtain ⟨a, w⟩ := entry
    by_cases before : k < a
    · by_cases same : j = k
      · simp [insertSorted, before, lookup, same]
      · simp [insertSorted, before, lookup, same, Ne.symm same]
    · by_cases here : a = k
      · -- The head holds the key, and its value is replaced where it stands.
        subst here
        by_cases same : j = a
        · simp [insertSorted, lookup, same]
        · simp [insertSorted, lookup, same, Ne.symm same]
      · by_cases same : a = j
        · subst same
          simp [insertSorted, before, here, lookup]
        · simp [insertSorted, before, here, lookup, same, ih]

theorem mem_insertSorted {p : K × V}
    (member : p ∈ insertSorted k v l) : p = (k, v) ∨ p ∈ l := by
  induction l with
  | nil => simpa [insertSorted] using member
  | cons entry rest ih =>
    obtain ⟨a, w⟩ := entry
    unfold insertSorted at member
    split_ifs at member with before here
    · simpa using member
    · rcases List.mem_cons.mp member with same | later
      · exact .inl same
      · exact .inr (List.mem_cons_of_mem _ later)
    · rcases List.mem_cons.mp member with same | later
      · exact .inr (same ▸ List.mem_cons_self)
      · exact (ih later).imp_right (List.mem_cons_of_mem _)

theorem insertSorted_sorted (k : K) (v : V) (sorted : l.Pairwise (fun a b => a.1 < b.1)) :
    (insertSorted k v l).Pairwise (fun a b => a.1 < b.1) := by
  induction l with
  | nil => simp [insertSorted]
  | cons entry rest ih =>
    obtain ⟨a, w⟩ := entry
    rw [List.pairwise_cons] at sorted
    unfold insertSorted
    split_ifs with before here
    · -- The new key stands before the head, hence before everything behind it.
      refine List.pairwise_cons.mpr ⟨?_, List.pairwise_cons.mpr sorted⟩
      intro p member
      rcases List.mem_cons.mp member with same | later
      · simpa [same] using before
      · exact before.trans (sorted.1 p later)
    · subst here
      exact List.pairwise_cons.mpr sorted
    · refine List.pairwise_cons.mpr ⟨?_, ih sorted.2⟩
      intro p member
      rcases mem_insertSorted member with same | later
      · have after : a < k := lt_of_le_of_ne (not_lt.mp before) here
        simpa [same] using after
      · exact sorted.1 p later

theorem lookup_filter_ne (k j : K) (l : List (K × V)) :
    lookup j (l.filter fun p => p.1 ≠ k) = if j = k then none else lookup j l := by
  induction l with
  | nil => simp [lookup]
  | cons entry rest ih =>
    obtain ⟨a, w⟩ := entry
    by_cases dropped : a = k
    · subst dropped
      by_cases same : j = a
      · simp_all
      · simp_all [lookup, Ne.symm same]
    · by_cases same : a = j
      · subst same
        simp [lookup, dropped]
      · simp_all [lookup]

theorem eq_of_lookup_eq {m : List (K × V)} (sorted : l.Pairwise (fun a b => a.1 < b.1))
    (sorted' : m.Pairwise (fun a b => a.1 < b.1)) (agree : ∀ k, lookup k l = lookup k m) : l = m := by
  have same : ∀ p : K × V, p ∈ l ↔ p ∈ m := by
    intro p
    constructor
    · intro member
      exact mem_of_lookup ((agree p.1).symm.trans (lookup_of_mem sorted member))
    · intro member
      exact mem_of_lookup ((agree p.1).trans (lookup_of_mem sorted' member))
  -- Sorted lists with the same members are permutations, and a strict order fixes the permutation.
  have nodup : ∀ {l : List (K × V)}, l.Pairwise (fun a b => a.1 < b.1) → l.Nodup :=
    fun s => s.imp fun less equal => absurd (equal ▸ less) (lt_irrefl _)
  have perm : l.Perm m := (List.perm_ext_iff_of_nodup (nodup sorted) (nodup sorted')).mpr same
  exact perm.eq_of_pairwise (fun a b _ _ less more => absurd less (lt_asymm more)) sorted sorted'

end Entries

variable {K V W : Type*} [LinearOrder K]

def empty : OrdMap K V := ⟨[], List.Pairwise.nil⟩

instance : EmptyCollection (OrdMap K V) := ⟨empty⟩

instance : Inhabited (OrdMap K V) := ⟨empty⟩

instance [DecidableEq V] : DecidableEq (OrdMap K V) := fun a b =>
  decidable_of_iff (a.entries = b.entries) (by cases a; cases b; simp)

def get? (m : OrdMap K V) (k : K) : Option V := lookup k m.entries

def insert (m : OrdMap K V) (k : K) (v : V) : OrdMap K V :=
  ⟨insertSorted k v m.entries, insertSorted_sorted k v m.sorted⟩

def erase (m : OrdMap K V) (k : K) : OrdMap K V := ⟨m.entries.filter fun p => p.1 ≠ k, m.sorted.filter _⟩

def set (m : OrdMap K V) (k : K) : Option V → OrdMap K V
  | some v => m.insert k v
  | none => m.erase k

def contains (m : OrdMap K V) (k : K) : Bool := (m.get? k).isSome

@[ext] theorem ext {m n : OrdMap K V} (agree : ∀ k, m.get? k = n.get? k) : m = n := by
  have entries := eq_of_lookup_eq m.sorted n.sorted agree
  cases m
  cases n
  simpa using entries

@[simp] theorem get?_empty (k : K) : (∅ : OrdMap K V).get? k = none := rfl

@[grind =] theorem get?_insert (m : OrdMap K V) (k : K) (v : V) (j : K) :
    (m.insert k v).get? j = if j = k then some v else m.get? j := lookup_insertSorted k v j m.entries

@[grind =] theorem get?_erase (m : OrdMap K V) (k j : K) :
    (m.erase k).get? j = if j = k then none else m.get? j := lookup_filter_ne k j m.entries

@[grind =] theorem get?_set (m : OrdMap K V) (k : K) (v : Option V) (j : K) :
    (m.set k v).get? j = if j = k then v else m.get? j := by
  cases v
  · exact get?_erase m k j
  · exact get?_insert m k _ j

@[simp] theorem get?_insert_self (m : OrdMap K V) (k : K) (v : V) : (m.insert k v).get? k = some v := by
  simp [get?_insert]

theorem get?_insert_of_ne (m : OrdMap K V) (k : K) (v : V) {j : K} (differ : j ≠ k) :
    (m.insert k v).get? j = m.get? j := by
  simp [get?_insert, differ]

@[simp] theorem get?_erase_self (m : OrdMap K V) (k : K) : (m.erase k).get? k = none := by
  simp [get?_erase]

theorem get?_erase_of_ne (m : OrdMap K V) (k : K) {j : K} (differ : j ≠ k) : (m.erase k).get? j = m.get? j := by
  simp [get?_erase, differ]

theorem get?_foldl_modify (change : K → V → V) {keys : List K} (distinct : keys.Nodup)
    (m : OrdMap K V) (k : K) : (keys.foldl (fun m k =>
      match m.get? k with
      | some v => m.insert k (change k v)
      | none => m) m).get? k = if k ∈ keys then (m.get? k).map (change k) else m.get? k := by
  induction keys generalizing m with
  | nil => rfl
  | cons first rest ih =>
    rw [List.nodup_cons] at distinct
    rw [List.foldl_cons, ih distinct.2]
    by_cases own : k = first
    · -- The key's own step is the first one; none of the later ones has the key.
      subst own
      rw [if_neg distinct.1, if_pos List.mem_cons_self]
      cases found : m.get? k with
      | none => simp [found]
      | some v => simp
    · have outside : k ∈ first :: rest ↔ k ∈ rest := by simp [own]
      simp only [outside]
      cases m.get? first with
      | none => rfl
      | some v => simp only [get?_insert_of_ne _ _ _ own]

theorem mem_entries {m : OrdMap K V} {k : K} {v : V} : (k, v) ∈ m.entries ↔ m.get? k = some v :=
  ⟨lookup_of_mem m.sorted, mem_of_lookup⟩

theorem nodup_keys (m : OrdMap K V) : (m.entries.map Prod.fst).Nodup := by
  rw [List.Nodup, List.pairwise_map]
  exact m.sorted.imp ne_of_lt

end OrdMap
