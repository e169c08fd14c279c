import Mathlib.Data.List.Nodup
import Mathlib.Data.List.Forall2

/-! Demands are bound, one after the other, to the first free item that fits. -/

namespace Matching

universe u v

variable {ρ : Type u} {α : Type v}

/-- The position of the first item from `idx` on that is free and fits. -/
def firstFit (fits : α → Bool) (consumed : List Nat) : Nat → List α → Option Nat
  | _, [] => none
  | idx, item :: rest =>
    if idx ∉ consumed ∧ fits item then some idx else firstFit fits consumed (idx + 1) rest

/-- Binds every demand to an item of its own, first fit first. -/
def bindAll (fits : ρ → α → Bool) (items : List α) : List Nat → List ρ → Bool
  | _, [] => true
  | consumed, demand :: rest =>
    match firstFit (fits demand) consumed 0 items with
    | none => false
    | some idx => bindAll fits items (consumed ++ [idx]) rest

def FitsAt (fits : ρ → α → Bool) (items : List α) (demand : ρ) (idx : Nat) : Prop :=
  ∃ item, items[idx]? = some item ∧ fits demand item = true

def Assigned (fits : ρ → α → Bool) (items : List α) (demands : List ρ) (picks : List Nat) : Prop :=
  picks.Nodup ∧ List.Forall₂ (FitsAt fits items) demands picks

def Exclusive (fits : ρ → α → Bool) : Prop :=
  ∀ ⦃first second item⦄, fits first item = true → fits second item = true →
    ∀ other, fits first other = true → fits second other = true

section FirstFit

variable {fits : α → Bool} {consumed : List Nat} {start found : Nat} {items : List α}

theorem firstFit_eq_some (search : firstFit fits consumed start items = some found) :
    found ∉ consumed ∧ start ≤ found ∧ ∃ item, items[found - start]? = some item ∧ fits item = true := by
  induction items generalizing start with
  | nil => cases search
  | cons item rest ih =>
    rw [firstFit] at search
    split_ifs at search with here
    · cases search
      exact ⟨here.1, Nat.le_refl _, item, by simp, here.2⟩
    · -- The search goes on behind this item, so the position counts from there.
      obtain ⟨free, behind, other, at_, suits⟩ := ih search
      refine ⟨free, by omega, other, ?_, suits⟩
      rw [show found - start = (found - (start + 1)) + 1 by omega]
      exact at_

theorem firstFit_ne_none {idx : Nat} {item : α} (free : start + idx ∉ consumed)
    (at_ : items[idx]? = some item) (suits : fits item = true) : firstFit fits consumed start items ≠ none := by
  induction items generalizing start idx with
  | nil => simp at at_
  | cons first rest ih =>
    rw [firstFit]
    split_ifs with here
    · simp
    · cases idx with
      | zero =>
        cases at_
        exact absurd ⟨free, suits⟩ here
      | succ idx => exact ih (by rwa [Nat.add_right_comm]) (by simpa using at_)

end FirstFit

section BindAll

variable {fits : ρ → α → Bool} {items : List α} {consumed picks : List Nat} {demands : List ρ}

theorem assigned_of_bindAll (bound : bindAll fits items consumed demands = true) :
    ∃ picks, Assigned fits items demands picks ∧ ∀ idx ∈ picks, idx ∉ consumed := by
  induction demands generalizing consumed with
  | nil => exact ⟨[], ⟨List.nodup_nil, .nil⟩, by simp⟩
  | cons demand rest ih =>
    rw [bindAll] at bound
    split at bound
    · cases bound
    · next idx search =>
      obtain ⟨free, _, item, at_, suits⟩ := firstFit_eq_some search
      obtain ⟨picks, ⟨distinct, each⟩, fresh⟩ := ih bound
      have apart : idx ∉ picks := fun member => fresh idx member (by simp)
      refine ⟨idx :: picks, ⟨List.nodup_cons.mpr ⟨apart, distinct⟩, .cons ⟨item, by simpa using at_, suits⟩ each⟩, ?_⟩
      rintro pick (_ | ⟨_, member⟩)
      · exact free
      · exact fun taken => fresh pick member (by simp [taken])

theorem Assigned.trade {taken left : Nat} {demand : ρ} (exclusive : Exclusive fits)
    (assigned : Assigned fits items demands picks) (taken_fits : FitsAt fits items demand taken)
    (left_fits : FitsAt fits items demand left) (left_free : left ∉ picks) :
    Assigned fits items demands (picks.map fun idx => if idx = taken then left else idx) := by
  obtain ⟨distinct, each⟩ := assigned
  constructor
  · -- The traded position was not picked before, so the positions stay distinct.
    refine distinct.map_on fun a member b member' same => ?_
    split_ifs at same with first second second
    · rw [first, second]
    · exact absurd (same ▸ member') left_free
    · exact absurd (same ▸ member) left_free
    · exact same
  · rw [List.forall₂_map_right_iff]
    refine each.imp fun other idx suits => ?_
    split_ifs with traded
    · -- The other demand shares an item with this one, so it accepts the item that was left.
      subst traded
      obtain ⟨item, at_, other_suits⟩ := suits
      obtain ⟨item', at_', demand_suits⟩ := taken_fits
      obtain rfl := Option.mem_unique at_ at_'
      obtain ⟨leftItem, left_at, left_suits⟩ := left_fits
      exact ⟨leftItem, left_at, exclusive demand_suits other_suits leftItem left_suits⟩
    · exact suits

theorem bindAll_of_assigned (exclusive : Exclusive fits) (assigned : Assigned fits items demands picks)
    (fresh : ∀ idx ∈ picks, idx ∉ consumed) : bindAll fits items consumed demands = true := by
  induction demands generalizing consumed picks with
  | nil => rfl
  | cons demand rest ih =>
    obtain ⟨distinct, each⟩ := assigned
    obtain _ | ⟨suits, each⟩ := each
    rename_i pick picks
    obtain ⟨apart, distinct⟩ := List.nodup_cons.mp distinct
    have pick_free : pick ∉ consumed := fresh pick (by simp)
    rw [bindAll]
    split
    · next search =>
      obtain ⟨item, at_, fit⟩ := suits
      exact absurd search (firstFit_ne_none (by simpa using pick_free) at_ fit)
    · next idx search =>
      obtain ⟨free, _, item, at_, fit⟩ := firstFit_eq_some search
      have idx_fits : FitsAt fits items demand idx := ⟨item, by simpa using at_, fit⟩
      -- The later demands keep their picks, but for the one that the search has just taken.
      refine ih (Assigned.trade exclusive ⟨distinct, each⟩ idx_fits suits apart) ?_
      intro other member
      obtain ⟨before, before_member, rfl⟩ := List.mem_map.mp member
      have before_free := fresh before (by simp [before_member])
      split_ifs with traded
      · simp only [List.mem_append, List.mem_singleton, not_or]
        refine ⟨pick_free, fun same => apart ?_⟩
        rw [same, ← traded]
        exact before_member
      · simp [before_free, traded]

theorem bindAll_iff (exclusive : Exclusive fits) :
    bindAll fits items [] demands = true ↔ ∃ picks, Assigned fits items demands picks := by
  constructor
  · intro bound
    obtain ⟨picks, assigned, _⟩ := assigned_of_bindAll bound
    exact ⟨picks, assigned⟩
  · rintro ⟨picks, assigned⟩
    exact bindAll_of_assigned exclusive assigned (by simp)

end BindAll

variable {items items' : List α} {fits : ρ → α → Bool} {demands : List ρ} {picks : List Nat}

theorem exists_positions (perm : items.Perm items') :
    ∃ place : Nat → Nat, (∀ i < items.length, items'[place i]? = items[i]?) ∧
      ∀ i < items.length, ∀ j < items.length, place i = place j → i = j := by
  induction perm with
  | nil => exact ⟨id, by simp, by simp⟩
  | @cons item items items' _ ih =>
    obtain ⟨place, same, apart⟩ := ih
    refine ⟨fun i => if i = 0 then 0 else place (i - 1) + 1, ?_, ?_⟩
    · rintro (_ | i) bound
      · rfl
      · simpa using same i (by simpa using bound)
    · rintro (_ | i) bound (_ | j) bound' equal
      · rfl
      · simp at equal
      · simp at equal
      · have inner := apart i (by simpa using bound) j (by simpa using bound') (by simpa using equal)
        rw [inner]
  | swap a b items =>
    refine ⟨fun i => if i = 0 then 1 else if i = 1 then 0 else i, ?_, ?_⟩
    · rintro (_ | _ | i) bound <;> simp
    · intro i _ j _ equal
      grind
  | trans first second ih ih' =>
    obtain ⟨place, same, apart⟩ := ih
    obtain ⟨place', same', apart'⟩ := ih'
    -- A place in the middle list is in range, since an item is found there.
    have within : ∀ i < _, place i < _ := fun i bound => by
      have there := same i bound
      rw [List.getElem?_eq_getElem bound] at there
      exact (List.getElem?_eq_some_iff.mp there).1
    refine ⟨fun i => place' (place i), fun i bound => ?_, fun i bound j bound' equal => ?_⟩
    · rw [same' _ (within i bound), same i bound]
    · exact apart i bound j bound' (apart' _ (within i bound) _ (within j bound') equal)

theorem FitsAt.lt_length {demand : ρ} {idx : Nat}
    (suits : FitsAt fits items demand idx) : idx < items.length := by
  obtain ⟨item, at_, _⟩ := suits
  exact (List.getElem?_eq_some_iff.mp at_).1

theorem lt_length_of_mem
    (each : List.Forall₂ (FitsAt fits items) demands picks) : ∀ idx ∈ picks, idx < items.length := by
  induction each with
  | nil => simp
  | cons suits _ ih =>
    rintro idx (_ | ⟨_, member⟩)
    · exact suits.lt_length
    · exact ih idx member

theorem Assigned.perm
    (assigned : Assigned fits items demands picks) (perm : items.Perm items') :
    ∃ picks', Assigned fits items' demands picks' := by
  obtain ⟨place, same, apart⟩ := exists_positions perm
  obtain ⟨distinct, each⟩ := assigned
  have within := lt_length_of_mem each
  refine ⟨picks.map place, distinct.map_on fun a member b member' equal =>
    apart a (within a member) b (within b member') equal, ?_⟩
  rw [List.forall₂_map_right_iff]
  refine each.imp fun demand idx suits => ?_
  have bound := suits.lt_length
  obtain ⟨item, at_, fit⟩ := suits
  exact ⟨item, by rw [same idx bound, at_], fit⟩

theorem bindAll_perm (exclusive : Exclusive fits) (perm : items.Perm items') (demands : List ρ) :
    bindAll fits items [] demands = bindAll fits items' [] demands := by
  rw [Bool.eq_iff_iff, bindAll_iff exclusive, bindAll_iff exclusive]
  exact ⟨fun ⟨_, assigned⟩ => assigned.perm perm, fun ⟨_, assigned⟩ => assigned.perm perm.symm⟩

end Matching
