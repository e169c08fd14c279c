import Mathlib.Data.List.Perm.Basic
import TensorCash.Lib.Checked
import TensorCash.Lib.OrdMap

/-! A fallible loop succeeds alike in any order of its list when neighbouring steps can be
exchanged. -/

namespace Checked

section Loops

variable {ε σ α : Type} {step : σ → α → Except ε σ} {s t : σ}

def Exchange (step : σ → α → Except ε σ) (a b : α) : Prop :=
  ∀ s t, (step s a >>= fun mid => step mid b) = .ok t ↔ (step s b >>= fun mid => step mid a) = .ok t

variable {a : α} {rest front items : List α}

theorem foldlM_cons_eq_ok : (a :: rest).foldlM step s = .ok t ↔
      ∃ mid, step s a = .ok mid ∧ rest.foldlM step mid = .ok t := by
  rw [List.foldlM_cons, bind_eq_ok]

theorem foldlM_append_eq_ok : (front ++ rest).foldlM step s = .ok t ↔
      ∃ mid, front.foldlM step s = .ok mid ∧ rest.foldlM step mid = .ok t := by
  rw [List.foldlM_append, bind_eq_ok]

theorem foldlM_swap {b : α} (free : Exchange step a b) :
    (a :: b :: rest).foldlM step s = .ok t ↔ (b :: a :: rest).foldlM step s = .ok t := by
  have pair : ∀ x y : α, (x :: y :: rest).foldlM step s = .ok t ↔
      ∃ mid, (step s x >>= fun mid => step mid y) = .ok mid ∧ rest.foldlM step mid = .ok t := by
    intro x y
    rw [List.foldlM_cons]
    simp only [List.foldlM_cons, ← bind_assoc, bind_eq_ok]
  rw [pair, pair]
  exact exists_congr fun mid => and_congr_left' (free s mid)

theorem foldlM_perm {other : List α} (same : items.Perm other)
    (free : ∀ a ∈ items, ∀ b ∈ items, Exchange step a b) :
    items.foldlM step s = .ok t ↔ other.foldlM step s = .ok t := by
  induction same generalizing s with
  | nil => exact Iff.rfl
  | cons a _ ih =>
    rw [foldlM_cons_eq_ok, foldlM_cons_eq_ok]
    refine exists_congr fun mid => and_congr_right' (ih fun b inside d within => ?_)
    exact free b (List.mem_cons_of_mem _ inside) d (List.mem_cons_of_mem _ within)
  | swap a b l => exact foldlM_swap (free b (by simp) a (by simp))
  | trans first _ ih₁ ih₂ =>
    refine (ih₁ free).trans (ih₂ fun a inside b within => ?_)
    exact free a (first.mem_iff.mpr inside) b (first.mem_iff.mpr within)

theorem foldlM_pass (free : ∀ b ∈ front, Exchange step a b) :
    (a :: (front ++ rest)).foldlM step s = .ok t ↔ (front ++ a :: rest).foldlM step s = .ok t := by
  induction front generalizing s with
  | nil => exact Iff.rfl
  | cons b front ih =>
    rw [List.cons_append, foldlM_swap (free b List.mem_cons_self), List.cons_append, foldlM_cons_eq_ok,
      foldlM_cons_eq_ok]
    exact exists_congr fun mid => and_congr_right' (ih fun d inside => free d (List.mem_cons_of_mem _ inside))

theorem foldlM_kinds {kind : α → Bool}
    (free : ∀ a ∈ items, ∀ b ∈ items, kind a = false → kind b = true → Exchange step a b) :
    items.foldlM step s = .ok t ↔
      (items.filter kind ++ items.filter fun a => !kind a).foldlM step s = .ok t := by
  induction items generalizing s with
  | nil => exact Iff.rfl
  | cons a rest ih =>
    have later := fun mid => @ih mid fun b inside d within =>
      free b (List.mem_cons_of_mem _ inside) d (List.mem_cons_of_mem _ within)
    cases sort : kind a with
    | true =>
      simp only [List.filter_cons, sort, Bool.not_true, if_true, Bool.false_eq_true, if_false, List.cons_append]
      rw [foldlM_cons_eq_ok, foldlM_cons_eq_ok]
      exact exists_congr fun mid => and_congr_right' (later mid)
    | false =>
      -- The item waits until those of the kind have been taken.
      simp only [List.filter_cons, sort, Bool.not_false, if_true, Bool.false_eq_true, if_false]
      rw [← foldlM_pass fun b inside => ?_, foldlM_cons_eq_ok, foldlM_cons_eq_ok]
      · exact exists_congr fun mid => and_congr_right' (later mid)
      · obtain ⟨inside, other⟩ := List.mem_filter.mp inside
        exact free a List.mem_cons_self b (List.mem_cons_of_mem _ inside) sort other

end Loops

def Tracks {ε α β : Type} (related : α → β → Prop) (x : Except ε α) (y : Except ε β) : Prop :=
  ∀ a, x = .ok a → ∃ b, y = .ok b ∧ related a b

namespace Tracks

variable {ε α β γ δ ι κ : Type} {related : α → β → Prop} {next : γ → δ → Prop} {x : Except ε α}
  {y : Except ε β} {a : α} {b : β} {f : α → Except ε γ} {step : α → ι → Except ε α}

theorem ok (holds : related a b) : Tracks related (.ok a : Except ε α) (.ok b) := by
  rintro _ ⟨⟩
  exact ⟨b, rfl, holds⟩

theorem error {failure : ε} : Tracks related (.error failure : Except ε α) y := by
  rintro _ ⟨⟩

theorem bind {g : β → Except ε δ} (first : Tracks related x y)
    (rest : ∀ a b, related a b → Tracks next (f a) (g b)) : Tracks next (x >>= f) (y >>= g) := by
  intro c run
  obtain ⟨a, done, run⟩ := bind_eq_ok.mp run
  obtain ⟨b, done', holds⟩ := first a done
  obtain ⟨d, run', follows⟩ := rest a b holds c run
  exact ⟨d, bind_eq_ok.mpr ⟨b, done', run'⟩, follows⟩

theorem mapError {rename rename' : ε → ε} (tracks : Tracks related x y) :
    Tracks related (x.mapError rename) (y.mapError rename') := by
  intro a run
  obtain ⟨b, done, holds⟩ := tracks a (mapError_eq_ok.mp run)
  exact ⟨b, mapError_eq_ok.mpr done, holds⟩

theorem seq {x y : Except ε α} {g : α → Except ε δ} (same : y = x)
    (rest : ∀ a, Tracks next (f a) (g a)) : Tracks next (x >>= f) (y >>= g) := by
  subst same
  exact bind (fun a run => ⟨a, run, rfl⟩ : Tracks Eq y y) fun a _ same => same ▸ rest a

theorem foldlM {step' : β → κ → Except ε β} {pairs : ι → κ → Prop}
    (each : ∀ a b item item', related a b → pairs item item' → Tracks related (step a item) (step' b item'))
    {items : List ι} {items' : List κ} (alike : List.Forall₂ pairs items items')
    (start : related a b) : Tracks related (items.foldlM step a) (items'.foldlM step' b) := by
  induction alike generalizing a b with
  | nil => exact ok start
  | cons first _ ih =>
    rw [List.foldlM_cons, List.foldlM_cons]
    exact bind (each _ _ _ _ start first) fun _ _ holds => ih holds

theorem foldlM_same {step' : β → ι → Except ε β}
    (each : ∀ a b item, related a b → Tracks related (step a item) (step' b item))
    (items : List ι) (start : related a b) :
    Tracks related (items.foldlM step a) (items.foldlM step' b) :=
  foldlM (fun a b _ _ holds same => same ▸ each a b _ holds) (List.forall₂_same.mpr fun _ _ => rfl) start

end Tracks

end Checked

namespace OrdMap

variable {K V : Type*} [LinearOrder K]

theorem insert_comm (m : OrdMap K V) {k j : K} (v w : V) (differ : k ≠ j) :
    (m.insert k v).insert j w = (m.insert j w).insert k v := by
  ext i : 1
  rw [get?_insert, get?_insert, get?_insert, get?_insert]
  split_ifs with first second
  · exact absurd (second.symm.trans first) differ
  · rfl
  · rfl
  · rfl

theorem insert_insert_self (m : OrdMap K V) (k : K) (v w : V) : (m.insert k v).insert k w = m.insert k w := by
  ext i : 1
  rw [get?_insert, get?_insert, get?_insert]
  split_ifs <;> rfl

theorem insertSorted_perm {k : K} {v : V} {l : List (K × V)} (absent : lookup k l = none) :
    (insertSorted k v l).Perm ((k, v) :: l) := by
  induction l with
  | nil => exact .refl _
  | cons entry rest ih =>
    obtain ⟨a, w⟩ := entry
    unfold lookup at absent
    split_ifs at absent with same
    unfold insertSorted
    split_ifs
    · exact .refl _
    · exact ((ih absent).cons _).trans (.swap _ _ _)

theorem entries_insert_perm {m : OrdMap K V} {k : K} (v : V) (absent : m.get? k = none) :
    (m.insert k v).entries.Perm ((k, v) :: m.entries) := insertSorted_perm absent

end OrdMap
