import Mathlib.Data.List.Rotate
import Mathlib.Algebra.GroupWithZero.Nat
import Mathlib.Algebra.BigOperators.Group.List.Basic

/-! Equal shares of a whole number, with the units that are left going to the recipients from an
offset on. -/

namespace Apportion

variable {α : Type*} [DecidableEq α]

def paidTo (payments : List (α × Nat)) (a : α) : Nat := ((payments.filter fun p => p.1 = a).map Prod.snd).sum

@[simp] theorem paidTo_nil (a : α) : paidTo [] a = 0 := rfl

theorem paidTo_cons (p : α × Nat) (payments : List (α × Nat)) (a : α) :
    paidTo (p :: payments) a = (if p.1 = a then p.2 else 0) + paidTo payments a := by
  unfold paidTo
  by_cases is : p.1 = a <;> simp [is]

theorem paidTo_append (first second : List (α × Nat)) (a : α) :
    paidTo (first ++ second) a = paidTo first a + paidTo second a := by
  simp [paidTo]

variable {payments : List (α × Nat)} {a : α}

theorem paidTo_eq_zero (unnamed : ∀ p ∈ payments, p.1 ≠ a) :
    paidTo payments a = 0 := by
  have none : payments.filter (fun p => p.1 = a) = [] := by
    rw [List.filter_eq_nil_iff]
    intro p member
    simpa using unnamed p member
  rw [paidTo, none]
  rfl

theorem sum_single {recipients : List α} (distinct : recipients.Nodup) (member : a ∈ recipients)
    (n : Nat) : (recipients.map fun b => if a = b then n else 0).sum = n := by
  induction recipients with
  | nil => cases member
  | cons b rest ih =>
    obtain ⟨fresh, distinct⟩ := List.nodup_cons.mp distinct
    rw [List.map_cons, List.sum_cons]
    by_cases is : a = b
    · have others : (rest.map fun b => if a = b then n else 0).sum = 0 := by
        apply List.sum_eq_zero
        intro x inside
        obtain ⟨c, there, rfl⟩ := List.mem_map.mp inside
        rw [if_neg]
        rintro rfl
        exact fresh (is ▸ there)
      rw [if_pos is, others, Nat.add_zero]
    · rw [if_neg is, Nat.zero_add]
      exact ih distinct ((List.mem_cons.mp member).resolve_left is)

theorem sum_paidTo {recipients : List α} (distinct : recipients.Nodup)
    (named : ∀ p ∈ payments, p.1 ∈ recipients) :
    (recipients.map (paidTo payments)).sum = (payments.map Prod.snd).sum := by
  induction payments with
  | nil =>
    apply List.sum_eq_zero
    intro x inside
    obtain ⟨a, _, rfl⟩ := List.mem_map.mp inside
    rfl
  | cons p payments ih =>
    have rest := ih fun q member => named q (List.mem_cons_of_mem p member)
    have split : (recipients.map (paidTo (p :: payments))).sum =
        (recipients.map fun a => if p.1 = a then p.2 else 0).sum + (recipients.map (paidTo payments)).sum := by
      rw [← List.sum_map_add]
      exact congrArg List.sum (List.map_congr_left fun a _ => paidTo_cons p payments a)
    rw [split, rest, sum_single distinct (named p List.mem_cons_self), List.map_cons, List.sum_cons]

theorem paidTo_units_le {recipients : List α} (distinct : recipients.Nodup) (a : α) :
    paidTo (recipients.map fun b => (b, 1)) a ≤ 1 := by
  by_cases member : a ∈ recipients
  · have units := sum_single distinct member 1
    refine le_of_eq (Eq.trans ?_ units)
    clear units member distinct
    induction recipients with
    | nil => rfl
    | cons b rest ih => rw [List.map_cons, paidTo_cons, ih, List.map_cons, List.sum_cons]; simp [eq_comm]
  · rw [paidTo_eq_zero]
    · exact Nat.zero_le 1
    · intro p inside
      obtain ⟨b, there, rfl⟩ := List.mem_map.mp inside
      rintro rfl
      exact member there

theorem paidTo_equal {recipients : List α} (distinct : recipients.Nodup) (member : a ∈ recipients)
    (n : Nat) : paidTo (recipients.map fun b => (b, n)) a = n := by
  refine Eq.trans ?_ (sum_single distinct member n)
  clear member distinct
  induction recipients with
  | nil => rfl
  | cons b rest ih => rw [List.map_cons, paidTo_cons, ih, List.map_cons, List.sum_cons]; simp [eq_comm]

theorem paidTo_nothing (recipients : List α) (a : α) : paidTo (recipients.map fun b => (b, 0)) a = 0 := by
  induction recipients with
  | nil => rfl
  | cons b rest ih => rw [List.map_cons, paidTo_cons, ih, ite_self]

def apportion (recipients : List α) (off total : Nat) : List (α × Nat) :=
  (recipients.map fun a => (a, total / recipients.length)) ++
    ((recipients.rotate off).take (total % recipients.length)).map fun a => (a, 1)

variable {recipients : List α} (off total : Nat)

omit [DecidableEq α] in
theorem apportion_named {p : α × Nat} (paid : p ∈ apportion recipients off total) : p.1 ∈ recipients := by
  rcases List.mem_append.mp paid with equal | unit
  · obtain ⟨a, member, rfl⟩ := List.mem_map.mp equal
    exact member
  · obtain ⟨a, member, rfl⟩ := List.mem_map.mp unit
    exact List.mem_rotate.mp (List.mem_of_mem_take member)

theorem sum_apportion (some_one : recipients ≠ []) (distinct : recipients.Nodup) :
    (recipients.map (paidTo (apportion recipients off total))).sum = total := by
  rw [sum_paidTo distinct fun p paid => apportion_named off total paid]
  have fewer := Nat.mod_lt total (List.length_pos_of_ne_nil some_one)
  have taken : ((recipients.rotate off).take (total % recipients.length)).length = total % recipients.length := by
    rw [List.length_take, List.length_rotate]
    omega
  simp only [apportion, List.map_append, List.map_map, Function.comp_def, List.sum_append,
    List.map_const', List.sum_replicate_nat, taken, Nat.mul_one]
  exact Nat.div_add_mod total recipients.length

theorem paidTo_apportion (distinct : recipients.Nodup) (member : a ∈ recipients) :
    total / recipients.length ≤ paidTo (apportion recipients off total) a ∧
      paidTo (apportion recipients off total) a ≤ total / recipients.length + 1 := by
  have units := paidTo_units_le
    ((List.take_sublist (total % recipients.length) (recipients.rotate off)).nodup
      (List.nodup_rotate.mpr distinct)) a
  rw [apportion, paidTo_append, paidTo_equal distinct member]
  omega

end Apportion
