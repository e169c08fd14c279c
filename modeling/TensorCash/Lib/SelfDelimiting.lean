import Mathlib.Data.List.Basic
import Mathlib.Tactic.Ring
import Mathlib.Data.Nat.Basic

/-! Byte encodings whose code words can be split off the front of any longer string. -/

abbrev Bytes := List UInt8

namespace Codec

def leBytes : Nat → Nat → Bytes
  | 0, _ => []
  | width + 1, x => UInt8.ofNat x :: leBytes width (x / 256)

/-- The number a byte string stands for, least significant byte first. -/
def leNat : Bytes → Nat
  | [] => 0
  | b :: rest => b.toNat + 256 * leNat rest

@[simp] theorem leBytes_length (width x : Nat) : (leBytes width x).length = width := by
  induction width generalizing x with
  | zero => rfl
  | succ width ih => simp [leBytes, ih]

theorem leNat_leBytes (width x : Nat) : leNat (leBytes width x) = x % 256 ^ width := by
  induction width generalizing x with
  | zero => simp [leBytes, leNat, Nat.mod_one]
  | succ width ih =>
    -- The low byte and the written quotient are the two parts of one remainder.
    have low : (UInt8.ofNat x).toNat = x % 256 := by simp
    rw [leBytes, leNat, ih, low, Nat.pow_succ', Nat.mod_mul]

theorem leBytes_inj {width x y : Nat} (small : x < 256 ^ width) (small' : y < 256 ^ width)
    (same : leBytes width x = leBytes width y) : x = y := by
  have numbers := congrArg leNat same
  rwa [leNat_leBytes, leNat_leBytes, Nat.mod_eq_of_lt small, Nat.mod_eq_of_lt small'] at numbers

/-- Takes a little-endian number of the given width off the front of a string. -/
def readLE (width : Nat) (s : Bytes) : Option (Nat × Bytes) :=
  if s.length < width then none else some (leNat (s.take width), s.drop width)

theorem readLE_leBytes {width x : Nat} (small : x < 256 ^ width) (rest : Bytes) :
    readLE width (leBytes width x ++ rest) = some (x, rest) := by
  have long : ¬ (leBytes width x ++ rest).length < width := by simp
  rw [readLE, if_neg long, List.take_left' (leBytes_length width x),
    List.drop_left' (leBytes_length width x), leNat_leBytes, Nat.mod_eq_of_lt small]

section

variable {α β : Type*}

/-- On its domain, a code word in front of any string determines both the value and the rest. -/
def SelfDelimiting (dom : α → Prop) (enc : α → Bytes) : Prop :=
  ∀ ⦃a b : α⦄, dom a → dom b → ∀ ⦃r s : Bytes⦄, enc a ++ r = enc b ++ s → a = b ∧ r = s

variable {dom : α → Prop} {enc : α → Bytes}

theorem SelfDelimiting.of_reader (read : Bytes → Option (α × Bytes))
    (reads : ∀ a, dom a → ∀ rest, read (enc a ++ rest) = some (a, rest)) : SelfDelimiting dom enc := by
  intro a b inside inside' r s same
  have readings := (reads a inside r).symm.trans ((congrArg read same).trans (reads b inside' s))
  simpa using readings

theorem SelfDelimiting.of_length (width : Nat)
    (fixed : ∀ a, dom a → (enc a).length = width)
    (injective : ∀ a b, dom a → dom b → enc a = enc b → a = b) : SelfDelimiting dom enc := by
  intro a b inside inside' r s same
  obtain ⟨words, rest⟩ := List.append_inj same (by rw [fixed a inside, fixed b inside'])
  exact ⟨injective a b inside inside' words, rest⟩

theorem SelfDelimiting.append {domA : α → Prop} {domB : α → β → Prop} {encA : α → Bytes}
    {encB : α → β → Bytes} (first : SelfDelimiting domA encA)
    (second : ∀ a, domA a → SelfDelimiting (domB a) (encB a)) :
    SelfDelimiting (fun p : α × β => domA p.1 ∧ domB p.1 p.2) (fun p => encA p.1 ++ encB p.1 p.2) := by
  rintro ⟨a, x⟩ ⟨b, y⟩ ⟨insideA, insideX⟩ ⟨insideB, insideY⟩ r s same
  simp only [List.append_assoc] at same
  obtain ⟨head, same⟩ := first insideA insideB same
  dsimp only at head
  subst head
  obtain ⟨tail, rest⟩ := second a insideA insideX insideY same
  exact ⟨Prod.ext rfl tail, rest⟩

theorem SelfDelimiting.comap {dom : β → Prop} {enc : β → Bytes} (code : SelfDelimiting dom enc)
    (view : α → β) (injective : Function.Injective view) :
    SelfDelimiting (fun a => dom (view a)) (fun a => enc (view a)) := by
  intro a b inside inside' r s same
  obtain ⟨views, rest⟩ := code inside inside' same
  exact ⟨injective views, rest⟩

theorem SelfDelimiting.mono {dom' : α → Prop}
    (code : SelfDelimiting dom enc) (smaller : ∀ a, dom' a → dom a) : SelfDelimiting dom' enc :=
  fun a b inside inside' => code (smaller a inside) (smaller b inside')

theorem SelfDelimiting.flatMap (code : SelfDelimiting dom enc) (length : Nat) :
    SelfDelimiting (fun l : List α => l.length = length ∧ ∀ a ∈ l, dom a) (fun l => l.flatMap enc) := by
  -- Both lists have the same length, so peeling one element from each ends at the same time.
  intro l m inside inside' r s same
  induction l generalizing m length with
  | nil =>
    have empty : m = [] := List.length_eq_zero_iff.mp (inside'.1.trans inside.1.symm)
    subst empty
    exact ⟨rfl, by simpa using same⟩
  | cons a l ih =>
    cases m with
    | nil => exact absurd (inside'.1.trans inside.1.symm) (by simp)
    | cons b m =>
      simp only [List.flatMap_cons, List.append_assoc] at same
      obtain ⟨head, same⟩ := code (inside.2 a (by simp)) (inside'.2 b (by simp)) same
      have tails := ih l.length ⟨rfl, fun x member => inside.2 x (by simp [member])⟩
        ⟨by have := inside.1.trans inside'.1.symm; simp at this; omega,
          fun x member => inside'.2 x (by simp [member])⟩ same
      exact ⟨by rw [head, tails.1], tails.2⟩

theorem SelfDelimiting.flatMap_inj
    (code : SelfDelimiting dom enc) (nonempty : ∀ a, dom a → enc a ≠ []) {l m : List α}
    (inside : ∀ a ∈ l, dom a) (inside' : ∀ a ∈ m, dom a) (same : l.flatMap enc = m.flatMap enc) : l = m := by
  induction l generalizing m with
  | nil =>
    cases m with
    | nil => rfl
    | cons b m =>
      -- A word is left over on the right.
      have empty : enc b = [] := (List.append_eq_nil_iff.mp same.symm).1
      exact absurd empty (nonempty b (inside' b (by simp)))
  | cons a l ih =>
    cases m with
    | nil =>
      have empty : enc a = [] := (List.append_eq_nil_iff.mp same).1
      exact absurd empty (nonempty a (inside a (by simp)))
    | cons b m =>
      simp only [List.flatMap_cons] at same
      obtain ⟨rfl, tails⟩ := code (inside a (by simp)) (inside' b (by simp)) same
      have rest : l = m := ih (fun x member => inside x (List.mem_cons_of_mem _ member))
        (fun x member => inside' x (List.mem_cons_of_mem _ member)) tails
      rw [rest]

theorem SelfDelimiting.counted {domN : Nat → Prop} {encN : Nat → Bytes}
    (count : SelfDelimiting domN encN) (code : SelfDelimiting dom enc) :
    SelfDelimiting (fun l : List α => domN l.length ∧ ∀ a ∈ l, dom a)
      (fun l => encN l.length ++ l.flatMap enc) := by
  intro l m inside inside' r s same
  simp only [List.append_assoc] at same
  obtain ⟨lengths, same⟩ := count inside.1 inside'.1 same
  exact code.flatMap l.length ⟨rfl, inside.2⟩ ⟨lengths.symm, inside'.2⟩ same

theorem byte_selfDelimiting : SelfDelimiting (fun _ : UInt8 => True) (fun b => [b]) :=
  .of_length 1 (fun _ _ => rfl) (fun a b _ _ same => by simpa using same)

theorem split_letters (kind : α → Bool) {x y r s : List α} (inside : ∀ c ∈ x, kind c)
    (inside' : ∀ c ∈ y, kind c) (outside : ∀ c ∈ r.head?, kind c = false)
    (outside' : ∀ c ∈ s.head?, kind c = false) (same : x ++ r = y ++ s) : x = y ∧ r = s := by
  have front {x r : List α} (inside : ∀ c ∈ x, kind c) (outside : ∀ c ∈ r.head?, kind c = false) :
      (x ++ r).takeWhile kind = x := by
    rw [List.takeWhile_append_of_pos inside]
    cases r <;> simp_all
  obtain rfl : x = y := by rw [← front inside outside, ← front inside' outside', same]
  exact ⟨rfl, List.append_cancel_left same⟩

end

end Codec
