import Mathlib.Logic.Basic

/-! Guards for `Except`, with the rules that take a successful run apart. -/

namespace Checked

universe u

variable {ε α β σ : Type u}

def require {ε : Type u} (cond : Prop) [Decidable cond] (failure : ε) : Except ε PUnit :=
  if cond then .ok ⟨⟩ else .error failure

def demand {ε : Type u} {α : Type u} (value : Option α) (failure : ε) : Except ε α :=
  match value with
  | some a => .ok a
  | none => .error failure

variable {x : Except ε α} {k : α → Except ε β} {b : β} {cond : Prop} {failure : ε}
  {value : Option α} {u : PUnit} {a item : α} {items : List α} {step : σ → α → Except ε σ} {s t : σ}

theorem bind_eq_ok :
    (x >>= k) = .ok b ↔ ∃ a, x = .ok a ∧ k a = .ok b := by
  cases x <;> simp [Bind.bind, Except.bind]

theorem require_bind_eq_ok [Decidable cond] {k : PUnit → Except ε β}
    : (require cond failure >>= k) = .ok b ↔ cond ∧ k ⟨⟩ = .ok b := by
  by_cases holds : cond <;> simp [require, holds, Bind.bind, Except.bind]

theorem demand_bind_eq_ok :
    (demand value failure >>= k) = .ok b ↔ ∃ a, value = some a ∧ k a = .ok b := by
  cases value <;> simp [demand, Bind.bind, Except.bind]

theorem require_eq_ok [Decidable cond] :
    require cond failure = .ok u ↔ cond := by
  by_cases holds : cond <;> simp [require, holds]

theorem demand_eq_ok : demand value failure = .ok a ↔ value = some a := by
  cases value <;> simp [demand]

theorem mapError_eq_ok {ε' : Type u} {rename : ε → ε'} :
    x.mapError rename = .ok a ↔ x = .ok a := by
  cases x with
  | ok b =>
    constructor
    · intro same
      have other : (.ok b : Except ε' α) = .ok a := same
      rw [Except.ok.inj other]
    · intro same
      rw [Except.ok.inj same]
      rfl
  | error e =>
    constructor
    · intro same
      have other : Except.error (rename e) = Except.ok a := same
      cases other
    · intro same
      cases same

theorem forM_eq_ok {check : α → Except ε PUnit} :
    items.forM check = .ok u ↔ ∀ item ∈ items, check item = .ok ⟨⟩ := by
  induction items with
  | nil => simp [Pure.pure, Except.pure]
  | cons item rest ih =>
    cases first : check item with
    | error failure => simp [List.forM, first, Bind.bind, Except.bind]
    | ok passed => simpa [List.forM, first, Bind.bind, Except.bind] using ih

theorem foldlM_keeps {keeps : σ → Prop}
    (each : ∀ s t item, item ∈ items → keeps s → step s item = .ok t → keeps t)
    (run : items.foldlM step s = .ok t) (start : keeps s) : keeps t := by
  induction items generalizing s with
  | nil => cases run; exact start
  | cons item rest ih =>
    rw [List.foldlM_cons, bind_eq_ok] at run
    obtain ⟨next, stepped, run⟩ := run
    exact ih (fun s t item' member => each s t item' (List.mem_cons_of_mem _ member)) run
      (each s next item List.mem_cons_self start stepped)

theorem foldlM_split {front rest : List α}
    (run : (front ++ item :: rest).foldlM step s = .ok t) :
    ∃ before after, front.foldlM step s = .ok before ∧ step before item = .ok after ∧
      rest.foldlM step after = .ok t := by
  rw [List.foldlM_append] at run
  obtain ⟨before, first, run⟩ := bind_eq_ok.mp run
  rw [List.foldlM_cons] at run
  obtain ⟨after, stepped, run⟩ := bind_eq_ok.mp run
  exact ⟨before, after, first, stepped, run⟩

theorem foldlM_induction {P : List α → σ → Prop}
    (each : ∀ done item rest s t, items = done ++ item :: rest → P done s → step s item = .ok t →
       P (done ++ [item]) t) (run : items.foldlM step s = .ok t) (start : P [] s) : P items t := by
  -- The induction runs over what is still to be done, with the items done so far in front.
  suffices general : ∀ (todo done : List α) (s : σ), items = done ++ todo → P done s →
      todo.foldlM step s = .ok t → P items t from general items [] s rfl start run
  intro todo
  induction todo with
  | nil =>
    intro done s all start run
    cases run
    simpa [all] using start
  | cons item rest ih =>
    intro done s all start run
    rw [List.foldlM_cons, bind_eq_ok] at run
    obtain ⟨next, stepped, run⟩ := run
    exact ih (done ++ [item]) next (by simp [all]) (each done item rest s next all start stepped) run

theorem foldlM_step_of_mem (run : items.foldlM step s = .ok t) (member : item ∈ items) :
    ∃ before after, step before item = .ok after := by
  induction items generalizing s with
  | nil => cases member
  | cons first rest ih =>
    rw [List.foldlM_cons, bind_eq_ok] at run
    obtain ⟨next, stepped, run⟩ := run
    rcases List.mem_cons.mp member with rfl | later
    · exact ⟨s, next, stepped⟩
    · exact ih run later

theorem mapM_step_of_mem {step : α → Except ε β} {results : List β}
    (run : items.mapM step = .ok results) (member : item ∈ items) :
    ∃ result ∈ results, step item = .ok result := by
  induction items generalizing results with
  | nil => cases member
  | cons first rest ih =>
    rw [List.mapM_cons] at run
    obtain ⟨head, stepped, run⟩ := bind_eq_ok.mp run
    obtain ⟨tail, later, run⟩ := bind_eq_ok.mp run
    cases run
    -- The item is the first one or one of the rest.
    rcases List.mem_cons.mp member with rfl | inside
    · exact ⟨head, List.mem_cons_self, stepped⟩
    · obtain ⟨result, there, same⟩ := ih later inside
      exact ⟨result, List.mem_cons_of_mem _ there, same⟩

def FailsOnly (allowed : ε → Prop) (x : Except ε α) : Prop := ∀ failure, x = .error failure → allowed failure

namespace FailsOnly

variable {allowed : ε → Prop}

theorem ok (a : α) : FailsOnly allowed (.ok a) := by
  -- The two constructors differ.
  intro failure failed
  cases failed

variable {failure : ε} {items : List α}

theorem error (fits : allowed failure) : FailsOnly allowed (.error failure : Except ε α) := by
  -- The failure that is seen is the one that was thrown.
  intro seen failed
  cases failed
  exact fits

theorem bind {x : Except ε α} {k : α → Except ε β} (first : FailsOnly allowed x)
    (rest : ∀ a, FailsOnly allowed (k a)) : FailsOnly allowed (x >>= k) := by
  intro failure failed
  cases x with
  | error e =>
    cases failed
    exact first failure rfl
  | ok a => exact rest a failure failed

theorem require {cond : Prop} [Decidable cond] (fits : allowed failure) :
    FailsOnly allowed (Checked.require cond failure) := by
  unfold Checked.require
  split
  · exact ok _
  · exact error fits

theorem demand {value : Option α} (fits : allowed failure) :
    FailsOnly allowed (Checked.demand value failure) := by
  cases value
  · exact error fits
  · exact ok _

end FailsOnly

def Ensures (post : α → Prop) (x : Except ε α) : Prop := ∀ a, x = .ok a → post a

namespace Ensures

variable {post : α → Prop} {goal : β → Prop}

theorem ok {a : α} (holds : post a) : Ensures post (.ok a : Except ε α) := by
  -- The value that is seen is the one that was returned.
  intro seen run
  cases run
  exact holds

theorem error {failure : ε} : Ensures post (.error failure : Except ε α) := by
  intro seen run
  cases run

variable {x : Except ε α} {k : α → Except ε β}

theorem bind (first : Ensures post x)
    (rest : ∀ a, post a → Ensures goal (k a)) : Ensures goal (x >>= k) := by
  intro b run
  obtain ⟨a, done, run⟩ := bind_eq_ok.mp run
  exact rest a (first a done) b run

theorem seq (rest : ∀ a, Ensures goal (k a)) : Ensures goal (x >>= k) :=
  bind (show Ensures (fun _ => True) x from fun _ _ => trivial) fun a _ => rest a

theorem foldlM {step : σ → α → Except ε σ} {keeps : σ → Prop} {items : List α} {s : σ}
    (start : keeps s) (each : ∀ s item, keeps s → Ensures keeps (step s item)) :
    Ensures keeps (items.foldlM step s) := fun _ run =>
  foldlM_keeps (fun s t item _ holds stepped => each s item holds t stepped) run start

end Ensures

end Checked
