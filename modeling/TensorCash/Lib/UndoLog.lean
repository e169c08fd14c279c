import TensorCash.Lib.OrdMap

/-! Records of overwritten values, and the way back that they give to a map. -/

namespace UndoLog

variable {K V E : Type*} [LinearOrder K] {key : E → K} {prev : E → Option V} {log : List E}
  {start m : OrdMap K V} {k : K} {v : V} {e : E}

theorem foldl_observe {S A O : Type*} (step : S → A → S) (observe : S → O)
    (each : ∀ s a, observe (step s a) = observe s) (items : List A) (s : S) :
    observe (items.foldl step s) = observe s := by
  induction items generalizing s with
  | nil => rfl
  | cons first rest ih => rw [List.foldl_cons, ih, each]

def revert (key : E → K) (prev : E → Option V) (log : List E) (m : OrdMap K V) : OrdMap K V :=
  log.reverse.foldl (fun m e => m.set (key e) (prev e)) m

def Logs (key : E → K) (prev : E → Option V) (start : OrdMap K V) (log : List E) (m : OrdMap K V) : Prop :=
  ∀ k, match log.find? fun e => key e = k with
    | some e => prev e = start.get? k
    | none => m.get? k = start.get? k

theorem get?_revert (key : E → K) (prev : E → Option V) (log : List E) (m : OrdMap K V) (k : K) :
    (revert key prev log m).get? k = match log.find? fun e => key e = k with
      | some e => prev e
      | none => m.get? k := by
  unfold revert
  rw [List.foldl_reverse]
  -- The fold now runs from the first record on, which is applied last.
  induction log with
  | nil => rfl
  | cons e rest ih =>
    rw [List.foldr_cons, OrdMap.get?_set, List.find?_cons]
    by_cases own : key e = k
    · simp [own]
    · simp [own, Ne.symm own, ih]

theorem Logs.revert_cases (logs : Logs key prev start log m) (other : OrdMap K V) (k : K) :
    (revert key prev log other).get? k = start.get? k ∨
      (revert key prev log other).get? k = other.get? k ∧ m.get? k = start.get? k := by
  have here := logs k
  rw [get?_revert]
  split at here
  · exact .inl here
  · exact .inr ⟨rfl, here⟩

theorem Logs.nil (key : E → K) (prev : E → Option V) (m : OrdMap K V) : Logs key prev m ([] : List E) m :=
  fun _ => rfl

theorem Logs.write (logs : Logs key prev start log m) (own : key e = k)
    (before : prev e = m.get? k) : Logs key prev start (log ++ [e]) (m.insert k v) := by
  intro j
  have here := logs j
  rw [List.find?_append]
  cases found : log.find? fun e => key e = j with
  | some first => simpa [found] using here
  | none =>
    -- The key has no record yet, so its value is still the first one.
    rw [found] at here
    by_cases same : k = j
    · subst same
      simpa [own, before] using here
    · simpa [own, same, OrdMap.get?_insert_of_ne _ _ _ (Ne.symm same)] using here

theorem Logs.rewrite (logs : Logs key prev start log m) (logged : ∃ e ∈ log, key e = k) :
    Logs key prev start log (m.insert k v) := by
  intro j
  have here := logs j
  split at here
  · exact here
  · next missing =>
    have differ : j ≠ k := by
      rintro rfl
      obtain ⟨e, member, own⟩ := logged
      have := List.find?_eq_none.mp missing e member
      simp [own] at this
    rw [OrdMap.get?_insert_of_ne _ _ _ differ]
    exact here

end UndoLog
