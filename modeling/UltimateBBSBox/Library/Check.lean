import Mathlib.Data.List.Basic

/-!
# Checks that raise

When a computation in `Except` succeeds: a sequence does when its steps do, a
guard when its condition fails to hold, a loop when every round does.
-/

namespace Except

universe u v w

variable {ε : Type u} {α β : Type v} {γ : Type w}

theorem bind_eq_ok {x : Except ε α} {f : α → Except ε β} {b : β} :
    (x >>= f) = .ok b ↔ ∃ a, x = .ok a ∧ f a = .ok b := by
  cases x with
  | error e => simp [bind, Except.bind]
  | ok a => simp [bind, Except.bind]

/-- A check before the rest. -/
theorem check_bind_eq_ok {x : Except ε PUnit} {f : PUnit → Except ε β} {b : β} :
    (x >>= f) = .ok b ↔ x = .ok ⟨⟩ ∧ f ⟨⟩ = .ok b := by
  cases x with
  | error e => simp [bind, Except.bind]
  | ok a => simp [bind, Except.bind]

theorem pure_eq_ok {a b : α} : (pure a : Except ε α) = .ok b ↔ a = b := by
  simp [pure, Except.pure]

theorem throw_ne_ok {e : ε} {a : α} : (throw e : Except ε α) ≠ .ok a := by
  intro h
  cases h

theorem toOption_eq_some {x : Except ε α} {a : α} : x.toOption = some a ↔ x = .ok a := by
  cases x with
  | error e => simp [Except.toOption]
  | ok b => simp [Except.toOption]

theorem mapError_eq_ok {ε' : Type u} {x : Except ε α} {f : ε → ε'} {a : α} :
    x.mapError f = .ok a ↔ x = .ok a := by
  cases x with
  | error e => simp [Except.mapError]
  | ok b => simp [Except.mapError]

/-- A guard lets the rest run when its condition does not hold. -/
theorem guard_eq_ok {c : Prop} [Decidable c] {e : ε} {rest : Except ε α} {a : α} :
    (if c then throw e else rest) = .ok a ↔ ¬c ∧ rest = .ok a := by
  by_cases hc : c
  · simp [hc, throw_ne_ok]
  · simp [hc]

/-- `if c: raise`. -/
def refuse (c : Prop) [Decidable c] (e : ε) : Except ε PUnit := if c then .error e else .ok ⟨⟩

theorem refuse_eq_ok {c : Prop} [Decidable c] {e : ε} {u : PUnit} : refuse c e = .ok u ↔ ¬ c := by
  unfold refuse
  split <;> simp_all

/-- A loop succeeds when every round does. -/
theorem forM_eq_ok {xs : List γ} {check : γ → Except ε PUnit} :
    xs.forM check = .ok ⟨⟩ ↔ ∀ x ∈ xs, check x = .ok ⟨⟩ := by
  induction xs with
  | nil => simp [pure, Except.pure]
  | cons x rest ih =>
      change (check x >>= fun _ => rest.forM check) = .ok ⟨⟩ ↔ _
      rw [check_bind_eq_ok]
      constructor
      · rintro ⟨hx, hrest⟩ y hy
        rcases List.mem_cons.mp hy with rfl | hmem
        · exact hx
        · exact ih.mp hrest y hmem
      · intro h
        refine ⟨h x (List.mem_cons_self ..), ih.mpr fun y hy => ?_⟩
        exact h y (List.mem_cons_of_mem _ hy)

/-- A function that succeeds on every member succeeds along the list. -/
theorem mapM_eq_ok {xs : List γ} {read : γ → Except ε α} {f : γ → α}
    (h : ∀ x ∈ xs, read x = .ok (f x)) : xs.mapM read = .ok (xs.map f) := by
  induction xs with
  | nil => rfl
  | cons x rest ih =>
      rw [List.mapM_cons, h x List.mem_cons_self, ih fun y hy => h y (List.mem_cons_of_mem _ hy)]
      rfl

/-- What a traversal gives, it gives for some member. -/
theorem exists_of_mem_mapM {xs : List γ} {read : γ → Except ε α} {ys : List α} {y : α}
    (h : xs.mapM read = .ok ys) (hy : y ∈ ys) : ∃ x ∈ xs, read x = .ok y := by
  induction xs generalizing ys with
  | nil =>
      obtain rfl := pure_eq_ok.mp h
      cases hy
  | cons x rest ih =>
      rw [List.mapM_cons] at h
      obtain ⟨first, hfirst, h⟩ := bind_eq_ok.mp h
      obtain ⟨others, hothers, h⟩ := bind_eq_ok.mp h
      obtain rfl := pure_eq_ok.mp h
      rcases List.mem_cons.mp hy with rfl | hmem
      · exact ⟨x, List.mem_cons_self, hfirst⟩
      · obtain ⟨z, hz, hread⟩ := ih hothers hmem
        exact ⟨z, List.mem_cons_of_mem _ hz, hread⟩

end Except
