import Mathlib.Order.Defs.Unbundled

/-!
# Runs of a labelled machine

A machine answers a label (the choice of the scheduler and of the environment)
in a state with an outcome and a next state, or refuses it.  `Run step ok` are
the runs all of whose labels satisfy `ok` in the state they are taken in.

An invariant is proved once: what one step preserves, every run preserves
(`Run.invariant`).  Concrete runs are computed by `exec`.  `Trace` are the runs
with their labels, for statements that compare two of them.
-/

namespace Machine

variable {S L R : Type}

/-- The runs of a machine all of whose steps satisfy `ok`. -/
inductive Run (step : S → L → Option (R × S)) (ok : S → L → Prop) : S → S → Prop
  | refl (s : S) : Run step ok s s
  | snoc {s t u : S} {l : L} {r : R} : Run step ok s t → ok t l → step t l = some (r, u) →
      Run step ok s u

variable {step : S → L → Option (R × S)} {ok ok' : S → L → Prop}

/-- A property that holds at the start, and that every admitted step from a
reached state preserves, holds at the end of every run. -/
theorem Run.invariant_of_reached {P : S → Prop} {s t : S} (h : Run step ok s t) (hs : P s)
    (hstep : ∀ u l r u', Run step ok s u → P u → ok u l → step u l = some (r, u') → P u') :
    P t := by
  induction h with
  | refl => exact hs
  | snoc hrun hok hnext ih => exact hstep _ _ _ _ hrun ih hok hnext

/-- A property that holds at the start and that every admitted step preserves
holds at the end of every run. -/
theorem Run.invariant {P : S → Prop} {s t : S} (h : Run step ok s t) (hs : P s)
    (hstep : ∀ s l r s', P s → ok s l → step s l = some (r, s') → P s') : P t :=
  h.invariant_of_reached hs fun _ _ _ _ _ => hstep _ _ _ _

/-- Fewer steps are admitted under a stronger condition. -/
theorem Run.mono {s t : S} (h : Run step ok s t) (himp : ∀ s l, ok s l → ok' s l) :
    Run step ok' s t := by
  induction h with
  | refl => exact .refl _
  | snoc _ hok hnext ih => exact ih.snoc (himp _ _ hok) hnext

theorem Run.trans {s t u : S} (h : Run step ok s t) (h' : Run step ok t u) : Run step ok s u := by
  induction h' with
  | refl => exact h
  | snoc _ hok hnext ih => exact ih.snoc hok hnext

/-- Take the labels of a list one after the other, each admitted where it is taken. -/
def exec (step : S → L → Option (R × S)) (ok : S → L → Prop) [∀ s l, Decidable (ok s l)] :
    S → List L → Option S
  | s, [] => some s
  | s, l :: rest =>
      if ok s l then
        match step s l with
        | none => none
        | some (_, s') => exec step ok s' rest
      else none

/-- What `exec` computes is a run. -/
theorem run_of_exec [∀ s l, Decidable (ok s l)] {labels : List L} {s t : S}
    (h : exec step ok s labels = some t) : Run step ok s t := by
  induction labels generalizing s with
  | nil =>
      rw [exec, Option.some.injEq] at h
      exact h ▸ .refl s
  | cons l rest ih =>
      rw [exec] at h
      split at h
      · rename_i hok
        cases hstep : step s l with
        | none => simp [hstep] at h
        | some result =>
            obtain ⟨r, s'⟩ := result
            rw [hstep] at h
            exact Run.trans (.snoc (.refl s) hok hstep) (ih h)
      · cases h

/-! ## Runs with their labels -/

/-- The labels of the list are taken one after the other. -/
inductive Trace (step : S → L → Option (R × S)) : S → List L → S → Prop
  | nil (s : S) : Trace step s [] s
  | cons {s t u : S} {l : L} {r : R} {labels : List L} : step s l = some (r, t) →
      Trace step t labels u → Trace step s (l :: labels) u

/-- What `exec` computes takes the labels one after the other. -/
theorem trace_of_exec [∀ s l, Decidable (ok s l)] {labels : List L} {s t : S}
    (h : exec step ok s labels = some t) : Trace step s labels t := by
  induction labels generalizing s with
  | nil =>
      rw [exec, Option.some.injEq] at h
      exact h ▸ .nil s
  | cons l rest ih =>
      rw [exec] at h
      split at h
      · cases hstep : step s l with
        | none => simp [hstep] at h
        | some result =>
            rw [hstep] at h
            exact .cons hstep (ih h)
      · cases h

/-- A reflexive and transitive relation that every step keeps to relates the
ends of a trace. -/
theorem Trace.rel {E : S → S → Prop} [IsPreorder S E] {s t : S} {labels : List L}
    (h : Trace step s labels t) (hstep : ∀ s l r t, step s l = some (r, t) → E s t) : E s t := by
  induction h with
  | nil => exact refl_of E _
  | cons hfirst _ ih => exact trans_of E (hstep _ _ _ _ hfirst) ih

end Machine
