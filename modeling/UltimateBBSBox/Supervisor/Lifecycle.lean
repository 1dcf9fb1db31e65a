import Mathlib.Data.List.Basic

/-!
# The lifecycle graph and the supervisor's exceptions

`state_machine.py` and `errors.py`.  An exception is its class and its text:
`str(error)` ends in `last_failure`, in the journal and in maintenance results.
-/

namespace UltimateBBSBox.Supervisor

/-- `LifecycleState`. -/
inductive LifecycleState
  | stopped | starting | ready | running | maintenance | stopping | failed
deriving DecidableEq, Repr

namespace LifecycleState

/-- The enumeration's `value`. -/
def value : LifecycleState → String
  | stopped => "stopped"
  | starting => "starting"
  | ready => "ready"
  | running => "running"
  | maintenance => "maintenance"
  | stopping => "stopping"
  | failed => "failed"

end LifecycleState

open LifecycleState

/-- The classes of exceptions that the supervisor raises or lets through:
`errors.py`, the built-in `OverflowError` and `ValueError` of the standard
library, the interpreter's `RecursionError`, `runtime` for whatever a driver or
a driver resolver raises, and `registry` for a failed registry lookup. -/
inductive ErrorClass
  | supervisorError | invalidTransitionError | serviceNotFoundError | serviceBusyError
  | readinessTimeoutError | restartLimitExceededError | maintenanceError | driverError
  | overflowError | valueError | recursionError | runtime | registry
deriving DecidableEq, Repr

/-- A raised exception: its class and `str(exc)`. -/
structure Exn where
  cls : ErrorClass
  message : String
deriving DecidableEq, Repr

/-- `TRANSITIONS`. -/
def transitions : LifecycleState → List LifecycleState
  | stopped => [starting]
  | starting => [ready, failed]
  | ready => [running, maintenance, stopping, failed]
  | running => [maintenance, stopping, failed]
  | maintenance => [running, stopping, failed]
  | stopping => [stopped, failed]
  | failed => [starting, stopped]

/-- `validate_transition`. -/
def validateTransition (old new : LifecycleState) : Except Exn Unit :=
  if new ∉ transitions old then
    .error ⟨.invalidTransitionError, s!"invalid lifecycle transition: {old.value} -> {new.value}"⟩
  else .ok ()

/-- `ACTIVE_STATES`. -/
def activeStates : List LifecycleState := [ready, running, maintenance]

/-- `STALE_STATES`. -/
def staleStates : List LifecycleState := [starting, ready, stopping]

theorem validateTransition_eq_ok_iff {old new : LifecycleState} :
    validateTransition old new = .ok () ↔ new ∈ transitions old := by
  unfold validateTransition
  split <;> simp_all

theorem cls_of_validateTransition_eq_error {old new : LifecycleState} {e : Exn}
    (h : validateTransition old new = .error e) :
    e.cls = .invalidTransitionError ∧ new ∉ transitions old := by
  unfold validateTransition at h
  split at h
  · rename_i hmem
    cases h
    exact ⟨rfl, hmem⟩
  · cases h

end UltimateBBSBox.Supervisor
