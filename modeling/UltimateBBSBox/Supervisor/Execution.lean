import UltimateBBSBox.Supervisor.Operations

/-!
# What the primitive sections do to a cell

Each primitive is given as the cell it leaves behind: `mapInst`, `note`,
`withEnv`, `afterCall` and `moved`, with the instance, the jobs and the override
of each as simp lemmas, and the weakest precondition of the section in terms of
it.  Proofs about the operations never look further down.
-/

namespace UltimateBBSBox.Supervisor

open Act

variable {σ α : Type} {C : Context σ}

namespace Cell

/-- Update the instance. -/
def mapInst (c : Cell σ) (f : InstanceState → InstanceState) : Cell σ := { c with inst := f c.inst }

/-- Append to the log. -/
def note (c : Cell σ) (effect : Effect) : Cell σ := { c with log := effect :: c.log }

/-- Let the environment move. -/
def withEnv (c : Cell σ) (env : σ) : Cell σ := { c with env := env }

/-- Replace the running jobs. -/
def mapJobs (c : Cell σ) (f : Finset String → Finset String) : Cell σ :=
  { c with jobsRunning := f c.jobsRunning }

/-- Write the state file. -/
def saved (c : Cell σ) : Cell σ := c.note (.save (c.inst.toDict true))

/-- After a clock reading. -/
def afterClock (C : Context σ) (c : Cell σ) : Cell σ :=
  (c.withEnv (C.environment.now c.env).2).note (.clock (C.environment.now c.env).1)

/-- After a driver call. -/
def afterCall (c : Cell σ) (effect : InstanceState → Effect) (reply : Reply σ α) : Cell σ :=
  ((c.withEnv reply.env).mapInst fun inst => { inst with runtime := reply.runtime }).note
    (effect c.inst)

/-- After a valid transition. -/
def moved (C : Context σ) (c : Cell σ) (newState : LifecycleState) (reason : String)
    (error : Option String) : Cell σ :=
  ((((c.mapInst fun inst => { inst with state := newState }).afterClock C).note (.journal
    { service := c.inst.serviceId
      oldState := c.inst.state
      newState := newState
      timestamp := (C.environment.now c.env).1
      reason := reason
      instanceId := c.inst.instanceId
      error := error })).saved)

section Fields

variable (c : Cell σ) (f : InstanceState → InstanceState) (effect : Effect) (env : σ)
  (g : Finset String → Finset String) (call : InstanceState → Effect) (reply : Reply σ α)
  (newState : LifecycleState) (reason : String) (error : Option String)

@[simp] theorem mapInst_inst : (c.mapInst f).inst = f c.inst := rfl
@[simp] theorem mapInst_jobsRunning : (c.mapInst f).jobsRunning = c.jobsRunning := rfl
@[simp] theorem mapInst_override : (c.mapInst f).override = c.override := rfl
@[simp] theorem mapInst_log : (c.mapInst f).log = c.log := rfl
@[simp] theorem mapInst_env : (c.mapInst f).env = c.env := rfl

@[simp] theorem note_inst : (c.note effect).inst = c.inst := rfl
@[simp] theorem note_jobsRunning : (c.note effect).jobsRunning = c.jobsRunning := rfl
@[simp] theorem note_override : (c.note effect).override = c.override := rfl
@[simp] theorem note_log : (c.note effect).log = effect :: c.log := rfl
@[simp] theorem note_env : (c.note effect).env = c.env := rfl

@[simp] theorem withEnv_inst : (c.withEnv env).inst = c.inst := rfl
@[simp] theorem withEnv_jobsRunning : (c.withEnv env).jobsRunning = c.jobsRunning := rfl
@[simp] theorem withEnv_override : (c.withEnv env).override = c.override := rfl
@[simp] theorem withEnv_log : (c.withEnv env).log = c.log := rfl
@[simp] theorem withEnv_env : (c.withEnv env).env = env := rfl

@[simp] theorem mapJobs_inst : (c.mapJobs g).inst = c.inst := rfl
@[simp] theorem mapJobs_jobsRunning : (c.mapJobs g).jobsRunning = g c.jobsRunning := rfl
@[simp] theorem mapJobs_override : (c.mapJobs g).override = c.override := rfl
@[simp] theorem mapJobs_log : (c.mapJobs g).log = c.log := rfl

@[simp] theorem saved_inst : c.saved.inst = c.inst := rfl
@[simp] theorem saved_jobsRunning : c.saved.jobsRunning = c.jobsRunning := rfl
@[simp] theorem saved_override : c.saved.override = c.override := rfl
@[simp] theorem saved_log : c.saved.log = .save (c.inst.toDict true) :: c.log := rfl

@[simp] theorem afterClock_inst : (c.afterClock C).inst = c.inst := rfl
@[simp] theorem afterClock_jobsRunning : (c.afterClock C).jobsRunning = c.jobsRunning := rfl
@[simp] theorem afterClock_override : (c.afterClock C).override = c.override := rfl
@[simp] theorem afterClock_log :
    (c.afterClock C).log = .clock (C.environment.now c.env).1 :: c.log := rfl

@[simp] theorem afterCall_inst :
    (c.afterCall call reply).inst = { c.inst with runtime := reply.runtime } := rfl
@[simp] theorem afterCall_jobsRunning :
    (c.afterCall call reply).jobsRunning = c.jobsRunning := rfl
@[simp] theorem afterCall_override : (c.afterCall call reply).override = c.override := rfl
@[simp] theorem afterCall_log : (c.afterCall call reply).log = call c.inst :: c.log := rfl

@[simp] theorem moved_inst :
    (c.moved C newState reason error).inst = { c.inst with state := newState } := rfl
@[simp] theorem moved_jobsRunning :
    (c.moved C newState reason error).jobsRunning = c.jobsRunning := rfl
@[simp] theorem moved_override : (c.moved C newState reason error).override = c.override := rfl

end Fields

end Cell

/-! ## Lifecycle values that no override touches -/

section Lifecycle

variable (c : Cell σ)

@[simp] theorem lifecycle_sharing : (C.lifecycle c).sharing = C.service.lifecycle.sharing := by
  unfold Context.lifecycle; split <;> rfl

@[simp] theorem lifecycle_restart : (C.lifecycle c).restart = C.service.lifecycle.restart := by
  unfold Context.lifecycle; split <;> rfl

@[simp] theorem lifecycle_maxRestarts :
    (C.lifecycle c).maxRestarts = C.service.lifecycle.maxRestarts := by
  unfold Context.lifecycle; split <;> rfl

@[simp] theorem lifecycle_restartWindowSeconds :
    (C.lifecycle c).restartWindowSeconds = C.service.lifecycle.restartWindowSeconds := by
  unfold Context.lifecycle; split <;> rfl

@[simp] theorem lifecycle_restartBackoffSeconds :
    (C.lifecycle c).restartBackoffSeconds = C.service.lifecycle.restartBackoffSeconds := by
  unfold Context.lifecycle; split <;> rfl

@[simp] theorem lifecycle_idleTimeoutSeconds :
    (C.lifecycle c).idleTimeoutSeconds = C.service.lifecycle.idleTimeoutSeconds := by
  unfold Context.lifecycle; split <;> rfl

end Lifecycle

/-! ## Weakest preconditions -/

section Wlp

variable {X : Exn → Cell σ → Prop} {c : Cell σ}

@[simp] theorem wlp_modifyInst {f : InstanceState → InstanceState} {Q : Unit → Cell σ → Prop} :
    wlp (modifyInst f) Q X c ↔ Q () (c.mapInst f) := Iff.rfl

@[simp] theorem wlp_record {effect : Effect} {Q : Unit → Cell σ → Prop} :
    wlp (record effect) Q X c ↔ Q () (c.note effect) := Iff.rfl

@[simp] theorem wlp_persist {Q : Unit → Cell σ → Prop} :
    wlp persist Q X c ↔ Q () c.saved := by
  simp only [persist, wlp_bind, wlp_get, wlp_record, Cell.saved]

@[simp] theorem wlp_modifyJobs {f : Finset String → Finset String} {Q : Unit → Cell σ → Prop} :
    wlp (modify (m := Prog σ) fun c => { c with jobsRunning := f c.jobsRunning }) Q X c ↔
      Q () (c.mapJobs f) := Iff.rfl

@[simp] theorem wlp_now {Q : DateTime → Cell σ → Prop} :
    wlp (now C) Q X c ↔ Q (C.environment.now c.env).1 (c.afterClock C) := by
  simp only [now, wlp_bind, wlp_get, wlp_modify, wlp_pure]
  rfl

@[simp] theorem wlp_monotonic {Q : ℚ → Cell σ → Prop} :
    wlp (monotonic C) Q X c ↔
      Q (C.environment.monotonic c.env).1 (c.withEnv (C.environment.monotonic c.env).2) := by
  simp only [monotonic, wlp_bind, wlp_get, wlp_modify, wlp_pure]
  rfl

@[simp] theorem wlp_sleep {seconds : ℚ} {Q : Unit → Cell σ → Prop} :
    wlp (sleep C seconds) Q X c ↔ Q () (c.withEnv (C.environment.sleep seconds c.env)) := Iff.rfl

@[simp] theorem wlp_ofDriver {result : Except String α} {Q : α → Cell σ → Prop} :
    wlp (ofDriver result : Prog σ α) Q X c ↔
      (∀ a, result = .ok a → Q a c) ∧ (∀ message, result = .error message →
        X ⟨.runtime, message⟩ c) := by
  cases result <;> simp [ofDriver]

@[simp] theorem wlp_resolveDriver {Q : Unit → Cell σ → Prop} :
    wlp (resolveDriver C) Q X c ↔
      ((C.environment.resolve c.env).1 = .ok () →
        Q () ((c.withEnv (C.environment.resolve c.env).2).note .resolve)) ∧
      (∀ message, (C.environment.resolve c.env).1 = .error message →
        X ⟨.runtime, message⟩ ((c.withEnv (C.environment.resolve c.env).2).note .resolve)) := by
  simp only [resolveDriver, wlp_bind, wlp_get, wlp_modify, wlp_ofDriver]
  exact and_congr_left' ⟨fun h => h (), fun h _ => h⟩

@[simp] theorem wlp_declaration {Q : Declaration → Cell σ → Prop} :
    wlp (declaration C) Q X c ↔
      (∀ d, C.declaration = .ok d → Q d c) ∧
      (∀ error, C.declaration = .error error → X ⟨.registry, error.message⟩ c) := by
  unfold declaration
  cases C.declaration <;> simp

theorem wlp_callDriver {call : InstanceState → σ → Reply σ α} {effect : InstanceState → Effect}
    {Q : α → Cell σ → Prop} :
    wlp (callDriver call effect) Q X c ↔
      (∀ a, (call c.inst c.env).result = .ok a →
        Q a (c.afterCall effect (call c.inst c.env))) ∧
      (∀ message, (call c.inst c.env).result = .error message →
        X ⟨.runtime, message⟩ (c.afterCall effect (call c.inst c.env))) := by
  simp only [callDriver, wlp_bind, wlp_get, wlp_modify, wlp_ofDriver]
  rfl

@[simp] theorem wlp_transition {newState : LifecycleState} {reason : String}
    {error : Option String} {Q : Unit → Cell σ → Prop} :
    wlp (transition C newState reason error) Q X c ↔
      (newState ∈ transitions c.inst.state → Q () (c.moved C newState reason error)) ∧
      (∀ e, validateTransition c.inst.state newState = .error e → X e c) := by
  simp only [transition, wlp_bind, wlp_get, wlp_ofExcept, wlp_modifyInst, wlp_now, wlp_record,
    wlp_persist]
  refine and_congr_left' ⟨fun h hmem => h () (validateTransition_eq_ok_iff.mpr hmem),
    fun h _ hok => h (validateTransition_eq_ok_iff.mp hok)⟩

end Wlp

/-! ## Sections that always come back -/

section Total

theorem total_modifyInst (f : InstanceState → InstanceState) : Total (modifyInst (σ := σ) f) :=
  total_modify _

theorem total_record (effect : Effect) : Total (record (σ := σ) effect) := total_modify _

theorem total_persist : Total (persist (σ := σ)) :=
  total_bind total_get fun _ => total_record _

theorem total_now : Total (now C) :=
  total_bind total_get fun _ => total_bind (total_modify _) fun _ => total_pure _

theorem total_ofDriver (result : Except String α) : Total (ofDriver (σ := σ) result) := by
  cases result
  · exact total_throw _
  · exact total_pure _

theorem total_resolveDriver : Total (resolveDriver C) :=
  total_bind total_get fun _ => total_bind (total_modify _) fun _ => total_ofDriver _

theorem total_declaration : Total (declaration C) := by
  unfold declaration
  cases C.declaration
  · exact total_throw _
  · exact total_pure _

theorem total_callDriver (call : InstanceState → σ → Reply σ α) (effect : InstanceState → Effect) :
    Total (callDriver call effect) :=
  total_bind total_get fun _ => total_bind (total_modify _) fun _ => total_ofDriver _

theorem total_scheduleIdleLocked : Total (scheduleIdleLocked C) :=
  total_bind total_get fun _ =>
    total_ite (fun _ => total_pure _) fun _ =>
      total_ite (fun _ => total_pure _) fun _ =>
        total_bind total_now fun _ =>
          total_bind (total_ofExcept _) fun _ =>
            total_bind (total_modifyInst _) fun _ => total_persist

theorem total_removeHold (reason : String) : Total (removeHold (σ := σ) reason) :=
  total_bind (total_modifyInst _) fun _ => total_persist

theorem total_releaseSession (sessionId : String) : Total (releaseSession C sessionId) :=
  total_bind total_get fun _ =>
    total_ite (fun _ => total_throw _) fun _ =>
      total_bind (total_modifyInst _) fun _ =>
        total_bind (total_removeHold _) fun _ =>
          total_bind (total_scheduleIdleLocked) fun _ =>
            total_bind total_get fun _ => total_pure _

theorem total_transition (newState : LifecycleState) (reason : String) (error : Option String) :
    Total (transition C newState reason error) :=
  total_bind total_get fun _ => total_bind (total_ofExcept _) fun _ =>
    total_bind (total_modifyInst _) fun _ => total_bind total_now fun _ =>
      total_bind (total_record _) fun _ => total_persist

theorem total_markFailedLocked (error reason : String) : Total (markFailedLocked C error reason) :=
  total_bind total_get fun _ =>
    total_bind (total_whenever fun _ => total_transition _ _ _) fun _ =>
      total_bind (total_modifyInst _) fun _ => total_persist

theorem total_stopLocked (reason : String) : Total (stopLocked C reason) := by
  have hhalt : Total (tryCatch (do
      resolveDriver C
      driverStop C false (← declaration C)
      transition C .stopped reason none
      let stopped ← now C
      modifyInst fun inst => { inst with lastStopAt := some stopped, idleDeadline := none }
      persist) fun exc => do
        markFailedLocked C exc.message "stop_failure"
        throw exc) :=
    total_tryCatch (total_bind total_resolveDriver fun _ => total_bind total_declaration fun _ =>
      total_bind (total_callDriver _ _) fun _ => total_bind (total_transition _ _ _) fun _ =>
        total_bind total_now fun _ => total_bind (total_modifyInst _) fun _ => total_persist)
      fun _ => total_bind (total_markFailedLocked _ _) fun _ => total_throw _
  exact total_bind total_get fun _ => total_ite (fun _ => total_persist) fun _ =>
    total_ite (fun _ => total_transition _ _ _) fun _ => total_ite (fun _ => total_throw _) fun _ =>
      total_bind (total_transition _ _ _) fun _ => hhalt

theorem total_stop (force : Bool) (reason : String) : Total (stop C force reason) :=
  total_bind (total_whenever fun _ => total_modifyInst _) fun _ =>
    total_bind (total_whenever fun _ => total_modifyInst _) fun _ =>
      total_bind total_get fun _ => total_bind (total_whenever fun _ => total_throw _) fun _ =>
        total_bind (total_stopLocked _) fun _ => total_bind total_get fun _ => total_pure _

theorem total_tickJobs (now : DateTime) (jobs : List Job) :
    Total (tickJobs (σ := σ) now jobs) := by
  induction jobs with
  | nil => exact total_pure _
  | cons job rest ih =>
      exact total_bind total_get fun _ => total_bind (total_ofExcept _) fun _ =>
        total_ite (fun _ => total_bind (total_modifyInst _) fun _ =>
          total_bind total_persist fun _ => total_bind ih fun _ => total_pure _) fun _ => ih

end Total

/-! ## The two halves of a reconciliation -/

section Reconcile

variable (C)

/-- `_reconcile_locked` up to the answer of the driver: is the runtime alive? -/
def reconcileLook : Prog σ Bool := do
  reconcileHolds C
  resolveDriver C
  driverStatus C (← declaration C)

/-- `_reconcile_locked` from the answer of the driver on. -/
def reconcileConverge (fuel : ℕ) (alive : Bool) : Prog σ Unit := do
  reconcileState C fuel alive
  let c ← get
  whenever (c.inst.state = .failed ∧ alive = true) (adopt C)
  reconcileStart C fuel
  scheduleIdleLocked C
  persist

theorem wlp_reconcileLocked {fuel : ℕ} {Q : Unit → Cell σ → Prop} {X : Exn → Cell σ → Prop}
    {c : Cell σ} :
    wlp (reconcileLocked C fuel) Q X c ↔
      wlp (reconcileLook C) (fun alive c' => wlp (reconcileConverge C fuel alive) Q X c') X c := by
  simp only [reconcileLocked, reconcileLook, reconcileConverge, wlp_bind]

theorem twp_reconcileLocked {fuel : ℕ} {Q : Unit → Cell σ → Prop} {X : Exn → Cell σ → Prop}
    {c : Cell σ} :
    twp (reconcileLocked C fuel) Q X c ↔
      twp (reconcileLook C) (fun alive c' => twp (reconcileConverge C fuel alive) Q X c') X c := by
  simp only [reconcileLocked, reconcileLook, reconcileConverge, twp_bind]

variable {C} in
theorem total_reconcileLook : Total (reconcileLook C) :=
  total_bind (total_bind total_get fun _ => total_bind (total_modifyInst _) fun _ =>
    total_whenever fun _ => total_modifyInst _) fun _ =>
      total_bind total_resolveDriver fun _ =>
        total_bind total_declaration fun _ => total_callDriver _ _

variable {fuel : ℕ} {alive : Bool} {Q : Unit → Cell σ → Prop} {X : Exn → Cell σ → Prop}
  {c : Cell σ}

/-- A dead runtime of a failed instance with an exhausted budget is left alone. -/
theorem run_reconcileConverge_of_exhausted (hfailed : c.inst.state = .failed)
    (hexhausted : c.inst.restartExhausted = true) :
    (reconcileConverge C fuel false).run c =
      (do
        scheduleIdleLocked C
        persist : Prog σ Unit).run c := by
  simp [reconcileConverge, reconcileState, reconcileStart, run_bind, run_get, run_pure, hfailed,
    hexhausted, staleStates, whenever]

end Reconcile

end UltimateBBSBox.Supervisor
