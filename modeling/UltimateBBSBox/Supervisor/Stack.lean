import UltimateBBSBox.Supervisor.Runs

/-!
# The interpreter's stack

`_ensure_running_locked` and `_restart_after_failure_locked` call each other, and the interpreter
ends what does not fit on its stack with a `RecursionError`.  The operations raise it at the call
there is no room for; in which of that call's callees the real stack ends is not part of the model,
so the sections that come so far are told apart here.
-/

namespace UltimateBBSBox.Supervisor

open Act

variable {σ : Type} {C : Context σ} {limit : ℕ}

/-- The same service, on a stack with other room. -/
def Context.withNestingLimit (C : Context σ) (limit : ℕ) : Context σ := { C with nestingLimit := limit }

/-- The exception of a stack without room. -/
def Exn.IsRecursionError (e : Exn) : Prop := e.cls = .recursionError

instance (e : Exn) : Decidable e.IsRecursionError := inferInstanceAs (Decidable (_ = _))

/-! ## More room changes nothing where the stack was not used up -/

section Room

theorem agreeUnless_restartAfterFailureLocked {ensureRunning ensureRunning' : Prog σ Unit}
    (h : AgreeUnless Exn.IsRecursionError ensureRunning ensureRunning') :
    AgreeUnless Exn.IsRecursionError (restartAfterFailureLocked C ensureRunning)
      (restartAfterFailureLocked (C.withNestingLimit limit) ensureRunning') := by
  refine agreeUnless_bind (agreeUnless_refl _) fun _ => agreeUnless_ite (fun _ => agreeUnless_refl _)
    fun _ => agreeUnless_bind (agreeUnless_refl _) fun _ => agreeUnless_bind (agreeUnless_refl _)
      fun _ => agreeUnless_bind (agreeUnless_refl _) fun _ =>
        agreeUnless_ite (fun _ => agreeUnless_refl _) fun _ => ?_
  refine agreeUnless_bind (agreeUnless_refl _) fun _ => agreeUnless_bind (agreeUnless_refl _) fun _ =>
    agreeUnless_bind (agreeUnless_refl _) fun _ => agreeUnless_bind (agreeUnless_refl _) fun _ =>
      agreeUnless_bind (agreeUnless_refl _) fun _ => agreeUnless_whenever fun _ => ?_
  exact agreeUnless_bind h fun _ => agreeUnless_refl _

theorem awaitReady_withNestingLimit (d : Declaration) (readiness : Readiness) (timeout : ℕ)
    (deadline : ℚ) (fuel : ℕ) :
    awaitReady (C.withNestingLimit limit) d readiness timeout deadline fuel =
      awaitReady C d readiness timeout deadline fuel := by
  induction fuel with
  | zero => rfl
  | succ fuel ih =>
      unfold awaitReady
      rw [ih]
      rfl

theorem startAttempt_withNestingLimit (fuel : ℕ) (d : Declaration) (reason : String) :
    startAttempt (C.withNestingLimit limit) fuel d reason = startAttempt C fuel d reason := by
  unfold startAttempt
  simp only [awaitReady_withNestingLimit]
  rfl

theorem agreeUnless_ensureNested (fuel : ℕ) {depth depth' : ℕ} (hdepth : depth ≤ depth')
    (reason : String) :
    AgreeUnless Exn.IsRecursionError (ensureNested C fuel depth reason)
      (ensureNested (C.withNestingLimit limit) fuel depth' reason) := by
  induction depth generalizing depth' reason with
  | zero => exact agreeUnless_throw rfl
  | succ depth ih =>
      obtain ⟨depth', rfl⟩ : ∃ n, depth' = n + 1 := ⟨depth' - 1, by omega⟩
      refine agreeUnless_bind (agreeUnless_refl _) fun _ =>
        agreeUnless_ite (fun _ => agreeUnless_refl _) fun _ =>
          agreeUnless_ite (fun _ => agreeUnless_refl _) fun _ =>
            agreeUnless_bind (agreeUnless_refl _) fun d => agreeUnless_bind (agreeUnless_refl _)
              fun _ => agreeUnless_bind (agreeUnless_refl _) fun _ => ?_
      rw [startAttempt_withNestingLimit]
      refine agreeUnless_handler fun _ => ?_
      -- a failed attempt is cleaned up and recorded before the next call
      exact agreeUnless_bind (agreeUnless_refl _) fun _ => agreeUnless_bind (agreeUnless_refl _)
        fun _ => agreeUnless_bind
          (agreeUnless_restartAfterFailureLocked (ih (by omega) "recovery")) fun _ =>
            agreeUnless_refl _

variable (hlimit : C.nestingLimit ≤ limit)

include hlimit

theorem agreeUnless_ensureRunningLocked (fuel : ℕ) (reason : String) :
    AgreeUnless Exn.IsRecursionError (ensureRunningLocked C fuel reason)
      (ensureRunningLocked (C.withNestingLimit limit) fuel reason) :=
  agreeUnless_ensureNested fuel (Nat.succ_le_succ hlimit) reason

theorem agreeUnless_recover (fuel : ℕ) :
    AgreeUnless Exn.IsRecursionError
      (restartAfterFailureLocked C (ensureRunningLocked C fuel "recovery"))
      (restartAfterFailureLocked (C.withNestingLimit limit)
        (ensureRunningLocked (C.withNestingLimit limit) fuel "recovery")) :=
  agreeUnless_restartAfterFailureLocked (agreeUnless_ensureRunningLocked hlimit fuel "recovery")

theorem agreeUnless_start (fuel : ℕ) (reason : String) :
    AgreeUnless Exn.IsRecursionError (start C fuel reason)
      (start (C.withNestingLimit limit) fuel reason) :=
  agreeUnless_bind (agreeUnless_refl _) fun _ =>
    agreeUnless_bind (agreeUnless_ensureRunningLocked hlimit fuel reason) fun _ => agreeUnless_refl _

theorem agreeUnless_notifyFailure (fuel : ℕ) (error : String) :
    AgreeUnless Exn.IsRecursionError (notifyFailure C fuel error)
      (notifyFailure (C.withNestingLimit limit) fuel error) :=
  agreeUnless_bind (agreeUnless_refl _) fun _ =>
    agreeUnless_bind (agreeUnless_recover hlimit fuel) fun _ => agreeUnless_refl _

theorem agreeUnless_acquireSession (fuel : ℕ) (sessionId : String) :
    AgreeUnless Exn.IsRecursionError (acquireSession C fuel sessionId)
      (acquireSession (C.withNestingLimit limit) fuel sessionId) := by
  refine agreeUnless_bind (agreeUnless_refl _) fun _ => agreeUnless_bind (agreeUnless_refl _) fun _ =>
    agreeUnless_bind (agreeUnless_refl _) fun _ => agreeUnless_bind (agreeUnless_refl _) fun _ =>
      agreeUnless_bind (agreeUnless_refl _) fun _ => agreeUnless_bind ?_ fun _ => agreeUnless_refl _
  exact agreeUnless_tryCatch (agreeUnless_ensureRunningLocked hlimit fuel "session")
    fun e c _ => ⟨_, rfl⟩

theorem agreeUnless_beginMaintenance (fuel : ℕ) (job : Job) :
    AgreeUnless Exn.IsRecursionError (beginMaintenance C fuel job)
      (beginMaintenance (C.withNestingLimit limit) fuel job) := by
  refine agreeUnless_bind (agreeUnless_refl _) fun _ => agreeUnless_ite (fun _ => agreeUnless_refl _)
    fun _ => agreeUnless_bind (agreeUnless_refl _) fun _ =>
      agreeUnless_ite (fun _ => agreeUnless_refl _) fun _ =>
        agreeUnless_bind (agreeUnless_refl _) fun _ => agreeUnless_bind ?_ fun _ => agreeUnless_refl _
  refine agreeUnless_tryCatch ?_ fun e c _ => ⟨_, rfl⟩
  exact agreeUnless_bind (agreeUnless_ensureRunningLocked hlimit fuel "maintenance") fun _ =>
    agreeUnless_refl _

theorem agreeUnless_finishMaintenance (fuel : ℕ) (job : Job) (wasActive : Bool)
    (outcome : Except String Archive.Fields) :
    AgreeUnless Exn.IsRecursionError (finishMaintenance C fuel job wasActive outcome)
      (finishMaintenance (C.withNestingLimit limit) fuel job wasActive outcome) := by
  refine agreeUnless_bind (agreeUnless_refl _) fun _ => agreeUnless_bind (agreeUnless_refl _) fun _ =>
    agreeUnless_bind (agreeUnless_refl _) fun _ => agreeUnless_bind (agreeUnless_refl _) fun _ =>
      agreeUnless_bind (agreeUnless_refl _) fun _ => ?_
  cases outcome with
  | ok result => exact agreeUnless_refl _
  | error message => exact agreeUnless_bind (agreeUnless_recover hlimit fuel) fun _ => agreeUnless_refl _

theorem agreeUnless_reconcileLocked (fuel : ℕ) :
    AgreeUnless Exn.IsRecursionError (reconcileLocked C fuel)
      (reconcileLocked (C.withNestingLimit limit) fuel) := by
  have hstate : ∀ alive, AgreeUnless Exn.IsRecursionError (reconcileState C fuel alive)
      (reconcileState (C.withNestingLimit limit) fuel alive) := fun alive =>
    agreeUnless_bind (agreeUnless_refl _) fun _ => agreeUnless_ite (fun _ => agreeUnless_refl _)
      fun _ => agreeUnless_ite (fun _ => agreeUnless_bind (agreeUnless_refl _) fun _ =>
        agreeUnless_bind (agreeUnless_refl _) fun _ =>
          agreeUnless_ite (fun _ => agreeUnless_recover hlimit fuel) fun _ => agreeUnless_refl _)
        fun _ => agreeUnless_refl _
  have hstart : AgreeUnless Exn.IsRecursionError (reconcileStart C fuel)
      (reconcileStart (C.withNestingLimit limit) fuel) := by
    have hensure := agreeUnless_ensureRunningLocked hlimit fuel "reconcile"
    refine agreeUnless_bind (agreeUnless_refl _) fun c => agreeUnless_ite (fun _ => hensure) fun _ =>
      agreeUnless_ite (fun _ => ?_) fun _ => agreeUnless_refl _
    cases parseTimestamp c.inst.nextRestartAt with
    | none => exact hensure
    | some eligible =>
        exact agreeUnless_bind (agreeUnless_refl _) fun _ => agreeUnless_whenever fun _ => hensure
  exact agreeUnless_bind (agreeUnless_refl _) fun _ => agreeUnless_bind (agreeUnless_refl _) fun _ =>
    agreeUnless_bind (agreeUnless_refl _) fun _ => agreeUnless_bind (agreeUnless_refl _) fun alive =>
      agreeUnless_bind (hstate alive) fun _ => agreeUnless_bind (agreeUnless_refl _) fun _ =>
        agreeUnless_bind (agreeUnless_refl _) fun _ => agreeUnless_bind hstart fun _ =>
          agreeUnless_refl _

theorem agreeUnless_tickLocked (fuel : ℕ) (now : DateTime) :
    AgreeUnless Exn.IsRecursionError (tickLocked C fuel now)
      (tickLocked (C.withNestingLimit limit) fuel now) := by
  refine agreeUnless_bind (agreeUnless_refl _) fun _ => agreeUnless_bind ?_ fun _ => agreeUnless_refl _
  refine agreeUnless_bind (agreeUnless_refl _) fun c => ?_
  cases parseTimestamp c.inst.nextRestartAt with
  | none => exact agreeUnless_refl _
  | some nextRestart =>
      exact agreeUnless_whenever fun _ => agreeUnless_bind
        (agreeUnless_ensureRunningLocked hlimit fuel "recovery") fun _ => agreeUnless_refl _

theorem agreeUnless_lockedSection (op : Operation) (fuel : ℕ) (running : List MaintenanceRun) :
    AgreeUnless Exn.IsRecursionError (op.lockedSection C fuel running)
      (op.lockedSection (C.withNestingLimit limit) fuel running) := by
  cases op with
  | start reason => exact agreeUnless_bind (agreeUnless_start hlimit fuel reason) fun _ => agreeUnless_refl _
  | acquireSession sessionId =>
      exact agreeUnless_bind (agreeUnless_acquireSession hlimit fuel sessionId) fun _ =>
        agreeUnless_refl _
  | notifyFailure error =>
      exact agreeUnless_bind (agreeUnless_notifyFailure hlimit fuel error) fun _ => agreeUnless_refl _
  | reconcile =>
      exact agreeUnless_bind (agreeUnless_reconcileLocked hlimit fuel) fun _ => agreeUnless_refl _
  | tick now =>
      exact agreeUnless_bind (agreeUnless_tickLocked hlimit fuel now) fun _ => agreeUnless_refl _
  | beginMaintenance jobId =>
      exact agreeUnless_bind (agreeUnless_refl _) fun job =>
        agreeUnless_bind (agreeUnless_beginMaintenance hlimit fuel job) fun _ => agreeUnless_refl _
  | finishMaintenance index =>
      simp only [Operation.lockedSection]
      split
      · exact agreeUnless_bind (agreeUnless_finishMaintenance hlimit fuel _ _ _) fun _ =>
          agreeUnless_refl _
      · exact agreeUnless_refl _
  | _ => exact agreeUnless_refl _

end Room

/-! ## Sections that the stack has room for -/

namespace World

variable {w : World σ} {l : Label σ}

/-- The stack has room for all the calls of the section: more would change nothing. -/
def Roomy (C : Context σ) (w : World σ) (l : Label σ) : Prop :=
  ∀ limit, C.nestingLimit ≤ limit → w.step (C.withNestingLimit limit) l = w.step C l

/-- A step that ends in a `RecursionError`. -/
def Overflows : Option (Except Exn Unit × World σ) → Prop
  | some (.error e, _) => e.IsRecursionError
  | _ => False

instance : (outcome : Option (Except Exn Unit × World σ)) → Decidable (Overflows outcome)
  | some (.error e, _) => inferInstanceAs (Decidable e.IsRecursionError)
  | some (.ok _, _) => instDecidableFalse
  | none => instDecidableFalse

/-- Only a section that ends in a `RecursionError` may have used up the stack. -/
theorem roomy_of_not_overflows (h : ¬ Overflows (w.step C l)) : w.Roomy C l := by
  intro limit hlimit
  rcases agreeUnless_lockedSection hlimit l.op l.fuel w.running (w.cell.withEnv l.env) with
    heq | ⟨e, c, he, hrun⟩
  · unfold step
    rw [heq]
  · refine absurd ?_ h
    unfold step
    rw [hrun]
    exact he

end World

end UltimateBBSBox.Supervisor
