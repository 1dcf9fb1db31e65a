import UltimateBBSBox.Supervisor.Restarts

/-!
# Every section comes back

The supervisor holds the lock of a service while a section runs, so a section that does not come
back stops the service for good.  What could keep one from it is the readiness loop and the
recursion of recoveries.  Where the startup timeouts of all restarts fit in the restart window,
every section comes back from every state, and what it does to the driver is bounded:
`AtMost n` is the predicate, with one rule for each way of composing sections.
-/

namespace UltimateBBSBox.Supervisor

open Act

variable {σ α β : Type} {C : Context σ}

/-! ## Sections with at most so many starts -/

/-- A section that comes back from every state, after at most so many starts. -/
def AtMost (n : ℕ) (act : Prog σ α) : Prop :=
  ∀ c, twp act (fun _ => StartsWithin (starts c.log + n)) (fun _ => StartsWithin (starts c.log + n)) c

section Rules

variable {m n : ℕ}

theorem StartsWithin.mono {c : Cell σ} (h : StartsWithin m c) (hle : m ≤ n) : StartsWithin n c :=
  le_trans h hle

theorem StartsWithin.add {bound : ℕ} {c c' : Cell σ} (h : StartsWithin (bound + m) c)
    (h' : StartsWithin (starts c.log + n) c') : StartsWithin (bound + (m + n)) c' := by
  unfold StartsWithin at h h' ⊢
  omega

theorem AtMost.mono {act : Prog σ α} (h : AtMost m act) (hle : m ≤ n) : AtMost n act := fun c =>
  twp_mono (h c) (fun _ _ h' => h'.mono (by omega)) fun _ _ h' => h'.mono (by omega)

theorem atMost_bind {act : Prog σ α} {f : α → Prog σ β} (hact : AtMost m act)
    (hf : ∀ a, AtMost n (f a)) : AtMost (m + n) (act >>= f) := fun c =>
  twp_bind.mpr <| twp_mono (hact c)
    (fun a c₁ h₁ => twp_mono (hf a c₁) (fun _ _ h' => h₁.add h') fun _ _ h' => h₁.add h')
    fun _ _ h₁ => h₁.mono (by omega)

/-- Nothing is started first. -/
theorem atMost_after {act : Prog σ α} {f : α → Prog σ β} (hact : AtMost 0 act)
    (hf : ∀ a, AtMost n (f a)) : AtMost n (act >>= f) := (atMost_bind hact hf).mono (by omega)

theorem atMost_tryCatch {act : Prog σ α} {handler : Exn → Prog σ α} (hact : AtMost m act)
    (hhandler : ∀ exc, AtMost n (handler exc)) : AtMost (m + n) (tryCatch act handler) := fun c =>
  twp_tryCatch <| twp_mono (hact c) (fun _ _ h₁ => h₁.mono (by omega)) fun exc c₁ h₁ =>
    twp_mono (hhandler exc c₁) (fun _ _ h' => h₁.add h') fun _ _ h' => h₁.add h'

theorem atMost_ite {p : Prop} [Decidable p] {act act' : Prog σ α} (h : p → AtMost n act)
    (h' : ¬ p → AtMost n act') : AtMost n (if p then act else act') := by
  by_cases hp : p
  · rw [if_pos hp]
    exact h hp
  · rw [if_neg hp]
    exact h' hp

/-- A section that comes back and leaves the number of starts alone. -/
theorem atMost_of_total {act : Prog σ α} (htotal : Total act)
    (hsame : ∀ c, wlp act (fun _ c' => starts c'.log = starts c.log)
      (fun _ c' => starts c'.log = starts c.log) c) : AtMost n act := fun c =>
  htotal.twp <| wlp_mono (hsame c) (fun _ _ h => by unfold StartsWithin; omega) fun _ _ h => by
    unfold StartsWithin
    omega

theorem atMost_pure (a : α) : AtMost n (pure a : Prog σ α) :=
  atMost_of_total (total_pure a) fun _ => wlp_pure.mpr rfl

theorem atMost_throw (exc : Exn) : AtMost n (throw exc : Prog σ α) :=
  atMost_of_total (total_throw exc) fun _ => wlp_throw.mpr rfl

theorem atMost_get : AtMost n (get : Prog σ (Cell σ)) :=
  atMost_of_total total_get fun _ => wlp_get.mpr rfl

theorem atMost_whenever {p : Prop} [Decidable p] {act : Prog σ Unit} (h : p → AtMost n act) :
    AtMost n (whenever p act) := atMost_ite h fun _ => atMost_pure ()

theorem atMost_modifyInst (f : InstanceState → InstanceState) : AtMost n (modifyInst (σ := σ) f) :=
  atMost_of_total (total_modifyInst f) fun _ => wlp_modifyInst.mpr rfl

/-- An update that leaves the log alone. -/
theorem atMost_modify {f : Cell σ → Cell σ} (hlog : ∀ c, (f c).log = c.log) :
    AtMost n (modify f : Prog σ Unit) :=
  atMost_of_total (total_modify f) fun c => wlp_modify.mpr (by rw [hlog])

theorem atMost_ofExcept (result : Except Exn α) : AtMost n (Act.ofExcept result : Prog σ α) :=
  atMost_of_total (total_ofExcept result) fun _ => wlp_ofExcept.mpr ⟨fun _ _ => rfl, fun _ _ => rfl⟩

theorem atMost_persist : AtMost n (persist (σ := σ)) :=
  atMost_of_total total_persist fun _ => wlp_persist.mpr (starts_cons (by simp))

theorem atMost_now : AtMost n (now C) :=
  atMost_of_total total_now fun _ => wlp_now.mpr (starts_cons (by simp))

theorem atMost_resolveDriver : AtMost n (resolveDriver C) :=
  atMost_of_total total_resolveDriver fun _ =>
    wlp_resolveDriver.mpr ⟨fun _ => starts_cons (by simp), fun _ _ => starts_cons (by simp)⟩

theorem atMost_declaration : AtMost n (declaration C) :=
  atMost_of_total total_declaration fun _ => wlp_declaration.mpr ⟨fun _ _ => rfl, fun _ _ => rfl⟩

/-- A call of the driver that is no start. -/
theorem atMost_callDriver {call : InstanceState → σ → Reply σ α} {effect : InstanceState → Effect}
    (heffect : ∀ inst inst', effect inst ≠ .start inst') : AtMost n (callDriver call effect) :=
  atMost_of_total (total_callDriver call effect) fun c =>
    wlp_callDriver.mpr ⟨fun _ _ => starts_cons (heffect c.inst), fun _ _ => starts_cons (heffect c.inst)⟩

end Rules

/-! ## Sections that start nothing -/

section Quiet

variable {n : ℕ}

theorem atMost_transition {newState : LifecycleState} {reason : String} {error : Option String} :
    AtMost n (transition C newState reason error) := by
  refine atMost_of_total (total_transition newState reason error) fun c =>
    wlp_transition.mpr ⟨fun _ => ?_, fun _ _ => rfl⟩
  simp only [Cell.moved, Cell.saved_log, Cell.note_log, Cell.afterClock_log, Cell.mapInst_log]
  rw [starts_cons (by simp), starts_cons (by simp), starts_cons (by simp)]

theorem atMost_markFailedLocked {error reason : String} :
    AtMost n (markFailedLocked C error reason) :=
  atMost_after atMost_get fun _ =>
    atMost_after (atMost_whenever fun _ => atMost_transition) fun _ =>
      atMost_after (atMost_modifyInst _) fun _ => atMost_persist

theorem atMost_addHold {reason : String} : AtMost n (addHold (σ := σ) reason) :=
  atMost_after (atMost_modifyInst _) fun _ => atMost_persist

theorem atMost_removeHold {reason : String} : AtMost n (removeHold (σ := σ) reason) :=
  atMost_after (atMost_modifyInst _) fun _ => atMost_persist

theorem atMost_scheduleIdleLocked : AtMost n (scheduleIdleLocked C) :=
  atMost_after atMost_get fun _ =>
    atMost_ite (fun _ => atMost_pure _) fun _ =>
      atMost_ite (fun _ => atMost_pure _) fun _ =>
        atMost_after atMost_now fun _ =>
          atMost_after (atMost_ofExcept _) fun _ =>
            atMost_after (atMost_modifyInst _) fun _ => atMost_persist

theorem atMost_stopLocked {reason : String} : AtMost n (stopLocked C reason) := by
  have hhalt : AtMost 0 (do
      resolveDriver C
      driverStop C false (← declaration C)
      transition C .stopped reason none
      let stopped ← now C
      modifyInst fun inst => { inst with lastStopAt := some stopped, idleDeadline := none }
      persist) :=
    atMost_after atMost_resolveDriver fun _ => atMost_after atMost_declaration fun _ =>
      atMost_after (atMost_callDriver (by simp)) fun _ => atMost_after atMost_transition fun _ =>
        atMost_after atMost_now fun _ => atMost_after (atMost_modifyInst _) fun _ => atMost_persist
  exact atMost_after atMost_get fun _ =>
    atMost_ite (fun _ => atMost_persist) fun _ => atMost_ite (fun _ => atMost_transition) fun _ =>
      atMost_ite (fun _ => atMost_throw _) fun _ => atMost_after atMost_transition fun _ =>
        (atMost_tryCatch hhalt fun _ =>
          atMost_after (n := 0) atMost_markFailedLocked fun _ => atMost_throw _).mono (Nat.zero_le n)

theorem atMost_stop {force : Bool} {reason : String} : AtMost n (stop C force reason) :=
  atMost_after (atMost_whenever fun _ => atMost_modifyInst _) fun _ =>
    atMost_after (atMost_whenever fun _ => atMost_modifyInst _) fun _ =>
      atMost_after atMost_get fun _ => atMost_after (atMost_whenever fun _ => atMost_throw _) fun _ =>
        atMost_after atMost_stopLocked fun _ => atMost_after atMost_get fun _ => atMost_pure _

theorem atMost_startHold {reason : String} : AtMost n (startHold (σ := σ) reason) :=
  atMost_ite
    (fun _ => atMost_after (atMost_modifyInst _) fun _ => atMost_after (atMost_modifyInst _) fun _ =>
      atMost_after atMost_get fun _ => atMost_whenever fun _ => atMost_addHold)
    fun _ => atMost_after atMost_get fun _ => atMost_whenever fun _ => atMost_addHold

theorem atMost_releaseSession {sessionId : String} : AtMost n (releaseSession C sessionId) :=
  atMost_after atMost_get fun _ => atMost_ite (fun _ => atMost_throw _) fun _ =>
    atMost_after (atMost_modifyInst _) fun _ => atMost_after atMost_removeHold fun _ =>
      atMost_after atMost_scheduleIdleLocked fun _ => atMost_after atMost_get fun _ => atMost_pure _

theorem atMost_callMaintenance {job : Job} : AtMost n (callMaintenance C job) :=
  (atMost_tryCatch (m := 0)
    (atMost_after atMost_resolveDriver fun _ => atMost_after atMost_declaration fun _ =>
      atMost_after (atMost_callDriver (by simp)) fun _ => atMost_pure _)
    fun _ => atMost_pure (n := 0) _).mono (Nat.zero_le n)

theorem atMost_adopt : AtMost n (adopt C) :=
  atMost_after atMost_transition fun _ => atMost_after atMost_transition fun _ => atMost_transition

theorem atMost_reconcileLook : AtMost n (reconcileLook C) :=
  atMost_after (atMost_after atMost_get fun _ => atMost_after (atMost_modifyInst _) fun _ =>
    atMost_whenever fun _ => atMost_modifyInst _) fun _ =>
      atMost_after atMost_resolveDriver fun _ =>
        atMost_after atMost_declaration fun _ => atMost_callDriver (by simp)

theorem atMost_tickIdle {now : DateTime} : AtMost n (tickIdle C now) := by
  refine atMost_after atMost_get fun c => ?_
  cases parseTimestamp c.inst.idleDeadline with
  | none => exact atMost_pure _
  | some deadline => exact atMost_whenever fun _ => atMost_stopLocked

theorem atMost_tickJobs {now : DateTime} (jobs : List Job) : AtMost n (tickJobs (σ := σ) now jobs) := by
  induction jobs with
  | nil => exact atMost_pure _
  | cons job rest ih =>
      exact atMost_after atMost_get fun _ => atMost_after (atMost_ofExcept _) fun _ =>
        atMost_ite (fun _ => atMost_after (atMost_modifyInst _) fun _ =>
          atMost_after atMost_persist fun _ => (atMost_bind ih fun _ => atMost_pure (n := 0) _))
          fun _ => ih

theorem atMost_settleMaintenance {job : Job} {outcome : Except String Archive.Fields} :
    AtMost n (settleMaintenance C job outcome) := by
  cases outcome with
  | ok result => exact atMost_transition
  | error message => exact atMost_markFailedLocked

theorem atMost_findJob {jobId : String} : AtMost n (findJob C jobId) := by
  unfold findJob
  cases (jobsByName C.service).get? jobId with
  | none => exact atMost_throw _
  | some job => exact atMost_pure job

end Quiet

/-! ## Sections that start the driver -/

section Starting

/-- What the poll interval, the timeouts and the fuel have to be. -/
structure Ample (C : Context σ) (rounds fuel : ℕ) : Prop where
  poll : 0 < C.pollInterval
  deadline : (C.startupTimeout : ℚ) ≤ rounds * C.pollInterval
  window : C.maxRestarts * C.startupTimeout ≤ C.restartWindow
  enough : rounds + 1 ≤ fuel

variable (clock : SleepClock C.environment) {rounds fuel : ℕ} (h : Ample C rounds fuel)

include clock h

theorem atMost_ensureRunningLocked {reason : String} :
    AtMost (C.maxRestarts + 1) (ensureRunningLocked C fuel reason) := fun c =>
  @twp_ensureRunningLocked σ C clock h.poll rounds h.deadline h.window fuel h.enough C.maxRestarts 0 reason c
    (Nat.zero_add _) (remembers_zero _ _)

theorem atMost_restartAfterFailureLocked :
    AtMost C.maxRestarts (restartAfterFailureLocked C (ensureRunningLocked C fuel "recovery")) := by
  intro c
  have hnone : Remembers clock 0 0 c := remembers_zero 0 c
  refine twp_restartAfterFailureLocked hnone (le_refl _)
    (Nat.cast_nonneg _) (by unfold StartsWithin; omega) fun c' hremembers hroom hstarts => ?_
  have hensure := @twp_ensureRunningLocked σ C clock h.poll rounds h.deadline h.window fuel h.enough
    (C.maxRestarts - 1) 1 "recovery" c' (by omega) (by simpa using hremembers)
  rw [hstarts, show starts c.log + (C.maxRestarts - 1) + 1 = starts c.log + C.maxRestarts by omega]
    at hensure
  exact hensure

theorem atMost_start {reason : String} : AtMost (C.maxRestarts + 1) (start C fuel reason) :=
  atMost_after atMost_startHold fun _ =>
    atMost_bind (n := 0) (atMost_ensureRunningLocked clock h) fun _ =>
      atMost_after atMost_get fun _ => atMost_pure _

theorem atMost_notifyFailure {error : String} : AtMost C.maxRestarts (notifyFailure C fuel error) :=
  atMost_after atMost_markFailedLocked fun _ =>
    atMost_bind (n := 0) (atMost_restartAfterFailureLocked clock h) fun _ =>
      atMost_after atMost_get fun _ => atMost_pure _

theorem atMost_acquireSession {sessionId : String} :
    AtMost (C.maxRestarts + 1) (acquireSession C fuel sessionId) :=
  atMost_after atMost_get fun _ => atMost_after (atMost_whenever fun _ => atMost_throw _) fun _ =>
    atMost_after atMost_now fun _ => atMost_after (atMost_modifyInst _) fun _ =>
      atMost_after atMost_addHold fun _ =>
        atMost_bind (n := 0) (atMost_tryCatch (n := 0) (atMost_ensureRunningLocked clock h) fun _ =>
          atMost_after (atMost_modifyInst _) fun _ =>
            atMost_after atMost_removeHold fun _ => atMost_throw _) fun _ => atMost_pure _

theorem atMost_beginMaintenance {job : Job} :
    AtMost (C.maxRestarts + 1) (beginMaintenance C fuel job) :=
  atMost_after atMost_get fun _ => atMost_ite (fun _ => atMost_throw _) fun _ =>
    atMost_after (atMost_modify fun _ => rfl) fun _ =>
      atMost_ite (fun _ => atMost_after (atMost_modify fun _ => rfl) fun _ => atMost_throw _) fun _ =>
        atMost_after atMost_addHold fun _ =>
          atMost_bind (n := 0) (atMost_tryCatch (n := 0)
            (atMost_bind (n := 0) (atMost_ensureRunningLocked clock h) fun _ => atMost_transition)
            fun _ => atMost_after atMost_removeHold fun _ =>
              atMost_after (atMost_modify fun _ => rfl) fun _ => atMost_throw _) fun _ => atMost_pure _

theorem atMost_finishMaintenance {job : Job} {wasActive : Bool} {outcome : Except String Archive.Fields} :
    AtMost C.maxRestarts (finishMaintenance C fuel job wasActive outcome) := by
  refine atMost_after atMost_now fun _ => atMost_after (atMost_modifyInst _) fun _ =>
    atMost_after atMost_settleMaintenance fun _ => atMost_after atMost_removeHold fun _ =>
      atMost_after (atMost_modify fun _ => rfl) fun _ => ?_
  cases outcome with
  | ok result =>
      exact atMost_after atMost_get fun _ => atMost_ite
        (fun _ => atMost_after atMost_stopLocked fun _ => atMost_pure _)
        fun _ => atMost_after atMost_scheduleIdleLocked fun _ => atMost_pure _
  | error message =>
      exact atMost_bind (n := 0) (atMost_restartAfterFailureLocked clock h) fun _ => atMost_throw _

theorem atMost_reconcileState {alive : Bool} : AtMost C.maxRestarts (reconcileState C fuel alive) := by
  refine atMost_after atMost_get fun _ => atMost_ite (fun _ => ?_) fun _ => atMost_ite (fun _ => ?_)
    fun _ => atMost_ite (fun _ => atMost_transition) fun _ => atMost_ite (fun _ => atMost_adopt)
      fun _ => atMost_pure _
  · -- a state that a crash left behind
    refine atMost_ite (fun _ => atMost_transition) fun _ => atMost_ite (fun _ => ?_) fun _ => ?_
    · exact atMost_after (atMost_whenever fun _ => atMost_transition) fun _ => atMost_transition
    · exact atMost_after atMost_markFailedLocked fun _ => atMost_transition
  · -- a runtime that is gone
    exact atMost_after atMost_markFailedLocked fun _ => atMost_after atMost_get fun _ =>
      atMost_ite (fun _ => atMost_restartAfterFailureLocked clock h) fun _ => atMost_transition

theorem atMost_reconcileStart : AtMost (C.maxRestarts + 1) (reconcileStart C fuel) := by
  refine atMost_after atMost_get fun c => atMost_ite (fun _ => atMost_ensureRunningLocked clock h)
    fun _ => atMost_ite (fun _ => ?_) fun _ => atMost_pure _
  cases parseTimestamp c.inst.nextRestartAt with
  | none => exact atMost_ensureRunningLocked clock h
  | some eligible =>
      exact atMost_after atMost_now fun _ =>
        atMost_whenever fun _ => atMost_ensureRunningLocked clock h

theorem atMost_reconcileLocked :
    AtMost (C.maxRestarts + (C.maxRestarts + 1)) (reconcileLocked C fuel) := by
  have hconverge : ∀ alive, AtMost (C.maxRestarts + (C.maxRestarts + 1))
      (reconcileConverge C fuel alive) := fun alive =>
    atMost_bind (atMost_reconcileState clock h) fun _ => atMost_after atMost_get fun _ =>
      atMost_after (atMost_whenever fun _ => atMost_adopt) fun _ =>
        atMost_bind (n := 0) (atMost_reconcileStart clock h) fun _ =>
          atMost_after atMost_scheduleIdleLocked fun _ => atMost_persist
  exact fun c => (twp_reconcileLocked C).mpr (twp_bind.mp (atMost_after atMost_reconcileLook hconverge c))

theorem atMost_tickRestart {now : DateTime} :
    AtMost (C.maxRestarts + 1) (tickRestart C fuel now) := by
  refine atMost_after atMost_get fun c => ?_
  cases parseTimestamp c.inst.nextRestartAt with
  | none => exact atMost_pure _
  | some nextRestart =>
      exact atMost_whenever fun _ => atMost_bind (n := 0) (atMost_ensureRunningLocked clock h) fun _ =>
        atMost_after atMost_get fun _ => atMost_whenever fun _ =>
          atMost_after (atMost_modifyInst _) fun _ => atMost_persist

theorem atMost_tickLocked {now : DateTime} : AtMost (C.maxRestarts + 1) (tickLocked C fuel now) :=
  atMost_after atMost_tickIdle fun _ =>
    atMost_bind (n := 0) (atMost_tickRestart clock h) fun _ => atMost_tickJobs _

end Starting

/-! ## Every section -/

namespace Operation

/-- A section of a maintenance run is a section of a run that is under way. -/
def Enabled (running : List MaintenanceRun) : Operation → Prop
  | .callMaintenance index => ∃ job wasActive, running[index]? = some ⟨job, wasActive, none⟩
  | .finishMaintenance index =>
      ∃ job wasActive outcome, running[index]? = some ⟨job, wasActive, some outcome⟩
  | _ => True

/-- How often a section may start the driver, with so many restarts. -/
def startBound (restarts : ℕ) : Operation → ℕ
  | .reconcile => restarts + (restarts + 1)
  | .start _ | .acquireSession _ | .tick _ | .beginMaintenance _ => restarts + 1
  | .notifyFailure _ | .finishMaintenance _ => restarts
  | _ => 0

end Operation

theorem atMost_lockedSection (clock : SleepClock C.environment) {rounds fuel : ℕ}
    (h : Ample C rounds fuel) (op : Operation) {running : List MaintenanceRun}
    (henabled : op.Enabled running) :
    AtMost (op.startBound C.maxRestarts) (op.lockedSection C fuel running) := by
  cases op with
  | start => exact atMost_bind (n := 0) (atMost_start clock h) fun _ => atMost_pure _
  | stop => exact atMost_after atMost_stop fun _ => atMost_pure _
  | acquireSession => exact atMost_bind (n := 0) (atMost_acquireSession clock h) fun _ => atMost_pure _
  | releaseSession => exact atMost_after atMost_releaseSession fun _ => atMost_pure _
  | notifyFailure => exact atMost_bind (n := 0) (atMost_notifyFailure clock h) fun _ => atMost_pure _
  | transition => exact atMost_after atMost_transition fun _ => atMost_pure _
  | reconcile => exact atMost_bind (n := 0) (atMost_reconcileLocked clock h) fun _ => atMost_pure _
  | tick => exact atMost_bind (n := 0) (atMost_tickLocked clock h) fun _ => atMost_pure _
  | beginMaintenance =>
      exact atMost_after atMost_findJob fun _ =>
        atMost_bind (n := 0) (atMost_beginMaintenance clock h) fun _ => atMost_pure _
  | callMaintenance index =>
      obtain ⟨job, wasActive, hrun⟩ := henabled
      simp only [Operation.lockedSection, hrun]
      exact atMost_after atMost_callMaintenance fun _ => atMost_pure _
  | finishMaintenance index =>
      obtain ⟨job, wasActive, outcome, hrun⟩ := henabled
      simp only [Operation.lockedSection, hrun]
      exact atMost_bind (n := 0) (atMost_finishMaintenance clock h) fun _ => atMost_pure _
  | setLifecycleMode => exact atMost_after (atMost_modify fun _ => rfl) fun _ => atMost_pure _
  | reload => exact atMost_after (atMost_modify fun _ => rfl) fun _ => atMost_pure _

/-- **Progress.**  Where the startup timeouts of all restarts fit in the restart window, enough fuel
lets every section come back from every world, with a bounded number of starts. -/
theorem sections_come_back (C : Context σ) (clock : SleepClock C.environment)
    (hpoll : 0 < C.pollInterval) (hwindow : C.maxRestarts * C.startupTimeout ≤ C.restartWindow) :
    ∃ enough, ∀ (w : World σ) (l : Label σ), enough ≤ l.fuel → l.op.Enabled w.running →
      ∃ result w', World.step C w l = some (result, w') ∧
        starts w'.cell.log ≤ starts w.cell.log + l.op.startBound C.maxRestarts := by
  have hrounds := Nat.le_ceil (C.startupTimeout / C.pollInterval)
  rw [div_le_iff₀ hpoll] at hrounds
  refine ⟨⌈C.startupTimeout / C.pollInterval⌉₊ + 1, fun w l hfuel henabled => ?_⟩
  have hsection := atMost_lockedSection clock ⟨hpoll, hrounds, hwindow, hfuel⟩ l.op henabled
    (w.cell.withEnv l.env)
  obtain ⟨result, c, hrun, hstarts⟩ := exists_run_of_twp hsection
  cases result with
  | ok running => exact ⟨.ok (), ⟨c, running⟩, by rw [World.step, hrun], hstarts⟩
  | error exc =>
      exact ⟨.error exc, ⟨c, l.op.runningAfterError w.running⟩, by rw [World.step, hrun], hstarts⟩

/-- One restart of at most a minute fits in a minute, and the supervisor comes back from a runtime
that never becomes ready. -/
theorem sections_come_back_never_ready :
    ∃ enough, ∀ (w : World ℚ) (l : Label ℚ), enough ≤ l.fuel → l.op.Enabled w.running →
      ∃ result w', World.step (neverReady (scripted oneRestart []).service
          (scriptedDeclaration oneRestart) 1 400) w l = some (result, w') ∧
        starts w'.cell.log ≤ starts w.cell.log + l.op.startBound 1 :=
  sections_come_back (neverReady (scripted oneRestart []).service (scriptedDeclaration oneRestart) 1 400)
    SleepClock.neverReady one_pos (by decide)

end UltimateBBSBox.Supervisor
