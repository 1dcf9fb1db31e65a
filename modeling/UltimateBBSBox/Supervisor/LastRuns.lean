import UltimateBBSBox.Supervisor.Maintenance
import UltimateBBSBox.Supervisor.Schedules

/-!
# Who writes the last runs

`schedule_last_run` is written in two places, by the job loop of `tick` and at the end of
`run_maintenance`, each time for the job at hand.  `KeepsRuns jobs` relates two cells with the
same last runs of all jobs but these; every other section stays within it for no job at all.
-/

namespace UltimateBBSBox.Supervisor

open Act

variable {σ α : Type} {C : Context σ} {J : Set String}

/-- The last run of a job in the state file. -/
def Cell.storedRun (c : Cell σ) (name : String) : Option DateTime :=
  c.stateFile.bind fun document => document.scheduleLastRun.get? name

/-- The last runs of all other jobs are the same, and those in the state file are the same or
newly saved. -/
structure KeepsRuns (jobs : Set String) (c c' : Cell σ) : Prop where
  memory : ∀ name, name ∉ jobs → c'.inst.scheduleLastRun.get? name = c.inst.scheduleLastRun.get? name
  file : ∀ name, name ∉ jobs →
    c'.storedRun name = c.storedRun name ∨ c'.storedRun name = c.inst.scheduleLastRun.get? name

instance : IsPreorder (Cell σ) (KeepsRuns J) where
  refl _ := ⟨fun _ _ => rfl, fun _ _ => .inl rfl⟩
  trans _ _ _ h h' := by
    refine ⟨fun name hname => (h'.memory name hname).trans (h.memory name hname), fun name hname => ?_⟩
    rcases h'.file name hname with hfile | hfile
    · rw [hfile]
      exact h.file name hname
    · exact .inr (hfile.trans (h.memory name hname))

theorem keepsRuns_of_eq {c c' : Cell σ} (h : c'.inst.scheduleLastRun = c.inst.scheduleLastRun)
    (hfile : c'.stateFile = c.stateFile) : KeepsRuns J c c' :=
  ⟨fun name _ => by rw [h], fun name _ => .inl (by rw [Cell.storedRun, hfile]; rfl)⟩

theorem keepsRuns_of_save {c c' : Cell σ} (h : c'.inst.scheduleLastRun = c.inst.scheduleLastRun)
    {document : Document} (hfile : c'.stateFile = some document)
    (hsaved : document.scheduleLastRun = c.inst.scheduleLastRun) : KeepsRuns J c c' :=
  ⟨fun name _ => by rw [h], fun name _ => .inr (by rw [Cell.storedRun, hfile, Option.bind_some, hsaved])⟩

/-- An effect that saves nothing. -/
def Effect.SavesNothing (effect : Effect) : Prop := ∀ document, effect ≠ .save document

theorem stateFile_cons {c c' : Cell σ} {effect : Effect} (heffect : effect.SavesNothing)
    (hlog : c'.log = effect :: c.log) : c'.stateFile = c.stateFile := by
  unfold Cell.stateFile
  rw [hlog, List.findSome?_cons]
  cases effect with
  | save document => exact absurd rfl (heffect document)
  | _ => rfl

/-! ## Primitive sections -/

section Primitives

theorem runs_modifyInst {f : InstanceState → InstanceState}
    (h : ∀ inst, (f inst).scheduleLastRun = inst.scheduleLastRun) :
    Within (KeepsRuns J) (modifyInst (σ := σ) f) := fun c =>
  wlp_modifyInst.mpr (keepsRuns_of_eq (h c.inst) rfl)

theorem runs_record {effect : Effect} (h : effect.SavesNothing) :
    Within (KeepsRuns J) (record (σ := σ) effect) := fun _ =>
  wlp_record.mpr (keepsRuns_of_eq rfl (stateFile_cons h rfl))

theorem runs_persist : Within (KeepsRuns J) (persist (σ := σ)) := fun _ =>
  wlp_persist.mpr (keepsRuns_of_save rfl rfl rfl)

theorem runs_now : Within (KeepsRuns J) (now C) := fun _ => wlp_now.mpr (keepsRuns_of_eq rfl rfl)

theorem runs_monotonic : Within (KeepsRuns J) (monotonic C) := fun _ =>
  wlp_monotonic.mpr (keepsRuns_of_eq rfl rfl)

theorem runs_sleep (seconds : ℚ) : Within (KeepsRuns J) (sleep C seconds) := fun _ =>
  wlp_sleep.mpr (keepsRuns_of_eq rfl rfl)

theorem runs_resolveDriver : Within (KeepsRuns J) (resolveDriver C) := fun _ =>
  wlp_resolveDriver.mpr ⟨fun _ => keepsRuns_of_eq rfl rfl, fun _ _ => keepsRuns_of_eq rfl rfl⟩

theorem runs_declaration : Within (KeepsRuns J) (declaration C) := fun c =>
  wlp_declaration.mpr ⟨fun _ _ => refl_of (KeepsRuns J) c, fun _ _ => refl_of (KeepsRuns J) c⟩

theorem runs_callDriver {call : InstanceState → σ → Reply σ α} {effect : InstanceState → Effect}
    (h : ∀ inst, (effect inst).SavesNothing) : Within (KeepsRuns J) (callDriver call effect) :=
  fun c => wlp_callDriver.mpr
    ⟨fun _ _ => keepsRuns_of_eq rfl (stateFile_cons (h c.inst) rfl),
      fun _ _ => keepsRuns_of_eq rfl (stateFile_cons (h c.inst) rfl)⟩

theorem runs_driverStart {d : Declaration} : Within (KeepsRuns J) (driverStart C d) :=
  runs_callDriver fun _ _ h => by cases h

theorem runs_driverStop {cleanup : Bool} {d : Declaration} :
    Within (KeepsRuns J) (driverStop C cleanup d) := runs_callDriver fun _ _ h => by cases h

theorem runs_driverStatus {d : Declaration} : Within (KeepsRuns J) (driverStatus C d) :=
  runs_callDriver fun _ _ h => by cases h

theorem runs_driverIsReady {d : Declaration} {readiness : Readiness} :
    Within (KeepsRuns J) (driverIsReady C d readiness) := runs_callDriver fun _ _ h => by cases h

theorem runs_driverRunMaintenance {d : Declaration} {job : Job} :
    Within (KeepsRuns J) (driverRunMaintenance C d job) := runs_callDriver fun _ _ h => by cases h

theorem runs_modifyJobs (f : Finset String → Finset String) :
    Within (KeepsRuns J)
      (modify (m := Prog σ) fun c => { c with jobsRunning := f c.jobsRunning }) := fun _ =>
  wlp_modifyJobs.mpr (keepsRuns_of_eq rfl rfl)

theorem runs_transition {newState : LifecycleState} {reason : String} {error : Option String} :
    Within (KeepsRuns J) (transition C newState reason error) := fun c =>
  wlp_transition.mpr ⟨fun _ => keepsRuns_of_save rfl rfl rfl, fun _ _ => refl_of (KeepsRuns J) c⟩

/-- An update of other fields that is saved. -/
theorem runs_update {f : InstanceState → InstanceState}
    (h : ∀ inst, (f inst).scheduleLastRun = inst.scheduleLastRun) :
    Within (KeepsRuns J) (do
      modifyInst (σ := σ) f
      persist) :=
  within_bind (runs_modifyInst h) fun _ => runs_persist

theorem runs_removeHold (reason : String) :
    Within (KeepsRuns J) (removeHold (σ := σ) reason) := runs_update fun _ => rfl

theorem runs_markFailedLocked {error reason : String} :
    Within (KeepsRuns J) (markFailedLocked C error reason) :=
  within_bind within_get fun _ =>
    within_bind (within_whenever fun _ => runs_transition) fun _ => runs_update fun _ => rfl

theorem runs_scheduleIdleLocked : Within (KeepsRuns J) (scheduleIdleLocked C) :=
  within_bind within_get fun _ =>
    within_ite (fun _ => within_pure _) fun _ =>
      within_ite (fun _ => within_pure _) fun _ =>
        within_bind runs_now fun _ =>
          within_bind (within_ofExcept _) fun _ => runs_update fun _ => rfl

end Primitives

/-! ## Starting and stopping -/

section Starting

theorem runs_awaitReady {d : Declaration} {readiness : Readiness} {timeout : ℕ} {deadline : ℚ}
    (fuel : ℕ) : Within (KeepsRuns J) (awaitReady C d readiness timeout deadline fuel) := by
  induction fuel with
  | zero => exact within_diverge
  | succ fuel ih =>
      exact within_bind runs_driverIsReady fun _ =>
        within_ite (fun _ => within_pure _) fun _ =>
          within_bind runs_monotonic fun _ =>
            within_ite (fun _ => within_throw _) fun _ =>
              within_bind runs_monotonic fun _ => within_bind (runs_sleep _) fun _ => ih

theorem runs_startAttempt {d : Declaration} {reason : String} (fuel : ℕ) :
    Within (KeepsRuns J) (startAttempt C fuel d reason) :=
  within_bind runs_driverStart fun _ =>
    within_bind within_get fun _ =>
      within_bind runs_monotonic fun _ =>
        within_bind (runs_awaitReady fuel) fun _ =>
          within_bind runs_transition fun _ =>
            within_bind runs_transition fun _ =>
              within_bind runs_now fun _ => runs_update fun _ => rfl

theorem runs_cleanUp {d : Declaration} : Within (KeepsRuns J) (cleanUp C d) :=
  within_bind runs_driverStatus fun _ =>
    within_ite (fun _ => runs_driverStop) fun _ => within_pure _

theorem runs_restartAfterFailureLocked {ensureRunning : Prog σ Unit}
    (hensure : Within (KeepsRuns J) ensureRunning) :
    Within (KeepsRuns J) (restartAfterFailureLocked C ensureRunning) := by
  refine within_bind within_get fun _ => within_ite (fun _ => within_pure _) fun _ =>
    within_bind runs_now fun _ => within_bind (within_ofExcept _) fun _ =>
      within_bind (runs_modifyInst fun _ => rfl) fun _ => within_ite (fun _ => ?_) fun _ => ?_
  · exact within_bind (runs_modifyInst fun _ => rfl) fun _ =>
      within_bind runs_persist fun _ => within_throw _
  · exact within_bind (runs_modifyInst fun _ => rfl) fun _ =>
      within_bind (runs_record fun _ h => by cases h) fun _ =>
        within_bind (within_ofExcept _) fun _ =>
          within_bind (runs_modifyInst fun _ => rfl) fun _ =>
            within_bind runs_persist fun _ =>
              within_whenever fun _ => within_bind hensure fun _ =>
                within_bind within_get fun _ => within_whenever fun _ => runs_update fun _ => rfl

theorem runs_ensureNested (fuel depth : ℕ) (reason : String) :
    Within (KeepsRuns J) (ensureNested C fuel depth reason) := by
  induction depth generalizing reason with
  | zero => exact within_throw _
  | succ depth ih =>
      exact within_bind within_get fun _ =>
        within_ite (fun _ => within_pure _) fun _ =>
          within_ite (fun _ => within_throw _) fun _ =>
            within_bind runs_declaration fun _ =>
              within_bind runs_resolveDriver fun _ =>
                within_bind runs_transition fun _ =>
                  within_tryCatch (runs_startAttempt fuel) fun exc =>
                    within_bind (within_tryCatch runs_cleanUp fun _ => within_pure _) fun _ =>
                      within_bind runs_markFailedLocked fun _ =>
                        within_bind (runs_restartAfterFailureLocked (ih "recovery")) fun _ =>
                          within_bind within_get fun _ => within_whenever fun _ => within_throw exc

theorem runs_ensureRunningLocked (fuel : ℕ) (reason : String) :
    Within (KeepsRuns J) (ensureRunningLocked C fuel reason) := runs_ensureNested fuel _ reason

theorem runs_stopLocked {reason : String} : Within (KeepsRuns J) (stopLocked C reason) := by
  refine within_bind within_get fun _ => within_ite (fun _ => runs_persist) fun _ =>
    within_ite (fun _ => runs_transition) fun _ => within_ite (fun _ => within_throw _) fun _ =>
      within_bind runs_transition fun _ => within_tryCatch ?_ fun exc =>
        within_bind runs_markFailedLocked fun _ => within_throw exc
  exact within_bind runs_resolveDriver fun _ =>
    within_bind runs_declaration fun _ =>
      within_bind runs_driverStop fun _ =>
        within_bind runs_transition fun _ => within_bind runs_now fun _ => runs_update fun _ => rfl

end Starting

/-! ## Reconciling -/

section Reconciling

theorem runs_adopt : Within (KeepsRuns J) (adopt C) :=
  within_bind runs_transition fun _ => within_bind runs_transition fun _ => runs_transition

theorem runs_reconcileHolds : Within (KeepsRuns J) (reconcileHolds C) :=
  within_bind within_get fun _ =>
    within_bind (runs_modifyInst fun _ => rfl) fun _ =>
      within_whenever fun _ => runs_modifyInst fun _ => rfl

theorem runs_reconcileState (fuel : ℕ) (alive : Bool) :
    Within (KeepsRuns J) (reconcileState C fuel alive) := by
  refine within_bind within_get fun c => within_ite (fun _ => ?_) fun _ =>
    within_ite (fun _ => ?_) fun _ => ?_
  · refine within_ite (fun _ => runs_transition) fun _ => within_ite (fun _ => ?_) fun _ => ?_
    · exact within_bind (within_whenever fun _ => runs_transition) fun _ => runs_transition
    · exact within_bind runs_markFailedLocked fun _ => runs_transition
  · refine within_bind runs_markFailedLocked fun _ => within_bind within_get fun _ =>
      within_ite (fun _ => ?_) fun _ => runs_transition
    exact runs_restartAfterFailureLocked (runs_ensureRunningLocked fuel _)
  · exact within_ite (fun _ => runs_transition) fun _ =>
      within_ite (fun _ => runs_adopt) fun _ => within_pure _

theorem runs_reconcileStart (fuel : ℕ) : Within (KeepsRuns J) (reconcileStart C fuel) := by
  refine within_bind within_get fun c => within_ite (fun _ => runs_ensureRunningLocked fuel _)
    fun _ => within_ite (fun _ => ?_) fun _ => within_pure _
  cases parseTimestamp c.inst.nextRestartAt with
  | none => exact runs_ensureRunningLocked fuel _
  | some eligible =>
      exact within_bind runs_now fun _ => within_whenever fun _ => runs_ensureRunningLocked fuel _

/-- A reconciliation leaves all last runs alone. -/
theorem runs_reconcileLocked (fuel : ℕ) : Within (KeepsRuns J) (reconcileLocked C fuel) :=
  within_bind runs_reconcileHolds fun _ =>
    within_bind runs_resolveDriver fun _ =>
      within_bind runs_declaration fun _ =>
        within_bind runs_driverStatus fun alive =>
          within_bind (runs_reconcileState fuel alive) fun _ =>
            within_bind within_get fun _ =>
              within_bind (within_whenever fun _ => runs_adopt) fun _ =>
                within_bind (runs_reconcileStart fuel) fun _ =>
                  within_bind runs_scheduleIdleLocked fun _ => runs_persist

end Reconciling

/-! ## Maintenance runs -/

section Maintenance

theorem runs_beginMaintenance (fuel : ℕ) (job : Job) :
    Within (KeepsRuns J) (beginMaintenance C fuel job) := by
  refine within_bind within_get fun _ => within_ite (fun _ => within_throw _) fun _ =>
    within_bind (runs_modifyJobs _) fun _ => within_ite (fun _ => ?_) fun _ => ?_
  · exact within_bind (runs_modifyJobs fun running => running.erase job.name) fun _ => within_throw _
  · refine within_bind (runs_update fun _ => rfl) fun _ => within_bind ?_ fun _ => within_pure _
    refine within_tryCatch (within_bind (runs_ensureRunningLocked fuel _) fun _ => runs_transition)
      fun exc => within_bind (runs_removeHold _) fun _ => ?_
    exact within_bind (runs_modifyJobs fun running => running.erase job.name) fun _ =>
      within_throw exc

theorem runs_callMaintenance (job : Job) : Within (KeepsRuns J) (callMaintenance C job) :=
  within_tryCatch
    (within_bind runs_resolveDriver fun _ =>
      within_bind runs_declaration fun _ =>
        within_bind runs_driverRunMaintenance fun _ => within_pure _)
    fun _ => within_pure _

/-- The second section after it has written the last run of its job. -/
theorem runs_finishTail (fuel : ℕ) (job : Job) (wasActive : Bool) (outcome : Except String Archive.Fields) :
    Within (KeepsRuns J) (do
      settleMaintenance C job outcome
      removeHold "maintenance"
      modify fun c => { c with jobsRunning := c.jobsRunning.erase job.name }
      match outcome with
      | .ok result => do
          let c ← get
          if wasActive = false ∧ job.shutdownAfter.getD true = true ∧ c.inst.activeHolds = 0 then do
            stopLocked C s!"maintenance_complete:{job.name}"
            return result
          else do
            scheduleIdleLocked C
            return result
      | .error message => do
          restartAfterFailureLocked C (ensureRunningLocked C fuel "recovery")
          throw ⟨.maintenanceError, s!"maintenance {C.service.id}/{job.name} failed: {message}"⟩ :
        Prog σ Archive.Fields) := by
  refine within_bind ?_ fun _ => within_bind (runs_removeHold _) fun _ =>
    within_bind (runs_modifyJobs fun running => running.erase job.name) fun _ => ?_
  · cases outcome with
    | ok result => exact runs_transition
    | error message => exact runs_markFailedLocked
  · cases outcome with
    | ok result =>
        exact within_bind within_get fun _ =>
          within_ite (fun _ => within_bind runs_stopLocked fun _ => within_pure _) fun _ =>
            within_bind runs_scheduleIdleLocked fun _ => within_pure _
    | error message =>
        exact within_bind (runs_restartAfterFailureLocked (runs_ensureRunningLocked fuel _))
          fun _ => within_throw _

/-- The second section writes the last run of its job. -/
theorem runs_finishMaintenance (fuel : ℕ) {job : Job} (hjob : job.name ∈ J) (wasActive : Bool)
    (outcome : Except String Archive.Fields) :
    Within (KeepsRuns J) (finishMaintenance C fuel job wasActive outcome) :=
  within_bind runs_now fun _ => within_bind (fun _ => wlp_modifyInst.mpr
    ⟨fun _ hname => Dict.get?_set_ne _ _ fun heq => hname (heq ▸ hjob), fun _ _ => .inl rfl⟩)
      fun _ => runs_finishTail fuel job wasActive outcome

theorem runs_runMaintenance (fuel : ℕ) (jobId : String) :
    Within (KeepsRuns {jobId}) (runMaintenance C fuel jobId) := by
  intro c
  refine wlp_bind.mpr ?_
  unfold findJob
  cases hjob : (jobsByName C.service).get? jobId with
  | none => exact wlp_throw.mpr (refl_of (KeepsRuns {jobId}) c)
  | some job =>
      have hname : job.name ∈ ({jobId} : Set String) := name_of_jobsByName hjob
      exact within_bind (R := KeepsRuns {jobId}) (runs_beginMaintenance fuel job) (fun wasActive =>
        within_bind (runs_callMaintenance job) fun outcome =>
          runs_finishMaintenance fuel hname wasActive outcome) c

end Maintenance

/-! ## The job loop of `tick` -/

section Marking

/-- The idle stop and the due restart leave all last runs alone. -/
theorem runs_tickIdle (now : DateTime) : Within (KeepsRuns J) (tickIdle C now) := by
  refine within_bind within_get fun c => ?_
  cases parseTimestamp c.inst.idleDeadline with
  | none => exact within_pure _
  | some deadline => exact within_whenever fun _ => runs_stopLocked

theorem runs_tickRestart (fuel : ℕ) (now : DateTime) :
    Within (KeepsRuns J) (tickRestart C fuel now) := by
  refine within_bind within_get fun c => ?_
  cases parseTimestamp c.inst.nextRestartAt with
  | none => exact within_pure _
  | some nextRestart =>
      exact within_whenever fun _ => within_bind (runs_ensureRunningLocked fuel _) fun _ =>
        within_bind within_get fun _ => within_whenever fun _ => runs_update fun _ => rfl

/-- The section of `tick` before its job loop. -/
def tickLook (C : Context σ) (fuel : ℕ) (now : DateTime) : Prog σ Unit := do
  tickIdle C now
  tickRestart C fuel now

theorem runs_tickLook (fuel : ℕ) (now : DateTime) :
    Within (KeepsRuns J) (tickLook C fuel now) :=
  within_bind (runs_tickIdle now) fun _ => runs_tickRestart fuel now

theorem run_tickLocked (fuel : ℕ) (now : DateTime) (c : Cell σ) :
    (tickLocked C fuel now).run c =
      (tickLook C fuel now >>= fun _ => tickJobs now C.service.jobs).run c := by
  unfold tickLocked tickLook
  rw [run_bind, run_bind, run_bind]
  cases (tickIdle C now).run c with
  | none => rfl
  | some result =>
      obtain ⟨r, c₁⟩ := result
      cases r with
      | error e => rfl
      | ok _ => exact run_bind _ _ c₁

/-- A cell after a job was marked. -/
def Cell.marked (c : Cell σ) (now : DateTime) (name : String) : Cell σ :=
  (c.mapInst fun inst =>
    { inst with scheduleLastRun := inst.scheduleLastRun.set name now }).saved

/-- The names that the loop marks, up to the first job whose schedule raises. -/
def dueNames (now : DateTime) : List Job → Cell σ → List String
  | [], _ => []
  | job :: rest, c =>
      match jobDue now job c with
      | .ok true => job.name :: dueNames now rest (c.marked now job.name)
      | .ok false => dueNames now rest c
      | .error _ => []

/-- The last runs after these jobs were marked. -/
def Marked (now : DateTime) (names : List String) (c c' : Cell σ) : Prop :=
  ∀ name, c'.inst.scheduleLastRun.get? name =
    if name ∈ names then some now else c.inst.scheduleLastRun.get? name

/-- The loop marks what it returns, and where it raises, what it would have returned so far. -/
theorem wlp_tickJobs (now : DateTime) (jobs : List Job) (c : Cell σ) :
    wlp (tickJobs now jobs)
      (fun names c' => names = dueNames now jobs c ∧ Marked now (dueNames now jobs c) c c')
      (fun _ c' => Marked now (dueNames now jobs c) c c') c := by
  induction jobs generalizing c with
  | nil => exact wlp_pure.mpr ⟨rfl, fun _ => (if_neg List.not_mem_nil).symm⟩
  | cons job rest ih =>
      refine wlp_bind.mpr <| wlp_get.mpr <| wlp_bind.mpr <| wlp_ofExcept.mpr
        ⟨fun due hdue => wlp_ite.mpr ⟨fun hyes => ?_, fun hno => ?_⟩, fun e he => ?_⟩
      · rw [hyes] at hdue
        have hnames : dueNames now (job :: rest) c =
            job.name :: dueNames now rest (c.marked now job.name) := by
          rw [dueNames, hdue]
        -- what is marked later stays marked, whatever was marked before
        have hmarked : ∀ {c'}, Marked now (dueNames now rest (c.marked now job.name))
            (c.marked now job.name) c' → Marked now (dueNames now (job :: rest) c) c c' := by
          intro c' h name
          rw [hnames, h name]
          by_cases hname : name = job.name
          · subst hname
            simp [Cell.marked]
          · simp [Cell.marked, hname]
        refine wlp_bind.mpr <| wlp_modifyInst.mpr <| wlp_bind.mpr <| wlp_persist.mpr <|
          wlp_bind.mpr <| wlp_mono (ih (c.marked now job.name)) (fun names c' h => ?_)
            fun _ _ h => hmarked h
        exact wlp_pure.mpr ⟨by rw [h.1, hnames], hmarked h.2⟩
      · rw [Bool.not_eq_true] at hno
        rw [hno] at hdue
        rw [dueNames, hdue]
        exact ih c
      · rw [dueNames, he]
        exact fun _ => (if_neg List.not_mem_nil).symm

/-- A job is marked only after its last run. -/
theorem ne_of_jobDue {now : DateTime} {job : Job} {c : Cell σ} (h : jobDue now job c = .ok true) :
    c.inst.scheduleLastRun.get? job.name ≠ some now := by
  intro hsame
  unfold jobDue at h
  split at h
  · cases h
  · rw [hsame] at h
    exact lt_irrefl _ (Scheduler.lt_of_isDue h)

theorem ne_of_mem_dueNames {now : DateTime} {jobs : List Job} {c : Cell σ} {name : String}
    (h : name ∈ dueNames now jobs c) : c.inst.scheduleLastRun.get? name ≠ some now := by
  induction jobs generalizing c with
  | nil => cases h
  | cons job rest ih =>
      rw [dueNames] at h
      split at h
      · rename_i hdue
        rcases List.mem_cons.mp h with rfl | hrest
        · exact ne_of_jobDue hdue
        · -- the job at the head is marked now, so it is another one
          have hother := ih hrest
          by_cases hname : name = job.name
          · subst hname
            simp [Cell.marked] at hother
          · simpa [Cell.marked, hname] using hother
      · exact ih h
      · cases h

/-- No job is marked twice. -/
theorem nodup_dueNames (now : DateTime) (jobs : List Job) (c : Cell σ) :
    (dueNames now jobs c).Nodup := by
  induction jobs generalizing c with
  | nil => exact List.nodup_nil
  | cons job rest ih =>
      rw [dueNames]
      split
      · refine List.nodup_cons.mpr ⟨fun hmem => ?_, ih _⟩
        exact ne_of_mem_dueNames hmem (by simp [Cell.marked])
      · exact ih c
      · exact List.nodup_nil

/-- The names that the section of `tick` marks, also where it raises. -/
def tickMarks (C : Context σ) (fuel : ℕ) (now : DateTime) (c : Cell σ) : List String :=
  match (tickLook C fuel now).run c with
  | some (.ok _, c') => dueNames now C.service.jobs c'
  | _ => []

theorem wlp_tickLocked_marks (fuel : ℕ) (now : DateTime) (c : Cell σ) :
    wlp (tickLocked C fuel now)
      (fun names c' => names = tickMarks C fuel now c ∧ Marked now (tickMarks C fuel now c) c c')
      (fun _ c' => Marked now (tickMarks C fuel now c) c c') c := by
  suffices h : wlp (tickLook C fuel now >>= fun _ => tickJobs now C.service.jobs)
      (fun names c' => names = tickMarks C fuel now c ∧ Marked now (tickMarks C fuel now c) c c')
      (fun _ c' => Marked now (tickMarks C fuel now c) c c') c by
    unfold wlp at h ⊢
    rwa [run_tickLocked]
  refine wlp_bind.mpr ?_
  have hkept := runs_tickLook (C := C) (J := ∅) fuel now c
  unfold tickMarks
  unfold wlp at hkept ⊢
  cases hafter : (tickLook C fuel now).run c with
  | none => trivial
  | some result =>
      obtain ⟨r, c₁⟩ := result
      rw [hafter] at hkept
      cases r with
      | error e =>
          intro name
          rw [if_neg List.not_mem_nil]
          exact hkept.memory name (Set.notMem_empty name)
      | ok _ =>
          have hfrom : ∀ {c'}, Marked now (dueNames now C.service.jobs c₁) c₁ c' →
              Marked now (dueNames now C.service.jobs c₁) c c' := by
            intro c' h name
            rw [h name, hkept.memory name (Set.notMem_empty name)]
          exact wlp_mono (wlp_tickJobs now C.service.jobs c₁) (fun _ _ h => ⟨h.1, hfrom h.2⟩)
            fun _ _ h => hfrom h

theorem ne_of_mem_tickMarks {fuel : ℕ} {now : DateTime} {c : Cell σ} {name : String}
    (h : name ∈ tickMarks C fuel now c) : c.inst.scheduleLastRun.get? name ≠ some now := by
  have hkept := runs_tickLook (C := C) (J := ∅) fuel now c
  unfold tickMarks at h
  unfold wlp at hkept
  split at h
  · rename_i hafter
    rw [hafter] at hkept
    rw [← hkept.memory name (Set.notMem_empty name)]
    exact ne_of_mem_dueNames h
  · cases h

theorem nodup_tickMarks (fuel : ℕ) (now : DateTime) (c : Cell σ) :
    (tickMarks C fuel now c).Nodup := by
  unfold tickMarks
  split
  · exact nodup_dueNames _ _ _
  · exact List.nodup_nil

end Marking

end UltimateBBSBox.Supervisor
