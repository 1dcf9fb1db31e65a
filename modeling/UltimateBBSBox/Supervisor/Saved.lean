import UltimateBBSBox.Library.WriteBack
import UltimateBBSBox.Supervisor.Maintenance

/-!
# Which sections save what they change

The state file is meant to hold `to_dict(persist=True)` of the instance.  The
sections write it by explicit calls of `_persist` after they have updated
fields.  For each section one lemma says that it writes the file after its last
change, or, where an early return or an exception lies between, from which
states it does.
-/

namespace UltimateBBSBox.Supervisor

open Act

variable {σ α : Type} {C : Context σ}

/-- The instance and its state file. -/
def Context.writeBack (C : Context σ) : WriteBack (Cell σ) Document where
  memory c := c.inst.toDict true
  file := Cell.stateFile
  follows c c' := c.log <:+ c'.log
  fits c := AttemptsFit C c.log
  refl _ := List.suffix_refl _
  trans _ _ _ h h' := h.trans h'
  fits_of_follows _ _ h hfit := hfit.of_suffix h

/-- The file was written after the last change. -/
abbrev Cleans (C : Context σ) : Cell σ → Cell σ → Prop := C.writeBack.Cleans

/-- The file was written after the last change, if there was one. -/
abbrev Syncs (C : Context σ) : Cell σ → Cell σ → Prop := C.writeBack.Syncs

section Primitives

variable {c c₁ : Cell σ}

theorem cleans_saved (h : c.log <:+ c₁.log) : Cleans C c c₁.saved :=
  ⟨h.trans (List.suffix_cons _ _), fun _ => rfl⟩

theorem cleans_moved (h : c.log <:+ c₁.log) (newState : LifecycleState) (reason : String)
    (error : Option String) : Cleans C c (c₁.moved C newState reason error) :=
  ⟨h.trans ⟨[_, _, _], rfl⟩, fun _ => rfl⟩

theorem syncs_persist : Within (Syncs C) (persist (σ := σ)) := fun _ =>
  wlp_persist.mpr (cleans_saved (List.suffix_refl _)).syncs

theorem syncs_now : Within (Syncs C) (now C) := fun _ =>
  wlp_now.mpr (.of_same (List.suffix_cons _ _) rfl rfl)

theorem syncs_modifyJobs (f : Finset String → Finset String) :
    Within (Syncs C) (modify (m := Prog σ) fun c => { c with jobsRunning := f c.jobsRunning }) :=
  fun _ => wlp_modifyJobs.mpr (.of_same (List.suffix_refl _) rfl rfl)

theorem syncs_transition {newState : LifecycleState} {reason : String} {error : Option String} :
    Within (Syncs C) (transition C newState reason error) := fun c =>
  wlp_transition.mpr ⟨fun _ => (cleans_moved (List.suffix_refl _) _ _ _).syncs,
    fun _ _ => refl_of (Syncs C) c⟩

/-- An update that is saved at once. -/
theorem syncs_update (f : InstanceState → InstanceState) :
    Within (Syncs C) (do
      modifyInst (σ := σ) f
      persist) := fun c =>
  wlp_bind.mpr <| wlp_modifyInst.mpr <| wlp_persist.mpr
    (@cleans_saved σ C c (c.mapInst f) (List.suffix_refl _)).syncs

theorem syncs_markFailedLocked {error reason : String} :
    Within (Syncs C) (markFailedLocked C error reason) :=
  within_bind within_get fun _ =>
    within_bind (within_whenever fun _ => syncs_transition) fun _ => syncs_update _

/-- From a state that may fail, marking as failed saves whatever was not saved before. -/
theorem cleans_markFailedLocked {error reason : String} (h : c.log <:+ c₁.log)
    (hstate : c₁.inst.state = .failed ∨ .failed ∈ transitions c₁.inst.state) :
    wlp (markFailedLocked C error reason) (fun _ => Cleans C c) (fun _ _ => False) c₁ := by
  refine wlp_bind.mpr <| wlp_get.mpr <| wlp_bind.mpr <| wlp_whenever.mpr
    ⟨fun hne => wlp_transition.mpr ⟨fun _ => ?_, fun e he => ?_⟩, fun _ => ?_⟩
  · exact wlp_bind.mpr <| wlp_modifyInst.mpr <| wlp_persist.mpr <|
      cleans_saved (h.trans ⟨[_, _, _], rfl⟩)
  · exact (cls_of_validateTransition_eq_error he).2 (hstate.resolve_left hne)
  · exact wlp_bind.mpr <| wlp_modifyInst.mpr <| wlp_persist.mpr <| cleans_saved h

theorem syncs_scheduleIdleLocked : Within (Syncs C) (scheduleIdleLocked C) :=
  within_bind within_get fun _ =>
    within_ite (fun _ => within_pure _) fun _ =>
      within_ite (fun _ => within_pure _) fun _ =>
        within_bind syncs_now fun _ => within_bind (within_ofExcept _) fun _ => syncs_update _

theorem syncs_adopt : Within (Syncs C) (adopt C) :=
  within_bind syncs_transition fun _ => within_bind syncs_transition fun _ => syncs_transition

end Primitives

/-! ## Starting and recovering -/

section Starting

variable {c : Cell σ}

/-- A start attempt that returns has saved. -/
theorem clean_startAttempt (fuel : ℕ) (d : Declaration) (reason : String) :
    wlp (startAttempt C fuel d reason) (fun _ => C.writeBack.Clean) (fun _ _ => True) c := by
  have hafter : ∀ {β γ : Type} {act : Prog σ β} {next : β → Prog σ γ} {Q : γ → Cell σ → Prop},
      (∀ b c', wlp (next b) Q (fun _ _ => True) c') → ∀ c', wlp (act >>= next) Q
        (fun _ _ => True) c' := fun h _ =>
    wlp_bind.mpr <| wlp_mono wlp_true (fun b c' _ => h b c') fun _ _ _ => trivial
  refine hafter (fun _ => ?_) c
  refine hafter fun _ => hafter fun _ => hafter fun _ => hafter fun _ => hafter fun _ =>
    hafter fun _ _ => ?_
  exact wlp_bind.mpr <| wlp_modifyInst.mpr <| wlp_persist.mpr rfl

/-- Recovering saves, unless the time of the next restart cannot be represented. -/
theorem syncs_restartAfterFailureLocked {ensureRunning : Prog σ Unit}
    (hensure : Within (Syncs C) ensureRunning) :
    Within (Syncs C) (restartAfterFailureLocked C ensureRunning) := by
  intro c
  refine wlp_bind.mpr <| wlp_get.mpr <| wlp_ite.mpr
    ⟨fun _ => wlp_pure.mpr (refl_of (Syncs C) c), fun _ => ?_⟩
  refine wlp_bind.mpr <| wlp_now.mpr <| wlp_bind.mpr <| wlp_ofExcept.mpr
    ⟨fun prior _ => ?_, fun _ _ => .of_same (List.suffix_cons _ _) rfl rfl⟩
  refine wlp_bind.mpr <| wlp_modifyInst.mpr <| wlp_ite.mpr ⟨fun _ => ?_, fun _ => ?_⟩
  · -- the budget is exhausted
    exact wlp_bind.mpr <| wlp_modifyInst.mpr <| wlp_bind.mpr <| wlp_persist.mpr <|
      wlp_throw.mpr (cleans_saved ⟨[_], rfl⟩).syncs
  · refine wlp_bind.mpr <| wlp_modifyInst.mpr <| wlp_bind.mpr <| wlp_record.mpr <|
      wlp_bind.mpr <| wlp_ofExcept.mpr ⟨fun next _ => ?_, fun e he => ?_⟩
    · have hdrop : Within (Syncs C) (do
          ensureRunning
          let c ← get
          whenever (c.inst.state = .running) do
            modifyInst fun inst => { inst with holds := inst.holds.pop "recovery" }
            persist) :=
        within_bind hensure fun _ => within_bind within_get fun _ =>
          within_whenever fun _ => syncs_update _
      refine wlp_bind.mpr <| wlp_modifyInst.mpr <| wlp_bind.mpr <| wlp_persist.mpr ?_
      exact (within_whenever fun _ => hdrop).wlp_from (cleans_saved ⟨[_, _], rfl⟩).syncs
    · -- the sum overflows, so not every recorded attempt fits
      refine ⟨⟨[_, _], rfl⟩, fun hfit => ?_⟩
      obtain ⟨later, hlater⟩ := hfit (C.environment.now c.env).1 (by simp)
      simp only [lifecycle_restartBackoffSeconds] at he
      exact absurd (hlater.symm.trans he) (by simp)

/-- A start that gets as far as its first transition saves, however it ends. -/
theorem cleans_attempt {fuel depth : ℕ} {d : Declaration} {reason : String}
    (hrecover : Within (Syncs C) (ensureNested C fuel depth "recovery"))
    (hstate : .starting ∈ transitions c.inst.state) :
    wlp (do
      transition C .starting reason none
      tryCatch (startAttempt C fuel d reason) fun exc => do
        tryCatch (cleanUp C d) fun _ => pure ()
        markFailedLocked C exc.message "start_failure"
        restartAfterFailureLocked C (ensureNested C fuel depth "recovery")
        let c ← get
        whenever (c.inst.state = .failed) (throw exc))
      (fun _ => Cleans C c) (fun _ => Cleans C c) c := by
  refine wlp_bind.mpr <| wlp_transition.mpr ⟨fun _ => ?_, fun e he =>
    absurd hstate (cls_of_validateTransition_eq_error he).2⟩
  have hmoved := cleans_moved (C := C) (c := c) (List.suffix_refl _) .starting reason none
  generalize hc₁ : c.moved C .starting reason none = c₁ at hmoved
  have hstarting : c₁.inst.state = .starting := by rw [← hc₁]; rfl
  have hsuffix := @within_startAttempt σ C Touch.recovering (le_refl _) d reason fuel c₁
  have hattempt := wlp_and (startAttempt_spec (C := C) fuel d reason hstarting)
    (wlp_and (clean_startAttempt (C := C) fuel d reason) hsuffix)
  refine wlp_tryCatch.mpr <| wlp_mono hattempt (fun _ c₂ h₂ => ?_) fun e c₂ h₂ => ?_
  · exact ⟨hmoved.1.trans (suffix_of_footprint h₂.2.2), fun _ => h₂.2.1⟩
  · -- the attempt left the service starting, so it is marked as failed
    obtain ⟨⟨⟨_, hcore⟩, hlog₂⟩, _⟩ := h₂
    refine wlp_bind.mpr <| wlp_mono (cleanUp_spec d c₂) (fun _ c₃ h₃ => ?_) fun _ _ h' => h'.elim
    have hstate₃ : c₃.inst.state = .starting := (h₃.1.state.trans hcore.state).trans hstarting
    refine wlp_bind.mpr <| wlp_mono (cleans_markFailedLocked
      ((hmoved.1.trans hlog₂).trans h₃.2) (.inr (by simp [hstate₃, transitions])))
      (fun _ c₄ h₄ => ?_) fun _ _ h' => h'.elim
    have hrest : Within (Syncs C) (do
        restartAfterFailureLocked C (ensureNested C fuel depth "recovery")
        let c ← get
        whenever (c.inst.state = .failed) (throw e)) :=
      within_bind (syncs_restartAfterFailureLocked hrecover) fun _ =>
        within_bind within_get fun _ => within_whenever fun _ => within_throw _
    exact WriteBack.wlp_cleans_of_within hrest h₄

/-- Ensuring that the service runs changes nothing unsaved. -/
theorem syncs_ensureNested (fuel depth : ℕ) (reason : String) :
    Within (Syncs C) (ensureNested C fuel depth reason) := by
  induction depth generalizing reason with
  | zero => exact within_throw _
  | succ depth ih =>
      intro c
      refine wlp_bind.mpr <| wlp_get.mpr <| wlp_ite.mpr
        ⟨fun _ => wlp_pure.mpr (refl_of (Syncs C) c), fun hactive => wlp_ite.mpr
          ⟨fun _ => wlp_throw.mpr (refl_of (Syncs C) c), fun hbusy => ?_⟩⟩
      have hstate : .starting ∈ transitions c.inst.state := by
        cases hstate : c.inst.state <;> simp_all [activeStates, transitions]
      refine wlp_bind.mpr <| wlp_declaration.mpr ⟨fun d _ => ?_, fun _ _ => refl_of (Syncs C) c⟩
      have hresolved : Syncs C c ((c.withEnv (C.environment.resolve c.env).2).note .resolve) :=
        .of_same (List.suffix_cons _ _) rfl rfl
      refine wlp_bind.mpr <| wlp_resolveDriver.mpr ⟨fun _ => ?_, fun _ _ => hresolved⟩
      exact wlp_mono (cleans_attempt (ih "recovery") hstate) (fun _ _ h' => hresolved.trans h'.syncs)
        fun _ _ h' => hresolved.trans h'.syncs

theorem syncs_ensureRunningLocked (fuel : ℕ) (reason : String) :
    Within (Syncs C) (ensureRunningLocked C fuel reason) := syncs_ensureNested fuel _ reason

/-- The driver of the service can be found. -/
def Context.Resolves (C : Context σ) (env : σ) : Prop :=
  (∃ d, C.declaration = .ok d) ∧ (C.environment.resolve env).1 = .ok ()

/-- Starting a service that is down saves whatever was not saved before, if its
driver can be found. -/
theorem cleans_ensureRunningLocked {c₀ : Cell σ} (fuel : ℕ) (reason : String)
    (h : c₀.log <:+ c.log) (hstate : .starting ∈ transitions c.inst.state)
    (hresolves : C.Resolves c.env) :
    wlp (ensureRunningLocked C fuel reason) (fun _ => Cleans C c₀) (fun _ => Cleans C c₀) c := by
  obtain ⟨⟨d, hd⟩, hresolve⟩ := hresolves
  refine wlp_bind.mpr <| wlp_get.mpr <| wlp_ite.mpr ⟨fun hactive => ?_, fun _ => wlp_ite.mpr
    ⟨fun hbusy => ?_, fun _ => ?_⟩⟩
  · cases hstate' : c.inst.state <;> simp_all [activeStates, transitions]
  · cases hstate' : c.inst.state <;> simp_all [transitions]
  refine wlp_bind.mpr <| wlp_declaration.mpr ⟨fun d' _ => ?_, fun error herror => ?_⟩
  · refine wlp_bind.mpr <| wlp_resolveDriver.mpr ⟨fun _ => ?_, fun message herror => ?_⟩
    · have hgrown : c₀.log <:+ ((c.withEnv (C.environment.resolve c.env).2).note .resolve).log :=
        h.trans (List.suffix_cons _ _)
      exact wlp_mono (cleans_attempt (syncs_ensureNested fuel _ "recovery") hstate)
        (fun _ _ h' => h'.of_follows hgrown) fun _ _ h' => h'.of_follows hgrown
    · rw [hresolve] at herror
      cases herror
  · rw [hd] at herror
    cases herror

end Starting

/-! ## The operations that always save -/

section Always

theorem syncs_addHold {reason : String} : Within (Syncs C) (addHold (σ := σ) reason) :=
  syncs_update _

theorem syncs_removeHold {reason : String} : Within (Syncs C) (removeHold (σ := σ) reason) :=
  syncs_update _

theorem syncs_acquireSession (fuel : ℕ) (sessionId : String) :
    Within (Syncs C) (acquireSession C fuel sessionId) := by
  refine within_bind within_get fun _ => within_bind (within_whenever fun _ => within_throw _)
    fun _ => within_bind syncs_now fun timestamp c => ?_
  -- the session is saved together with its hold, and taken back together with it
  refine wlp_bind.mpr <| wlp_modifyInst.mpr <| wlp_bind.mpr <| wlp_bind.mpr <|
    wlp_modifyInst.mpr <| wlp_persist.mpr ?_
  have hadded := @cleans_saved σ C c ((c.mapInst fun inst =>
    { inst with sessions := inst.sessions.set sessionId timestamp }).mapInst fun inst =>
      inst.withHold "sessions") (List.suffix_refl _)
  have hrest : Within (Syncs C) (do
      tryCatch (ensureRunningLocked C fuel "session") fun exc => do
        modifyInst fun inst => { inst with sessions := inst.sessions.pop sessionId }
        removeHold "sessions"
        throw exc
      return sessionId) := by
    refine within_bind (within_tryCatch (syncs_ensureRunningLocked fuel _) fun exc c => ?_)
      fun _ => within_pure _
    exact wlp_bind.mpr <| wlp_modifyInst.mpr <| wlp_bind.mpr <| wlp_bind.mpr <|
      wlp_modifyInst.mpr <| wlp_persist.mpr <| wlp_throw.mpr
        (@cleans_saved σ C c ((c.mapInst fun inst =>
          { inst with sessions := inst.sessions.pop sessionId }).mapInst fun inst =>
            inst.withoutHold "sessions") (List.suffix_refl c.log)).syncs
  exact hrest.wlp_from hadded.syncs

theorem syncs_releaseSession (sessionId : String) :
    Within (Syncs C) (releaseSession C sessionId) := by
  refine within_bind within_get fun _ => within_ite (fun _ => within_throw _) fun _ c => ?_
  refine wlp_bind.mpr <| wlp_modifyInst.mpr <| wlp_bind.mpr <| wlp_bind.mpr <|
    wlp_modifyInst.mpr <| wlp_persist.mpr ?_
  have hrest : Within (Syncs C) (do
      scheduleIdleLocked C
      let c ← get
      return c.inst.toDict false) :=
    within_bind syncs_scheduleIdleLocked fun _ => within_bind within_get fun _ => within_pure _
  exact hrest.wlp_from (@cleans_saved σ C c ((c.mapInst fun inst =>
    { inst with sessions := inst.sessions.pop sessionId }).mapInst fun inst =>
      inst.withoutHold "sessions") (List.suffix_refl c.log)).syncs

theorem syncs_notifyFailure (fuel : ℕ) (error : String) :
    Within (Syncs C) (notifyFailure C fuel error) :=
  within_bind syncs_markFailedLocked fun _ =>
    within_bind (syncs_restartAfterFailureLocked (syncs_ensureRunningLocked fuel _)) fun _ =>
      within_bind within_get fun _ => within_pure _

theorem syncs_beginMaintenance (fuel : ℕ) (job : Job) :
    Within (Syncs C) (beginMaintenance C fuel job) :=
  within_bind within_get fun _ => within_ite (fun _ => within_throw _) fun _ =>
    within_bind (syncs_modifyJobs _) fun _ =>
      within_ite (fun _ => within_bind (syncs_modifyJobs fun jobs => jobs.erase job.name)
        fun _ => within_throw _) fun _ =>
        within_bind syncs_addHold fun _ =>
          within_bind (within_tryCatch
            (within_bind (syncs_ensureRunningLocked fuel _) fun _ => syncs_transition)
            fun _ => within_bind syncs_removeHold fun _ =>
              within_bind (syncs_modifyJobs fun jobs => jobs.erase job.name)
                fun _ => within_throw _) fun _ => within_pure _

theorem syncs_tickJobs (now : DateTime) (jobs : List Job) :
    Within (Syncs C) (tickJobs (σ := σ) now jobs) := by
  induction jobs with
  | nil => exact within_pure _
  | cons job rest ih =>
      refine within_bind within_get fun _ => within_bind (within_ofExcept _) fun _ =>
        within_ite (fun _ c => ?_) fun _ => ih
      have hrest : Within (Syncs C) (do
          let names ← tickJobs (σ := σ) now rest
          return job.name :: names) := within_bind ih fun _ => within_pure _
      exact wlp_bind.mpr <| wlp_modifyInst.mpr <| wlp_bind.mpr <| wlp_persist.mpr <|
        hrest.wlp_from (@cleans_saved σ C c (c.mapInst fun inst =>
          { inst with scheduleLastRun := inst.scheduleLastRun.set job.name now })
          (List.suffix_refl c.log)).syncs

theorem syncs_tickRestart (fuel : ℕ) (now : DateTime) :
    Within (Syncs C) (tickRestart C fuel now) := by
  refine within_bind within_get fun c => ?_
  cases parseTimestamp c.inst.nextRestartAt with
  | none => exact within_pure _
  | some nextRestart =>
      exact within_whenever fun _ => within_bind (syncs_ensureRunningLocked fuel _) fun _ =>
        within_bind within_get fun _ => within_whenever fun _ => syncs_update _

end Always

/-! ## Stopping -/

section Stopping

variable {c c₀ : Cell σ}

/-- A stop that gets as far as its first transition saves, however it ends. -/
theorem cleans_halt {reason : String} (hstate : .stopping ∈ transitions c.inst.state) :
    wlp (do
      transition C .stopping reason none
      tryCatch (do
        resolveDriver C
        driverStop C false (← declaration C)
        transition C .stopped reason none
        let stopped ← now C
        modifyInst fun inst => { inst with lastStopAt := some stopped, idleDeadline := none }
        persist) fun exc => do
          markFailedLocked C exc.message "stop_failure"
          throw exc)
      (fun _ => Cleans C c) (fun _ => Cleans C c) c := by
  refine wlp_bind.mpr <| wlp_transition.mpr ⟨fun _ => ?_, fun e he =>
    absurd hstate (cls_of_validateTransition_eq_error he).2⟩
  have hmoved := cleans_moved (C := C) (c := c) (List.suffix_refl _) .stopping reason none
  generalize hc₁ : c.moved C .stopping reason none = c₁ at hmoved
  have hstopping : c₁.inst.state = .stopping := by rw [← hc₁]; rfl
  refine wlp_tryCatch.mpr <| wlp_mono (Q := fun _ => Cleans C c)
    (X := fun _ c' => c₁.log <:+ c'.log ∧ c'.inst.state = .stopping) ?_ (fun _ _ h' => h')
    fun e c₂ h₂ => ?_
  · refine wlp_bind.mpr <| wlp_resolveDriver.mpr ⟨fun _ => ?_, fun _ _ =>
      ⟨List.suffix_cons _ _, hstopping⟩⟩
    refine wlp_bind.mpr <| wlp_declaration.mpr ⟨fun d _ => ?_, fun _ _ =>
      ⟨List.suffix_cons _ _, hstopping⟩⟩
    refine wlp_bind.mpr <| wlp_callDriver.mpr ⟨fun _ _ => ?_, fun _ _ =>
      ⟨⟨[_, _], rfl⟩, hstopping⟩⟩
    refine wlp_bind.mpr <| wlp_transition.mpr ⟨fun _ => ?_, fun e he =>
      absurd (by simp [hstopping, transitions]) (cls_of_validateTransition_eq_error he).2⟩
    refine wlp_bind.mpr <| wlp_now.mpr <| wlp_bind.mpr <| wlp_modifyInst.mpr <|
      wlp_persist.mpr <| cleans_saved (hmoved.1.trans ?_)
    exact ⟨[_, _, _, _, _, _], rfl⟩
  · exact wlp_bind.mpr <| wlp_mono (cleans_markFailedLocked (hmoved.1.trans h₂.1)
      (.inr (by simp [h₂.2, transitions]))) (fun _ _ h' => wlp_throw.mpr h') fun _ _ h' => h'.elim

/-- Stopping a service that is up, down or failed saves whatever was not saved before. -/
theorem cleans_stopLocked {reason : String} (h : c₀.log <:+ c.log)
    (hstate : c.inst.state ∉ [LifecycleState.starting, .stopping]) :
    wlp (stopLocked C reason) (fun _ => Cleans C c₀) (fun _ => Cleans C c₀) c := by
  refine wlp_bind.mpr <| wlp_get.mpr <| wlp_ite.mpr
    ⟨fun _ => wlp_persist.mpr (cleans_saved h), fun _ => wlp_ite.mpr ⟨fun hfailed => ?_,
      fun _ => wlp_ite.mpr ⟨fun hbusy => ?_, fun hactive => ?_⟩⟩⟩
  · exact wlp_transition.mpr ⟨fun _ => cleans_moved h _ _ _, fun e he =>
      absurd (by simp [hfailed, transitions]) (cls_of_validateTransition_eq_error he).2⟩
  · cases hstate' : c.inst.state <;> simp_all [activeStates]
  · have hstopping : .stopping ∈ transitions c.inst.state := by
      cases hstate' : c.inst.state <;> simp_all [activeStates, transitions]
    exact wlp_mono (cleans_halt hstopping) (fun _ _ h' => h'.of_follows h)
      fun _ _ h' => h'.of_follows h

theorem syncs_stopLocked {reason : String} : Within (Syncs C) (stopLocked C reason) := by
  intro c
  by_cases hbusy : c.inst.state ∈ [LifecycleState.starting, .stopping]
  · -- refused before anything changes
    refine wlp_bind.mpr <| wlp_get.mpr <| wlp_ite.mpr ⟨fun hstopped => ?_, fun _ => wlp_ite.mpr
      ⟨fun hfailed => ?_, fun _ => wlp_ite.mpr ⟨fun _ => wlp_throw.mpr (refl_of (Syncs C) c),
        fun hactive => ?_⟩⟩⟩
    · simp [hstopped] at hbusy
    · simp [hfailed] at hbusy
    · cases hstate : c.inst.state <;> simp_all [activeStates]
  · exact wlp_mono (cleans_stopLocked (List.suffix_refl _) hbusy) (fun _ _ h' => h'.syncs)
      fun _ _ h' => h'.syncs

theorem syncs_tickLocked (fuel : ℕ) (now : DateTime) : Within (Syncs C) (tickLocked C fuel now) := by
  have hidle : Within (Syncs C) (tickIdle C now) := by
    refine within_bind within_get fun c => ?_
    cases parseTimestamp c.inst.idleDeadline with
    | none => exact within_pure _
    | some deadline => exact within_whenever fun _ => syncs_stopLocked
  exact within_bind hidle fun _ => within_bind (syncs_tickRestart fuel now) fun _ =>
    syncs_tickJobs now _

/-- Completing a maintenance run saves whatever was not saved before, if its
transition can be made. -/
theorem cleans_finishMaintenance (fuel : ℕ) {job : Job} {wasActive : Bool}
    {outcome : Except String Archive.Fields} (hsettle : Settleable c.inst.state outcome) :
    wlp (finishMaintenance C fuel job wasActive outcome) (fun _ => Cleans C c)
      (fun _ => Cleans C c) c := by
  refine wlp_bind.mpr <| wlp_now.mpr <| wlp_bind.mpr <| wlp_modifyInst.mpr ?_
  generalize hc₁ : Cell.mapInst _ _ = c₁
  have hstate : c₁.inst.state = c.inst.state := by rw [← hc₁]; rfl
  have hlog : c.log <:+ c₁.log := by rw [← hc₁]; exact List.suffix_cons _ _
  have hsettled : wlp (settleMaintenance C job outcome) (fun _ => Cleans C c) (fun _ _ => False)
      c₁ := by
    cases outcome with
    | ok result =>
        refine wlp_transition.mpr ⟨fun _ => cleans_moved hlog _ _ _, fun e he =>
          (cls_of_validateTransition_eq_error he).2 ?_⟩
        rcases hsettle with h | h <;> simp [hstate, h, transitions]
    | error message =>
        refine cleans_markFailedLocked hlog ?_
        cases hstate' : c.inst.state <;> simp_all [Settleable, transitions]
  refine wlp_bind.mpr <| wlp_mono hsettled (fun _ c₂ h₂ => ?_) fun _ _ h' => h'.elim
  cases outcome with
  | ok result =>
      refine WriteBack.wlp_cleans_of_within ?_ h₂
      exact within_bind syncs_removeHold fun _ =>
        within_bind (syncs_modifyJobs fun jobs => jobs.erase job.name) fun _ =>
          within_bind within_get fun _ => within_ite
            (fun _ => within_bind syncs_stopLocked fun _ => within_pure _)
            fun _ => within_bind syncs_scheduleIdleLocked fun _ => within_pure _
  | error message =>
      refine WriteBack.wlp_cleans_of_within ?_ h₂
      exact within_bind syncs_removeHold fun _ =>
        within_bind (syncs_modifyJobs fun jobs => jobs.erase job.name) fun _ =>
          within_bind (syncs_restartAfterFailureLocked (syncs_ensureRunningLocked fuel _))
            fun _ => within_throw _

end Stopping

/-! ## The operations with an early return or exception after a change -/

section Conditional

variable {c : Cell σ}

/-- What `stop` does to intent, holds and sessions. -/
def InstanceState.yielded (inst : InstanceState) (force : Bool) (reason : String) : InstanceState :=
  let inst :=
    if reason = "admin" then { inst with adminIntent := false, holds := inst.holds.pop "admin" }
    else inst
  if force = true then { inst with holds := ∅, sessions := ∅ } else inst

/-- `start` by the administrator saves what it records: with a new hold, with
the start it makes, or because nothing is new. -/
def StartSaves (C : Context σ) (reason : String) (c : Cell σ) : Prop :=
  reason = "admin" → c.inst.holds.getD "admin" 0 ≠ 0 →
    (.starting ∈ transitions c.inst.state ∧ C.Resolves c.env) ∨
      (c.inst.adminIntent = true ∧ (c.inst.state = .failed →
        c.inst.restartExhausted = false ∧ c.inst.restartTimes = []))

/-- `stop` is not refused after it gave up what the state file holds. -/
def StopSaves (force : Bool) (reason : String) (c : Cell σ) : Prop :=
  ((c.inst.yielded force reason).activeHolds ≠ 0 ∧ force = false ∨
      c.inst.state ∈ [LifecycleState.starting, .stopping]) →
    (reason = "admin" → c.inst.adminIntent = false) ∧
      (c.inst.yielded force reason).holds.filterKeys isPersistentHold =
        c.inst.holds.filterKeys isPersistentHold ∧
      (c.inst.yielded force reason).sessions.size = c.inst.sessions.size

instance (env : σ) : Decidable (C.Resolves env) := inferInstanceAs (Decidable (_ ∧ _))

instance (reason : String) : Decidable (StartSaves C reason c) :=
  inferInstanceAs (Decidable (_ → _ → _))

instance (force : Bool) (reason : String) : Decidable (StopSaves force reason c) :=
  inferInstanceAs (Decidable (_ → _))

theorem syncs_start (fuel : ℕ) {reason : String} (h : StartSaves C reason c) :
    wlp (start C fuel reason) (fun _ => Syncs C c) (fun _ => Syncs C c) c := by
  have hrest : Within (Syncs C) (do
      ensureRunningLocked C fuel reason
      let c ← get
      return c.inst.toDict false) :=
    within_bind (syncs_ensureRunningLocked fuel reason) fun _ =>
      within_bind within_get fun _ => within_pure _
  refine wlp_bind.mpr <| wlp_ite.mpr ⟨fun hadmin => ?_, fun _ => ?_⟩
  · refine wlp_bind.mpr <| wlp_modifyInst.mpr <| wlp_bind.mpr <| wlp_modifyInst.mpr ?_
    generalize hc₁ : Cell.mapInst (Cell.mapInst c _) _ = c₁
    have hlog : c.log <:+ c₁.log := by rw [← hc₁]; exact List.suffix_refl _
    have hstate : c₁.inst.state = c.inst.state := by
      rw [← hc₁, Cell.mapInst_inst]
      split <;> rfl
    have hholds : c₁.inst.holds = c.inst.holds := by
      rw [← hc₁, Cell.mapInst_inst]
      split <;> rfl
    have henv : c₁.env = c.env := by rw [← hc₁]; rfl
    refine wlp_bind.mpr <| wlp_get.mpr <| wlp_whenever.mpr ⟨fun _ => ?_, fun hheld => ?_⟩
    · -- the new hold is saved, and everything else with it
      exact wlp_bind.mpr <| wlp_modifyInst.mpr <| wlp_persist.mpr <|
        hrest.wlp_from (@cleans_saved σ C c (c₁.mapInst fun inst => inst.withHold "admin") hlog).syncs
    · rcases h hadmin (by rwa [hholds] at hheld) with ⟨hstarting, hresolves⟩ | ⟨hintent, hbudget⟩
      · -- the start is saved
        have hcleans := cleans_ensureRunningLocked (C := C) (c := c₁) fuel reason hlog
          (hstate ▸ hstarting) (henv ▸ hresolves)
        exact wlp_bind.mpr <| wlp_mono hcleans (fun _ _ h' => wlp_bind.mpr <| wlp_get.mpr <|
          wlp_pure.mpr h'.syncs) fun _ _ h' => h'.syncs
      · -- nothing is new
        have hsame : c₁ = c := by
          rw [← hc₁]
          by_cases hfailed : c.inst.state = .failed
          · simp only [Cell.mapInst, hfailed, if_true, ← hintent, ← (hbudget hfailed).1,
              ← (hbudget hfailed).2]
            rw [← hfailed]
          · simp only [Cell.mapInst, hfailed, if_false, ← hintent]
        rw [hsame]
        exact hrest c
  · have hother : Within (Syncs C) (do
        let c ← get
        whenever (c.inst.holds.getD reason 0 = 0) (addHold (σ := σ) reason)) :=
      within_bind within_get fun _ => within_whenever fun _ => syncs_addHold
    exact wlp_bind.mp ((within_bind hother fun _ => hrest) c)

/-- The part of `stop` behind its updates. -/
def stopYielded (C : Context σ) (force : Bool) (reason : String) : Prog σ Document := do
  let c ← get
  whenever (c.inst.activeHolds ≠ 0 ∧ force = false) do
    throw ⟨.serviceBusyError,
      s!"service {C.service.id} has active holds: {reprHolds c.inst.holds}"⟩
  stopLocked C reason
  let c ← get
  return c.inst.toDict false

theorem wlp_stop (force : Bool) (reason : String) {Q : Document → Cell σ → Prop}
    {X : Exn → Cell σ → Prop} :
    wlp (stop C force reason) Q X c ↔ wlp (stopYielded C force reason) Q X
      (c.mapInst fun inst => inst.yielded force reason) := by
  unfold stop stopYielded
  by_cases hadmin : reason = "admin" <;> cases force <;>
    simp only [wlp_bind, wlp_whenever, wlp_modifyInst, hadmin, InstanceState.yielded, not_true,
      if_true, if_false, forall_const, IsEmpty.forall_iff, and_true, true_and,
      Bool.false_eq_true, not_false_eq_true] <;> rfl

theorem syncs_stop (force : Bool) {reason : String} (h : StopSaves force reason c) :
    wlp (stop C force reason) (fun _ => Syncs C c) (fun _ => Syncs C c) c := by
  refine (wlp_stop force reason).mpr ?_
  generalize hc₁ : c.mapInst _ = c₁
  have hstate : c₁.inst.state = c.inst.state := by
    rw [← hc₁, Cell.mapInst_inst, InstanceState.yielded]
    split <;> split <;> rfl
  have hlog : c.log <:+ c₁.log := by rw [← hc₁]; exact List.suffix_refl _
  -- a stop that is refused has changed nothing that is saved
  have hrefused : ((c.inst.yielded force reason).activeHolds ≠ 0 ∧ force = false ∨
      c.inst.state ∈ [LifecycleState.starting, .stopping]) → Syncs C c c₁ := by
    intro hrefused
    obtain ⟨hintent, hholds, hsessions⟩ := h hrefused
    refine .of_same hlog ?_ (by rw [← hc₁]; rfl)
    rw [← hc₁]
    change (c.inst.yielded force reason).toDict true = c.inst.toDict true
    have hshape : (c.inst.yielded force reason) =
        { c.inst with
          adminIntent := if reason = "admin" then false else c.inst.adminIntent
          holds := (c.inst.yielded force reason).holds
          sessions := (c.inst.yielded force reason).sessions } := by
      unfold InstanceState.yielded
      split <;> split <;> rfl
    have hkept : (if reason = "admin" then false else c.inst.adminIntent) = c.inst.adminIntent := by
      split
      · rename_i hadmin
        exact (hintent hadmin).symm
      · rfl
    rw [hshape, hkept]
    simp only [InstanceState.toDict, if_true, hholds, hsessions]
  have hreturn : ∀ {Q : Cell σ → Prop}, wlp (stopLocked C reason) (fun _ => Q) (fun _ => Q) c₁ →
      wlp (do
        stopLocked C reason
        let c ← get
        return c.inst.toDict false) (fun _ => Q) (fun _ => Q) c₁ := fun h' =>
    wlp_bind.mpr <| wlp_mono h' (fun _ _ h' => wlp_bind.mpr <| wlp_get.mpr <| wlp_pure.mpr h')
      fun _ _ h' => h'
  refine wlp_bind.mpr <| wlp_get.mpr <| wlp_bind.mpr <| wlp_whenever.mpr
    ⟨fun hbusy => wlp_throw.mpr (hrefused (.inl ?_)), fun _ => ?_⟩
  · rw [← hc₁] at hbusy
    exact hbusy
  · by_cases hhalting : c.inst.state ∈ [LifecycleState.starting, .stopping]
    · have hsyncs := hrefused (.inr hhalting)
      exact hreturn (syncs_stopLocked.wlp_from hsyncs)
    · exact hreturn <| wlp_mono (cleans_stopLocked (C := C) hlog (hstate ▸ hhalting))
        (fun _ _ h' => h'.syncs) fun _ _ h' => h'.syncs

end Conditional

/-! ## Reconciling -/

section Reconciling

variable {c c₀ : Cell σ}

namespace Cell

/-- The holds that mode and intent come to. -/
def derivedHolds (C : Context σ) (c : Cell σ) : Dict String ℤ :=
  let holds :=
    if (C.lifecycle c).mode = .alwaysOn then c.inst.holds.set "always_on" 1
    else c.inst.holds.pop "always_on"
  if c.inst.adminIntent = true then holds.set "admin" 1 else holds

/-- After the holds are derived and the driver is resolved. -/
def resolved (C : Context σ) (c : Cell σ) : Cell σ :=
  ((c.mapInst fun inst => { inst with holds := c.derivedHolds C }).withEnv
    (C.environment.resolve c.env).2).note .resolve

/-- What the driver says about the runtime then. -/
def statusReply (C : Context σ) (d : Declaration) (c : Cell σ) : Reply σ Bool :=
  C.environment.status (c.resolved C).inst d (c.resolved C).env

/-- After that answer. -/
def asked (C : Context σ) (d : Declaration) (c : Cell σ) : Cell σ :=
  (c.resolved C).afterCall .status (c.statusReply C d)

/-- From where `_reconcile_locked` resolves the driver to start a failed
service; `none` if its restart is not due. -/
def restartEnv (C : Context σ) (c : Cell σ) : Option σ :=
  match parseTimestamp c.inst.nextRestartAt with
  | none => some c.env
  | some eligible =>
      if reached eligible (C.environment.now c.env).1 then some (C.environment.now c.env).2
      else none

end Cell

/-- State and runtime do not agree, so reconciling moves the service. -/
def LifecycleState.Disagrees (state : LifecycleState) (alive : Bool) : Prop :=
  state ∈ staleStates ∨ state = .maintenance ∨ (state = .running ∧ alive = false) ∨
    (state ∈ [LifecycleState.stopped, .failed] ∧ alive = true)

/-- A service whose state and runtime agree is started and scheduled without an exception. -/
structure Proceeds (C : Context σ) (c : Cell σ) : Prop where
  stopped : c.inst.activeHolds ≠ 0 ∧ c.inst.state = .stopped → C.Resolves c.env
  failed : c.inst.activeHolds ≠ 0 ∧ c.inst.state = .failed ∧ c.inst.restartExhausted = false →
    ∀ env ∈ c.restartEnv C, C.Resolves env
  running : c.inst.state = .running ∧ (C.lifecycle c).mode = .onDemand ∧ c.inst.activeHolds = 0 ∧
    c.inst.idleDeadline = none → ∃ deadline, addSeconds (C.environment.now c.env).1
      (C.service.lifecycle.idleTimeoutSeconds.getD 0) = .ok deadline

/-- Deriving the holds changes nothing that is saved. -/
def HoldsKept (C : Context σ) (c : Cell σ) : Prop :=
  (c.derivedHolds C).filterKeys isPersistentHold = c.inst.holds.filterKeys isPersistentHold

/-- Reconciling saves what it changes: no exception lies between a change and
the save behind it. -/
def ReconcileSaves (C : Context σ) (c : Cell σ) : Prop :=
  (HoldsKept C c ∧ ∀ d, C.declaration = .ok d → (C.environment.resolve c.env).1 = .ok () →
      (c.statusReply C d).runtime = c.inst.runtime) ∨
    ∃ d, C.declaration = .ok d ∧ (C.environment.resolve c.env).1 = .ok () ∧
      ∃ alive, (c.statusReply C d).result = .ok alive ∧
        (c.inst.state.Disagrees alive ∨ Proceeds C (c.asked C d))

instance (state : LifecycleState) (alive : Bool) : Decidable (state.Disagrees alive) :=
  inferInstanceAs (Decidable (_ ∨ _))

instance : Decidable (Proceeds C c) :=
  decidable_of_iff (_ ∧ _ ∧ _) ⟨fun h => ⟨h.1, h.2.1, h.2.2⟩, fun h => ⟨h.1, h.2, h.3⟩⟩

instance : Decidable (HoldsKept C c) := inferInstanceAs (Decidable (_ = _))

instance : Decidable (ReconcileSaves C c) := inferInstanceAs (Decidable (_ ∨ _))

theorem wlp_reconcileHolds_iff {Q : Unit → Cell σ → Prop} {X : Exn → Cell σ → Prop} :
    wlp (reconcileHolds C) Q X c ↔
      Q () (c.mapInst fun inst => { inst with holds := c.derivedHolds C }) := by
  unfold reconcileHolds Cell.derivedHolds
  simp only [wlp_bind, wlp_get, wlp_modifyInst, wlp_whenever]
  by_cases hintent : c.inst.adminIntent = true
  · rw [if_pos hintent]
    exact ⟨fun h => h.1 hintent, fun h => ⟨fun _ => h, fun hno => absurd hintent hno⟩⟩
  · rw [if_neg hintent]
    exact ⟨fun h => h.2 hintent, fun h => ⟨fun hyes => absurd hyes hintent, fun _ => h⟩⟩

/-- Where nothing that is saved changes, the file stays in step. -/
theorem syncs_of_kept {c₁ : Cell σ} (hlog : c.log <:+ c₁.log) (hfile : c₁.stateFile = c.stateFile)
    (hinst : ∃ holds runtime, c₁.inst = { c.inst with holds := holds, runtime := runtime } ∧
      holds.filterKeys isPersistentHold = c.inst.holds.filterKeys isPersistentHold ∧
      runtime = c.inst.runtime) : Syncs C c c₁ := by
  obtain ⟨holds, runtime, hinst, hholds, hruntime⟩ := hinst
  refine .of_same hlog ?_ hfile
  change c₁.inst.toDict true = c.inst.toDict true
  rw [hinst]
  simp only [InstanceState.toDict, if_true, hholds, hruntime]

theorem syncs_reconcileState (fuel : ℕ) (alive : Bool) :
    Within (Syncs C) (reconcileState C fuel alive) :=
  within_bind within_get fun _ => within_ite
    (fun _ => within_ite (fun _ => syncs_transition) fun _ =>
      within_ite (fun _ => within_bind (within_whenever fun _ => syncs_transition)
        fun _ => syncs_transition)
        fun _ => within_bind syncs_markFailedLocked fun _ => syncs_transition)
    fun _ => within_ite (fun _ => within_bind syncs_markFailedLocked fun _ =>
      within_bind within_get fun _ => within_ite
        (fun _ => syncs_restartAfterFailureLocked (syncs_ensureRunningLocked fuel _))
        fun _ => syncs_transition)
      fun _ => within_ite (fun _ => syncs_transition) fun _ =>
        within_ite (fun _ => syncs_adopt) fun _ => within_pure _

theorem syncs_reconcileStart (fuel : ℕ) : Within (Syncs C) (reconcileStart C fuel) := by
  refine within_bind within_get fun c => within_ite (fun _ => syncs_ensureRunningLocked fuel _)
    fun _ => within_ite (fun _ => ?_) fun _ => within_pure _
  cases parseTimestamp c.inst.nextRestartAt with
  | none => exact syncs_ensureRunningLocked fuel _
  | some eligible =>
      exact within_bind syncs_now fun _ => within_whenever fun _ => syncs_ensureRunningLocked fuel _

/-- `_reconcile_locked` behind its comparison of state and runtime. -/
theorem syncs_reconcileTail (fuel : ℕ) : Within (Syncs C) (do
    reconcileStart C fuel
    scheduleIdleLocked C
    persist) :=
  within_bind (syncs_reconcileStart fuel) fun _ =>
    within_bind syncs_scheduleIdleLocked fun _ => syncs_persist

theorem syncs_reconcileConverge (fuel : ℕ) (alive : Bool) :
    Within (Syncs C) (reconcileConverge C fuel alive) :=
  within_bind (syncs_reconcileState fuel alive) fun _ => within_bind within_get fun _ =>
    within_bind (within_whenever fun _ => syncs_adopt) fun _ => syncs_reconcileTail fuel

/-- Comparing a state with a runtime that disagrees saves whatever was not saved before. -/
theorem cleans_reconcileState (fuel : ℕ) {alive : Bool} (h : c₀.log <:+ c.log)
    (hdisagrees : c.inst.state.Disagrees alive) (hfailed : c.inst.state ≠ .failed) :
    wlp (reconcileState C fuel alive) (fun _ => Cleans C c₀) (fun _ => Cleans C c₀) c := by
  have hmove : ∀ {newState : LifecycleState} {reason : String},
      newState ∈ transitions c.inst.state → wlp (transition C newState reason none)
        (fun _ => Cleans C c₀) (fun _ => Cleans C c₀) c := fun hvalid =>
    wlp_transition.mpr ⟨fun _ => cleans_moved h _ _ _, fun e he =>
      absurd hvalid (cls_of_validateTransition_eq_error he).2⟩
  refine wlp_bind.mpr <| wlp_get.mpr <| wlp_ite.mpr ⟨fun hstale => ?_, fun hstale => ?_⟩
  · refine wlp_ite.mpr ⟨fun hstopping => hmove ?_, fun hstopping => wlp_ite.mpr
      ⟨fun hlives => ?_, fun _ => ?_⟩⟩
    · cases alive <;> simp [hstopping, transitions]
    · by_cases hstarting : c.inst.state = .starting
      · have hready := @hmove .ready "reconcile_adopt" (by simp [hstarting, transitions])
        refine wlp_bind.mpr <| wlp_whenever.mpr ⟨fun _ => ?_, fun hno => absurd hstarting hno⟩
        exact wlp_mono hready (fun _ _ h' => WriteBack.wlp_cleans_of_within syncs_transition h')
          fun _ _ h' => h'
      · refine wlp_bind.mpr <| wlp_whenever.mpr ⟨fun hyes => absurd hyes hstarting, fun _ =>
          hmove ?_⟩
        cases hstate : c.inst.state <;> simp_all [staleStates, transitions]
    · refine wlp_bind.mpr <| wlp_mono (cleans_markFailedLocked h (.inr ?_))
        (fun _ _ h' => WriteBack.wlp_cleans_of_within syncs_transition h') fun _ _ h' => h'.elim
      cases hstate : c.inst.state <;> simp_all [staleStates, transitions]
  · refine wlp_ite.mpr ⟨fun hdead => ?_, fun hdead => wlp_ite.mpr ⟨fun habandoned => hmove ?_,
      fun habandoned => wlp_ite.mpr ⟨fun hfound => ?_, fun hfound => ?_⟩⟩⟩
    · have hrest : Within (Syncs C) (do
          let c ← get
          if c.inst.activeHolds ≠ 0 then
            restartAfterFailureLocked C (ensureRunningLocked C fuel "recovery")
          else
            transition C .stopped "reconcile_no_holds" none) :=
        within_bind within_get fun _ => within_ite
          (fun _ => syncs_restartAfterFailureLocked (syncs_ensureRunningLocked fuel _))
          fun _ => syncs_transition
      refine wlp_bind.mpr <| wlp_mono (cleans_markFailedLocked h (.inr ?_))
        (fun _ _ h' => WriteBack.wlp_cleans_of_within hrest h') fun _ _ h' => h'.elim
      have hstate := hdead.1
      simp only [List.mem_cons, List.not_mem_nil, or_false] at hstate
      rcases hstate with hstate | hstate <;> simp [hstate, transitions]
    · simp [habandoned.1, transitions]
    · have hrest : Within (Syncs C) (do
          transition C .ready "reconcile_adopt" none
          transition C .running "reconcile_adopt" none) :=
        within_bind syncs_transition fun _ => syncs_transition
      exact wlp_bind.mpr <| wlp_mono (hmove (by simp [hfound.1, transitions]))
        (fun _ _ h' => WriteBack.wlp_cleans_of_within hrest h') fun _ _ h' => h'
    · -- then they would agree
      cases hstate : c.inst.state <;> cases alive <;>
        simp_all [LifecycleState.Disagrees, staleStates]

/-- Where state and runtime agree, the save at the end is reached. -/
theorem cleans_reconcileTail (fuel : ℕ) (h : c₀.log <:+ c.log) (hproceeds : Proceeds C c) :
    wlp (do
      reconcileStart C fuel
      scheduleIdleLocked C
      persist) (fun _ => Cleans C c₀) (fun _ => Cleans C c₀) c := by
  have hrest : Within (Syncs C) (do
      scheduleIdleLocked C
      persist) := within_bind syncs_scheduleIdleLocked fun _ => syncs_persist
  have hstart : ∀ {c₁ : Cell σ}, c₀.log <:+ c₁.log → .starting ∈ transitions c₁.inst.state →
      C.Resolves c₁.env → wlp (ensureRunningLocked C fuel "reconcile")
        (fun _ c' => wlp (do
          scheduleIdleLocked C
          persist) (fun _ => Cleans C c₀) (fun _ => Cleans C c₀) c') (fun _ => Cleans C c₀) c₁ :=
    fun hlog hstate hresolves => wlp_mono (cleans_ensureRunningLocked fuel _ hlog hstate hresolves)
      (fun _ _ h' => WriteBack.wlp_cleans_of_within hrest h') fun _ _ h' => h'
  -- a service that does not run is not scheduled
  have hdown : ∀ {c₁ : Cell σ}, c₀.log <:+ c₁.log → c₁.inst.state ≠ .running → wlp (do
      scheduleIdleLocked C
      persist) (fun _ => Cleans C c₀) (fun _ => Cleans C c₀) c₁ := fun hlog hstate =>
    wlp_bind.mpr <| wlp_bind.mpr <| wlp_get.mpr <| wlp_ite.mpr
      ⟨fun _ => wlp_pure.mpr <| wlp_persist.mpr (cleans_saved hlog), fun hno =>
        absurd (.inr (.inr hstate)) hno⟩
  refine wlp_bind.mpr <| wlp_bind.mpr <| wlp_get.mpr <| wlp_ite.mpr
    ⟨fun hstopped => hstart h (by simp [hstopped.2, transitions]) (hproceeds.stopped hstopped),
      fun hstopped => wlp_ite.mpr ⟨fun hfailed => ?_, fun hfailed => wlp_pure.mpr ?_⟩⟩
  · have hresolves := hproceeds.failed hfailed
    unfold Cell.restartEnv at hresolves
    cases hnext : parseTimestamp c.inst.nextRestartAt with
    | none =>
        rw [hnext] at hresolves
        exact hstart h (by simp [hfailed.2.1, transitions]) (hresolves _ rfl)
    | some eligible =>
        rw [hnext] at hresolves
        have hclock : c₀.log <:+ (c.afterClock C).log := h.trans (List.suffix_cons _ _)
        refine wlp_bind.mpr <| wlp_now.mpr <| wlp_whenever.mpr ⟨fun hreached => ?_, fun _ => ?_⟩
        · simp only [if_pos hreached] at hresolves
          exact hstart hclock (by simp [hfailed.2.1, transitions]) (hresolves _ rfl)
        · exact hdown hclock (by simp [hfailed.2.1])
  · by_cases hrunning : c.inst.state = .running
    · refine wlp_bind.mpr <| wlp_bind.mpr <| wlp_get.mpr <| wlp_ite.mpr
        ⟨fun _ => wlp_pure.mpr <| wlp_persist.mpr (cleans_saved h), fun hidle => wlp_ite.mpr
          ⟨fun _ => wlp_pure.mpr <| wlp_persist.mpr (cleans_saved h), fun hunset => ?_⟩⟩
      simp only [not_or, not_not] at hidle
      refine wlp_bind.mpr <| wlp_now.mpr <| wlp_bind.mpr <| wlp_ofExcept.mpr
        ⟨fun deadline _ => ?_, fun e he => ?_⟩
      · exact wlp_bind.mpr <| wlp_modifyInst.mpr <| wlp_persist.mpr <| wlp_persist.mpr <|
          cleans_saved (h.trans ⟨[_, _], rfl⟩)
      · obtain ⟨deadline, hdeadline⟩ := hproceeds.running
          ⟨hrunning, hidle.1, hidle.2.1, by simpa using hunset⟩
        rw [lifecycle_idleTimeoutSeconds, hdeadline] at he
        cases he
    · exact hdown h hrunning

/-- A service whose state and runtime disagree is saved with its first transition. -/
theorem cleans_reconcileConverge_of_disagrees (fuel : ℕ) {alive : Bool} (h : c₀.log <:+ c.log)
    (hdisagrees : c.inst.state.Disagrees alive) :
    wlp (reconcileConverge C fuel alive) (fun _ => Cleans C c₀) (fun _ => Cleans C c₀) c := by
  by_cases hfailed : c.inst.state = .failed
  · have halive : alive = true := by
      simpa [LifecycleState.Disagrees, hfailed, staleStates] using hdisagrees
    have hpure : wlp (reconcileState C fuel alive) (fun _ c' => c' = c) (fun _ _ => False) c := by
      simp [reconcileState, hfailed, staleStates]
    refine wlp_bind.mpr <| wlp_mono hpure (fun _ c₁ h₁ => ?_) fun _ _ h' => h'.elim
    subst h₁
    have hrest : Within (Syncs C) (do
        transition C .ready "reconcile_adopt" none
        transition C .running "reconcile_adopt" none) :=
      within_bind syncs_transition fun _ => syncs_transition
    refine wlp_bind.mpr <| wlp_get.mpr <| wlp_bind.mpr <| wlp_whenever.mpr ⟨fun _ => ?_,
      fun hno => absurd ⟨hfailed, halive⟩ hno⟩
    refine wlp_bind.mpr <| wlp_transition.mpr ⟨fun _ => ?_, fun e he =>
      absurd (by simp [hfailed, transitions]) (cls_of_validateTransition_eq_error he).2⟩
    exact wlp_mono (WriteBack.wlp_cleans_of_within hrest (cleans_moved h _ _ _))
      (fun _ _ h' => WriteBack.wlp_cleans_of_within (syncs_reconcileTail fuel) h') fun _ _ h' => h'
  · have hrest : Within (Syncs C) (do
        let c ← get
        whenever (c.inst.state = .failed ∧ alive = true) (adopt C)
        reconcileStart C fuel
        scheduleIdleLocked C
        persist) :=
      within_bind within_get fun _ => within_bind (within_whenever fun _ => syncs_adopt)
        fun _ => syncs_reconcileTail fuel
    exact wlp_bind.mpr <| wlp_mono (cleans_reconcileState fuel h hdisagrees hfailed)
      (fun _ _ h' => WriteBack.wlp_cleans_of_within hrest h') fun _ _ h' => h'

/-- One whose state and runtime agree is saved at the end. -/
theorem cleans_reconcileConverge_of_agrees (fuel : ℕ) {alive : Bool} (h : c₀.log <:+ c.log)
    (hagrees : ¬ c.inst.state.Disagrees alive) (hproceeds : Proceeds C c) :
    wlp (reconcileConverge C fuel alive) (fun _ => Cleans C c₀) (fun _ => Cleans C c₀) c := by
  have hpure : wlp (reconcileState C fuel alive) (fun _ c' => c' = c) (fun _ _ => False) c := by
    cases hstate : c.inst.state <;> cases alive <;>
      simp_all [reconcileState, LifecycleState.Disagrees, staleStates]
  refine wlp_bind.mpr <| wlp_mono hpure (fun _ c₁ h₁ => ?_) fun _ _ h' => h'.elim
  subst h₁
  refine wlp_bind.mpr <| wlp_get.mpr <| wlp_bind.mpr <| wlp_whenever.mpr ⟨fun hadopts => ?_,
    fun _ => cleans_reconcileTail fuel h hproceeds⟩
  exact absurd (.inr (.inr (.inr ⟨by simp [hadopts.1], hadopts.2⟩))) hagrees

/-- A reconciliation whose exceptions all come after a save, or before a change, saves. -/
theorem syncs_reconcileLocked (fuel : ℕ) (h : ReconcileSaves C c) :
    wlp (reconcileLocked C fuel) (fun _ => Syncs C c) (fun _ => Syncs C c) c := by
  have hresolved : HoldsKept C c → Syncs C c (c.resolved C) := fun hkept =>
    syncs_of_kept (List.suffix_cons _ _) rfl ⟨_, _, rfl, hkept, rfl⟩
  refine wlp_bind.mpr <| wlp_reconcileHolds_iff.mpr <| wlp_bind.mpr <| wlp_resolveDriver.mpr
    ⟨fun hresolve => ?_, fun message herror => ?_⟩
  · refine wlp_bind.mpr <| wlp_declaration.mpr ⟨fun d hd => ?_, fun error herror => ?_⟩
    · have hlog : c.log <:+ (c.asked C d).log := ⟨[_, _], rfl⟩
      have hkept : HoldsKept C c → (c.statusReply C d).runtime = c.inst.runtime →
          Syncs C c (c.asked C d) := fun hholds hruntime =>
        syncs_of_kept hlog rfl ⟨_, _, rfl, hholds, hruntime⟩
      refine wlp_bind.mpr <| wlp_callDriver.mpr ⟨fun alive hanswer => ?_, fun message herror => ?_⟩
      · rcases h with ⟨hholds, hruntime⟩ | ⟨d', hd', _, alive', hanswer', hcase⟩
        · exact (syncs_reconcileConverge fuel alive).wlp_from
            (hkept hholds (hruntime d hd hresolve))
        · obtain rfl : d = d' := Except.ok.inj (hd.symm.trans hd')
          obtain rfl : alive = alive' := Except.ok.inj (hanswer.symm.trans hanswer')
          by_cases hdisagrees : c.inst.state.Disagrees alive
          · exact wlp_mono (cleans_reconcileConverge_of_disagrees fuel hlog hdisagrees)
              (fun _ _ h' => h'.syncs) fun _ _ h' => h'.syncs
          · exact wlp_mono (cleans_reconcileConverge_of_agrees fuel hlog hdisagrees
              (hcase.resolve_left hdisagrees)) (fun _ _ h' => h'.syncs) fun _ _ h' => h'.syncs
      · rcases h with ⟨hholds, hruntime⟩ | ⟨d', hd', _, alive', hanswer', _⟩
        · exact hkept hholds (hruntime d hd hresolve)
        · obtain rfl : d = d' := Except.ok.inj (hd.symm.trans hd')
          exact absurd (hanswer'.symm.trans herror) (by simp)
    · rcases h with ⟨hholds, _⟩ | ⟨d, hd, _⟩
      · exact hresolved hholds
      · exact absurd (hd.symm.trans herror) (by simp)
  · rcases h with ⟨hholds, _⟩ | ⟨_, _, hresolve, _⟩
    · exact hresolved hholds
    · exact absurd (hresolve.symm.trans herror) (by simp)

end Reconciling

end UltimateBBSBox.Supervisor
