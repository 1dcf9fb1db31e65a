import UltimateBBSBox.Supervisor.Footprint

/-!
# Deeds: what lies between two writes

A footprint forgets in which order a section changes the instance, writes the
journal and saves.  `Deeds C d` keeps that order where the code has one: a
transition is one deed with its journal line and its save, a hold is added
together with the save that follows, and so is an idle deadline.  What the code
saves later, or never, is a deed without a save.

For every section one lemma says which deeds it consists of.
-/

namespace UltimateBBSBox.Supervisor

open Act

variable {σ α : Type} {C : Context σ}

/-! ## Deeds -/

/-- Kinds of deeds. -/
inductive Deed
  | plain | move (newState : LifecycleState) | hold | pin | attempt | schedule | mode

/-- The effect asks the outside something, showing it the instance as it is. -/
def Effect.Shows (inst : InstanceState) : Effect → Prop
  | .clock _ | .resolve => True
  | .status shown | .start shown | .isReady shown | .stop _ shown | .runMaintenance _ shown =>
      shown = inst
  | .journal _ | .save _ | .attempt _ => False

/-- State, holds and idle deadline agree. -/
structure SameHolds (first second : InstanceState) : Prop where
  state : second.state = first.state
  holds : second.holds = first.holds
  idleDeadline : second.idleDeadline = first.idleDeadline

/-- Every hold that is left was there, and is still positive if it was. -/
def FewerHolds (holds holds' : Dict String ℤ) : Prop :=
  ∀ k count', holds'.get? k = some count' →
    ∃ count, holds.get? k = some count ∧ (0 < count → 0 < count')

/-- One deed. -/
inductive Deeds (C : Context σ) : Deed → Cell σ → Cell σ → Prop
  | ask {c : Cell σ} (effect : Effect) (env : σ) (hshows : effect.Shows c.inst) :
      Deeds C .plain c ((c.withEnv env).note effect)
  | call {c : Cell σ} {β : Type} (effect : InstanceState → Effect) (reply : Reply σ β)
      (hshows : (effect c.inst).Shows c.inst) : Deeds C .plain c (c.afterCall effect reply)
  | wait {c : Cell σ} (env : σ) : Deeds C .plain c (c.withEnv env)
  | save {c : Cell σ} : Deeds C .plain c c.saved
  | update {c : Cell σ} (inst : InstanceState) (hsame : SameHolds c.inst inst) :
      Deeds C .plain c (c.mapInst fun _ => inst)
  | jobs {c : Cell σ} (f : Finset String → Finset String) : Deeds C .plain c (c.mapJobs f)
  | mode {c : Cell σ} (mode : Mode) : Deeds C .mode c { c with override := some mode }
  | addHold {c : Cell σ} (reason : String) :
      Deeds C .hold c (c.mapInst fun inst => inst.withHold reason).saved
  | release {c : Cell σ} (holds : Dict String ℤ) (hfewer : FewerHolds c.inst.holds holds) :
      Deeds C .plain c (c.mapInst fun inst => { inst with holds := holds })
  | stopped {c : Cell σ} (stopped : DateTime) :
      Deeds C .plain c
        (c.mapInst fun inst => { inst with lastStopAt := some stopped, idleDeadline := none }).saved
  | move {c : Cell σ} (newState : LifecycleState) (reason : String) (error : Option String)
      (hvalid : newState ∈ transitions c.inst.state) :
      Deeds C (.move newState) c (c.moved C newState reason error)
  | pin {c : Cell σ} (reason : String) :
      Deeds C .pin c (c.mapInst fun inst => { inst with holds := inst.holds.set reason 1 })
  | attempt {c : Cell σ} (now : DateTime) :
      Deeds C .attempt c ((c.mapInst fun inst =>
        { inst with
          restartTimes := inst.restartTimes ++ [now]
          restartExhausted := false
          holds := inst.holds.set "recovery" 1 }).note (.attempt now))
  | schedule {c : Cell σ} (deadline : DateTime)
      (hdeadline : addSeconds (C.environment.now c.env).1
        (C.service.lifecycle.idleTimeoutSeconds.getD 0) = .ok deadline)
      (hidle : c.inst.activeHolds = 0) :
      Deeds C .schedule c
        ((c.afterClock C).mapInst fun inst => { inst with idleDeadline := some deadline }).saved

/-- Finite sequences of deeds of the allowed kinds. -/
abbrev Doings (C : Context σ) (allowed : Deed → Prop) : Cell σ → Cell σ → Prop :=
  Steps (Deeds C) allowed

/-- The service is started again after a failure. -/
def Context.Restarts (C : Context σ) : Prop :=
  C.service.lifecycle.restart.getD .never ∈ [RestartPolicy.onFailure, .always]

instance (C : Context σ) : Decidable C.Restarts := inferInstanceAs (Decidable (_ ∈ _))

namespace Deed

/-- Bringing the service up, once or again. -/
def starting (C : Context σ) : Deed → Prop
  | .plain | .move .starting | .move .ready | .move .running | .move .failed => True
  | .attempt => C.Restarts
  | _ => False

/-- Bringing the service down. -/
def stopping : Deed → Prop
  | .plain | .move .stopping | .move .stopped | .move .failed => True
  | _ => False

end Deed

theorem FewerHolds.refl (holds : Dict String ℤ) : FewerHolds holds holds :=
  fun _ count hget => ⟨count, hget, id⟩

theorem FewerHolds.pop (holds : Dict String ℤ) (reason : String) :
    FewerHolds holds (holds.pop reason) := by
  intro k count' hget
  rw [Dict.get?_pop] at hget
  split at hget
  · cases hget
  · exact ⟨count', hget, id⟩

theorem FewerHolds.withoutHold (inst : InstanceState) (reason : String) :
    FewerHolds inst.holds (inst.withoutHold reason).holds := by
  unfold InstanceState.withoutHold
  dsimp only
  split
  · exact .pop _ _
  · rename_i hcount
    intro k count' hget
    rw [Dict.get?_set] at hget
    split at hget
    · rename_i hk
      rw [Option.some.injEq] at hget
      cases hheld : inst.holds.get? reason with
      | none => simp [Dict.getD, hheld] at hcount
      | some count =>
          simp only [Dict.getD, hheld, Option.getD_some] at hcount hget
          refine ⟨count, hk ▸ hheld, fun _ => ?_⟩
          omega
    · exact ⟨count', hget, id⟩

/-! ## Sections that only ask, wait, save and update -/

section Plain

variable {allowed : Deed → Prop} (h : allowed .plain)
include h

theorem doings_modifyInst {f : InstanceState → InstanceState} (hsame : ∀ inst, SameHolds inst (f inst)) :
    Within (Doings C allowed) (modifyInst (σ := σ) f) := fun _ =>
  wlp_modifyInst.mpr <| .single h (.update _ (hsame _))

theorem doings_persist : Within (Doings C allowed) (persist (σ := σ)) := fun _ =>
  wlp_persist.mpr <| .single h .save

theorem doings_now : Within (Doings C allowed) (now C) := fun _ =>
  wlp_now.mpr <| .single h (.ask (.clock _) _ trivial)

theorem doings_monotonic : Within (Doings C allowed) (monotonic C) := fun _ =>
  wlp_monotonic.mpr <| .single h (.wait _)

theorem doings_sleep (seconds : ℚ) : Within (Doings C allowed) (sleep C seconds) := fun _ =>
  wlp_sleep.mpr <| .single h (.wait _)

theorem doings_resolveDriver : Within (Doings C allowed) (resolveDriver C) := by
  intro c
  have hstep : Doings C allowed c
      ((c.withEnv (C.environment.resolve c.env).2).note .resolve) :=
    .single h (.ask .resolve _ trivial)
  exact wlp_resolveDriver.mpr ⟨fun _ => hstep, fun _ _ => hstep⟩

omit h in
theorem doings_declaration : Within (Doings C allowed) (declaration C) := fun _ =>
  wlp_declaration.mpr ⟨fun _ _ => .refl, fun _ _ => .refl⟩

theorem doings_callDriver {call : InstanceState → σ → Reply σ α} {effect : InstanceState → Effect}
    (hshows : ∀ inst, (effect inst).Shows inst) :
    Within (Doings C allowed) (callDriver call effect) := by
  intro c
  have hstep : Doings C allowed c (c.afterCall effect (call c.inst c.env)) :=
    .single h (.call _ _ (hshows _))
  exact wlp_callDriver.mpr ⟨fun _ _ => hstep, fun _ _ => hstep⟩

theorem doings_modifyJobs (f : Finset String → Finset String) :
    Within (Doings C allowed)
      (modify (m := Prog σ) fun c => { c with jobsRunning := f c.jobsRunning }) := fun _ =>
  wlp_modifyJobs.mpr <| .single h (.jobs f)

theorem doings_removeHold {reason : String} :
    Within (Doings C allowed) (removeHold (σ := σ) reason) := fun c =>
  wlp_bind.mpr <| wlp_modifyInst.mpr <| wlp_persist.mpr <|
    .cons h (.release _ (.withoutHold c.inst reason)) <| .single h .save

theorem doings_dropHold {reason : String} :
    Within (Doings C allowed) (do
      modifyInst (σ := σ) fun inst => { inst with holds := inst.holds.pop reason }
      persist) := fun _ =>
  wlp_bind.mpr <| wlp_modifyInst.mpr <| wlp_persist.mpr <|
    .cons h (.release _ (.pop _ _)) <| .single h .save

theorem doings_awaitReady {d : Declaration} {readiness : Readiness} {timeout : ℕ} {deadline : ℚ}
    (fuel : ℕ) :
    Within (Doings C allowed) (awaitReady C d readiness timeout deadline fuel) := by
  induction fuel with
  | zero => exact within_diverge
  | succ fuel ih =>
      exact within_bind (doings_callDriver h fun _ => rfl) fun _ =>
        within_ite (fun _ => within_pure _) fun _ =>
          within_bind (doings_monotonic h) fun _ =>
            within_ite (fun _ => within_throw _) fun _ =>
              within_bind (doings_monotonic h) fun _ =>
                within_bind (doings_sleep h _) fun _ => ih

theorem doings_cleanUp {d : Declaration} : Within (Doings C allowed) (cleanUp C d) :=
  within_bind (doings_callDriver h fun _ => rfl) fun _ =>
    within_ite (fun _ => doings_callDriver h fun _ => rfl) fun _ => within_pure _

theorem doings_callMaintenance (job : Job) :
    Within (Doings C allowed) (callMaintenance C job) :=
  within_tryCatch
    (within_bind (doings_resolveDriver h) fun _ =>
      within_bind doings_declaration fun _ =>
        within_bind (doings_callDriver h fun _ => rfl) fun _ => within_pure _)
    fun _ => within_pure _

theorem doings_tickJobs (now : DateTime) (jobs : List Job) :
    Within (Doings C allowed) (tickJobs (σ := σ) now jobs) := by
  induction jobs with
  | nil => exact within_pure _
  | cons job rest ih =>
      refine within_bind within_get fun _ => within_bind (within_ofExcept _) fun _ =>
        within_ite (fun _ => ?_) fun _ => ih
      exact within_bind (doings_modifyInst h fun _ => ⟨rfl, rfl, rfl⟩) fun _ =>
        within_bind (doings_persist h) fun _ => within_bind ih fun _ => within_pure _

omit h in
theorem doings_addHold {reason : String} (hhold : allowed .hold) :
    Within (Doings C allowed) (addHold (σ := σ) reason) := fun _ =>
  wlp_bind.mpr <| wlp_modifyInst.mpr <| wlp_persist.mpr <| .single hhold (.addHold reason)

theorem doings_startHold (hhold : allowed .hold) (reason : String) :
    Within (Doings C allowed) (startHold (σ := σ) reason) := by
  refine within_ite (fun _ => ?_) fun _ =>
    within_bind within_get fun _ => within_whenever fun _ => doings_addHold hhold
  refine within_bind (doings_modifyInst h fun _ => ⟨rfl, rfl, rfl⟩) fun _ =>
    within_bind (doings_modifyInst h fun inst => ?_) fun _ =>
      within_bind within_get fun _ => within_whenever fun _ => doings_addHold hhold
  split <;> exact ⟨rfl, rfl, rfl⟩

end Plain

theorem doings_scheduleIdleLocked {allowed : Deed → Prop} (h : allowed .plain)
    (hschedule : allowed .schedule) : Within (Doings C allowed) (scheduleIdleLocked C) := by
  intro c
  refine wlp_bind.mpr <| wlp_get.mpr <| wlp_ite.mpr ⟨fun _ => .refl, fun hidle => wlp_ite.mpr
    ⟨fun _ => .refl, fun _ => ?_⟩⟩
  simp only [not_or, not_not] at hidle
  have hclock : Doings C allowed c (c.afterClock C) :=
    .single h (.ask (.clock _) _ trivial)
  refine wlp_bind.mpr <| wlp_now.mpr <| wlp_bind.mpr <| wlp_ofExcept.mpr
    ⟨fun deadline hdeadline => ?_, fun _ _ => hclock⟩
  rw [lifecycle_idleTimeoutSeconds] at hdeadline
  exact wlp_bind.mpr <| wlp_modifyInst.mpr <| wlp_persist.mpr <|
    .single hschedule (.schedule deadline hdeadline hidle.2.1)

/-! ## Transitions -/

section Moving

variable {allowed : Deed → Prop}

theorem doings_transition {newState : LifecycleState} {reason : String} {error : Option String}
    (hmove : allowed (.move newState)) :
    Within (Doings C allowed) (transition C newState reason error) := fun _ =>
  wlp_transition.mpr ⟨fun hvalid => .single hmove (.move newState reason error hvalid),
    fun _ _ => .refl⟩

theorem doings_markFailedLocked (h : allowed .plain) (hmove : allowed (.move .failed))
    {error reason : String} : Within (Doings C allowed) (markFailedLocked C error reason) :=
  within_bind within_get fun _ =>
    within_bind (within_whenever fun _ => doings_transition hmove) fun _ =>
      within_bind (doings_modifyInst h fun _ => ⟨rfl, rfl, rfl⟩) fun _ => doings_persist h

theorem doings_stopLocked (h : Deed.stopping ≤ allowed) {reason : String} :
    Within (Doings C allowed) (stopLocked C reason) := by
  have hplain : allowed .plain := h .plain trivial
  have hstopped : Within (Doings C allowed) (do
      let stopped ← now C
      modifyInst fun inst => { inst with lastStopAt := some stopped, idleDeadline := none }
      persist) := within_bind (doings_now hplain) fun stopped _ =>
    wlp_bind.mpr <| wlp_modifyInst.mpr <| wlp_persist.mpr <| .single hplain (.stopped stopped)
  refine within_bind within_get fun _ => within_ite (fun _ => doings_persist hplain) fun _ =>
    within_ite (fun _ => doings_transition (h (.move .stopped) trivial)) fun _ =>
      within_ite (fun _ => within_throw _) fun _ =>
        within_bind (doings_transition (h (.move .stopping) trivial)) fun _ =>
          within_tryCatch ?_ fun _ =>
            within_bind (doings_markFailedLocked hplain (h (.move .failed) trivial)) fun _ =>
              within_throw _
  exact within_bind (doings_resolveDriver hplain) fun _ =>
    within_bind doings_declaration fun _ =>
      within_bind (doings_callDriver hplain fun _ => rfl) fun _ =>
        within_bind (doings_transition (h (.move .stopped) trivial)) fun _ => hstopped

theorem doings_stop (h : Deed.stopping ≤ allowed) (force : Bool) (reason : String) :
    Within (Doings C allowed) (stop C force reason) := by
  have hplain : allowed .plain := h .plain trivial
  have hintent : Within (Doings C allowed) (whenever (reason = "admin") do
      modifyInst (σ := σ) fun inst =>
        { inst with adminIntent := false, holds := inst.holds.pop "admin" }) :=
    within_whenever fun _ c => wlp_modifyInst.mpr <|
      .cons hplain (.update { c.inst with adminIntent := false } ⟨rfl, rfl, rfl⟩) <|
        .single hplain (.release _ (.pop _ "admin"))
  have hclear : Within (Doings C allowed) (whenever (force = true) do
      modifyInst (σ := σ) fun inst => { inst with holds := ∅, sessions := ∅ }) :=
    within_whenever fun _ c => wlp_modifyInst.mpr <|
      .cons hplain (.update { c.inst with sessions := ∅ } ⟨rfl, rfl, rfl⟩) <|
        .single hplain (.release ∅ fun k count' hget => by simp at hget)
  exact within_bind hintent fun _ => within_bind hclear fun _ =>
    within_bind within_get fun _ => within_bind (within_whenever fun _ => within_throw _) fun _ =>
      within_bind (doings_stopLocked h) fun _ => within_bind within_get fun _ => within_pure _

/-- The idle stop of `tick`. -/
theorem doings_tickIdle (h : Deed.stopping ≤ allowed) (now : DateTime) :
    Within (Doings C allowed) (tickIdle C now) := by
  refine within_bind within_get fun c => ?_
  cases parseTimestamp c.inst.idleDeadline with
  | none => exact within_pure _
  | some deadline => exact within_whenever fun _ => doings_stopLocked h

end Moving

/-! ## Starting and recovering -/

section Starting

variable {allowed : Deed → Prop} (h : Deed.starting C ≤ allowed)
include h

theorem doings_restartAfterFailureLocked {ensureRunning : Prog σ Unit}
    (hensure : Within (Doings C allowed) ensureRunning) :
    Within (Doings C allowed) (restartAfterFailureLocked C ensureRunning) := by
  have hplain : allowed .plain := h .plain trivial
  refine within_bind within_get fun c => within_ite (fun _ => within_pure _) fun hrestarts =>
    within_bind (doings_now hplain) fun now => within_bind (within_ofExcept _) fun _ =>
      within_bind (doings_modifyInst hplain fun _ => ⟨rfl, rfl, rfl⟩) fun _ =>
        within_ite (fun _ => ?_) fun _ => ?_
  · refine within_bind (fun c => wlp_modifyInst.mpr ?_) fun _ =>
      within_bind (doings_persist hplain) fun _ => within_throw _
    exact .cons hplain (.update
      { c.inst with
        lastFailure := some _, restartExhausted := true, nextRestartAt := none } ⟨rfl, rfl, rfl⟩) <|
      .single hplain (.release _ (.pop _ "recovery"))
  · intro c'
    rw [lifecycle_restart, not_not] at hrestarts
    refine wlp_bind.mpr <| wlp_modifyInst.mpr <| wlp_bind.mpr <| wlp_record.mpr <|
      Within.wlp_from (R := Doings C allowed) ?_ (.single (h .attempt hrestarts) (.attempt now))
    exact within_bind (within_ofExcept _) fun _ =>
      within_bind (doings_modifyInst hplain fun _ => ⟨rfl, rfl, rfl⟩) fun _ =>
        within_bind (doings_persist hplain) fun _ => within_whenever fun _ =>
          within_bind hensure fun _ => within_bind within_get fun _ =>
            within_whenever fun _ => doings_dropHold hplain

theorem doings_startAttempt {d : Declaration} {reason : String} (fuel : ℕ) :
    Within (Doings C allowed) (startAttempt C fuel d reason) := by
  have hplain : allowed .plain := h .plain trivial
  exact within_bind (doings_callDriver hplain fun _ => rfl) fun _ =>
    within_bind within_get fun _ =>
      within_bind (doings_monotonic hplain) fun _ =>
        within_bind (doings_awaitReady hplain fuel) fun _ =>
          within_bind (doings_transition (h (.move .ready) trivial)) fun _ =>
            within_bind (doings_transition (h (.move .running) trivial)) fun _ =>
              within_bind (doings_now hplain) fun _ =>
                within_bind (doings_modifyInst hplain fun _ => ⟨rfl, rfl, rfl⟩) fun _ =>
                  doings_persist hplain

theorem doings_ensureNested (fuel depth : ℕ) (reason : String) :
    Within (Doings C allowed) (ensureNested C fuel depth reason) := by
  have hplain : allowed .plain := h .plain trivial
  -- the recursion of the source: a failed attempt ensures that the service runs once more
  induction depth generalizing reason with
  | zero => exact within_throw _
  | succ depth ih =>
      refine within_bind within_get fun _ => within_ite (fun _ => within_pure _) fun _ =>
        within_ite (fun _ => within_throw _) fun _ => within_bind doings_declaration fun _ =>
          within_bind (doings_resolveDriver hplain) fun _ =>
            within_bind (doings_transition (h (.move .starting) trivial)) fun _ =>
              within_tryCatch (doings_startAttempt h fuel) fun exc => ?_
      exact within_bind (within_tryCatch (doings_cleanUp hplain) fun _ => within_pure _) fun _ =>
        within_bind (doings_markFailedLocked hplain (h (.move .failed) trivial)) fun _ =>
          within_bind (doings_restartAfterFailureLocked h (ih "recovery")) fun _ =>
            within_bind within_get fun _ => within_whenever fun _ => within_throw exc

theorem doings_ensureRunningLocked (fuel : ℕ) (reason : String) :
    Within (Doings C allowed) (ensureRunningLocked C fuel reason) :=
  doings_ensureNested h fuel _ reason

theorem doings_start (hhold : allowed .hold) (fuel : ℕ) (reason : String) :
    Within (Doings C allowed) (start C fuel reason) :=
  within_bind (doings_startHold (h .plain trivial) hhold reason) fun _ =>
    within_bind (doings_ensureRunningLocked h fuel reason) fun _ =>
      within_bind within_get fun _ => within_pure _

theorem doings_notifyFailure (fuel : ℕ) (error : String) :
    Within (Doings C allowed) (notifyFailure C fuel error) :=
  within_bind (doings_markFailedLocked (h .plain trivial) (h (.move .failed) trivial)) fun _ =>
    within_bind (doings_restartAfterFailureLocked h (doings_ensureRunningLocked h fuel _)) fun _ =>
      within_bind within_get fun _ => within_pure _

theorem doings_acquireSession (hhold : allowed .hold) (fuel : ℕ) (sessionId : String) :
    Within (Doings C allowed) (acquireSession C fuel sessionId) := by
  have hplain : allowed .plain := h .plain trivial
  refine within_bind within_get fun _ => within_bind (within_whenever fun _ => within_throw _)
    fun _ => within_bind (doings_now hplain) fun _ =>
      within_bind (doings_modifyInst hplain fun _ => ⟨rfl, rfl, rfl⟩) fun _ =>
        within_bind (doings_addHold hhold) fun _ => within_bind (within_tryCatch
          (doings_ensureRunningLocked h fuel _) fun exc => ?_) fun _ => within_pure _
  exact within_bind (doings_modifyInst hplain fun _ => ⟨rfl, rfl, rfl⟩) fun _ =>
    within_bind (doings_removeHold hplain) fun _ => within_throw exc

theorem doings_tickRestart (fuel : ℕ) (now : DateTime) :
    Within (Doings C allowed) (tickRestart C fuel now) := by
  refine within_bind within_get fun c => ?_
  cases parseTimestamp c.inst.nextRestartAt with
  | none => exact within_pure _
  | some nextRestart =>
      exact within_whenever fun _ => within_bind (doings_ensureRunningLocked h fuel _) fun _ =>
        within_bind within_get fun _ => within_whenever fun _ =>
          doings_dropHold (h .plain trivial)

theorem doings_beginMaintenance (hhold : allowed .hold) (hmaintain : allowed (.move .maintenance))
    (fuel : ℕ) (job : Job) :
    Within (Doings C allowed) (beginMaintenance C fuel job) := by
  have hplain : allowed .plain := h .plain trivial
  have herase : Within (Doings C allowed)
      (modify (m := Prog σ) fun c => { c with jobsRunning := c.jobsRunning.erase job.name }) :=
    doings_modifyJobs hplain (Finset.erase · job.name)
  refine within_bind within_get fun _ => within_ite (fun _ => within_throw _) fun _ =>
    within_bind (doings_modifyJobs hplain (insert job.name)) fun _ =>
      within_ite (fun _ => within_bind herase fun _ => within_throw _) fun _ =>
        within_bind (doings_addHold hhold) fun _ =>
          within_bind (within_tryCatch ?_ fun exc => ?_) fun _ => within_pure _
  · exact within_bind (doings_ensureRunningLocked h fuel _) fun _ => doings_transition hmaintain
  · exact within_bind (doings_removeHold hplain) fun _ =>
      within_bind herase fun _ => within_throw exc

end Starting

/-! ## Settling maintenance and reconciling -/

section Reconciling

variable {allowed : Deed → Prop}

/-- The second section of a maintenance run up to the removal of its hold. -/
theorem doings_settleMaintenance (h : Deed.starting C ≤ allowed) (job : Job)
    (outcome : Except String Archive.Fields) : Within (Doings C allowed) (settleMaintenance C job outcome) := by
  cases outcome with
  | ok result => exact doings_transition (h (.move .running) trivial)
  | error message =>
      exact doings_markFailedLocked (h .plain trivial) (h (.move .failed) trivial)

theorem doings_finishMaintenance (h : Deed.starting C ≤ allowed) (hstop : Deed.stopping ≤ allowed)
    (hschedule : allowed .schedule) (fuel : ℕ) (job : Job) (wasActive : Bool)
    (outcome : Except String Archive.Fields) :
    Within (Doings C allowed) (finishMaintenance C fuel job wasActive outcome) := by
  have hplain : allowed .plain := h .plain trivial
  refine within_bind (doings_now hplain) fun _ =>
    within_bind (doings_modifyInst hplain fun _ => ⟨rfl, rfl, rfl⟩) fun _ =>
      within_bind (doings_settleMaintenance h job outcome) fun _ =>
        within_bind (doings_removeHold hplain) fun _ =>
          within_bind (doings_modifyJobs hplain (Finset.erase · job.name)) fun _ => ?_
  cases outcome with
  | ok result =>
      refine within_bind within_get fun _ => within_ite (fun _ => ?_) fun _ => ?_
      · exact within_bind (doings_stopLocked hstop) fun _ => within_pure _
      · exact within_bind (doings_scheduleIdleLocked hplain hschedule) fun _ => within_pure _
  | error message =>
      exact within_bind (doings_restartAfterFailureLocked h
        (doings_ensureRunningLocked h fuel _)) fun _ => within_throw _

theorem doings_releaseSession (h : allowed .plain) (hschedule : allowed .schedule)
    (sessionId : String) : Within (Doings C allowed) (releaseSession C sessionId) :=
  within_bind within_get fun _ => within_ite (fun _ => within_throw _) fun _ =>
    within_bind (doings_modifyInst h fun _ => ⟨rfl, rfl, rfl⟩) fun _ =>
      within_bind (doings_removeHold h) fun _ =>
        within_bind (doings_scheduleIdleLocked h hschedule) fun _ =>
          within_bind within_get fun _ => within_pure _

theorem doings_reconcileHolds (h : allowed .plain) (hpin : allowed .pin) :
    Within (Doings C allowed) (reconcileHolds C) := by
  refine within_bind within_get fun c => within_bind (fun c' => wlp_modifyInst.mpr ?_) fun _ =>
    within_whenever fun _ _ => wlp_modifyInst.mpr <| .single hpin (.pin "admin")
  by_cases hmode : (C.lifecycle c).mode = .alwaysOn
  · simp only [if_pos hmode]
    exact .single hpin (.pin "always_on")
  · simp only [if_neg hmode]
    exact .single h (.release _ (.pop _ "always_on"))

/-- Resolving the driver and asking for the runtime. -/
theorem doings_reconcileLook (h : allowed .plain) (hpin : allowed .pin) :
    Within (Doings C allowed) (reconcileLook C) :=
  within_bind (doings_reconcileHolds h hpin) fun _ =>
    within_bind (doings_resolveDriver h) fun _ =>
      within_bind doings_declaration fun _ => doings_callDriver h fun _ => rfl

theorem doings_adopt (h : Deed.starting C ≤ allowed) : Within (Doings C allowed) (adopt C) :=
  within_bind (doings_transition (h (.move .starting) trivial)) fun _ =>
    within_bind (doings_transition (h (.move .ready) trivial)) fun _ =>
      doings_transition (h (.move .running) trivial)

theorem doings_reconcileState (h : Deed.starting C ≤ allowed) (hstopped : allowed (.move .stopped))
    (fuel : ℕ) (alive : Bool) : Within (Doings C allowed) (reconcileState C fuel alive) := by
  have hplain : allowed .plain := h .plain trivial
  have hfailed : allowed (.move .failed) := h (.move .failed) trivial
  have hrunning : allowed (.move .running) := h (.move .running) trivial
  refine within_bind within_get fun c => within_ite (fun _ => ?_) fun _ => ?_
  · -- a stale state is adopted or reset
    refine within_ite (fun _ => doings_transition ?_) fun _ => within_ite (fun _ => ?_) fun _ => ?_
    · cases alive
      · exact hstopped
      · exact hfailed
    · exact within_bind (within_whenever fun _ => doings_transition (h (.move .ready) trivial))
        fun _ => doings_transition hrunning
    · exact within_bind (doings_markFailedLocked hplain hfailed) fun _ =>
        doings_transition hstopped
  · refine within_ite (fun _ => ?_) fun _ => ?_
    · -- the runtime is gone
      refine within_bind (doings_markFailedLocked hplain hfailed) fun _ =>
        within_bind within_get fun _ => within_ite (fun _ => ?_) fun _ =>
          doings_transition hstopped
      exact doings_restartAfterFailureLocked h (doings_ensureRunningLocked h fuel _)
    · exact within_ite (fun _ => doings_transition hrunning) fun _ =>
        within_ite (fun _ => doings_adopt h) fun _ => within_pure _

theorem doings_reconcileStart (h : Deed.starting C ≤ allowed) (fuel : ℕ) :
    Within (Doings C allowed) (reconcileStart C fuel) := by
  refine within_bind within_get fun c => within_ite (fun _ => doings_ensureRunningLocked h fuel _)
    fun _ => within_ite (fun _ => ?_) fun _ => within_pure _
  cases parseTimestamp c.inst.nextRestartAt with
  | none => exact doings_ensureRunningLocked h fuel _
  | some eligible =>
      exact within_bind (doings_now (h .plain trivial)) fun _ =>
        within_whenever fun _ => doings_ensureRunningLocked h fuel _

/-- From the driver's answer up to the idle rule. -/
theorem doings_reconcileConverge (h : Deed.starting C ≤ allowed) (hstopped : allowed (.move .stopped))
    (hschedule : allowed .schedule) (fuel : ℕ) (alive : Bool) :
    Within (Doings C allowed) (reconcileConverge C fuel alive) :=
  within_bind (doings_reconcileState h hstopped fuel alive) fun _ =>
    within_bind within_get fun _ => within_bind (within_whenever fun _ => doings_adopt h) fun _ =>
      within_bind (doings_reconcileStart h fuel) fun _ =>
        within_bind (doings_scheduleIdleLocked (h .plain trivial) hschedule) fun _ =>
          doings_persist (h .plain trivial)

theorem doings_tickLocked (h : Deed.starting C ≤ allowed) (hstop : Deed.stopping ≤ allowed)
    (fuel : ℕ) (now : DateTime) : Within (Doings C allowed) (tickLocked C fuel now) :=
  within_bind (doings_tickIdle hstop now) fun _ =>
    within_bind (doings_tickRestart h fuel now) fun _ =>
      doings_tickJobs (h .plain trivial) now _

theorem doings_setLifecycleMode (h : allowed .mode) (mode : Mode) :
    Within (Doings C allowed) (setLifecycleMode (σ := σ) mode) := fun _ =>
  wlp_modify.mpr <| .single h (.mode mode)

end Reconciling

end UltimateBBSBox.Supervisor
