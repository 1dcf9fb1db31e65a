import Mathlib.Order.Basic
import UltimateBBSBox.Supervisor.Execution

/-!
# Footprints: what each operation can touch

`Touches C l` relates two cells when the second is the first after one touch of
kind `l`: a step of the state machine, a change of one hold, an attempt taken
from the restart budget, a driver call, and so on.  A touch carries the guard
under which the code makes it, so that an invariant needs one look at each kind
and none at the operations.

For every operation one lemma says which kinds of touches it consists of.
-/

namespace UltimateBBSBox.Supervisor

open Act

variable {σ α : Type} {C : Context σ}

/-! ## Touches -/

/-- Effects on the outside that no invariant speaks about. -/
def Effect.Quiet : Effect → Prop
  | .journal _ | .resolve | .status _ | .isReady _ | .runMaintenance _ _ | .stop true _ => True
  | _ => False

/-- Two instances that agree on state, holds, sessions and restart budget. -/
structure SameCore (first second : InstanceState) : Prop where
  state : second.state = first.state
  holds : second.holds = first.holds
  sessions : second.sessions = first.sessions
  restartTimes : second.restartTimes = first.restartTimes
  nextRestartAt : second.nextRestartAt = first.nextRestartAt
  restartExhausted : second.restartExhausted = first.restartExhausted

/-- Kinds of touches. -/
inductive Touch
  | quiet | clock | start | stop | save | jobs | move
  | addHold (reason : String) | removeHold (reason : String)
  | dropHold (reason : String) | pinHold (reason : String)
  | attach | detach | clear
  | resetBudget | prune | exhaust | attempt | nextRestart | recovered

/-- `holds` after `_add_hold`. -/
def InstanceState.withHold (inst : InstanceState) (reason : String) : InstanceState :=
  { inst with
    holds := inst.holds.set reason (inst.holds.getD reason 0 + 1)
    idleDeadline := none }

/-- `holds` after `_remove_hold`. -/
def InstanceState.withoutHold (inst : InstanceState) (reason : String) : InstanceState :=
  let count := inst.holds.getD reason 0
  { inst with
    holds := if count ≤ 1 then inst.holds.pop reason else inst.holds.set reason (count - 1) }

/-- One touch of a cell. -/
inductive Touches (C : Context σ) : Touch → Cell σ → Cell σ → Prop
  | quiet {c : Cell σ} (inst : InstanceState) (override : Option Mode) (effects : List Effect)
      (env : σ) (hcore : SameCore c.inst inst) (hquiet : ∀ effect ∈ effects, effect.Quiet) :
      Touches C .quiet c ⟨inst, c.jobsRunning, override, effects ++ c.log, env⟩
  | clock {c : Cell σ} : Touches C .clock c (c.afterClock C)
  | start {c : Cell σ} (reply : Reply σ Unit) : Touches C .start c (c.afterCall .start reply)
  | stop {c : Cell σ} (reply : Reply σ Unit) (hholds : c.inst.activeHolds = 0) :
      Touches C .stop c (c.afterCall (.stop false) reply)
  | save {c : Cell σ} : Touches C .save c c.saved
  | jobs {c : Cell σ} (f : Finset String → Finset String) : Touches C .jobs c (c.mapJobs f)
  | move {c : Cell σ} (newState : LifecycleState) (hvalid : newState ∈ transitions c.inst.state) :
      Touches C .move c (c.mapInst fun inst => { inst with state := newState })
  | addHold {c : Cell σ} (reason : String) :
      Touches C (.addHold reason) c (c.mapInst fun inst => inst.withHold reason)
  | removeHold {c : Cell σ} (reason : String) :
      Touches C (.removeHold reason) c (c.mapInst fun inst => inst.withoutHold reason)
  | dropHold {c : Cell σ} (reason : String) :
      Touches C (.dropHold reason) c
        (c.mapInst fun inst => { inst with holds := inst.holds.pop reason })
  | pinHold {c : Cell σ} (reason : String) :
      Touches C (.pinHold reason) c
        (c.mapInst fun inst => { inst with holds := inst.holds.set reason 1 })
  | attach {c : Cell σ} (sessionId : String) (timestamp : DateTime)
      (hfresh : c.inst.sessions.get? sessionId = none)
      (hsingle : C.service.lifecycle.sharing = .singleSession → c.inst.sessions.size = 0) :
      Touches C .attach c (c.mapInst fun inst =>
        { inst with sessions := inst.sessions.set sessionId timestamp }.withHold "sessions")
  | detach {c : Cell σ} (sessionId : String) (hknown : c.inst.sessions.get? sessionId ≠ none) :
      Touches C .detach c (c.mapInst fun inst =>
        { inst with sessions := inst.sessions.pop sessionId }.withoutHold "sessions")
  | clear {c : Cell σ} :
      Touches C .clear c (c.mapInst fun inst => { inst with holds := ∅, sessions := ∅ })
  | resetBudget {c : Cell σ} (hfailed : c.inst.state = .failed) :
      Touches C .resetBudget c
        (c.mapInst fun inst => { inst with restartExhausted := false, restartTimes := [] })
  | prune {c : Cell σ} (now : DateTime) (prior : List DateTime)
      (hnow : c.log.head? = some (.clock now))
      (hprior : recentRestarts c.inst.restartTimes now
        (C.service.lifecycle.restartWindowSeconds.getD 60) = .ok prior) :
      Touches C .prune c (c.mapInst fun inst => { inst with restartTimes := prior })
  | exhaust {c : Cell σ} (failure : String) :
      Touches C .exhaust c (c.mapInst fun inst =>
        { inst with
          lastFailure := some failure
          restartExhausted := true
          nextRestartAt := none
          holds := inst.holds.pop "recovery" })
  | attempt {c : Cell σ} (now : DateTime) (hnow : c.log.head? = some (.clock now))
      (hroom : c.inst.restartTimes.length < C.service.lifecycle.maxRestarts.getD 3) :
      Touches C .attempt c ((c.mapInst fun inst =>
        { inst with
          restartTimes := inst.restartTimes ++ [now]
          restartExhausted := false
          holds := inst.holds.set "recovery" 1 }).note (.attempt now))
  | nextRestart {c : Cell σ} (nextRestart : DateTime) (hroom : c.inst.restartExhausted = false) :
      Touches C .nextRestart c (c.mapInst fun inst => { inst with nextRestartAt := some nextRestart })
  | recovered {c : Cell σ} (started : DateTime) :
      Touches C .recovered c (c.mapInst fun inst =>
        { inst with
          lastStartAt := some started
          lastFailure := none
          nextRestartAt := none
          restartExhausted := false })

/-- Finite sequences of touches of the allowed kinds. -/
abbrev Footprint (C : Context σ) (allowed : Touch → Prop) : Cell σ → Cell σ → Prop :=
  Steps (Touches C) allowed

namespace Touch

/-- Reading the clock, looking at the runtime, saving. -/
def observing : Touch → Prop
  | .quiet | .clock | .save => True
  | _ => False

/-- Observing and moving through the lifecycle graph. -/
def moving : Touch → Prop
  | .quiet | .clock | .save | .move => True
  | _ => False

/-- Observing and starting the runtime. -/
def driving : Touch → Prop
  | .quiet | .clock | .save | .start => True
  | _ => False

/-- Moving, starting the runtime and keeping the restart budget. -/
def recovering : Touch → Prop
  | .quiet | .clock | .save | .move | .start | .prune | .exhaust | .attempt | .nextRestart
  | .recovered => True
  | .dropHold reason => reason = "recovery"
  | _ => False

theorem observing_le_moving : observing ≤ moving := by
  intro l hl
  cases l <;> trivial

theorem observing_le_driving : observing ≤ driving := by
  intro l hl
  cases l <;> trivial

theorem moving_le_recovering : moving ≤ recovering := by
  intro l hl
  cases l <;> trivial

theorem observing_le_recovering : observing ≤ recovering :=
  observing_le_moving.trans moving_le_recovering

end Touch

/-! ## Primitive sections -/

section Primitives

variable {allowed : Touch → Prop}

theorem SameCore.refl (inst : InstanceState) : SameCore inst inst := ⟨rfl, rfl, rfl, rfl, rfl, rfl⟩

theorem SameCore.trans {first second third : InstanceState} (h : SameCore first second)
    (h' : SameCore second third) : SameCore first third :=
  ⟨h'.state.trans h.state, h'.holds.trans h.holds, h'.sessions.trans h.sessions,
    h'.restartTimes.trans h.restartTimes, h'.nextRestartAt.trans h.nextRestartAt,
    h'.restartExhausted.trans h.restartExhausted⟩

/-- Observing and driving leave the core of the instance alone. -/
theorem sameCore_of_driving {c c' : Cell σ} (hfoot : Footprint C Touch.driving c c') :
    SameCore c.inst c'.inst := by
  refine hfoot.closed (P := fun c' => SameCore c.inst c'.inst) (fun l s s' hl hstep hP => ?_)
    (.refl _)
  cases hstep with
  | quiet inst override effects env hcore hquiet => exact hP.trans hcore
  | clock | start | save => exact ⟨hP.state, hP.holds, hP.sessions, hP.restartTimes,
      hP.nextRestartAt, hP.restartExhausted⟩
  | _ => exact False.elim hl

/-- The log only grows. -/
theorem suffix_of_footprint {c c' : Cell σ} (hfoot : Footprint C allowed c c') :
    c.log <:+ c'.log := by
  refine hfoot.closed (P := fun c' => c.log <:+ c'.log) (fun l s s' hl hstep hP => ?_)
    (List.suffix_refl _)
  cases hstep with
  | quiet inst override effects env hcore hquiet => exact hP.trans (List.suffix_append _ _)
  | clock | start | stop | save | attempt => exact hP.trans (List.suffix_cons _ _)
  | _ => exact hP

/-- A change of the environment alone. -/
theorem Touches.withEnv (c : Cell σ) (env : σ) : Touches C .quiet c (c.withEnv env) :=
  .quiet c.inst c.override [] env (.refl _) (by simp)

/-- A change of the instance outside its core. -/
theorem Touches.mapInst {c : Cell σ} {f : InstanceState → InstanceState}
    (hcore : SameCore c.inst (f c.inst)) : Touches C .quiet c (c.mapInst f) :=
  .quiet (f c.inst) c.override [] c.env hcore (by simp)

/-- A line of the journal, or another quiet effect. -/
theorem Touches.note {c : Cell σ} {effect : Effect} (hquiet : effect.Quiet) :
    Touches C .quiet c (c.note effect) :=
  .quiet c.inst c.override [effect] c.env (.refl _) (by simpa using hquiet)

/-- A driver call that no invariant speaks about. -/
theorem Touches.afterCall {c : Cell σ} {effect : InstanceState → Effect} (reply : Reply σ α)
    (hquiet : (effect c.inst).Quiet) : Touches C .quiet c (c.afterCall effect reply) :=
  .quiet _ c.override [effect c.inst] reply.env ⟨rfl, rfl, rfl, rfl, rfl, rfl⟩
    (by simpa using hquiet)

variable (h : Touch.observing ≤ allowed)
include h

theorem within_modifyInst {f : InstanceState → InstanceState}
    (hcore : ∀ inst, SameCore inst (f inst)) :
    Within (Footprint C allowed) (modifyInst (σ := σ) f) := fun _ =>
  wlp_modifyInst.mpr <| .single (h .quiet trivial) (.mapInst (hcore _))

theorem within_persist : Within (Footprint C allowed) (persist (σ := σ)) := fun _ =>
  wlp_persist.mpr <| .single (h .save trivial) .save

theorem within_now : Within (Footprint C allowed) (now C) := fun _ =>
  wlp_now.mpr <| .single (h .clock trivial) .clock

theorem within_monotonic : Within (Footprint C allowed) (monotonic C) := fun c =>
  wlp_monotonic.mpr <| .single (h .quiet trivial) (.withEnv c _)

theorem within_sleep (seconds : ℚ) : Within (Footprint C allowed) (sleep C seconds) := fun c =>
  wlp_sleep.mpr <| .single (h .quiet trivial) (.withEnv c _)

theorem within_resolveDriver : Within (Footprint C allowed) (resolveDriver C) := by
  intro c
  have hstep : Footprint C allowed c
      ((c.withEnv (C.environment.resolve c.env).2).note .resolve) :=
    .single (h .quiet trivial) (.quiet c.inst c.override [.resolve] _ (.refl _) (by
      intro effect heffect
      rw [List.mem_singleton.mp heffect]
      trivial))
  exact wlp_resolveDriver.mpr ⟨fun _ => hstep, fun _ _ => hstep⟩

omit h in
theorem within_declaration : Within (Footprint C allowed) (declaration C) := fun _ =>
  wlp_declaration.mpr ⟨fun _ _ => .refl, fun _ _ => .refl⟩

omit h in
theorem within_callDriver {call : InstanceState → σ → Reply σ α} {effect : InstanceState → Effect}
    (hcall : ∀ c : Cell σ,
      Footprint C allowed c (c.afterCall effect (call c.inst c.env))) :
    Within (Footprint C allowed) (callDriver call effect) := fun c =>
  wlp_callDriver.mpr ⟨fun _ _ => hcall c, fun _ _ => hcall c⟩

theorem within_driverStatus (d : Declaration) :
    Within (Footprint C allowed) (driverStatus C d) :=
  within_callDriver fun _ => .single (h .quiet trivial) (.afterCall _ trivial)

theorem within_driverIsReady (d : Declaration) (readiness : Readiness) :
    Within (Footprint C allowed) (driverIsReady C d readiness) :=
  within_callDriver fun _ => .single (h .quiet trivial) (.afterCall _ trivial)

theorem within_driverRunMaintenance (d : Declaration) (job : Job) :
    Within (Footprint C allowed) (driverRunMaintenance C d job) :=
  within_callDriver fun _ => .single (h .quiet trivial) (.afterCall _ trivial)

theorem within_cleanupStop (d : Declaration) :
    Within (Footprint C allowed) (driverStop C true d) :=
  within_callDriver fun _ => .single (h .quiet trivial) (.afterCall _ trivial)

omit h in
theorem within_driverStart (hstart : allowed .start) (d : Declaration) :
    Within (Footprint C allowed) (driverStart C d) :=
  within_callDriver fun _ => .single hstart (.start _)

omit h in
theorem within_modifyJobs (hjobs : allowed .jobs) (f : Finset String → Finset String) :
    Within (Footprint C allowed)
      (modify (m := Prog σ) fun c => { c with jobsRunning := f c.jobsRunning }) := fun _ =>
  wlp_modifyJobs.mpr <| .single hjobs (.jobs f)

theorem within_dropHold {reason : String} (hdrop : allowed (.dropHold reason)) :
    Within (Footprint C allowed) (do
      modifyInst (σ := σ) fun inst => { inst with holds := inst.holds.pop reason }
      persist) :=
  within_bind (fun _ => wlp_modifyInst.mpr <| .single hdrop (.dropHold reason)) fun _ =>
    within_persist h

theorem within_addHold {reason : String} (hadd : allowed (.addHold reason)) :
    Within (Footprint C allowed) (addHold (σ := σ) reason) :=
  within_bind (fun _ => wlp_modifyInst.mpr <| .single hadd (.addHold reason)) fun _ =>
    within_persist h

theorem within_removeHold {reason : String} (hremove : allowed (.removeHold reason)) :
    Within (Footprint C allowed) (removeHold (σ := σ) reason) :=
  within_bind (fun _ => wlp_modifyInst.mpr <| .single hremove (.removeHold reason)) fun _ =>
    within_persist h

theorem within_scheduleIdleLocked : Within (Footprint C allowed) (scheduleIdleLocked C) :=
  within_bind within_get fun _ =>
    within_ite (fun _ => within_pure _) fun _ =>
      within_ite (fun _ => within_pure _) fun _ =>
        within_bind (within_now h) fun _ =>
          within_bind (within_ofExcept _) fun _ =>
            within_bind (within_modifyInst h fun _ => ⟨rfl, rfl, rfl, rfl, rfl, rfl⟩) fun _ =>
              within_persist h

theorem within_awaitReady {d : Declaration} {readiness : Readiness} {timeout : ℕ} {deadline : ℚ}
    (fuel : ℕ) :
    Within (Footprint C allowed) (awaitReady C d readiness timeout deadline fuel) := by
  induction fuel with
  | zero => exact within_diverge
  | succ fuel ih =>
      exact within_bind (within_driverIsReady h _ _) fun _ =>
        within_ite (fun _ => within_pure _) fun _ =>
          within_bind (within_monotonic h) fun _ =>
            within_ite (fun _ => within_throw _) fun _ =>
              within_bind (within_monotonic h) fun _ =>
                within_bind (within_sleep h _) fun _ => ih

theorem within_cleanUp {d : Declaration} : Within (Footprint C allowed) (cleanUp C d) := by
  exact within_bind (within_driverStatus h d) fun _ =>
    within_ite (fun _ => within_cleanupStop h d) fun _ => within_pure _

end Primitives

/-! ## Transitions -/

section Transitions

variable {allowed : Touch → Prop} (h : Touch.moving ≤ allowed)
include h

/-- A transition moves, reads the clock, writes the journal and saves. -/
theorem footprint_moved {c : Cell σ} {newState : LifecycleState} {reason : String}
    {error : Option String} (hvalid : newState ∈ transitions c.inst.state) :
    Footprint C allowed c (c.moved C newState reason error) :=
  .cons (h .move trivial) (.move newState hvalid) <|
    .cons (h .clock trivial) .clock <|
      .cons (h .quiet trivial) (.note (show (Effect.journal _).Quiet from trivial)) <|
        .single (h .save trivial) .save

theorem within_transition {newState : LifecycleState} {reason : String} {error : Option String} :
    Within (Footprint C allowed) (transition C newState reason error) := fun _ =>
  wlp_transition.mpr ⟨footprint_moved h, fun _ _ => .refl⟩

theorem within_markFailedLocked {error reason : String} :
    Within (Footprint C allowed) (markFailedLocked C error reason) :=
  within_bind within_get fun _ =>
    within_bind (within_whenever fun _ => within_transition h) fun _ =>
      within_bind (within_modifyInst (Touch.observing_le_moving.trans h)
        fun _ => ⟨rfl, rfl, rfl, rfl, rfl, rfl⟩) fun _ =>
        within_persist (Touch.observing_le_moving.trans h)

theorem within_adopt : Within (Footprint C allowed) (adopt C) :=
  within_bind (within_transition h) fun _ =>
    within_bind (within_transition h) fun _ => within_transition h

omit h in
/-- Moving through the lifecycle graph leaves the holds alone. -/
theorem holds_of_moving {c c' : Cell σ} (hfoot : Footprint C Touch.moving c c') :
    c'.inst.holds = c.inst.holds := by
  refine hfoot.closed (P := fun c' => c'.inst.holds = c.inst.holds)
    (fun l s s' hl hstep hP => ?_) rfl
  cases hstep with
  | quiet inst override effects env hcore hquiet => exact hcore.holds.trans hP
  | clock | save | move => exact hP
  | _ => exact False.elim hl

/-- `_stop_locked` calls the driver only where no hold is left. -/
theorem footprint_stopLocked (hstop : allowed .stop) {reason : String} {c : Cell σ}
    (hholds : c.inst.activeHolds = 0) :
    wlp (stopLocked C reason) (fun _ => Footprint C allowed c) (fun _ => Footprint C allowed c)
      c := by
  have hobserving := Touch.observing_le_moving.trans h
  refine wlp_bind.mpr <| wlp_get.mpr <| wlp_ite.mpr ⟨fun _ => within_persist hobserving c,
    fun _ => wlp_ite.mpr ⟨fun _ => within_transition h c,
      fun _ => wlp_ite.mpr ⟨fun _ => .refl, fun _ => ?_⟩⟩⟩
  refine wlp_bind.mpr <| wlp_mono (within_transition (le_refl Touch.moving) c) (fun _ c₁ h₁ => ?_)
    fun _ _ h' => h'.mono h
  refine wlp_tryCatch.mpr <| wlp_mono (Q := fun _ => Footprint C allowed c)
    (X := fun _ => Footprint C allowed c) ?_ (fun _ _ h' => h') fun e c' h' =>
      (within_bind (within_markFailedLocked h) fun _ => within_throw e).wlp_from h'
  -- between the check of the holds and the driver call nothing touches them
  refine wlp_bind.mpr <| wlp_mono
    ((within_resolveDriver Touch.observing_le_moving).wlp_from h₁) (fun _ c₂ h₂ => ?_)
    fun _ _ h' => h'.mono h
  refine wlp_bind.mpr <| wlp_declaration.mpr ⟨fun d _ => ?_, fun _ _ => h₂.mono h⟩
  have h₃ : ∀ reply : Reply σ Unit, Footprint C allowed c (c₂.afterCall (.stop false) reply) :=
    fun reply => (h₂.mono h).trans <| Steps.single hstop <| .stop reply <| by
      unfold InstanceState.activeHolds at hholds ⊢
      rwa [holds_of_moving h₂]
  refine wlp_bind.mpr <| wlp_callDriver.mpr ⟨fun _ _ => ?_, fun _ _ => h₃ _⟩
  refine Within.wlp_from (R := Footprint C allowed) ?_ (h₃ _)
  exact within_bind (within_transition h) fun _ =>
    within_bind (within_now hobserving) fun _ =>
      within_bind (within_modifyInst hobserving fun _ => ⟨rfl, rfl, rfl, rfl, rfl, rfl⟩) fun _ =>
        within_persist hobserving

end Transitions

/-! ## Starting and recovering -/

section Recovering

variable {allowed : Touch → Prop} (h : Touch.recovering ≤ allowed)
include h

theorem within_popRecovery :
    Within (Footprint C allowed) (do
      modifyInst (σ := σ) fun inst => { inst with holds := inst.holds.pop "recovery" }
      persist) :=
  within_dropHold (Touch.observing_le_recovering.trans h)
    (h (.dropHold "recovery") rfl)

theorem within_restartAfterFailureLocked {ensureRunning : Prog σ Unit}
    (hensure : Within (Footprint C allowed) ensureRunning) :
    Within (Footprint C allowed) (restartAfterFailureLocked C ensureRunning) := by
  intro c
  refine wlp_bind.mpr <| wlp_get.mpr <| wlp_ite.mpr ⟨fun _ => .refl, fun _ => ?_⟩
  have hclock : Footprint C allowed c (c.afterClock C) := .single (h .clock trivial) .clock
  refine wlp_bind.mpr <| wlp_now.mpr <| wlp_bind.mpr <| wlp_ofExcept.mpr
    ⟨fun prior hprior => ?_, fun _ _ => hclock⟩
  simp only [lifecycle_restartWindowSeconds] at hprior
  refine wlp_bind.mpr <| wlp_modifyInst.mpr ?_
  have hprune := Relation.ReflTransGen.trans hclock
    (Steps.single (h .prune trivial) (.prune _ prior rfl hprior))
  refine wlp_ite.mpr ⟨fun _ => ?_, fun hroom => ?_⟩
  · refine wlp_bind.mpr <| wlp_modifyInst.mpr <| wlp_bind.mpr <| wlp_persist.mpr <|
      wlp_throw.mpr ?_
    exact hprune.trans <| Steps.cons (h .exhaust trivial) (.exhaust _) <|
      Steps.single (h .save trivial) .save
  · simp only [lifecycle_maxRestarts, not_le] at hroom
    refine wlp_bind.mpr <| wlp_modifyInst.mpr <| wlp_bind.mpr <| wlp_record.mpr ?_
    have hattempt := Relation.ReflTransGen.trans hprune
      (Steps.single (h .attempt trivial) (.attempt _ rfl hroom))
    refine wlp_bind.mpr <| wlp_ofExcept.mpr ⟨fun nextRestart _ => ?_, fun _ _ => hattempt⟩
    refine wlp_bind.mpr <| wlp_modifyInst.mpr <| wlp_bind.mpr <| wlp_persist.mpr ?_
    have hsaved := Relation.ReflTransGen.trans hattempt
      (Steps.cons (h .nextRestart trivial) (.nextRestart nextRestart rfl) <|
        Steps.single (h .save trivial) .save)
    refine (within_whenever fun _ => within_bind hensure fun _ => ?_).wlp_from hsaved
    exact within_bind within_get fun _ => within_whenever fun _ => within_popRecovery h

theorem within_startAttempt {d : Declaration} {reason : String} (fuel : ℕ) :
    Within (Footprint C allowed) (startAttempt C fuel d reason) := by
  have hmoving := Touch.moving_le_recovering.trans h
  have hobserving := Touch.observing_le_recovering.trans h
  exact within_bind (within_driverStart (h .start trivial) d) fun _ =>
    within_bind within_get fun _ =>
      within_bind (within_monotonic hobserving) fun _ =>
        within_bind (within_awaitReady hobserving fuel) fun _ =>
          within_bind (within_transition hmoving) fun _ =>
            within_bind (within_transition hmoving) fun _ =>
              within_bind (within_now hobserving) fun started =>
                within_bind (fun _ => wlp_modifyInst.mpr <|
                  .single (h .recovered trivial) (.recovered started)) fun _ =>
                    within_persist hobserving

omit h in
/-- Only callers that come or go, and a forced stop, touch the sessions. -/
theorem sessions_of_footprint {c c' : Cell σ}
    (hkeeps : ∀ t, allowed t → t ∉ [Touch.attach, .detach, .clear])
    (hfoot : Footprint C allowed c c') : c'.inst.sessions = c.inst.sessions := by
  refine hfoot.closed (P := fun c' => c'.inst.sessions = c.inst.sessions)
    (fun l s s' hl hstep hP => ?_) rfl
  cases hstep with
  | quiet inst override effects env hcore hquiet => exact hcore.sessions.trans hP
  | attach | detach | clear => exact absurd (hkeeps _ hl) (by simp)
  | _ => exact hP

omit h in
/-- Starting and recovering leave the sessions alone. -/
theorem sessions_of_recovering {c c' : Cell σ} (hfoot : Footprint C Touch.recovering c c') :
    c'.inst.sessions = c.inst.sessions := by
  refine sessions_of_footprint (fun t ht hmem => ?_) hfoot
  simp only [List.mem_cons, List.not_mem_nil, or_false] at hmem
  rcases hmem with rfl | rfl | rfl <;> exact ht

theorem within_ensureNested (fuel depth : ℕ) (reason : String) :
    Within (Footprint C allowed) (ensureNested C fuel depth reason) := by
  have hmoving := Touch.moving_le_recovering.trans h
  have hobserving := Touch.observing_le_recovering.trans h
  -- the recursion of the source: a failed attempt ensures that the service runs once more
  induction depth generalizing reason with
  | zero => exact within_throw _
  | succ depth ih =>
      exact within_bind within_get fun _ =>
        within_ite (fun _ => within_pure _) fun _ =>
          within_ite (fun _ => within_throw _) fun _ =>
            within_bind within_declaration fun _ =>
              within_bind (within_resolveDriver hobserving) fun _ =>
                within_bind (within_transition hmoving) fun _ =>
                  within_tryCatch (within_startAttempt h fuel) fun exc =>
                    within_bind (within_tryCatch (within_cleanUp hobserving) fun _ => within_pure _)
                      fun _ =>
                        within_bind (within_markFailedLocked hmoving) fun _ =>
                          within_bind (within_restartAfterFailureLocked h (ih "recovery"))
                            fun _ =>
                              within_bind within_get fun _ =>
                                within_whenever fun _ => within_throw exc

theorem within_ensureRunningLocked (fuel : ℕ) (reason : String) :
    Within (Footprint C allowed) (ensureRunningLocked C fuel reason) :=
  within_ensureNested h fuel _ reason

end Recovering

/-! ## Operations -/

section Operations

variable {allowed : Touch → Prop}

theorem footprint_startHold (h : Touch.observing ≤ allowed) {reason : String} {c : Cell σ}
    (hadd : allowed (.addHold reason))
    (hreset : reason = "admin" → c.inst.state = .failed → allowed .resetBudget) :
    wlp (startHold reason) (fun _ => Footprint C allowed c) (fun _ => Footprint C allowed c)
      c := by
  refine wlp_ite.mpr ⟨fun hadmin => ?_, fun _ =>
    (within_bind within_get fun _ => within_whenever fun _ => within_addHold h hadd) c⟩
  refine wlp_bind.mpr <| wlp_modifyInst.mpr <| wlp_bind.mpr <| wlp_modifyInst.mpr ?_
  have hintent : Footprint C allowed c (c.mapInst fun inst => { inst with adminIntent := true }) :=
    .single (h .quiet trivial) (.mapInst ⟨rfl, rfl, rfl, rfl, rfl, rfl⟩)
  refine (within_bind within_get fun _ =>
    within_whenever fun _ => within_addHold h (hadmin ▸ hadd)).wlp_from ?_
  -- the budget is reset only for a failed instance
  have hbudget : ∀ c₁ : Cell σ, c₁.inst.state = c.inst.state →
      Footprint C allowed c₁ (c₁.mapInst fun inst =>
        if inst.state = .failed then { inst with restartExhausted := false, restartTimes := [] }
        else inst) := by
    intro c₁ hstate
    by_cases hfailed : c₁.inst.state = .failed
    · simp only [Cell.mapInst, if_pos hfailed]
      exact .single (hreset hadmin (hstate ▸ hfailed)) (.resetBudget hfailed)
    · simp only [Cell.mapInst, if_neg hfailed]
      exact .refl
  exact hintent.trans (hbudget _ rfl)

theorem footprint_start (h : Touch.recovering ≤ allowed) {reason : String} {c : Cell σ}
    (hadd : allowed (.addHold reason))
    (hreset : reason = "admin" → c.inst.state = .failed → allowed .resetBudget) (fuel : ℕ) :
    wlp (start C fuel reason) (fun _ => Footprint C allowed c) (fun _ => Footprint C allowed c)
      c :=
  wlp_bind.mpr <| wlp_mono
    (footprint_startHold (Touch.observing_le_recovering.trans h) hadd hreset)
    (fun _ _ h' => (within_bind (within_ensureRunningLocked h fuel reason) fun _ =>
      within_bind within_get fun _ => within_pure _).wlp_from h')
    fun _ _ h' => h'

theorem within_notifyFailure (h : Touch.recovering ≤ allowed) (fuel : ℕ) (error : String) :
    Within (Footprint C allowed) (notifyFailure C fuel error) :=
  within_bind (within_markFailedLocked (Touch.moving_le_recovering.trans h)) fun _ =>
    within_bind (within_restartAfterFailureLocked h (within_ensureRunningLocked h fuel _)) fun _ =>
      within_bind within_get fun _ => within_pure _

/-- `stop` stops only what nothing holds, or what it has just cleared by force. -/
theorem within_stop (h : Touch.moving ≤ allowed) (hstop : allowed .stop)
    {force : Bool} {reason : String}
    (hdrop : reason = "admin" → allowed (.dropHold "admin"))
    (hclear : force = true → allowed .clear) :
    Within (Footprint C allowed) (stop C force reason) := by
  have hobserving := Touch.observing_le_moving.trans h
  intro c
  -- the instance after the two optional changes, and the way there
  have hforced : ∀ c₁ : Cell σ, Footprint C allowed c c₁ →
      (force = true → c₁.inst.holds = ∅) →
      wlp (do
        let c ← get
        whenever (c.inst.activeHolds ≠ 0 ∧ force = false) do
          throw ⟨.serviceBusyError,
            s!"service {C.service.id} has active holds: {reprHolds c.inst.holds}"⟩
        stopLocked C reason
        let c ← get
        return c.inst.toDict false) (fun _ => Footprint C allowed c)
        (fun _ => Footprint C allowed c) c₁ := by
    intro c₁ h₁ hempty
    refine wlp_bind.mpr <| wlp_get.mpr <| wlp_bind.mpr <| wlp_whenever.mpr
      ⟨fun _ => wlp_throw.mpr h₁, fun hno => ?_⟩
    have hholds : c₁.inst.activeHolds = 0 := by
      by_cases hforce : force = true
      · simp [InstanceState.activeHolds, hempty hforce]
      · simpa [hforce] using hno
    refine wlp_bind.mpr <| wlp_mono (footprint_stopLocked h hstop hholds) (fun _ c₂ h₂ => ?_)
      fun _ _ h₂ => h₁.trans h₂
    exact wlp_bind.mpr <| wlp_get.mpr <| wlp_pure.mpr <| h₁.trans h₂
  have hclearing : ∀ c₁ : Cell σ, Footprint C allowed c c₁ →
      wlp (whenever (force = true) do
        modifyInst (σ := σ) fun inst => { inst with holds := ∅, sessions := ∅ })
        (fun _ c₂ => Footprint C allowed c c₂ ∧ (force = true → c₂.inst.holds = ∅))
        (fun _ => Footprint C allowed c) c₁ := fun c₁ h₁ =>
    wlp_whenever.mpr ⟨fun hforce => wlp_modifyInst.mpr
      ⟨h₁.trans <| Steps.single (hclear hforce) .clear, fun _ => rfl⟩,
      fun hforce => ⟨h₁, fun h' => absurd h' hforce⟩⟩
  have hintent : wlp (whenever (reason = "admin") do
      modifyInst (σ := σ) fun inst =>
        { inst with adminIntent := false, holds := inst.holds.pop "admin" })
      (fun _ => Footprint C allowed c) (fun _ => Footprint C allowed c) c :=
    wlp_whenever.mpr ⟨fun hadmin => wlp_modifyInst.mpr <|
      Steps.cons (hobserving .quiet trivial)
        (.mapInst (f := fun inst => { inst with adminIntent := false })
          ⟨rfl, rfl, rfl, rfl, rfl, rfl⟩) <|
        Steps.single (hdrop hadmin) (.dropHold "admin"), fun _ => .refl⟩
  exact wlp_bind.mpr <| wlp_mono hintent
    (fun _ c₁ h₁ => wlp_bind.mpr <| wlp_mono (hclearing c₁ h₁)
      (fun _ c₂ h₂ => hforced c₂ h₂.1 h₂.2) fun _ _ h' => h')
    fun _ _ h' => h'

/-- Acquiring a session under a fresh id. -/
theorem footprint_acquireSession (h : Touch.recovering ≤ allowed) (hattach : allowed .attach)
    (hdetach : allowed .detach) (fuel : ℕ) {sessionId : String} {c : Cell σ}
    (hfresh : c.inst.sessions.get? sessionId = none) :
    wlp (acquireSession C fuel sessionId) (fun _ => Footprint C allowed c)
      (fun _ => Footprint C allowed c) c := by
  refine wlp_bind.mpr <| wlp_get.mpr <| wlp_bind.mpr <| wlp_whenever.mpr
    ⟨fun _ => wlp_throw.mpr .refl, fun hsingle => ?_⟩
  refine wlp_bind.mpr <| wlp_now.mpr <| wlp_bind.mpr <| wlp_modifyInst.mpr <|
    wlp_bind.mpr <| wlp_bind.mpr <| wlp_modifyInst.mpr <| wlp_persist.mpr ?_
  rw [lifecycle_sharing, not_and, not_not] at hsingle
  have hattached := Steps.cons (h .clock trivial) (Touches.clock (C := C) (c := c)) <|
    Steps.cons hattach (.attach sessionId (C.environment.now c.env).1 hfresh hsingle) <|
      Steps.single (h .save trivial) .save
  refine wlp_bind.mpr <| wlp_tryCatch.mpr <| wlp_mono
    (wlp_and (within_ensureRunningLocked (le_refl Touch.recovering) fuel "session" _)
      ((within_ensureRunningLocked h fuel "session").wlp_from hattached))
    (fun _ _ h' => wlp_pure.mpr h'.2) fun e c' h' => ?_
  -- ensuring that the service runs leaves the sessions alone
  have hknown : c'.inst.sessions.get? sessionId ≠ none := by
    rw [sessions_of_recovering h'.1]
    simp
  refine wlp_bind.mpr <| wlp_modifyInst.mpr <| wlp_bind.mpr <| wlp_bind.mpr <|
    wlp_modifyInst.mpr <| wlp_persist.mpr <| wlp_throw.mpr ?_
  exact h'.2.trans <| Steps.cons hdetach (.detach sessionId hknown) <|
    Steps.single (h .save trivial) .save

theorem within_releaseSession (h : Touch.observing ≤ allowed) (hdetach : allowed .detach)
    (sessionId : String) : Within (Footprint C allowed) (releaseSession C sessionId) := by
  intro c
  refine wlp_bind.mpr <| wlp_get.mpr <| wlp_ite.mpr ⟨fun _ => wlp_throw.mpr .refl,
    fun hknown => ?_⟩
  refine wlp_bind.mpr <| wlp_modifyInst.mpr <| wlp_bind.mpr <| wlp_bind.mpr <|
    wlp_modifyInst.mpr <| wlp_persist.mpr ?_
  have hdetached := Steps.cons hdetach (Touches.detach (C := C) sessionId hknown) <|
    Steps.single (h .save trivial) .save
  exact (within_bind (within_scheduleIdleLocked h) fun _ =>
    within_bind within_get fun _ => within_pure _).wlp_from hdetached

theorem within_beginMaintenance (h : Touch.recovering ≤ allowed)
    (hadd : allowed (.addHold "maintenance")) (hremove : allowed (.removeHold "maintenance"))
    (hjobs : allowed .jobs) (fuel : ℕ) (job : Job) :
    Within (Footprint C allowed) (beginMaintenance C fuel job) :=
  within_bind within_get fun _ =>
    within_ite (fun _ => within_throw _) fun _ =>
      within_bind (within_modifyJobs hjobs (insert job.name)) fun _ =>
        within_ite
          (fun _ => within_bind (within_modifyJobs hjobs (Finset.erase · job.name)) fun _ =>
            within_throw _)
          fun _ =>
            within_bind (within_addHold (Touch.observing_le_recovering.trans h) hadd) fun _ =>
              within_bind
                (within_tryCatch
                  (within_bind (within_ensureRunningLocked h fuel _) fun _ =>
                    within_transition (Touch.moving_le_recovering.trans h))
                  fun exc => within_bind
                    (within_removeHold (Touch.observing_le_recovering.trans h) hremove) fun _ =>
                      within_bind (within_modifyJobs hjobs (Finset.erase · job.name)) fun _ =>
                        within_throw exc)
                fun _ => within_pure _

theorem within_callMaintenance (h : Touch.observing ≤ allowed) (job : Job) :
    Within (Footprint C allowed) (callMaintenance C job) :=
  within_tryCatch
    (within_bind (within_resolveDriver h) fun _ =>
      within_bind within_declaration fun d =>
        within_bind (within_driverRunMaintenance h d job) fun _ => within_pure _)
    fun _ => within_pure _

theorem within_finishMaintenance (h : Touch.recovering ≤ allowed) (hstop : allowed .stop)
    (hremove : allowed (.removeHold "maintenance")) (hjobs : allowed .jobs) (fuel : ℕ) (job : Job)
    (wasActive : Bool) (outcome : Except String Archive.Fields) :
    Within (Footprint C allowed) (finishMaintenance C fuel job wasActive outcome) := by
  have hmoving := Touch.moving_le_recovering.trans h
  have hobserving := Touch.observing_le_recovering.trans h
  refine within_bind (within_now hobserving) fun _ =>
    within_bind (within_modifyInst hobserving fun _ => ⟨rfl, rfl, rfl, rfl, rfl, rfl⟩) fun _ =>
      within_bind ?_ fun _ => within_bind (within_removeHold hobserving hremove) fun _ =>
        within_bind (within_modifyJobs hjobs (Finset.erase · job.name)) fun _ => ?_
  · cases outcome with
    | ok result => exact within_transition hmoving
    | error message => exact within_markFailedLocked hmoving
  · cases outcome with
    | ok result =>
        intro c
        refine wlp_bind.mpr <| wlp_get.mpr <| wlp_ite.mpr ⟨fun hstopping => ?_, fun _ => ?_⟩
        · exact wlp_bind.mpr <| wlp_mono (footprint_stopLocked hmoving hstop hstopping.2.2)
            (fun _ _ h' => wlp_pure.mpr h') fun _ _ h' => h'
        · exact within_bind (within_scheduleIdleLocked hobserving) (fun _ => within_pure _) c
    | error message =>
        exact within_bind (within_restartAfterFailureLocked h
          (within_ensureRunningLocked h fuel _)) fun _ => within_throw _

theorem within_reconcileHolds
    (hpin : ∀ reason ∈ ["always_on", "admin"], allowed (.pinHold reason))
    (hdrop : allowed (.dropHold "always_on")) :
    Within (Footprint C allowed) (reconcileHolds C) := by
  intro c
  refine wlp_bind.mpr <| wlp_get.mpr <| wlp_bind.mpr <| wlp_modifyInst.mpr ?_
  have hmode : Footprint C allowed c (c.mapInst fun inst =>
      { inst with
        holds :=
          if (C.lifecycle c).mode = .alwaysOn then inst.holds.set "always_on" 1
          else inst.holds.pop "always_on" }) := by
    by_cases hmode : (C.lifecycle c).mode = .alwaysOn
    · simp only [if_pos hmode]
      exact .single (hpin "always_on" (by simp)) (.pinHold _)
    · simp only [if_neg hmode]
      exact .single hdrop (.dropHold _)
  exact wlp_whenever.mpr ⟨fun _ => wlp_modifyInst.mpr <| hmode.trans <|
    Steps.single (hpin "admin" (by simp)) (.pinHold _), fun _ => hmode⟩

theorem within_reconcileLook (h : Touch.observing ≤ allowed)
    (hpin : ∀ reason ∈ ["always_on", "admin"], allowed (.pinHold reason))
    (hdrop : allowed (.dropHold "always_on")) :
    Within (Footprint C allowed) (reconcileLook C) :=
  within_bind (within_reconcileHolds hpin hdrop) fun _ =>
    within_bind (within_resolveDriver h) fun _ =>
      within_bind within_declaration fun d => within_driverStatus h d

theorem within_reconcileState (h : Touch.recovering ≤ allowed) (fuel : ℕ) (alive : Bool) :
    Within (Footprint C allowed) (reconcileState C fuel alive) := by
  have hmoving := Touch.moving_le_recovering.trans h
  have htransition : ∀ newState reason error,
      Within (Footprint C allowed) (transition C newState reason error) :=
    fun _ _ _ => within_transition hmoving
  refine within_bind within_get fun c => within_ite (fun _ => ?_) fun _ => ?_
  · -- a stale state is adopted or reset
    refine within_ite (fun _ => htransition _ _ _) fun _ => within_ite (fun _ => ?_) fun _ => ?_
    · exact within_bind (within_whenever fun _ => htransition _ _ _) fun _ => htransition _ _ _
    · exact within_bind (within_markFailedLocked hmoving) fun _ => htransition _ _ _
  · refine within_ite (fun _ => ?_) fun _ => ?_
    · -- the runtime is gone
      refine within_bind (within_markFailedLocked hmoving) fun _ =>
        within_bind within_get fun _ => within_ite (fun _ => ?_) fun _ => htransition _ _ _
      exact within_restartAfterFailureLocked h (within_ensureRunningLocked h fuel _)
    · exact within_ite (fun _ => htransition _ _ _) fun _ =>
        within_ite (fun _ => within_adopt hmoving) fun _ => within_pure _

theorem within_reconcileStart (h : Touch.recovering ≤ allowed) (fuel : ℕ) :
    Within (Footprint C allowed) (reconcileStart C fuel) := by
  refine within_bind within_get fun c => within_ite (fun _ => within_ensureRunningLocked h fuel _)
    fun _ => within_ite (fun _ => ?_) fun _ => within_pure _
  cases parseTimestamp c.inst.nextRestartAt with
  | none => exact within_ensureRunningLocked h fuel _
  | some eligible =>
      exact within_bind (within_now (Touch.observing_le_recovering.trans h)) fun _ =>
        within_whenever fun _ => within_ensureRunningLocked h fuel _

theorem within_reconcileConverge (h : Touch.recovering ≤ allowed) (fuel : ℕ) (alive : Bool) :
    Within (Footprint C allowed) (reconcileConverge C fuel alive) := by
  have hobserving := Touch.observing_le_recovering.trans h
  exact within_bind (within_reconcileState h fuel alive) fun _ =>
    within_bind within_get fun _ =>
      within_bind (within_whenever fun _ =>
        within_adopt (Touch.moving_le_recovering.trans h)) fun _ =>
          within_bind (within_reconcileStart h fuel) fun _ =>
            within_bind (within_scheduleIdleLocked hobserving) fun _ =>
              within_persist hobserving

theorem within_reconcileLocked (h : Touch.recovering ≤ allowed)
    (hpin : ∀ reason ∈ ["always_on", "admin"], allowed (.pinHold reason))
    (hdrop : allowed (.dropHold "always_on")) (fuel : ℕ) :
    Within (Footprint C allowed) (reconcileLocked C fuel) := fun c =>
  (wlp_reconcileLocked C).mpr <| within_bind
    (within_reconcileLook (Touch.observing_le_recovering.trans h) hpin hdrop)
    (fun alive => within_reconcileConverge h fuel alive) c |> wlp_bind.mp

theorem within_tickIdle (h : Touch.moving ≤ allowed) (hstop : allowed .stop) (now : DateTime) :
    Within (Footprint C allowed) (tickIdle C now) := by
  intro c
  refine wlp_bind.mpr <| wlp_get.mpr ?_
  cases parseTimestamp c.inst.idleDeadline with
  | none => exact wlp_pure.mpr .refl
  | some deadline =>
      exact wlp_whenever.mpr ⟨fun hdue => footprint_stopLocked h hstop hdue.2.1, fun _ => .refl⟩

theorem within_tickRestart (h : Touch.recovering ≤ allowed) (fuel : ℕ) (now : DateTime) :
    Within (Footprint C allowed) (tickRestart C fuel now) := by
  refine within_bind within_get fun c => ?_
  cases parseTimestamp c.inst.nextRestartAt with
  | none => exact within_pure _
  | some nextRestart =>
      exact within_whenever fun _ =>
        within_bind (within_ensureRunningLocked h fuel _) fun _ =>
          within_bind within_get fun _ => within_whenever fun _ => within_popRecovery h

theorem within_tickJobs (h : Touch.observing ≤ allowed) (now : DateTime) (jobs : List Job) :
    Within (Footprint C allowed) (tickJobs (σ := σ) now jobs) := by
  induction jobs with
  | nil => exact within_pure _
  | cons job rest ih =>
      refine within_bind within_get fun _ => within_bind (within_ofExcept _) fun _ =>
        within_ite (fun _ => ?_) fun _ => ih
      exact within_bind (within_modifyInst h fun _ => ⟨rfl, rfl, rfl, rfl, rfl, rfl⟩) fun _ =>
        within_bind (within_persist h) fun _ => within_bind ih fun _ => within_pure _

theorem within_tickLocked (h : Touch.recovering ≤ allowed) (hstop : allowed .stop) (fuel : ℕ)
    (now : DateTime) : Within (Footprint C allowed) (tickLocked C fuel now) :=
  within_bind (within_tickIdle (Touch.moving_le_recovering.trans h) hstop now) fun _ =>
    within_bind (within_tickRestart h fuel now) fun _ =>
      within_tickJobs (Touch.observing_le_recovering.trans h) now _

theorem within_setLifecycleMode (h : Touch.observing ≤ allowed) (mode : Mode) :
    Within (Footprint C allowed) (setLifecycleMode (σ := σ) mode) := fun c =>
  wlp_modify.mpr <| Steps.single (h .quiet trivial) <|
    .quiet c.inst (some mode) [] c.env (.refl _) (by simp)

end Operations

end UltimateBBSBox.Supervisor
