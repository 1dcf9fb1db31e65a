import UltimateBBSBox.Supervisor.Accounting
import UltimateBBSBox.Supervisor.Stack
import UltimateBBSBox.Supervisor.Starting

/-!
# The recovery hold

A `recovery` hold stands for a restart that is pending: the instance is failed
and `next_restart_at` is set.  It is installed in one place, but only the
restart of `tick` and the immediate restart without backoff drop it again.
Wherever another section brings the service back while the hold is there, the
hold is left on a running service, which then neither idles nor stops.

`KeepsRecovery` says that a section does not do that.  Along runs of such
sections the invariant holds.
-/

namespace UltimateBBSBox.Supervisor

open Act

variable {σ : Type} (C : Context σ)

/-! ## The invariant -/

/-- A `recovery` hold belongs to a failed instance with a restart pending. -/
def Settled (c : Cell σ) : Prop :=
  AttemptsFit C c.log → c.inst.Recovering →
    c.inst.state = .failed ∧ c.inst.nextRestartAt ≠ none

/-- There is no `recovery` hold. -/
def Clear (c : Cell σ) : Prop := AttemptsFit C c.log → ¬ c.inst.Recovering

/-- The first attempt to start the service does not succeed while the hold is there. -/
def Unrevived (c : Cell σ) : Prop := c.inst.Recovering → ¬ Revives C c

section Invariant

variable {C} {c c' : Cell σ}

theorem Clear.settled (h : Clear C c) : Settled C c := fun hfit hrecovering =>
  absurd hrecovering (h hfit)

theorem Settled.clear (h : Settled C c) (hstate : c.inst.state ≠ .failed) : Clear C c :=
  fun hfit hrecovering => hstate (h hfit hrecovering).1

theorem Settled.pending (h : Settled C c) : Pending C c := fun hfit hrecovering =>
  (h hfit hrecovering).2

theorem Pending.settled (h : Pending C c) (hfailed : c.inst.state = .failed) : Settled C c :=
  fun hfit hrecovering => ⟨hfailed, h hfit hrecovering⟩

theorem Clear.of_not_recovering (h : ¬ c.inst.Recovering) : Clear C c := fun _ => h

/-- Touches that neither move the instance nor install, drop or date a `recovery` hold. -/
def Touch.calm : Touch → Prop
  | .addHold reason | .removeHold reason | .dropHold reason | .pinHold reason =>
      reason ≠ "recovery"
  | .move | .exhaust | .attempt | .nextRestart | .recovered => False
  | _ => True

/-- Touches that do not install a `recovery` hold. -/
def Touch.clearing : Touch → Prop
  | .addHold reason | .removeHold reason | .pinHold reason => reason ≠ "recovery"
  | .attempt => False
  | _ => True

theorem Touch.moving_le_clearing : Touch.moving ≤ Touch.clearing := by
  intro t ht
  cases t <;> trivial

theorem Touch.observing_le_calm : Touch.observing ≤ Touch.calm := by
  intro t ht
  cases t <;> trivial

/-- What a change of another hold leaves. -/
theorem get?_recovery_withoutHold {inst : InstanceState} {reason : String}
    (hreason : reason ≠ "recovery") :
    (inst.withoutHold reason).holds.get? "recovery" = inst.holds.get? "recovery" := by
  simp only [InstanceState.withoutHold]
  split
  · exact Dict.get?_pop_ne _ hreason.symm
  · exact Dict.get?_set_ne _ _ hreason.symm

/-- Calm sections keep the state and the pending restart, and install no hold. -/
theorem of_calm (hfoot : Footprint C Touch.calm c c') :
    c'.inst.state = c.inst.state ∧ c'.inst.nextRestartAt = c.inst.nextRestartAt ∧
      (c'.inst.Recovering → c.inst.Recovering) := by
  refine hfoot.closed (P := fun c' => c'.inst.state = c.inst.state ∧
    c'.inst.nextRestartAt = c.inst.nextRestartAt ∧ (c'.inst.Recovering → c.inst.Recovering))
    (fun t c₁ c₂ ht hstep h => ?_) ⟨rfl, rfl, id⟩
  have hget : c₂.inst.holds.get? "recovery" = c₁.inst.holds.get? "recovery" →
      c₂.inst.Recovering → c.inst.Recovering := fun hget hrecovering => h.2.2 <| by
    unfold InstanceState.Recovering at hrecovering ⊢
    rwa [← hget]
  cases hstep with
  | quiet inst override effects env hcore hquiet =>
      exact ⟨hcore.state.trans h.1, hcore.nextRestartAt.trans h.2.1, hget (by rw [hcore.holds])⟩
  | addHold reason | pinHold reason =>
      exact ⟨h.1, h.2.1, hget (Dict.get?_set_ne _ _ (Ne.symm ht))⟩
  | removeHold reason => exact ⟨h.1, h.2.1, hget (get?_recovery_withoutHold ht)⟩
  | dropHold reason => exact ⟨h.1, h.2.1, hget (Dict.get?_pop_ne _ (Ne.symm ht))⟩
  | attach => exact ⟨h.1, h.2.1, hget (Dict.get?_set_ne _ _ (by decide))⟩
  | detach => exact ⟨h.1, h.2.1, hget (get?_recovery_withoutHold (by decide))⟩
  | clear => exact ⟨h.1, h.2.1, fun hrecovering => absurd rfl hrecovering⟩
  | move | exhaust | attempt | nextRestart | recovered => exact False.elim ht
  | _ => exact ⟨h.1, h.2.1, hget rfl⟩

theorem Settled.of_calm (h : Settled C c) (hfoot : Footprint C Touch.calm c c') :
    Settled C c' := by
  obtain ⟨hstate, hnext, hrecovering⟩ := Supervisor.of_calm hfoot
  intro hfit hrecovering'
  rw [hstate, hnext]
  exact h (hfit.of_suffix (suffix_of_footprint hfoot)) (hrecovering hrecovering')

theorem Clear.of_footprint (h : Clear C c) (hfoot : Footprint C Touch.clearing c c') :
    Clear C c' := by
  refine hfoot.closed (P := Clear C) (fun t c₁ c₂ ht hstep h => ?_) h
  have hget : c₂.inst.holds.get? "recovery" = c₁.inst.holds.get? "recovery" → Clear C c₂ := by
    intro hget hfit hrecovering
    have hstep' : Footprint C Touch.clearing c₁ c₂ := .single ht hstep
    refine h (hfit.of_suffix (suffix_of_footprint hstep')) ?_
    unfold InstanceState.Recovering at hrecovering ⊢
    rwa [← hget]
  cases hstep with
  | quiet inst override effects env hcore hquiet => exact hget (by rw [hcore.holds])
  | addHold reason | pinHold reason => exact hget (Dict.get?_set_ne _ _ (Ne.symm ht))
  | removeHold reason => exact hget (get?_recovery_withoutHold ht)
  | dropHold reason =>
      by_cases hreason : reason = "recovery"
      · exact .of_not_recovering (by simp [hreason, InstanceState.Recovering])
      · exact hget (Dict.get?_pop_ne _ (Ne.symm hreason))
  | attach => exact hget (Dict.get?_set_ne _ _ (by decide))
  | detach => exact hget (get?_recovery_withoutHold (by decide))
  | clear | exhaust => exact .of_not_recovering (by simp [InstanceState.Recovering])
  | attempt => exact False.elim ht
  | _ => exact hget rfl

/-! ## Starting, failing and stopping -/

/-- Ensuring that the service runs keeps the invariant, unless its first attempt
succeeds while a restart is pending. -/
theorem settled_ensureRunningLocked (h : Settled C c)
    (hunrevived : AttemptsFit C c.log → Unrevived C c) (fuel : ℕ) (reason : String) :
    wlp (ensureRunningLocked C fuel reason)
      (fun _ c' => Settled C c' ∧ c'.inst.state ∈ activeStates) (fun _ => Settled C) c := by
  refine wlp_mono (wlp_and (ensureRunningLocked_spec fuel reason c)
    (within_ensureRunningLocked (le_refl Touch.recovering) fuel reason c))
    (fun _ c' h' => ?_) fun e c' h' => ?_
  · rcases h'.1 with ⟨hactive, rfl⟩ | ⟨hstarted, hrevived⟩
    · exact ⟨h, hactive⟩
    · refine ⟨fun hfit hrecovering => ?_, by simp [hstarted.state, activeStates]⟩
      have hfit₀ := hfit.of_suffix (suffix_of_footprint h'.2)
      exact absurd (hrevived hrecovering).2 (hunrevived hfit₀ (hrevived hrecovering).1)
  · rcases h'.1.outcome with ⟨hcore, hlog⟩ | ⟨hfailed, hpending⟩
    · intro hfit hrecovering
      rw [hcore.state, hcore.nextRestartAt]
      refine h (hfit.of_suffix hlog) ?_
      unfold InstanceState.Recovering at hrecovering ⊢
      rwa [← hcore.holds]
    · exact (hpending h.pending).settled hfailed

/-- Marking as failed leaves a failed instance, or raises without having done anything. -/
theorem settled_markFailedLocked (h : Settled C c) (error reason : String) :
    wlp (markFailedLocked C error reason)
      (fun _ c' => c'.inst.state = .failed ∧ Pending C c') (fun _ => Settled C) c := by
  by_cases hstate : c.inst.state = .failed ∨ .failed ∈ transitions c.inst.state
  · refine wlp_mono (markFailedLocked_spec hstate) (fun _ c' h' => ⟨h'.1, ?_⟩) fun _ _ h' => h'.elim
    obtain ⟨_, hholds, hnext, hlog⟩ := h'
    intro hfit hrecovering
    rw [hnext]
    refine h.pending (hfit.of_suffix hlog) ?_
    unfold InstanceState.Recovering at hrecovering ⊢
    rwa [← hholds]
  · rw [not_or] at hstate
    refine wlp_bind.mpr <| wlp_get.mpr <| wlp_bind.mpr <| wlp_whenever.mpr
      ⟨fun _ => wlp_transition.mpr ⟨fun hmem => absurd hmem hstate.2, fun _ _ => h⟩,
        fun hno => absurd (not_not.mp hno) hstate.1⟩

/-- Recovering from a failure keeps the invariant. -/
theorem settled_restartAfterFailureLocked (hfailed : c.inst.state = .failed)
    (hpending : Pending C c) (fuel : ℕ) :
    wlp (restartAfterFailureLocked C (ensureRunningLocked C fuel "recovery"))
      (fun _ => Settled C) (fun _ => Settled C) c :=
  wlp_mono (restartAfterFailureLocked_spec (ensureRunningLocked_spec fuel "recovery") hfailed)
    (fun _ _ h' => h'.elim (fun h' => (h'.2 hpending).settled h'.1)
      fun h' => (Clear.of_not_recovering h'.2).settled)
    fun _ _ h' => (h'.2.2 hpending).settled h'.2.1

/-- Stopping what carries no `recovery` hold. -/
theorem clear_stopLocked (h : Clear C c) (hholds : c.inst.activeHolds = 0) (reason : String) :
    wlp (stopLocked C reason) (fun _ => Clear C) (fun _ => Clear C) c :=
  wlp_mono (footprint_stopLocked Touch.moving_le_clearing (show Touch.clearing .stop from trivial)
    hholds) (fun _ _ h' => h.of_footprint h') fun _ _ h' => h.of_footprint h'

end Invariant

/-! ## The operations -/

section Operations

variable {C} {c : Cell σ}

/-- A calm continuation after a section that keeps the invariant. -/
theorem settled_bind_calm {α β : Type} {act : Prog σ α} {next : α → Prog σ β}
    (h : wlp act (fun _ => Settled C) (fun _ => Settled C) c)
    (hnext : ∀ a, Within (Footprint C Touch.calm) (next a)) :
    wlp (act >>= next) (fun _ => Settled C) (fun _ => Settled C) c :=
  wlp_bind.mpr <| wlp_mono h
    (fun a c₁ h₁ => wlp_mono (hnext a c₁) (fun _ _ h' => h₁.of_calm h') fun _ _ h' => h₁.of_calm h')
    fun _ _ h' => h'

theorem settled_start (h : Settled C c) {reason : String} (hreason : reason ≠ "recovery")
    (hunrevived : wlp (startHold reason) (fun _ => Unrevived C) (fun _ _ => True) c) (fuel : ℕ) :
    wlp (start C fuel reason) (fun _ => Settled C) (fun _ => Settled C) c := by
  refine wlp_bind.mpr <| wlp_mono (wlp_and hunrevived (footprint_startHold
    Touch.observing_le_calm (show Touch.calm (.addHold reason) from hreason)
    fun _ _ => (show Touch.calm .resetBudget from trivial))) (fun _ c₁ h₁ => ?_)
    fun _ _ h' => h.of_calm h'.2
  refine settled_bind_calm ?_ fun _ => within_bind within_get fun _ => within_pure _
  exact wlp_mono (settled_ensureRunningLocked (h.of_calm h₁.2) (fun _ => h₁.1) fuel reason)
    (fun _ _ h' => h'.1) fun _ _ h' => h'

variable (C) in
/-- The cell in which `acquire_session` ensures that the service runs. -/
def acquireEntry (sessionId : String) (c : Cell σ) : Cell σ :=
  ((c.afterClock C).mapInst fun inst =>
    { inst with
      sessions := inst.sessions.set sessionId (C.environment.now c.env).1 }.withHold
        "sessions").saved

theorem settled_acquireSession (h : Settled C c) {sessionId : String}
    (hfresh : c.inst.sessions.get? sessionId = none)
    (hunrevived : (C.service.lifecycle.sharing = .singleSession → c.inst.sessions.size = 0) →
      Unrevived C (acquireEntry C sessionId c)) (fuel : ℕ) :
    wlp (acquireSession C fuel sessionId) (fun _ => Settled C) (fun _ => Settled C) c := by
  refine wlp_bind.mpr <| wlp_get.mpr <| wlp_bind.mpr <| wlp_whenever.mpr
    ⟨fun _ => wlp_throw.mpr h, fun hsingle => ?_⟩
  refine wlp_bind.mpr <| wlp_now.mpr <| wlp_bind.mpr <| wlp_modifyInst.mpr <|
    wlp_bind.mpr <| wlp_bind.mpr <| wlp_modifyInst.mpr <| wlp_persist.mpr ?_
  rw [lifecycle_sharing, not_and, not_not] at hsingle
  have hentry : Footprint C Touch.calm c (acquireEntry C sessionId c) :=
    Steps.cons (show Touch.calm .clock from trivial) .clock <|
      Steps.cons (show Touch.calm .attach from trivial) (.attach sessionId _ hfresh hsingle) <|
        Steps.single (show Touch.calm .save from trivial) .save
  have hknown : ∀ c', Footprint C Touch.recovering (acquireEntry C sessionId c) c' →
      c'.inst.sessions.get? sessionId ≠ none := by
    intro c' hfoot
    rw [sessions_of_recovering hfoot]
    simp [acquireEntry, InstanceState.withHold]
  refine wlp_bind.mpr <| wlp_tryCatch.mpr <| wlp_mono (wlp_and
    (settled_ensureRunningLocked (h.of_calm hentry) (fun _ => hunrevived hsingle) fuel "session")
    (within_ensureRunningLocked (le_refl Touch.recovering) fuel "session" _))
    (fun _ _ h' => wlp_pure.mpr h'.1.1) fun e c' h' => ?_
  refine wlp_bind.mpr <| wlp_modifyInst.mpr <| wlp_bind.mpr <| wlp_bind.mpr <|
    wlp_modifyInst.mpr <| wlp_persist.mpr <| wlp_throw.mpr ?_
  exact h'.1.of_calm <| Steps.cons (show Touch.calm .detach from trivial)
    (.detach sessionId (hknown c' h'.2)) <| Steps.single (show Touch.calm .save from trivial) .save

variable (C) in
/-- The cell in which `run_maintenance` ensures that the service runs. -/
def beginEntry (job : Job) (c : Cell σ) : Cell σ :=
  ((c.mapJobs (insert job.name)).mapInst fun inst => inst.withHold "maintenance").saved

theorem settled_beginMaintenance (h : Settled C c) {job : Job}
    (hunrevived : job.name ∉ c.jobsRunning → job.wakeIfStopped.getD true = true →
      Unrevived C (beginEntry job c)) (fuel : ℕ) :
    wlp (beginMaintenance C fuel job) (fun _ => Settled C) (fun _ => Settled C) c := by
  have hjobs : ∀ f : Finset String → Finset String, Footprint C Touch.calm c (c.mapJobs f) :=
    fun f => .single (show Touch.calm .jobs from trivial) (.jobs f)
  refine wlp_bind.mpr <| wlp_get.mpr <| wlp_ite.mpr ⟨fun _ => wlp_throw.mpr h, fun hjob => ?_⟩
  refine wlp_bind.mpr <| wlp_modifyJobs.mpr <| wlp_ite.mpr ⟨fun _ => ?_, fun hallowed => ?_⟩
  · refine wlp_bind.mpr <| (wlp_modifyJobs (f := (Finset.erase · job.name))).mpr <|
      wlp_throw.mpr ?_
    exact h.of_calm ((hjobs _).trans (.single ⟨.jobs, trivial, .jobs _⟩))
  · refine wlp_bind.mpr <| wlp_bind.mpr <| wlp_modifyInst.mpr <| wlp_persist.mpr ?_
    have hmaintenance : Touch.calm (.addHold "maintenance") :=
      show "maintenance" ≠ "recovery" by decide
    have hentry : Footprint C Touch.calm c (beginEntry job c) :=
      (hjobs _).trans <| Steps.cons hmaintenance (.addHold "maintenance") <|
        Steps.single (show Touch.calm .save from trivial) .save
    -- a job that must not wake the service finds it active
    have hentry_unrevived : AttemptsFit C (beginEntry job c).log → Unrevived C (beginEntry job c) := by
      intro hfit
      cases hwake : job.wakeIfStopped.getD true with
      | true => exact hunrevived hjob hwake
      | false =>
          have hactive : c.inst.state ∈ activeStates := by simpa [hwake] using hallowed
          have hstate : (beginEntry job c).inst.state ≠ .failed := fun hfailed => by
            rw [(of_calm hentry).1] at hfailed
            simp [hfailed, activeStates] at hactive
          exact fun hrecovering => absurd hrecovering ((h.of_calm hentry).clear hstate hfit)
    refine wlp_bind.mpr <| wlp_tryCatch.mpr <| wlp_mono (Q := fun _ => Settled C)
      (X := fun _ => Settled C) ?_ (fun _ _ h' => wlp_pure.mpr h') fun e c₁ h₁ => ?_
    · refine wlp_bind.mpr <| wlp_mono (settled_ensureRunningLocked (h.of_calm hentry)
        hentry_unrevived fuel "maintenance") (fun _ c₁ h₁ => ?_) fun _ _ h' => h'
      refine wlp_transition.mpr ⟨fun hmem => ?_, fun _ _ => h₁.1⟩
      refine (Clear.of_footprint (h₁.1.clear ?_)
        (footprint_moved Touch.moving_le_clearing hmem)).settled
      intro hfailed
      simp [hfailed, transitions] at hmem
    · refine wlp_mono ((within_bind (within_removeHold Touch.observing_le_calm
        (show "maintenance" ≠ "recovery" by decide)) fun _ =>
          within_bind (within_modifyJobs (show Touch.calm .jobs from trivial)
            (Finset.erase · job.name)) fun _ => within_throw e) c₁)
        (fun _ _ h' => h₁.of_calm h') fun _ _ h' => h₁.of_calm h'

theorem settled_notifyFailure (h : Settled C c) (fuel : ℕ) (error : String) :
    wlp (notifyFailure C fuel error) (fun _ => Settled C) (fun _ => Settled C) c := by
  refine wlp_bind.mpr <| wlp_mono (settled_markFailedLocked h error _) (fun _ c₁ h₁ => ?_)
    fun _ _ h' => h'
  exact settled_bind_calm (settled_restartAfterFailureLocked h₁.1 h₁.2 fuel) fun _ =>
    within_bind within_get fun _ => within_pure _

theorem settled_transition (h : Settled C c) {newState : LifecycleState} {reason : String}
    {error : Option String}
    (hkeeps : c.inst.Recovering → newState ∉ transitions .failed) :
    wlp (transition C newState reason error) (fun _ => Settled C) (fun _ => Settled C) c := by
  refine wlp_transition.mpr ⟨fun hmem => ?_, fun _ _ => h⟩
  by_cases hrecovering : c.inst.Recovering
  · -- a recovering instance is failed, and this edge does not leave `failed`
    refine Clear.settled fun hfit _ => ?_
    have hfit₀ := hfit.of_suffix
      (suffix_of_footprint (footprint_moved (C := C) (le_refl Touch.moving) hmem))
    exact hkeeps hrecovering ((h hfit₀ hrecovering).1 ▸ hmem)
  · exact ((Clear.of_not_recovering hrecovering).of_footprint
      (footprint_moved Touch.moving_le_clearing hmem)).settled

/-- An ordinary stop is refused while there is a `recovery` hold. -/
theorem settled_stop (h : Settled C c) (hpositive : Positive c.inst.holds) (force : Bool)
    (reason : String) :
    wlp (stop C force reason) (fun _ => Settled C) (fun _ => Settled C) c := by
  -- what both optional changes keep
  have hintent : wlp (whenever (reason = "admin") do
      modifyInst (σ := σ) fun inst =>
        { inst with adminIntent := false, holds := inst.holds.pop "admin" })
      (fun _ c₁ => Settled C c₁ ∧ Positive c₁.inst.holds) (fun _ _ => False) c := by
    refine wlp_whenever.mpr ⟨fun _ => wlp_modifyInst.mpr ⟨h.of_calm ?_, hpositive.pop "admin"⟩,
      fun _ => ⟨h, hpositive⟩⟩
    exact Steps.cons (show Touch.calm .quiet from trivial)
      (.mapInst (f := fun inst => { inst with adminIntent := false })
        ⟨rfl, rfl, rfl, rfl, rfl, rfl⟩) <|
      Steps.single (show Touch.calm (.dropHold "admin") from (by decide : "admin" ≠ "recovery"))
        (.dropHold "admin")
  have hclearing : ∀ c₁ : Cell σ, Settled C c₁ ∧ Positive c₁.inst.holds →
      wlp (whenever (force = true) do
        modifyInst (σ := σ) fun inst => { inst with holds := ∅, sessions := ∅ })
        (fun _ c₂ => Settled C c₂ ∧ Positive c₂.inst.holds ∧
          (force = true → c₂.inst.holds = ∅)) (fun _ _ => False) c₁ := fun c₁ h₁ =>
    wlp_whenever.mpr ⟨fun _ => wlp_modifyInst.mpr
      ⟨(Clear.of_not_recovering (by simp [InstanceState.Recovering])).settled, .empty,
        fun _ => rfl⟩, fun hforce => ⟨h₁.1, h₁.2, fun h' => absurd h' hforce⟩⟩
  refine wlp_bind.mpr <| wlp_mono hintent (fun _ c₁ h₁ => ?_) fun _ _ h' => h'.elim
  refine wlp_bind.mpr <| wlp_mono (hclearing c₁ h₁) (fun _ c₂ h₂ => ?_) fun _ _ h' => h'.elim
  obtain ⟨hsettled, hpositive₂, hforced⟩ := h₂
  refine wlp_bind.mpr <| wlp_get.mpr <| wlp_bind.mpr <| wlp_whenever.mpr
    ⟨fun _ => wlp_throw.mpr hsettled, fun hno => ?_⟩
  have hholds : c₂.inst.activeHolds = 0 := by
    by_cases hforce : force = true
    · simp [InstanceState.activeHolds, hforced hforce]
    · simpa [hforce] using hno
  have hclear : Clear C c₂ := .of_not_recovering fun hrecovering =>
    (InstanceState.activeHolds_pos hpositive₂ hrecovering).ne' hholds
  exact wlp_bind.mpr <| wlp_mono (clear_stopLocked hclear hholds reason)
    (fun _ _ h' => wlp_bind.mpr <| wlp_get.mpr <| wlp_pure.mpr h'.settled)
    fun _ _ h' => h'.settled

theorem settled_finishMaintenance (h : Settled C c) {job : Job} {wasActive : Bool}
    {outcome : Except String Archive.Fields} (fuel : ℕ) :
    wlp (finishMaintenance C fuel job wasActive outcome) (fun _ => Settled C)
      (fun _ => Settled C) c := by
  -- giving mark and hold back is calm, and so is storing the result
  have hgiveBack : ∀ {β : Type} {next : Prog σ β} {c₂ : Cell σ},
      (∀ c₃, Footprint C Touch.calm c₂ c₃ → wlp next (fun _ => Settled C) (fun _ => Settled C) c₃) →
      wlp (do
        removeHold "maintenance"
        modify fun c => { c with jobsRunning := c.jobsRunning.erase job.name }
        next) (fun _ => Settled C) (fun _ => Settled C) c₂ := fun hnext =>
    wlp_bind.mpr <| wlp_bind.mpr <| wlp_modifyInst.mpr <| wlp_persist.mpr <| wlp_bind.mpr <|
      (wlp_modifyJobs (f := (Finset.erase · job.name))).mpr <| hnext _ <|
        Steps.cons (show Touch.calm (.removeHold "maintenance") from
            (by decide : "maintenance" ≠ "recovery")) (.removeHold "maintenance") <|
          Steps.cons (show Touch.calm .save from trivial) .save <|
            Steps.single (show Touch.calm .jobs from trivial) (.jobs _)
  have hstored : ∀ c₁ : Cell σ, SameCore c.inst c₁.inst → c.log <:+ c₁.log → Settled C c₁ := by
    intro c₁ hcore hlog hfit hrecovering
    rw [hcore.state, hcore.nextRestartAt]
    refine h (hfit.of_suffix hlog) ?_
    unfold InstanceState.Recovering at hrecovering ⊢
    rwa [← hcore.holds]
  refine wlp_bind.mpr <| wlp_now.mpr <| wlp_bind.mpr <| wlp_modifyInst.mpr ?_
  refine (fun hrest => hrest _ (by
    exact hstored _ ⟨rfl, rfl, rfl, rfl, rfl, rfl⟩ (List.suffix_cons _ _)) :
      (∀ c₁ : Cell σ, Settled C c₁ → wlp _ _ _ c₁) → _) ?_
  intro c₁ h₁
  cases outcome with
  | ok result =>
      refine wlp_bind.mpr <| wlp_transition.mpr ⟨fun hmem => hgiveBack fun c₃ hfoot => ?_,
        fun _ _ => h₁⟩
      have hclear : Clear C c₃ := by
        have hmoved : Clear C (c₁.moved C .running s!"maintenance_complete:{job.name}" none) :=
          Clear.of_footprint (h₁.clear fun hfailed => by simp [hfailed, transitions] at hmem)
            (footprint_moved Touch.moving_le_clearing hmem)
        exact (hmoved.settled.of_calm hfoot).clear (by simp [(of_calm hfoot).1])
      refine wlp_bind.mpr <| wlp_get.mpr <| wlp_ite.mpr ⟨fun hstop => ?_, fun _ => ?_⟩
      · exact wlp_bind.mpr <| wlp_mono (clear_stopLocked hclear hstop.2.2 _)
          (fun _ _ h' => wlp_pure.mpr h'.settled) fun _ _ h' => h'.settled
      · exact wlp_mono ((within_bind (within_scheduleIdleLocked Touch.observing_le_calm)
          fun _ => within_pure _) c₃) (fun _ _ h' => hclear.settled.of_calm h')
          fun _ _ h' => hclear.settled.of_calm h'
  | error message =>
      refine wlp_bind.mpr <| wlp_mono (settled_markFailedLocked h₁ message _) (fun _ c₂ h₂ => ?_)
        fun _ _ h' => h'
      refine hgiveBack fun c₃ hfoot => ?_
      have hfailed := (of_calm hfoot).1.trans h₂.1
      exact settled_bind_calm (settled_restartAfterFailureLocked hfailed
        ((h₂.2.settled h₂.1).of_calm hfoot).pending fuel) fun _ => within_throw _

theorem settled_tickLocked (h : Settled C c) (fuel : ℕ) (now : DateTime) :
    wlp (tickLocked C fuel now) (fun _ => Settled C) (fun _ => Settled C) c := by
  have hidle : wlp (tickIdle C now) (fun _ => Settled C) (fun _ => Settled C) c := by
    refine wlp_bind.mpr <| wlp_get.mpr ?_
    cases parseTimestamp c.inst.idleDeadline with
    | none => exact wlp_pure.mpr h
    | some deadline =>
        refine wlp_whenever.mpr ⟨fun hdue => ?_, fun _ => h⟩
        exact wlp_mono (clear_stopLocked (h.clear (by simp [hdue.2.2])) hdue.2.1 _)
          (fun _ _ h' => h'.settled) fun _ _ h' => h'.settled
  have hrestart : ∀ c₁ : Cell σ, Settled C c₁ →
      wlp (tickRestart C fuel now) (fun _ => Settled C) (fun _ => Settled C) c₁ := by
    intro c₁ h₁
    refine wlp_bind.mpr <| wlp_get.mpr ?_
    cases parseTimestamp c₁.inst.nextRestartAt with
    | none => exact wlp_pure.mpr h₁
    | some nextRestart =>
        refine wlp_whenever.mpr ⟨fun hdue => ?_, fun _ => h₁⟩
        refine wlp_bind.mpr <| wlp_mono (ensureRunningLocked_spec fuel "recovery" c₁)
          (fun _ c₂ h₂ => ?_) fun e c₂ h₂ => ?_
        · -- this restart drops the hold
          rcases h₂ with ⟨hactive, _⟩ | ⟨hstarted, _⟩
          · exact absurd hactive (by simp [hdue.1, activeStates])
          · refine wlp_bind.mpr <| wlp_get.mpr <| wlp_whenever.mpr ⟨fun _ => ?_, fun hno =>
              absurd hstarted.state hno⟩
            exact wlp_bind.mpr <| wlp_modifyInst.mpr <| wlp_persist.mpr <|
              (Clear.of_not_recovering (by simp [InstanceState.Recovering])).settled
        · rcases h₂.outcome with ⟨hcore, hlog⟩ | ⟨hfailed, hpending⟩
          · exact (h₁.pending.of_sameCore hcore hlog).settled (hcore.state.trans hdue.1)
          · exact (hpending h₁.pending).settled hfailed
  exact wlp_bind.mpr <| wlp_mono hidle (fun _ c₁ h₁ => settled_bind_calm (hrestart c₁ h₁) fun _ =>
    within_tickJobs Touch.observing_le_calm now _) fun _ _ h' => h'

/-! ### Reconciling -/

theorem settled_reconcileState (h : Settled C c) (fuel : ℕ) (alive : Bool) :
    wlp (reconcileState C fuel alive) (fun _ => Settled C) (fun _ => Settled C) c := by
  by_cases hfailed : c.inst.state = .failed
  · have hnothing : (reconcileState C fuel alive).run c = some (.ok (), c) := by
      simp [reconcileState, run_bind, run_get, run_pure, hfailed, staleStates]
    simpa only [wlp, hnothing] using h
  -- what only moves a clear instance leaves it clear
  have hclear := h.clear hfailed
  have hmoves : ∀ {act : Prog σ Unit}, Within (Footprint C Touch.moving) act →
      wlp act (fun _ => Settled C) (fun _ => Settled C) c := fun hact =>
    wlp_mono (hact c)
      (fun _ _ h' => (hclear.of_footprint (h'.mono Touch.moving_le_clearing)).settled)
      fun _ _ h' => (hclear.of_footprint (h'.mono Touch.moving_le_clearing)).settled
  have htransition : ∀ newState reason error,
      Within (Footprint C Touch.moving) (transition C newState reason error) :=
    fun _ _ _ => within_transition (le_refl _)
  refine wlp_bind.mpr <| wlp_get.mpr <| wlp_ite.mpr ⟨fun _ => ?_, fun _ => ?_⟩
  · exact hmoves <| within_ite (fun _ => htransition _ _ _) fun _ => within_ite
      (fun _ => within_bind (within_whenever fun _ => htransition _ _ _) fun _ => htransition _ _ _)
      fun _ => within_bind (within_markFailedLocked (le_refl _)) fun _ => htransition _ _ _
  refine wlp_ite.mpr ⟨fun _ => ?_, fun _ => ?_⟩
  · -- the runtime is gone: fail, then recover or settle on stopped
    refine wlp_bind.mpr <| wlp_mono (wlp_and (settled_markFailedLocked h _ _)
      (within_markFailedLocked Touch.moving_le_clearing c)) (fun _ c₁ h₁ => ?_) fun _ _ h' => h'.1
    refine wlp_bind.mpr <| wlp_get.mpr <| wlp_ite.mpr
      ⟨fun _ => settled_restartAfterFailureLocked h₁.1.1 h₁.1.2 fuel, fun _ => ?_⟩
    exact wlp_mono (within_transition Touch.moving_le_clearing c₁)
      (fun _ _ h' => ((hclear.of_footprint h₁.2).of_footprint h').settled)
      fun _ _ h' => ((hclear.of_footprint h₁.2).of_footprint h').settled
  · exact hmoves <| within_ite (fun _ => htransition _ _ _) fun _ =>
      within_ite (fun _ => within_adopt (le_refl _)) fun _ => within_pure _

variable (C) in
/-- Where a reconciliation comes to decide about a failed instance, a
`recovery` hold finds the runtime dead, and its restart is either not yet due
or does not succeed at once. -/
def ReconcileKeeps (fuel : ℕ) (c : Cell σ) : Prop :=
  wlp (do
    let alive ← reconcileLook C
    reconcileState C fuel alive
    return alive)
    (fun alive c' => c'.inst.Recovering → alive = false ∧
      ∀ eligible ∈ c'.inst.nextRestartAt, reached eligible (C.environment.now c'.env).1 →
        ¬ Revives C (c'.afterClock C))
    (fun _ _ => True) c

theorem settled_reconcileStart (h : Settled C c)
    (hkeeps : c.inst.Recovering →
      ∀ eligible ∈ c.inst.nextRestartAt, reached eligible (C.environment.now c.env).1 →
        ¬ Revives C (c.afterClock C)) (fuel : ℕ) :
    wlp (reconcileStart C fuel) (fun _ => Settled C) (fun _ => Settled C) c := by
  have hensure : ∀ c₁ : Cell σ, Settled C c₁ → (AttemptsFit C c₁.log → Unrevived C c₁) →
      wlp (ensureRunningLocked C fuel "reconcile") (fun _ => Settled C) (fun _ => Settled C) c₁ :=
    fun _ h₁ hunrevived => wlp_mono (settled_ensureRunningLocked h₁ hunrevived fuel "reconcile")
      (fun _ _ h' => h'.1) fun _ _ h' => h'
  refine wlp_bind.mpr <| wlp_get.mpr <| wlp_ite.mpr ⟨fun hstopped => ?_, fun _ => ?_⟩
  · refine hensure c h fun hfit hrecovering => ?_
    exact absurd hrecovering (h.clear (by simp [hstopped.2]) hfit)
  refine wlp_ite.mpr ⟨fun hfailed => ?_, fun _ => wlp_pure.mpr h⟩
  cases hnext : parseTimestamp c.inst.nextRestartAt with
  | none =>
      exact hensure c h fun hfit hrecovering => absurd hnext (h hfit hrecovering).2
  | some eligible =>
      refine wlp_bind.mpr <| wlp_now.mpr <| wlp_whenever.mpr ⟨fun hreached => ?_, fun _ => ?_⟩
      · exact hensure _ (h.of_calm (.single (show Touch.calm .clock from trivial) .clock))
          fun _ hrecovering => hkeeps hrecovering eligible hnext hreached
      · exact h.of_calm (.single (show Touch.calm .clock from trivial) .clock)

theorem settled_reconcileLocked (h : Settled C c) {fuel : ℕ} (hkeeps : ReconcileKeeps C fuel c) :
    wlp (reconcileLocked C fuel) (fun _ => Settled C) (fun _ => Settled C) c := by
  have hlook : Within (Footprint C Touch.calm) (reconcileLook C) :=
    within_reconcileLook Touch.observing_le_calm
      (fun reason hreason => show reason ≠ "recovery" by
        rintro rfl
        simp at hreason)
      (show "always_on" ≠ "recovery" by decide)
  refine (wlp_reconcileLocked C).mpr <| wlp_mono (wlp_and (hlook c) (wlp_bind.mp hkeeps))
    (fun alive c₁ h₁ => ?_) fun _ _ h' => h.of_calm h'.1
  refine wlp_bind.mpr <| wlp_mono (wlp_and (settled_reconcileState (h.of_calm h₁.1) fuel alive)
    (wlp_bind.mp h₁.2)) (fun _ c₂ h₂ => ?_) fun _ _ h' => h'.1
  have hdecide := wlp_pure.mp h₂.2
  refine wlp_bind.mpr <| wlp_get.mpr <| wlp_bind.mpr ?_
  -- a live runtime is only adopted where no restart is pending
  have hadopt : wlp (whenever (c₂.inst.state = .failed ∧ alive = true) (adopt C))
      (fun _ c₃ => Settled C c₃ ∧ (c₃.inst.Recovering → c₃ = c₂)) (fun _ => Settled C) c₂ := by
    refine wlp_whenever.mpr ⟨fun halive => ?_, fun _ => ⟨h₂.1, fun _ => rfl⟩⟩
    have hclear : ¬ c₂.inst.Recovering := fun hrecovering => by
      simp [(hdecide hrecovering).1] at halive
    have hleft : ∀ c₃, Footprint C Touch.moving c₂ c₃ → ¬ c₃.inst.Recovering := fun c₃ hfoot => by
      unfold InstanceState.Recovering at hclear ⊢
      rwa [holds_of_moving hfoot]
    exact wlp_mono (within_adopt (le_refl Touch.moving) c₂)
      (fun _ c₃ h' => ⟨(Clear.of_not_recovering (hleft c₃ h')).settled,
        fun hrecovering => absurd hrecovering (hleft c₃ h')⟩)
      fun _ c₃ h' => (Clear.of_not_recovering (hleft c₃ h')).settled
  refine wlp_mono hadopt (fun _ c₃ h₃ => ?_) fun _ _ h' => h'
  refine settled_bind_calm (settled_reconcileStart h₃.1 (fun hrecovering => ?_) fuel) fun _ =>
    within_bind (within_scheduleIdleLocked Touch.observing_le_calm) fun _ =>
      within_persist Touch.observing_le_calm
  obtain rfl := h₃.2 hrecovering
  exact (hdecide hrecovering).2

end Operations

/-! ## Steps and runs -/

/-- The section does not bring the service up while a restart is pending:
`start`, `acquire_session`, a maintenance wake and `reconcile` do not succeed
with their first attempt then, `reconcile` does not adopt a live runtime, and
no explicit transition leaves `failed`.  Nor does a caller of `start` use the
name `recovery` for its own hold. -/
def World.KeepsRecovery (w : World σ) (l : Label σ) : Prop :=
  let c := w.cell.withEnv l.env
  match l.op with
  | .start reason =>
      reason ≠ "recovery" ∧ wlp (startHold reason) (fun _ => Unrevived C) (fun _ _ => True) c
  | .acquireSession sessionId =>
      (C.service.lifecycle.sharing = .singleSession → c.inst.sessions.size = 0) →
        Unrevived C (acquireEntry C sessionId c)
  | .beginMaintenance jobId =>
      ∀ job ∈ (jobsByName C.service).get? jobId, job.name ∉ c.jobsRunning →
        job.wakeIfStopped.getD true = true → Unrevived C (beginEntry job c)
  | .transition newState _ => c.inst.Recovering → newState ∉ transitions .failed
  | .reconcile => ReconcileKeeps C l.fuel c
  | _ => True

section Runs

variable {C} {w w' : World σ} {l : Label σ} {r : Except Exn Unit}

/-- No section that keeps the recovery hold breaks the invariant. -/
theorem Settled.step (h : Settled C w.cell) (hpositive : Positive w.cell.inst.holds)
    (hok : w.Fresh l ∧ w.KeepsRecovery C l) (hstep : w.step C l = some (r, w')) :
    Settled C w'.cell := by
  have henv : Settled C (w.cell.withEnv l.env) :=
    h.of_calm <| .single (show Touch.calm .quiet from trivial) (.withEnv _ _)
  obtain ⟨hfresh, hkeeps⟩ := hok
  by_cases hreload : l.op = .reload
  · -- a `recovery` hold is not persisted
    rw [(World.step_reload hstep hreload).1]
    refine (Clear.of_not_recovering ?_).settled
    unfold Cell.reloaded InstanceState.Recovering
    cases (w.cell.withEnv l.env).stateFile with
    | none => simp [freshInstance]
    | some document =>
        simp only [InstanceState.fromDict, Dict.get?_filterKeys, not_not]
        exact if_neg (by decide)
  have hreturn : ∀ {α : Type} {act : Prog σ α} {next : α → List MaintenanceRun},
      wlp act (fun _ => Settled C) (fun _ => Settled C) (w.cell.withEnv l.env) →
      wlp (do let a ← act; return next a) (fun _ => Settled C) (fun _ => Settled C)
        (w.cell.withEnv l.env) := fun h => wlp_bind.mpr h
  have hcalm : ∀ {α : Type} {act : Prog σ α}, Within (Footprint C Touch.calm) act →
      wlp act (fun _ => Settled C) (fun _ => Settled C) (w.cell.withEnv l.env) := fun hact =>
    wlp_mono (hact _) (fun _ _ h' => henv.of_calm h') fun _ _ h' => henv.of_calm h'
  have hsection : wlp (l.op.lockedSection C l.fuel w.running) (fun _ => Settled C)
      (fun _ => Settled C) (w.cell.withEnv l.env) := by
    cases hop : l.op with
    | start reason =>
        simp only [World.KeepsRecovery, hop] at hkeeps
        exact hreturn (settled_start henv hkeeps.1 hkeeps.2 l.fuel)
    | stop force reason => exact hreturn (settled_stop henv hpositive force reason)
    | acquireSession sessionId =>
        simp only [World.KeepsRecovery, World.Fresh, hop] at hkeeps hfresh
        exact hreturn (settled_acquireSession henv hfresh hkeeps l.fuel)
    | releaseSession sessionId =>
        exact hreturn <| hcalm <| within_releaseSession Touch.observing_le_calm trivial sessionId
    | notifyFailure error => exact hreturn (settled_notifyFailure henv l.fuel error)
    | transition newState reason =>
        simp only [World.KeepsRecovery, hop] at hkeeps
        exact hreturn (settled_transition henv hkeeps)
    | reconcile =>
        simp only [World.KeepsRecovery, hop] at hkeeps
        exact hreturn (settled_reconcileLocked henv hkeeps)
    | tick now => exact hreturn (settled_tickLocked henv l.fuel now)
    | beginMaintenance jobId =>
        simp only [World.KeepsRecovery, hop] at hkeeps
        refine wlp_bind.mpr ?_
        unfold findJob
        cases hjob : (jobsByName C.service).get? jobId with
        | none => exact wlp_throw.mpr henv
        | some job =>
            exact wlp_pure.mpr <| hreturn <| settled_beginMaintenance henv (hkeeps job hjob) l.fuel
    | callMaintenance index =>
        simp only [Operation.lockedSection]
        split
        · exact hreturn <| hcalm <| within_callMaintenance Touch.observing_le_calm _
        · exact wlp_diverge.mpr trivial
    | finishMaintenance index =>
        simp only [Operation.lockedSection]
        split
        · exact hreturn (settled_finishMaintenance henv l.fuel)
        · exact wlp_diverge.mpr trivial
    | setLifecycleMode mode =>
        exact hreturn <| hcalm <| within_setLifecycleMode Touch.observing_le_calm mode
    | reload => exact absurd hop hreload
  rcases World.step_spec hstep hsection with ⟨_, h'⟩ | ⟨_, _, h', _⟩ <;> exact h'

/-- The section finds no `recovery` hold, or cannot bring the service up.
(Nothing is said about `reconcile`.) -/
def World.EntersClear (w : World σ) (l : Label σ) : Prop :=
  match l.op with
  | .start reason => reason ≠ "recovery" ∧ ¬ w.cell.inst.Recovering
  | .acquireSession _ | .beginMaintenance _ | .transition _ _ => ¬ w.cell.inst.Recovering
  | .reconcile => False
  | _ => True

instance (w : World σ) (l : Label σ) : Decidable (w.EntersClear l) :=
  match l with
  | ⟨.start reason, _, _⟩ =>
      inferInstanceAs (Decidable (reason ≠ "recovery" ∧ ¬ w.cell.inst.Recovering))
  | ⟨.acquireSession _, _, _⟩ =>
      inferInstanceAs (Decidable (¬ w.cell.inst.Recovering))
  | ⟨.beginMaintenance _, _, _⟩ =>
      inferInstanceAs (Decidable (¬ w.cell.inst.Recovering))
  | ⟨.transition _ _, _, _⟩ =>
      inferInstanceAs (Decidable (¬ w.cell.inst.Recovering))
  | ⟨.reconcile, _, _⟩ =>
      inferInstanceAs (Decidable (False))
  | ⟨.stop _ _, _, _⟩ | ⟨.releaseSession _, _, _⟩ | ⟨.notifyFailure _, _, _⟩ | ⟨.tick _, _, _⟩ |
    ⟨.callMaintenance _, _, _⟩ | ⟨.finishMaintenance _, _, _⟩ | ⟨.setLifecycleMode _, _, _⟩ |
    ⟨.reload, _, _⟩ =>
      instDecidableTrue

/-- Such a section keeps the recovery hold. -/
theorem World.EntersClear.keepsRecovery (h : w.EntersClear l) : w.KeepsRecovery C l := by
  have hentry : ∀ {reason : String} {inst : InstanceState}, reason ≠ "recovery" →
      ¬ w.cell.inst.Recovering → inst.holds = (w.cell.inst.withHold reason).holds →
      ¬ inst.Recovering := by
    intro reason inst hreason hclear hholds
    unfold InstanceState.Recovering at hclear ⊢
    rwa [hholds, InstanceState.withHold, Dict.get?_set_ne _ _ hreason.symm]
  unfold World.EntersClear at h
  unfold World.KeepsRecovery
  cases hop : l.op with
  | start reason =>
      rw [hop] at h
      refine ⟨h.1, wlp_mono (footprint_startHold (C := C) Touch.observing_le_calm
        (show Touch.calm (.addHold reason) from h.1) fun _ _ => trivial)
        (fun _ _ h' hrecovering => ?_) fun _ _ _ => trivial⟩
      exact absurd ((of_calm h').2.2 hrecovering) h.2
  | acquireSession sessionId =>
      rw [hop] at h
      exact fun _ hrecovering => absurd hrecovering (hentry (by decide : "sessions" ≠ _) h rfl)
  | beginMaintenance jobId =>
      rw [hop] at h
      exact fun _ _ _ _ hrecovering =>
        absurd hrecovering (hentry (by decide : "maintenance" ≠ _) h rfl)
  | transition newState reason =>
      rw [hop] at h
      exact fun hrecovering => absurd hrecovering h
  | reconcile => simp [hop] at h
  | _ => trivial

end Runs

/-- A service that is restarted ten seconds after a failure. -/
def restartLater : Lifecycle :=
  { onDemand .multiuser with restart := some .onFailure, restartBackoffSeconds := some 10 }

/-- A due restart that `reconcile` makes, as the reconciliation of every `tick`
does, leaves the hold on the running service. -/
theorem recovery_hold_left_by_reconcile :
    ¬ ∀ (C : Context Script) (override : Option Mode) (env : Script) (w : World Script),
      Machine.Run (World.step C) World.Fresh (World.initial C override env) w →
      (w.cell.inst.Recovering →
        w.cell.inst.state = .failed ∧ w.cell.inst.nextRestartAt ≠ none) ∧
      (w.cell.inst.state = .running → ¬ w.cell.inst.Recovering) := by
  intro hall
  have hexec : ((Machine.exec (World.step (scripted restartLater [])) World.Fresh
      (World.initial (scripted restartLater []) none {})
      [scriptedLabel (.start "admin") {},
        scriptedLabel (.notifyFailure "exited") { seconds := 1 },
        scriptedLabel .reconcile { seconds := 11 }]).map fun w =>
        (w.cell.inst.state, decide w.cell.inst.Recovering)) = some (.running, true) := by
    decide +kernel
  obtain ⟨w, hw, hobserved⟩ := Option.map_eq_some_iff.mp hexec
  simp only [Prod.mk.injEq, decide_eq_true_eq] at hobserved
  exact (hall _ _ _ w (Machine.run_of_exec hw)).2 hobserved.1 hobserved.2

/-- Along runs that keep the recovery hold it belongs to a failed service with a
restart pending, and a running service does not carry it.  (Every recorded
attempt has a restart time that a datetime can represent, and no section uses up
the interpreter's stack.) -/
theorem recovery_hold_pending {override : Option Mode} {env : σ} {w : World σ}
    (hrun : Machine.Run (World.step C) (fun w l => w.Fresh l ∧ w.KeepsRecovery C l ∧ w.Roomy C l)
      (World.initial C override env) w) (hfit : AttemptsFit C w.cell.log) :
    (w.cell.inst.Recovering →
        w.cell.inst.state = .failed ∧ w.cell.inst.nextRestartAt ≠ none) ∧
      (w.cell.inst.state = .running → ¬ w.cell.inst.Recovering) := by
  have hsettled : Settled C w.cell := by
    refine hrun.invariant_of_reached (P := fun w => Settled C w.cell)
      (Clear.of_not_recovering (by simp [World.initial, freshInstance,
        InstanceState.Recovering])).settled fun u l r u' hrun h hok hstep => ?_
    exact h.step (HoldsSound.of_run hrun (fun _ _ h => h.1) (.initial C override env)).holds
      ⟨hok.1, hok.2.1⟩ hstep
  exact ⟨hsettled hfit, fun hstate => hsettled.clear (by simp [hstate]) hfit⟩

/-- A failure is reported: the restart is pending, and once a tick has made it
the hold is gone. -/
theorem recovery_hold_pending_until_restart :
    ∃ w w' : World Script,
      (w.cell.inst.Recovering ∧ w.cell.inst.state = .failed ∧ w.cell.inst.nextRestartAt ≠ none) ∧
      w'.cell.inst.state = .running ∧ ¬ w'.cell.inst.Recovering := by
  have hexec : ∀ labels recovering state, ((Machine.exec
      (World.step (scripted restartLater [])) (fun w l => w.Fresh l ∧ w.EntersClear l ∧
        ¬ World.Overflows (w.step (scripted restartLater []) l))
      (World.initial (scripted restartLater []) none {}) labels).map fun w =>
        (decide (AttemptsFit (scripted restartLater []) w.cell.log),
          decide w.cell.inst.Recovering, w.cell.inst.state)) = some (true, recovering, state) →
      ∃ w : World Script, (w.cell.inst.Recovering ↔ recovering = true) ∧
        w.cell.inst.state = state ∧ Machine.Run (World.step (scripted restartLater []))
          (fun w l => w.Fresh l ∧ w.KeepsRecovery (scripted restartLater []) l ∧
            w.Roomy (scripted restartLater []) l)
          (World.initial (scripted restartLater []) none {}) w ∧
        AttemptsFit (scripted restartLater []) w.cell.log := by
    intro labels recovering state hexec
    obtain ⟨w, hw, hobserved⟩ := Option.map_eq_some_iff.mp hexec
    simp only [Prod.mk.injEq, decide_eq_true_eq] at hobserved
    exact ⟨w, by rw [← hobserved.2.1, decide_eq_true_eq], hobserved.2.2,
      (Machine.run_of_exec hw).mono fun _ _ h =>
        ⟨h.1, h.2.1.keepsRecovery, World.roomy_of_not_overflows h.2.2⟩, hobserved.1⟩
  let failing := [scriptedLabel (.start "admin") {},
    scriptedLabel (.notifyFailure "exited") { seconds := 1 }]
  obtain ⟨w, hrecovering, hstate, hrun, hfit⟩ := hexec failing true .failed (by decide +kernel)
  obtain ⟨w', _, hstate', hrun', hfit'⟩ := hexec
    (failing ++ [scriptedLabel (.tick (.ofSeconds 11)) { seconds := 11 }]) false .running
    (by decide +kernel)
  exact ⟨w, w', ⟨hrecovering.mpr rfl, (recovery_hold_pending _ hrun hfit).1 (hrecovering.mpr rfl)⟩,
    hstate', (recovery_hold_pending _ hrun' hfit').2 hstate'⟩

end UltimateBBSBox.Supervisor
