import UltimateBBSBox.Supervisor.Footprint

/-!
# What starting and recovering come to

`_ensure_running_locked` and `_restart_after_failure_locked` call each other.
Their specification is one induction over that recursion: on return the service
runs and nothing is pending; on an exception the instance is as it was, or
failed with a restart pending for every `recovery` hold.  No path tries an edge
that the lifecycle graph does not have.

A first attempt that succeeds leaves a `recovery` hold where it was; only the
recursion drops it.  `Revives` says that the first attempt does succeed.
-/

namespace UltimateBBSBox.Supervisor

open Act

variable {σ : Type} (C : Context σ)

/-! ## Recovery holds -/

/-- The instance carries a `recovery` hold. -/
def InstanceState.Recovering (inst : InstanceState) : Prop := inst.holds.get? "recovery" ≠ none

instance (inst : InstanceState) : Decidable inst.Recovering :=
  inferInstanceAs (Decidable (¬ _ = none))

/-- `restart_backoff_seconds`. -/
def Context.backoff : ℚ≥0 := C.service.lifecycle.restartBackoffSeconds.getD 0

/-- Every recorded attempt has a next restart time that a datetime can represent. -/
def AttemptsFit (log : List Effect) : Prop :=
  ∀ timestamp, .attempt timestamp ∈ log → ∃ later, addSeconds timestamp C.backoff = .ok later

instance (log : List Effect) : Decidable (AttemptsFit C log) :=
  decidable_of_iff ((log.all fun
      | .attempt timestamp => (addSeconds timestamp C.backoff).toBool
      | _ => true) = true) <| by
    rw [List.all_eq_true]
    constructor
    · intro h timestamp hmem
      have hfits := h _ hmem
      dsimp only at hfits
      cases hnext : addSeconds timestamp C.backoff with
      | ok later => exact ⟨later, rfl⟩
      | error e => simp [hnext, Except.toBool] at hfits
    · intro h effect hmem
      cases effect with
      | attempt timestamp =>
          obtain ⟨later, hlater⟩ := h timestamp hmem
          simp [hlater, Except.toBool]
      | _ => rfl

/-- A `recovery` hold has a restart pending. -/
def Pending (c : Cell σ) : Prop :=
  AttemptsFit C c.log → c.inst.Recovering → c.inst.nextRestartAt ≠ none

variable {C} in
theorem AttemptsFit.of_suffix {log log' : List Effect} (h : AttemptsFit C log')
    (hsuffix : log <:+ log') : AttemptsFit C log :=
  fun timestamp hmem => h timestamp (hsuffix.subset hmem)

/-- The first attempt of `_ensure_running_locked`. -/
def firstAttempt (fuel : ℕ) (reason : String) : Prog σ Unit := do
  let declaration ← declaration C
  resolveDriver C
  transition C .starting reason none
  startAttempt C fuel declaration reason

/-- The driver brings the runtime up at the first attempt. -/
def Revives (c : Cell σ) : Prop :=
  ∃ fuel reason c', (firstAttempt C fuel reason).run c = some (.ok (), c')

variable {C} in
/-- Where the driver does not bring the runtime up, no first attempt returns. -/
theorem wlp_firstAttempt_of_not_revives {c : Cell σ} (h : ¬ Revives C c) (fuel : ℕ)
    (reason : String) :
    wlp (firstAttempt C fuel reason) (fun _ _ => False) (fun _ _ => True) c := by
  unfold wlp
  split
  · trivial
  · rename_i c' hrun
    exact h ⟨fuel, reason, c', hrun⟩
  · trivial

/-! ## One attempt -/

section Attempt

variable {C} {c : Cell σ}

theorem awaitReady_error {d : Declaration} {readiness : Readiness} {timeout : ℕ} {deadline : ℚ}
    (fuel : ℕ) (c : Cell σ) :
    wlp (awaitReady C d readiness timeout deadline fuel) (fun _ _ => True)
      (fun e _ => e.cls ≠ .invalidTransitionError) c := by
  induction fuel generalizing c with
  | zero => trivial
  | succ fuel ih =>
      simp only [awaitReady, wlp_bind, driverIsReady, wlp_callDriver, wlp_ite, wlp_pure,
        wlp_monotonic, wlp_throw, wlp_sleep]
      exact ⟨fun ready _ => ⟨fun _ => trivial, fun _ => ⟨fun _ => by simp, fun _ => ih _⟩⟩,
        fun message _ => by simp⟩

/-- What a started service looks like. -/
structure Started (c : Cell σ) : Prop where
  state : c.inst.state = .running
  notPending : c.inst.nextRestartAt = none
  notExhausted : c.inst.restartExhausted = false

theorem startAttempt_core {d : Declaration} {reason : String} (fuel : ℕ)
    (hstate : c.inst.state = .starting) :
    wlp (startAttempt C fuel d reason)
      (fun _ c' => Started c' ∧ c'.inst.holds = c.inst.holds)
      (fun e c' => e.cls ≠ .invalidTransitionError ∧ SameCore c.inst c'.inst) c := by
  have hdrive : wlp (driverStart C d) (fun _ c' => SameCore c.inst c'.inst)
      (fun e c' => e.cls ≠ .invalidTransitionError ∧ SameCore c.inst c'.inst) c := by
    refine wlp_callDriver.mpr ⟨fun _ _ => ⟨rfl, rfl, rfl, rfl, rfl, rfl⟩, fun message _ => ?_⟩
    exact ⟨by simp, rfl, rfl, rfl, rfl, rfl, rfl⟩
  refine wlp_bind.mpr <| wlp_mono hdrive (fun _ c₁ h₁ => ?_) fun _ _ h' => h'
  refine wlp_bind.mpr <| wlp_get.mpr <| wlp_bind.mpr <| wlp_monotonic.mpr <| wlp_bind.mpr ?_
  have hsame : ∀ c₂, Footprint C Touch.driving
      (c₁.withEnv (C.environment.monotonic c₁.env).2) c₂ → SameCore c.inst c₂.inst :=
    fun c₂ hfoot => by
      have hsame := sameCore_of_driving hfoot
      exact h₁.trans hsame
  refine wlp_mono (wlp_and (awaitReady_error fuel _)
    ((within_awaitReady Touch.observing_le_driving fuel) _)) (fun _ c₂ h₂ => ?_)
    fun e c₂ h₂ => ⟨h₂.1, hsame c₂ h₂.2⟩
  have hcore := hsame c₂ h₂.2
  have hstarting : c₂.inst.state = .starting := hcore.state.trans hstate
  refine wlp_bind.mpr <| wlp_transition.mpr ⟨fun _ => ?_, fun e he => ?_⟩
  · refine wlp_bind.mpr <| wlp_transition.mpr ⟨fun _ => ?_, fun e he => ?_⟩
    · refine wlp_bind.mpr <| wlp_now.mpr <| wlp_bind.mpr <| wlp_modifyInst.mpr <|
        wlp_persist.mpr ⟨⟨rfl, rfl, rfl⟩, ?_⟩
      simpa using hcore.holds
    · exact absurd (cls_of_validateTransition_eq_error he).2 (by simp [transitions])
  · exact absurd (cls_of_validateTransition_eq_error he).2 (by simp [hstarting, transitions])

/-- An attempt either brings the service up or leaves the core of the instance alone. -/
theorem startAttempt_spec (fuel : ℕ) (d : Declaration) (reason : String)
    (hstate : c.inst.state = .starting) :
    wlp (startAttempt C fuel d reason)
      (fun _ c' => Started c' ∧ c'.inst.holds = c.inst.holds)
      (fun e c' => (e.cls ≠ .invalidTransitionError ∧ SameCore c.inst c'.inst) ∧
        c.log <:+ c'.log) c :=
  wlp_mono (wlp_and (startAttempt_core fuel hstate)
    (within_startAttempt (le_refl Touch.recovering) fuel c)) (fun _ _ h => h.1)
    fun _ _ h => ⟨h.1, suffix_of_footprint h.2⟩

/-- Cleaning up after an attempt leaves the core of the instance alone. -/
theorem cleanUp_spec (d : Declaration) (c : Cell σ) :
    wlp (tryCatch (cleanUp C d) fun _ => pure ()) (fun _ c' => SameCore c.inst c'.inst ∧
      c.log <:+ c'.log) (fun _ _ => False) c := by
  have hwithin := within_cleanUp (C := C) (d := d) Touch.observing_le_driving c
  refine wlp_tryCatch.mpr <| wlp_mono hwithin (fun _ _ h' => ?_) fun _ _ h' => ?_
  · exact ⟨sameCore_of_driving h', suffix_of_footprint h'⟩
  · exact wlp_pure.mpr ⟨sameCore_of_driving h', suffix_of_footprint h'⟩

/-- Marking as failed, from a state that may fail. -/
theorem markFailedLocked_spec {error reason : String}
    (hstate : c.inst.state = .failed ∨ .failed ∈ transitions c.inst.state) :
    wlp (markFailedLocked C error reason) (fun _ c' => c'.inst.state = .failed ∧
      c'.inst.holds = c.inst.holds ∧ c'.inst.nextRestartAt = c.inst.nextRestartAt ∧
      c.log <:+ c'.log) (fun _ _ => False) c := by
  refine wlp_bind.mpr <| wlp_get.mpr <| wlp_bind.mpr <| wlp_whenever.mpr
    ⟨fun hne => wlp_transition.mpr ⟨fun hmem => ?_, fun e he => ?_⟩, fun hfailed => ?_⟩
  · refine wlp_bind.mpr <| wlp_modifyInst.mpr <| wlp_persist.mpr ⟨rfl, rfl, rfl, ?_⟩
    exact (suffix_of_footprint (footprint_moved (C := C) (le_refl Touch.moving) hmem)).trans
      (List.suffix_cons _ _)
  · exact (cls_of_validateTransition_eq_error he).2 (hstate.resolve_left hne)
  · exact wlp_bind.mpr <| wlp_modifyInst.mpr <| wlp_persist.mpr
      ⟨not_not.mp hfailed, rfl, rfl, List.suffix_cons _ _⟩

end Attempt

/-! ## The recursion -/

/-- How `_ensure_running_locked` returns: the service ran, or it was started,
and a `recovery` hold that is left was there before a first attempt that succeeded. -/
def Ensured (c c' : Cell σ) : Prop :=
  (c.inst.state ∈ activeStates ∧ c' = c) ∨
    (Started c' ∧ (c'.inst.Recovering → c.inst.Recovering ∧ Revives C c))

/-- How it raises: the core of the instance is as it was, or it failed with a
restart pending for every `recovery` hold. -/
structure NotEnsured (e : Exn) (c c' : Cell σ) : Prop where
  valid : e.cls ≠ .invalidTransitionError
  outcome : (SameCore c.inst c'.inst ∧ c.log <:+ c'.log) ∨
    (c'.inst.state = .failed ∧ (Pending C c → Pending C c'))

section Recursion

variable {C} {c : Cell σ}

theorem Cell.suffix_of_moved {log log' : List Effect} {c : Cell σ} {newState : LifecycleState}
    {reason : String} {error : Option String} (h : log <:+ c.log)
    (h' : (c.moved C newState reason error).log <:+ log') : log <:+ log' :=
  (h.trans ⟨[_, _, _], rfl⟩).trans h'

theorem Pending.of_sameCore {c' : Cell σ} (h : Pending C c) (hcore : SameCore c.inst c'.inst)
    (hlog : c.log <:+ c'.log) : Pending C c' := by
  intro hfit hrecovering
  rw [hcore.nextRestartAt]
  refine h (hfit.of_suffix hlog) ?_
  unfold InstanceState.Recovering at hrecovering ⊢
  rwa [← hcore.holds]

theorem Pending.of_next {c : Cell σ} (hnext : c.inst.nextRestartAt ≠ none) : Pending C c :=
  fun _ _ => hnext

theorem Pending.of_not_recovering {c : Cell σ} (h : ¬ c.inst.Recovering) : Pending C c :=
  fun _ hrecovering => absurd hrecovering h

/-- Recovering from a failure: the service runs without a `recovery` hold, or it
stays failed with a restart pending for the hold. -/
theorem restartAfterFailureLocked_spec {ensureRunning : Prog σ Unit}
    (hensure : ∀ c : Cell σ, wlp ensureRunning (fun _ c' => Ensured C c c')
      (fun e c' => NotEnsured C e c c') c)
    (hfailed : c.inst.state = .failed) :
    wlp (restartAfterFailureLocked C ensureRunning)
      (fun _ c' => (c'.inst.state = .failed ∧ (Pending C c → Pending C c')) ∨
        (Started c' ∧ ¬ c'.inst.Recovering))
      (fun e c' => e.cls ≠ .invalidTransitionError ∧ c'.inst.state = .failed ∧
        (Pending C c → Pending C c')) c := by
  refine wlp_bind.mpr <| wlp_get.mpr <| wlp_ite.mpr
    ⟨fun _ => wlp_pure.mpr (.inl ⟨hfailed, id⟩), fun _ => ?_⟩
  refine wlp_bind.mpr <| wlp_now.mpr <| wlp_bind.mpr <| wlp_ofExcept.mpr
    ⟨fun prior _ => ?_, fun e he => ⟨?_, hfailed, fun hpending =>
      hpending.of_sameCore ⟨rfl, rfl, rfl, rfl, rfl, rfl⟩ (List.suffix_cons _ _)⟩⟩
  · refine wlp_bind.mpr <| wlp_modifyInst.mpr <| wlp_ite.mpr ⟨fun _ => ?_, fun _ => ?_⟩
    · -- the budget is exhausted
      refine wlp_bind.mpr <| wlp_modifyInst.mpr <| wlp_bind.mpr <| wlp_persist.mpr <|
        wlp_throw.mpr ⟨by simp, hfailed, fun _ => .of_not_recovering ?_⟩
      simp [InstanceState.Recovering]
    · refine wlp_bind.mpr <| wlp_modifyInst.mpr <| wlp_bind.mpr <| wlp_record.mpr <|
        wlp_bind.mpr <| wlp_ofExcept.mpr ⟨fun next _ => ?_, fun e he => ?_⟩
      · -- a restart is pending; without backoff it is made at once
        refine wlp_bind.mpr <| wlp_modifyInst.mpr <| wlp_bind.mpr <| wlp_persist.mpr <|
          wlp_whenever.mpr ⟨fun _ => ?_, fun _ => .inl ⟨hfailed, fun _ => .of_next (by simp)⟩⟩
        refine wlp_bind.mpr <| wlp_mono (hensure _) (fun _ c₁ h₁ => ?_)
          fun e c₁ h₁ => ⟨h₁.valid, ?_⟩
        · refine wlp_bind.mpr <| wlp_get.mpr ?_
          rcases h₁ with ⟨hactive, _⟩ | ⟨hstarted, _⟩
          · exact absurd hactive (by simp [hfailed, activeStates])
          · refine wlp_whenever.mpr ⟨fun _ => ?_, fun hno => absurd hstarted.state hno⟩
            refine wlp_bind.mpr <| wlp_modifyInst.mpr <| wlp_persist.mpr <| .inr
              ⟨⟨hstarted.state, hstarted.notPending, hstarted.notExhausted⟩, ?_⟩
            simp [InstanceState.Recovering]
        · rcases h₁.outcome with ⟨hcore, _⟩ | ⟨hstate, h'⟩
          · exact ⟨hcore.state.trans hfailed, fun _ => .of_next (by rw [hcore.nextRestartAt]; simp)⟩
          · exact ⟨hstate, fun _ => h' (.of_next (by simp))⟩
      · -- the sum overflows although every recorded attempt fits
        have hcls : e.cls ≠ .invalidTransitionError := by
          unfold addSeconds at he
          split at he <;> cases he
          simp
        refine ⟨hcls, hfailed, fun _ hfit _ => ?_⟩
        obtain ⟨later, hlater⟩ := hfit (C.environment.now c.env).1 (by simp)
        simp only [lifecycle_restartBackoffSeconds] at he
        exact absurd (hlater.symm.trans he) (by simp)
  · unfold recentRestarts at he
    split at he
    · cases he
    · split at he <;> cases he
      simp

theorem ensureNested_spec (fuel depth : ℕ) (reason : String) (c : Cell σ) :
    wlp (ensureNested C fuel depth reason) (fun _ c' => Ensured C c c')
      (fun e c' => NotEnsured C e c c') c := by
  induction depth generalizing reason c with
  | zero => exact wlp_throw.mpr ⟨by simp, .inl ⟨.refl _, List.suffix_refl _⟩⟩
  | succ depth ih =>
      refine wlp_bind.mpr <| wlp_get.mpr <| wlp_ite.mpr
        ⟨fun hactive => wlp_pure.mpr (.inl ⟨hactive, rfl⟩), fun hactive => ?_⟩
      refine wlp_ite.mpr ⟨fun _ => wlp_throw.mpr
        ⟨by simp, .inl ⟨.refl _, List.suffix_refl _⟩⟩, fun hbusy => ?_⟩
      have hstart : .starting ∈ transitions c.inst.state := by
        cases hstate : c.inst.state <;>
          simp_all [activeStates, transitions]
      refine wlp_bind.mpr <| wlp_declaration.mpr ⟨fun d hd => ?_, fun _ _ =>
        ⟨by simp, .inl ⟨.refl _, List.suffix_refl _⟩⟩⟩
      refine wlp_bind.mpr <| wlp_resolveDriver.mpr ⟨fun hresolve => ?_, fun _ _ =>
        ⟨by simp, .inl ⟨⟨rfl, rfl, rfl, rfl, rfl, rfl⟩, List.suffix_cons _ _⟩⟩⟩
      refine wlp_bind.mpr <| wlp_transition.mpr ⟨fun hmem => ?_, fun e he =>
        absurd hstart (cls_of_validateTransition_eq_error he).2⟩
      -- the attempt only returns where the driver brings the runtime up
      have hrevives : ¬ Revives C c → wlp (startAttempt C fuel d reason) (fun _ _ => False)
          (fun _ _ => True) (((c.withEnv (C.environment.resolve c.env).2).note .resolve).moved C
            .starting reason none) := fun hno =>
        (wlp_transition.mp <| wlp_bind.mp <| (wlp_resolveDriver.mp <| wlp_bind.mp <|
          (wlp_declaration.mp <| wlp_bind.mp <|
            wlp_firstAttempt_of_not_revives hno fuel reason).1 d hd).1 hresolve).1 hmem
      have hattempt : wlp (startAttempt C fuel d reason)
          (fun _ c₁ => (Started c₁ ∧ c₁.inst.holds = c.inst.holds) ∧ Revives C c)
          (fun e c₁ => e.cls ≠ .invalidTransitionError ∧
            SameCore { c.inst with state := .starting } c₁.inst ∧ c.log <:+ c₁.log)
          (((c.withEnv (C.environment.resolve c.env).2).note .resolve).moved C
            .starting reason none) := by
        have hstarting : (((c.withEnv (C.environment.resolve c.env).2).note .resolve).moved C
          .starting reason none).inst.state = .starting := rfl
        have hspec := startAttempt_spec (C := C) fuel d reason hstarting
        by_cases hrev : Revives C c
        · exact wlp_mono hspec (fun _ _ h' => ⟨h', hrev⟩) fun _ _ h' =>
            ⟨h'.1.1, h'.1.2, Cell.suffix_of_moved (List.suffix_cons _ _) h'.2⟩
        · exact wlp_mono (wlp_and hspec (hrevives hrev)) (fun _ _ h' => h'.2.elim) fun _ _ h' =>
            ⟨h'.1.1.1, h'.1.1.2, Cell.suffix_of_moved (List.suffix_cons _ _) h'.1.2⟩
      refine wlp_tryCatch.mpr <| wlp_mono hattempt (fun _ c₁ h₁ => ?_) fun e c₁ h₁ => ?_
      · refine .inr ⟨h₁.1.1, fun hrecovering => ⟨?_, h₁.2⟩⟩
        unfold InstanceState.Recovering at hrecovering ⊢
        rwa [← h₁.1.2]
      · -- the attempt failed: clean up, mark as failed, recover
        obtain ⟨hcls, hcore₁, hlog₁⟩ := h₁
        refine wlp_bind.mpr <| wlp_mono (cleanUp_spec d c₁) (fun _ c₂ h₂ => ?_)
          fun _ _ h' => h'.elim
        have hcore₂ := hcore₁.trans h₂.1
        refine wlp_bind.mpr <| wlp_mono (markFailedLocked_spec (.inr (by
          rw [hcore₂.state]; simp [transitions]))) (fun _ c₃ h₃ => ?_) fun _ _ h' => h'.elim
        obtain ⟨hfailed, hholds, hnext, hlog₃⟩ := h₃
        have hpending₃ : Pending C c → Pending C c₃ := by
          intro hpending hfit hrecovering
          rw [hnext, hcore₂.nextRestartAt]
          refine hpending (hfit.of_suffix ((hlog₁.trans h₂.2).trans hlog₃)) ?_
          unfold InstanceState.Recovering at hrecovering ⊢
          rwa [hholds, hcore₂.holds] at hrecovering
        refine wlp_bind.mpr <| wlp_mono (restartAfterFailureLocked_spec (ih "recovery") hfailed)
          (fun _ c₄ h₄ => ?_) fun e' c₄ h₄ => ⟨h₄.1, .inr ⟨h₄.2.1, h₄.2.2 ∘ hpending₃⟩⟩
        refine wlp_bind.mpr <| wlp_get.mpr <| wlp_whenever.mpr ⟨fun hstate => ?_, fun hstate => ?_⟩
        · rcases h₄ with h₄ | h₄
          · exact wlp_throw.mpr ⟨hcls, .inr ⟨h₄.1, h₄.2 ∘ hpending₃⟩⟩
          · exact absurd (h₄.1.state.symm.trans hstate) (by simp)
        · rcases h₄ with h₄ | h₄
          · exact absurd h₄.1 hstate
          · exact .inr ⟨h₄.1, fun hrecovering => absurd hrecovering h₄.2⟩

/-- The specification of `_ensure_running_locked`. -/
theorem ensureRunningLocked_spec (fuel : ℕ) (reason : String) (c : Cell σ) :
    wlp (ensureRunningLocked C fuel reason) (fun _ c' => Ensured C c c')
      (fun e c' => NotEnsured C e c c') c := ensureNested_spec fuel _ reason c

end Recursion

/-! ## Stopping and idling -/

section Stopping

variable {C} {c : Cell σ}

theorem cls_of_addSeconds_eq_error {t : DateTime} {seconds : ℚ} {e : Exn}
    (h : addSeconds t seconds = .error e) : e.cls ≠ .invalidTransitionError := by
  unfold addSeconds at h
  split at h <;> cases h
  simp

theorem scheduleIdleLocked_error (c : Cell σ) :
    wlp (scheduleIdleLocked C) (fun _ _ => True) (fun e _ => e.cls ≠ .invalidTransitionError)
      c := by
  simp only [scheduleIdleLocked, wlp_bind, wlp_get, wlp_ite, wlp_pure, wlp_now, wlp_ofExcept,
    wlp_modifyInst, wlp_persist]
  exact ⟨fun _ => trivial, fun _ => ⟨fun _ => trivial, fun _ => ⟨fun _ _ => trivial,
    fun e he => cls_of_addSeconds_eq_error he⟩⟩⟩

/-- Stopping a running service tries no edge that the lifecycle graph does not have. -/
theorem stopLocked_error {reason : String} (hstate : c.inst.state = .running) :
    wlp (stopLocked C reason) (fun _ _ => True) (fun e _ => e.cls ≠ .invalidTransitionError)
      c := by
  refine wlp_bind.mpr <| wlp_get.mpr <| wlp_ite.mpr ⟨fun h => by simp [hstate] at h,
    fun _ => wlp_ite.mpr ⟨fun h => by simp [hstate] at h, fun _ => wlp_ite.mpr
      ⟨fun h => by simp [hstate, activeStates] at h, fun _ => ?_⟩⟩⟩
  refine wlp_bind.mpr <| wlp_transition.mpr ⟨fun _ => ?_, fun e he =>
    absurd (by simp [hstate, transitions]) (cls_of_validateTransition_eq_error he).2⟩
  refine wlp_tryCatch.mpr <| wlp_mono (Q := fun _ _ => True)
    (X := fun e c' => e.cls ≠ .invalidTransitionError ∧ c'.inst.state = .stopping) ?_
    (fun _ _ _ => trivial) fun e c' h' => ?_
  · refine wlp_bind.mpr <| wlp_resolveDriver.mpr ⟨fun _ => ?_, fun _ _ => ⟨by simp, rfl⟩⟩
    refine wlp_bind.mpr <| wlp_declaration.mpr ⟨fun d _ => ?_, fun _ _ => ⟨by simp, rfl⟩⟩
    refine wlp_bind.mpr <| wlp_callDriver.mpr ⟨fun _ _ => ?_, fun _ _ => ⟨by simp, rfl⟩⟩
    refine wlp_bind.mpr <| wlp_transition.mpr ⟨fun _ => ?_, fun e he =>
      absurd (by simp [transitions]) (cls_of_validateTransition_eq_error he).2⟩
    exact wlp_bind.mpr <| wlp_now.mpr <| wlp_bind.mpr <| wlp_modifyInst.mpr <|
      wlp_persist.mpr trivial
  · exact wlp_bind.mpr <| wlp_mono (markFailedLocked_spec (.inr (by simp [h'.2, transitions])))
      (fun _ _ _ => wlp_throw.mpr h'.1) fun _ _ h => h.elim

end Stopping

end UltimateBBSBox.Supervisor
