import UltimateBBSBox.Supervisor.Budget
import UltimateBBSBox.Supervisor.Refusals

/-!
# What is alive after a stop

`stop` calls the driver only where the service is active.  From `failed` it
writes `stopped` and from `stopped` it writes nothing, whatever the runtime
does: a maintenance job that failed, a `driver.stop` that raised or a failure
that was only reported leave a live runtime behind a failed service, and the
reconciliation after such a stop adopts it again.

`Runtime` is a world in which the runtime is alive or not, the driver's status
tells which, and a `driver.stop` that returns has killed it.
-/

namespace UltimateBBSBox.Supervisor

open Act

variable {σ : Type} {C : Context σ} {c : Cell σ}

/-- The runtime behind a driver. -/
structure Runtime (E : Environment σ) where
  alive : σ → Bool
  now : ∀ s, alive (E.now s).2 = alive s
  resolve : ∀ s, alive (E.resolve s).2 = alive s
  status : ∀ inst d s, (E.status inst d s).result = .ok (alive s)
  stop : ∀ inst d s, (E.stop inst d s).result = .ok () → alive (E.stop inst d s).env = false

/-- `driver.status` reports the runtime not alive. -/
def ReportsDead (C : Context σ) (c : Cell σ) : Prop :=
  ∀ d, (C.environment.status c.inst d c.env).result = .ok false

/-- The service came to run without a start: its runtime was adopted. -/
def Adopts (c c' : Cell σ) : Prop := c'.inst.state = .running ∧ starts c'.log = starts c.log

/-! ## The stop -/

section Stop

variable (R : Runtime C.environment)

/-- Only an active service's runtime is killed by a stop that returns. -/
theorem stopLocked_alive {reason : String} :
    wlp (stopLocked C reason) (fun _ c' => c'.inst.state = .stopped ∧
        R.alive c'.env = if c.inst.state ∈ activeStates then false else R.alive c.env)
      (fun _ _ => c.inst.state ∉ [LifecycleState.stopped, .failed]) c := by
  refine wlp_bind.mpr <| wlp_get.mpr <| wlp_ite.mpr ⟨fun hstopped => ?_, fun hstopped =>
    wlp_ite.mpr ⟨fun hfailed => ?_, fun hfailed => wlp_ite.mpr ⟨fun _ => ?_, fun hactive => ?_⟩⟩⟩
  · exact wlp_persist.mpr ⟨hstopped, by simp [hstopped, activeStates, Cell.saved]⟩
  · refine wlp_transition.mpr ⟨fun _ => ⟨rfl, ?_⟩, fun _ he =>
      absurd (by simp [hfailed, transitions]) (cls_of_validateTransition_eq_error he).2⟩
    rw [if_neg (by simp [hfailed, activeStates])]
    exact R.now c.env
  · exact wlp_throw.mpr (by simp [hstopped, hfailed])
  · have hneither : c.inst.state ∉ [LifecycleState.stopped, .failed] := by simp [hstopped, hfailed]
    rw [if_pos (not_not.mp hactive)]
    refine wlp_bind.mpr <| wlp_transition.mpr ⟨fun _ => ?_, fun _ _ => hneither⟩
    refine wlp_tryCatch.mpr <| wlp_mono (X := fun _ _ => True) ?_ (fun _ _ h => h) fun e c' _ => ?_
    · refine wlp_bind.mpr <| wlp_resolveDriver.mpr ⟨fun _ => ?_, fun _ _ => trivial⟩
      refine wlp_bind.mpr <| wlp_declaration.mpr ⟨fun d _ => ?_, fun _ _ => trivial⟩
      refine wlp_bind.mpr <| wlp_callDriver.mpr ⟨fun _ hreturned => ?_, fun _ _ => trivial⟩
      have hdead := R.stop _ _ _ hreturned
      refine wlp_bind.mpr <| wlp_transition.mpr ⟨fun _ => ?_, fun _ _ => trivial⟩
      refine wlp_bind.mpr <| wlp_now.mpr <| wlp_bind.mpr <| wlp_modifyInst.mpr <|
        wlp_persist.mpr ⟨rfl, ?_⟩
      exact (R.now _).trans ((R.now _).trans hdead)
    · have hmarked : wlp (markFailedLocked C e.message "stop_failure") (fun _ _ => True)
          (fun _ _ => True) c' := wlp_true
      exact wlp_bind.mpr <| wlp_mono hmarked (fun _ _ _ => wlp_throw.mpr hneither)
        fun _ _ _ => hneither

theorem stop_alive (force : Bool) (reason : String) :
    wlp (stop C force reason) (fun _ c' => c'.inst.state = .stopped ∧
        R.alive c'.env = if c.inst.state ∈ activeStates then false else R.alive c.env)
      (fun _ _ => Refused force reason c ∨ c.inst.state ∉ [LifecycleState.stopped, .failed]) c := by
  have hstate : (c.inst.yielded force reason).state = c.inst.state := by
    unfold InstanceState.yielded
    split <;> split <;> rfl
  refine (wlp_stop force reason).mpr <| wlp_bind.mpr <| wlp_get.mpr <| wlp_bind.mpr <|
    wlp_whenever.mpr ⟨fun hheld => wlp_throw.mpr (.inl (.inl hheld)), fun _ => ?_⟩
  refine wlp_bind.mpr <| wlp_mono (stopLocked_alive R) (fun _ c' h' => ?_) fun _ _ h' => ?_
  · rw [Cell.mapInst_inst, hstate] at h'
    exact wlp_bind.mpr <| wlp_get.mpr <| wlp_pure.mpr h'
  · rw [Cell.mapInst_inst, hstate] at h'
    exact .inr h'

end Stop

/-! ## The reconciliation behind it -/

section Reconcile

theorem starts_le_of_suffix {log log' : List Effect} (h : log <:+ log') : starts log ≤ starts log' :=
  h.sublist.countP_le

/-- What an attempt does behind its call of the driver. -/
theorem within_startAttempt_tail {d : Declaration} {reason : String} (fuel : ℕ) :
    Within (Footprint C Touch.recovering) (do
      let c ← get
      let lifecycle := C.lifecycle c
      let timeout := lifecycle.startupTimeoutSeconds.getD 60
      let readiness := lifecycle.readiness.getD ⟨.processAlive, none⟩
      let deadline := (← monotonic C) + timeout
      awaitReady C d readiness timeout deadline fuel
      transition C .ready reason none
      transition C .running reason none
      let started ← now C
      modifyInst fun inst =>
        { inst with
          lastStartAt := some started
          lastFailure := none
          nextRestartAt := none
          restartExhausted := false }
      persist) :=
  within_bind within_get fun _ =>
    within_bind (within_monotonic Touch.observing_le_recovering) fun _ =>
      within_bind (within_awaitReady Touch.observing_le_recovering fuel) fun _ =>
        within_bind (within_transition Touch.moving_le_recovering) fun _ =>
          within_bind (within_transition Touch.moving_le_recovering) fun _ =>
            within_bind (within_now Touch.observing_le_recovering) fun started =>
              within_bind (fun _ => wlp_modifyInst.mpr <|
                .single (show Touch.recovering .recovered from trivial) (.recovered started))
                fun _ =>
                  within_persist Touch.observing_le_recovering

/-- Every attempt calls `driver.start`. -/
theorem startAttempt_starts {d : Declaration} {reason : String} (fuel : ℕ) (c : Cell σ) :
    wlp (startAttempt C fuel d reason) (fun _ c' => starts c.log < starts c'.log)
      (fun _ c' => starts c.log < starts c'.log) c := by
  have hcall : ∀ reply : Reply σ Unit, starts c.log < starts (c.afterCall .start reply).log := by
    intro reply
    rw [Cell.afterCall_log]
    simp [starts]
  refine wlp_bind.mpr <| wlp_callDriver.mpr ⟨fun _ _ => ?_, fun _ _ => hcall _⟩
  exact wlp_mono (within_startAttempt_tail fuel _)
    (fun _ _ hfoot => (hcall _).trans_le (starts_le_of_suffix (suffix_of_footprint hfoot)))
    fun _ _ hfoot => (hcall _).trans_le (starts_le_of_suffix (suffix_of_footprint hfoot))

/-- A service that was not active comes to run by a start. -/
theorem ensureRunningLocked_starts (fuel : ℕ) (reason : String)
    (hstate : c.inst.state ∉ activeStates) :
    wlp (ensureRunningLocked C fuel reason) (fun _ c' => starts c.log < starts c'.log)
      (fun _ c' => c'.inst.state ≠ .running) c := by
  have hraised : wlp (ensureRunningLocked C fuel reason) (fun _ _ => True)
      (fun _ c' => c'.inst.state ≠ .running) c :=
    wlp_mono (ensureRunningLocked_spec (C := C) fuel reason c) (fun _ _ _ => trivial) fun e c' h => by
      rcases h.outcome with ⟨hcore, _⟩ | ⟨hfailed, _⟩
      · rw [hcore.state]
        intro hrunning
        exact hstate (by simp [hrunning, activeStates])
      · simp [hfailed]
  refine wlp_mono (wlp_and (?_ : wlp _ (fun _ c' => starts c.log < starts c'.log)
    (fun _ _ => True) c) hraised) (fun _ _ h => h.1) fun _ _ h => h.2
  refine wlp_bind.mpr <| wlp_get.mpr <| wlp_ite.mpr ⟨fun hactive => absurd hactive hstate,
    fun _ => wlp_ite.mpr ⟨fun _ => wlp_throw.mpr trivial, fun _ => ?_⟩⟩
  refine wlp_bind.mpr <| wlp_declaration.mpr ⟨fun d _ => ?_, fun _ _ => trivial⟩
  refine wlp_bind.mpr <| wlp_resolveDriver.mpr ⟨fun _ => ?_, fun _ _ => trivial⟩
  refine wlp_bind.mpr <| wlp_transition.mpr ⟨fun _ => ?_, fun _ _ => trivial⟩
  generalize hc₁ : Cell.moved C _ _ _ _ = c₁
  have hsame : starts c₁.log = starts c.log := by
    rw [← hc₁]
    simp [Cell.moved, starts]
  refine wlp_tryCatch.mpr <| wlp_mono (startAttempt_starts fuel c₁) (fun _ _ h => hsame ▸ h)
    fun exc c₂ h₂ => ?_
  -- nothing that is done about a failed attempt takes the call back
  rw [hsame] at h₂
  have hrest : Within (Footprint C Touch.recovering) (do
      tryCatch (cleanUp C d) fun _ => pure ()
      markFailedLocked C exc.message "start_failure"
      restartAfterFailureLocked C (ensureNested C fuel C.nestingLimit "recovery")
      let c ← get
      whenever (c.inst.state = .failed) (throw exc)) :=
    within_bind (within_tryCatch (within_cleanUp Touch.observing_le_recovering)
      fun _ => within_pure _) fun _ =>
        within_bind (within_markFailedLocked Touch.moving_le_recovering) fun _ =>
          within_bind (within_restartAfterFailureLocked (le_refl _)
            (within_ensureNested (le_refl _) fuel _ "recovery")) fun _ =>
              within_bind within_get fun _ => within_whenever fun _ => within_throw exc
  exact wlp_mono (hrest c₂) (fun _ _ hfoot =>
    h₂.trans_le (starts_le_of_suffix (suffix_of_footprint hfoot))) fun _ _ _ => trivial

/-- The reconciliation of a stopped service whose runtime is dead adopts nothing. -/
theorem reconcileLocked_not_adopts (R : Runtime C.environment) (fuel : ℕ)
    (hstopped : c.inst.state = .stopped) (hdead : R.alive c.env = false) :
    wlp (reconcileLocked C fuel) (fun _ c' => ¬ Adopts c c') (fun _ c' => ¬ Adopts c c') c := by
  have hnot : ∀ c' : Cell σ, c'.inst.state = .stopped → ¬ Adopts c c' := by
    intro c' h hadopts
    simp [h, Adopts] at hadopts
  refine (wlp_reconcileLocked C).mpr ?_
  have hlook : wlp (reconcileLook C)
      (fun alive c' => alive = false ∧ c'.inst.state = .stopped ∧ starts c'.log = starts c.log)
      (fun _ c' => c'.inst.state = .stopped) c := by
    have hholds : wlp (reconcileHolds C) (fun _ c' => c'.inst.state = .stopped ∧
        R.alive c'.env = false ∧ c'.log = c.log) (fun _ _ => False) c := by
      refine wlp_bind.mpr <| wlp_get.mpr <| wlp_bind.mpr <| wlp_modifyInst.mpr ?_
      exact wlp_whenever.mpr ⟨fun _ => wlp_modifyInst.mpr ⟨hstopped, hdead, rfl⟩,
        fun _ => ⟨hstopped, hdead, rfl⟩⟩
    refine wlp_bind.mpr <| wlp_mono hholds (fun _ c₁ h₁ => ?_) fun _ _ h => h.elim
    refine wlp_bind.mpr <| wlp_resolveDriver.mpr ⟨fun _ => ?_, fun _ _ => h₁.1⟩
    refine wlp_bind.mpr <| wlp_declaration.mpr ⟨fun d _ => ?_, fun _ _ => h₁.1⟩
    refine wlp_callDriver.mpr ⟨fun alive halive => ⟨?_, h₁.1, ?_⟩, fun _ _ => h₁.1⟩
    · have hreply := (R.status _ _ _).symm.trans halive
      rw [Except.ok.injEq] at hreply
      exact hreply.symm.trans ((R.resolve c₁.env).trans h₁.2.1)
    · rw [Cell.afterCall_log, Cell.note_log, Cell.withEnv_log, h₁.2.2]
      simp [starts]
  refine wlp_mono hlook (fun alive c₁ h₁ => ?_) fun _ _ h => hnot _ h
  obtain ⟨rfl, hstopped₁, hstarts₁⟩ := h₁
  have hstate : wlp (reconcileState C fuel false) (fun _ c' => c' = c₁) (fun _ _ => False) c₁ := by
    refine wlp_bind.mpr <| wlp_get.mpr ?_
    simp [hstopped₁, staleStates]
  -- scheduling and saving come last and start nothing
  have htail : ∀ (P : Cell σ → Prop), (∀ c' c'', Footprint C Touch.observing c' c'' → P c' → P c'') →
      ∀ c', P c' → wlp (do
        scheduleIdleLocked C
        persist) (fun _ => P) (fun _ => P) c' := fun P hclosed c' hP =>
    (within_bind (within_scheduleIdleLocked (le_refl Touch.observing)) fun _ =>
      within_persist (le_refl Touch.observing)).wlp_of_closed hclosed hP
  refine wlp_bind.mpr <| wlp_mono hstate (fun _ c₂ h₂ => ?_) fun _ _ h => h.elim
  subst h₂
  refine wlp_bind.mpr <| wlp_get.mpr <| wlp_bind.mpr <| wlp_whenever.mpr
    ⟨fun h => by simp at h, fun _ => ?_⟩
  have hstart : wlp (reconcileStart C fuel)
      (fun _ c' => c'.inst.state = .stopped ∨ starts c.log < starts c'.log)
      (fun _ c' => c'.inst.state ≠ .running) c₂ := by
    refine wlp_bind.mpr <| wlp_get.mpr <| wlp_ite.mpr ⟨fun _ => ?_, fun _ => wlp_ite.mpr
      ⟨fun h => by simp [hstopped₁] at h, fun _ => wlp_pure.mpr (.inl hstopped₁)⟩⟩
    exact wlp_mono (ensureRunningLocked_starts fuel _ (by simp [hstopped₁, activeStates]))
      (fun _ _ h => .inr (hstarts₁ ▸ h)) fun _ _ h => h
  refine wlp_bind.mpr <| wlp_mono hstart (fun _ c₃ h₃ => ?_) fun _ _ h hadopts => h hadopts.1
  refine wlp_mono (htail (fun c' => c'.inst.state = .stopped ∨ starts c.log < starts c'.log)
    (fun c' c'' hfoot h => ?_) c₃ h₃) ?_ ?_
  · refine h.imp (fun h => ?_) fun h => h.trans_le (starts_le_of_suffix (suffix_of_footprint hfoot))
    exact (sameCore_of_driving (hfoot.mono Touch.observing_le_driving)).state.trans h
  all_goals
    rintro _ c' (h | h) hadopts
    · exact hnot _ h hadopts
    · exact h.ne hadopts.2.symm

end Reconcile

/-! ## Stops after which the runtime is dead -/

/-- When the stop returns, the driver reports the runtime dead, and the next
reconciliation, with the runtime as the stop left it, does not adopt it. -/
def Halts (R : Runtime C.environment) (force : Bool) (reason : String) (c : Cell σ) : Prop :=
  ∀ document c', (stop C force reason).run c = some (.ok document, c') →
    ReportsDead C c' ∧ ∀ env fuel r c'', R.alive env = R.alive c'.env →
      (reconcileLocked C fuel).run (c'.withEnv env) = some (r, c'') → ¬ Adopts c' c''

theorem reportsDead_iff (R : Runtime C.environment) :
    ReportsDead C c ↔ R.alive c.env = false := by
  constructor
  · intro h
    have hreply := h ⟨C.service, ⟨"", .localProcess, none, none, .local⟩, none⟩
    rwa [R.status, Except.ok.injEq] at hreply
  · intro hdead d
    rw [R.status, hdead]

/-- The scripted world with a runtime that a start brings to life and a stop kills. -/
def Environment.living : Environment Script :=
  { Environment.scripted with
    start := fun inst _ script => ⟨.ok (), inst.runtime, { script with alive := true }⟩
    stop := fun inst _ script =>
      if script.stops then ⟨.ok (), inst.runtime, { script with alive := false }⟩
      else ⟨.error "cannot stop", inst.runtime, script⟩ }

/-- The runtime of that world. -/
def Runtime.living : Runtime Environment.living where
  alive := Script.alive
  now _ := rfl
  resolve _ := rfl
  status _ _ _ := rfl
  stop inst d script h := by
    simp only [Environment.living] at h ⊢
    split at h
    · simp_all
    · cases h

/-- A stop halts the runtime exactly if it is refused, the service is active, or
the runtime was dead before. -/
theorem halts_iff (C : Context σ) (R : Runtime C.environment) (force : Bool) (reason : String)
    (c : Cell σ) :
    Halts R force reason c ↔
      Refused force reason c ∨ c.inst.state ∈ activeStates ∨ R.alive c.env = false := by
  have hstop := stop_alive (c := c) R force reason
  constructor
  · intro hhalts
    by_contra hno
    rw [not_or, not_or] at hno
    obtain ⟨hfree, hinactive, halive⟩ := hno
    obtain ⟨⟨r, c'⟩, hrun⟩ := Option.ne_none_iff_exists'.mp (total_stop (C := C) force reason c)
    cases r with
    | ok document =>
        have hkept := (wlp_ok hstop hrun).2
        rw [if_neg hinactive] at hkept
        have hdead := (reportsDead_iff R).mp (hhalts document c' hrun).1
        exact halive (hkept.symm.trans hdead)
    | error e =>
        rcases wlp_error hstop hrun with hrefused | hother
        · exact hfree hrefused
        · refine hfree (.inr ?_)
          cases hstate : c.inst.state <;> simp_all [activeStates]
  · intro hcond document c' hrun
    have hfree := (wlp_ok (stop_outcome force reason) hrun).1
    obtain ⟨hstopped, halive⟩ := wlp_ok hstop hrun
    have hdead : R.alive c'.env = false := by
      rw [halive]
      split
      · rfl
      · rename_i hinactive
        exact (hcond.resolve_left hfree).resolve_left hinactive
    refine ⟨(reportsDead_iff R).mpr hdead, fun env fuel r c'' hsame hreconcile => ?_⟩
    have hnot := reconcileLocked_not_adopts (c := c'.withEnv env) R fuel hstopped (hsame.trans hdead)
    cases r with
    | ok _ => exact wlp_ok hnot hreconcile
    | error _ => exact wlp_error hnot hreconcile

/-- A stop that could not kill the runtime leaves the service failed, and the
stop after it takes it for stopped while the runtime lives on. -/
theorem stop_of_failed_leaves_runtime :
    ¬ ∀ (C : Context Script) (R : Runtime C.environment) (w : World Script),
      Machine.Run (World.step C) (fun _ _ => True) (World.initial C none {}) w →
      ∀ force reason, Halts R force reason w.cell := by
  intro hall
  let C : Context Script := { scripted (onDemand .multiuser) [] with environment := .living }
  have hexec : ((Machine.exec (World.step C) (fun _ _ => True) (World.initial C none {})
      [scriptedLabel (.start "admin") {},
        scriptedLabel (.stop false "admin") { alive := true, stops := false }]).map fun w =>
      decide (w.cell.inst.state = .failed ∧ w.cell.env.alive = true ∧
        (w.cell.inst.yielded false "admin").activeHolds = 0)) = some true := by
    decide
  obtain ⟨w, hw, hobserved⟩ := Option.map_eq_some_iff.mp hexec
  obtain ⟨hfailed, halive, hfree⟩ := of_decide_eq_true hobserved
  rcases (halts_iff C Runtime.living false "admin" w.cell).mp
    (hall C Runtime.living w (Machine.run_of_exec hw) false "admin") with hrefused | hactive | hdead
  · rcases hrefused with ⟨hheld, _⟩ | hbusy
    · exact hheld hfree
    · simp [hfailed] at hbusy
  · simp [hfailed, activeStates] at hactive
  · exact absurd (halive.symm.trans hdead) (by decide)

end UltimateBBSBox.Supervisor
