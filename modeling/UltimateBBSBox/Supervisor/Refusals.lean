import UltimateBBSBox.Supervisor.Saved

/-!
# Stops that are refused

`stop` raises `ServiceBusyError` in two places: holds are left and the stop is
not forced, or the service is starting or stopping.  Both come after it has
given up the administrator's intent and, when forced, all holds and sessions;
nothing of that is saved.  A refused stop therefore leaves everything as it was
exactly if there was nothing to give up.

The action service stops with `force=False` and restarts by such a stop and a
start.  The start is made from `stopped` and is never refused as busy
(`start_notBusy`), so the restart is refused where its stop is.
-/

namespace UltimateBBSBox.Supervisor

open Act

variable {σ : Type} {C : Context σ} {c : Cell σ}

/-! ## Sections that never find the service busy -/

section NotBusy

/-- The exception is not `ServiceBusyError`. -/
def Exn.NotBusy (e : Exn) : Prop := e.cls ≠ .serviceBusyError

theorem notBusy_of_validateTransition {old new : LifecycleState} {e : Exn}
    (h : validateTransition old new = .error e) : e.NotBusy := by
  unfold Exn.NotBusy
  rw [(cls_of_validateTransition_eq_error h).1]
  simp

theorem notBusy_of_addSeconds {t : DateTime} {seconds : ℚ} {e : Exn}
    (h : addSeconds t seconds = .error e) : e.NotBusy := by
  unfold addSeconds at h
  split at h <;> cases h
  simp [Exn.NotBusy]

theorem notBusy_of_recentRestarts {times : List DateTime} {now : DateTime} {window : ℕ} {e : Exn}
    (h : recentRestarts times now window = .error e) : e.NotBusy := by
  unfold recentRestarts at h
  split at h
  · cases h
  · split at h <;> cases h
    simp [Exn.NotBusy]

theorem awaitReady_notBusy {d : Declaration} {readiness : Readiness} {timeout : ℕ} {deadline : ℚ}
    (fuel : ℕ) (c : Cell σ) :
    wlp (awaitReady C d readiness timeout deadline fuel) (fun _ _ => True)
      (fun e _ => e.NotBusy) c := by
  induction fuel generalizing c with
  | zero => trivial
  | succ fuel ih =>
      simp only [awaitReady, wlp_bind, driverIsReady, wlp_callDriver, wlp_ite, wlp_pure,
        wlp_monotonic, wlp_throw, wlp_sleep]
      exact ⟨fun ready _ => ⟨fun _ => trivial, fun _ => ⟨fun _ => by simp [Exn.NotBusy],
        fun _ => ih _⟩⟩, fun message _ => by simp [Exn.NotBusy]⟩

theorem startAttempt_notBusy (fuel : ℕ) (d : Declaration) (reason : String) (c : Cell σ) :
    wlp (startAttempt C fuel d reason) (fun _ _ => True) (fun e _ => e.NotBusy) c := by
  refine wlp_bind.mpr <| wlp_callDriver.mpr ⟨fun _ _ => ?_, fun message _ => by simp [Exn.NotBusy]⟩
  refine wlp_bind.mpr <| wlp_get.mpr <| wlp_bind.mpr <| wlp_monotonic.mpr <| wlp_bind.mpr ?_
  refine wlp_mono (awaitReady_notBusy fuel _) (fun _ c₁ _ => ?_) fun _ _ h => h
  refine wlp_bind.mpr <| wlp_transition.mpr
    ⟨fun _ => ?_, fun _ he => notBusy_of_validateTransition he⟩
  refine wlp_bind.mpr <| wlp_transition.mpr
    ⟨fun _ => ?_, fun _ he => notBusy_of_validateTransition he⟩
  exact wlp_bind.mpr <| wlp_now.mpr <| wlp_bind.mpr <| wlp_modifyInst.mpr <| wlp_persist.mpr trivial

theorem markFailedLocked_notBusy {error reason : String} (c : Cell σ) :
    wlp (markFailedLocked C error reason) (fun _ c' => c'.inst.state = .failed)
      (fun e _ => e.NotBusy) c := by
  refine wlp_bind.mpr <| wlp_get.mpr <| wlp_bind.mpr <| wlp_whenever.mpr
    ⟨fun _ => wlp_transition.mpr ⟨fun _ => ?_, fun _ he => notBusy_of_validateTransition he⟩,
      fun hfailed => ?_⟩
  · exact wlp_bind.mpr <| wlp_modifyInst.mpr <| wlp_persist.mpr rfl
  · exact wlp_bind.mpr <| wlp_modifyInst.mpr <| wlp_persist.mpr (not_not.mp hfailed)

/-- Recovering finds the service busy only if the start it makes from `failed` does. -/
theorem restartAfterFailureLocked_notBusy {ensureRunning : Prog σ Unit}
    (hensure : ∀ c : Cell σ, c.inst.state = .failed →
      wlp ensureRunning (fun _ _ => True) (fun e _ => e.NotBusy) c)
    (hfailed : c.inst.state = .failed) :
    wlp (restartAfterFailureLocked C ensureRunning) (fun _ _ => True) (fun e _ => e.NotBusy) c := by
  refine wlp_bind.mpr <| wlp_get.mpr <| wlp_ite.mpr ⟨fun _ => wlp_pure.mpr trivial, fun _ => ?_⟩
  refine wlp_bind.mpr <| wlp_now.mpr <| wlp_bind.mpr <| wlp_ofExcept.mpr
    ⟨fun prior _ => ?_, fun _ he => notBusy_of_recentRestarts he⟩
  refine wlp_bind.mpr <| wlp_modifyInst.mpr <| wlp_ite.mpr ⟨fun _ => ?_, fun _ => ?_⟩
  · exact wlp_bind.mpr <| wlp_modifyInst.mpr <| wlp_bind.mpr <| wlp_persist.mpr <|
      wlp_throw.mpr (by simp [Exn.NotBusy])
  · refine wlp_bind.mpr <| wlp_modifyInst.mpr <| wlp_bind.mpr <| wlp_record.mpr <|
      wlp_bind.mpr <| wlp_ofExcept.mpr ⟨fun next _ => ?_, fun _ he => notBusy_of_addSeconds he⟩
    refine wlp_bind.mpr <| wlp_modifyInst.mpr <| wlp_bind.mpr <| wlp_persist.mpr <|
      wlp_whenever.mpr ⟨fun _ => ?_, fun _ => trivial⟩
    refine wlp_bind.mpr <| wlp_mono (hensure _ hfailed) (fun _ c₁ _ => ?_) fun _ _ h => h
    exact wlp_bind.mpr <| wlp_get.mpr <| wlp_whenever.mpr
      ⟨fun _ => wlp_bind.mpr <| wlp_modifyInst.mpr <| wlp_persist.mpr trivial, fun _ => trivial⟩

/-- Only a service that is starting or stopping is found busy. -/
theorem ensureNested_notBusy (fuel depth : ℕ) (reason : String)
    (hstate : c.inst.state ∉ [LifecycleState.starting, .stopping]) :
    wlp (ensureNested C fuel depth reason) (fun _ _ => True) (fun e _ => e.NotBusy) c := by
  induction depth generalizing reason c with
  | zero => exact wlp_throw.mpr (by simp [Exn.NotBusy])
  | succ depth ih =>
      refine wlp_bind.mpr <| wlp_get.mpr <| wlp_ite.mpr
        ⟨fun _ => wlp_pure.mpr trivial, fun _ => wlp_ite.mpr ⟨fun hbusy => absurd hbusy hstate,
          fun _ => ?_⟩⟩
      refine wlp_bind.mpr <| wlp_declaration.mpr ⟨fun d _ => ?_, fun _ _ => by simp [Exn.NotBusy]⟩
      refine wlp_bind.mpr <| wlp_resolveDriver.mpr ⟨fun _ => ?_, fun _ _ => by simp [Exn.NotBusy]⟩
      refine wlp_bind.mpr <| wlp_transition.mpr
        ⟨fun _ => ?_, fun _ he => notBusy_of_validateTransition he⟩
      refine wlp_tryCatch.mpr <| wlp_mono (startAttempt_notBusy fuel d reason _)
        (fun _ _ _ => trivial) fun e c₁ hnotBusy => ?_
      -- whatever went wrong, the service is failed when it is tried again
      refine wlp_bind.mpr <| wlp_mono (cleanUp_spec d c₁) (fun _ c₂ _ => ?_) fun _ _ h => h.elim
      refine wlp_bind.mpr <| wlp_mono (markFailedLocked_notBusy c₂) (fun _ c₃ hfailed => ?_)
        fun _ _ h => h
      refine wlp_bind.mpr <| wlp_mono (restartAfterFailureLocked_notBusy
        (fun c hfailed => ih "recovery" (by simp [hfailed])) hfailed) (fun _ c₄ _ => ?_)
        fun _ _ h => h
      exact wlp_bind.mpr <| wlp_get.mpr <| wlp_whenever.mpr
        ⟨fun _ => wlp_throw.mpr hnotBusy, fun _ => trivial⟩

/-- A start from `stopped` is not refused. -/
theorem start_notBusy (fuel : ℕ) (reason : String) (hstate : c.inst.state = .stopped) :
    wlp (start C fuel reason) (fun _ _ => True) (fun e _ => e.NotBusy) c := by
  have hhold : wlp (startHold reason) (fun _ c' => c'.inst.state = .stopped) (fun _ _ => False)
      c := by
    refine wlp_ite.mpr ⟨fun _ => ?_, fun _ => ?_⟩
    · refine wlp_bind.mpr <| wlp_modifyInst.mpr <| wlp_bind.mpr <| wlp_modifyInst.mpr <|
        wlp_bind.mpr <| wlp_get.mpr <| wlp_whenever.mpr ⟨fun _ => ?_, fun _ => ?_⟩
      · refine wlp_bind.mpr <| wlp_modifyInst.mpr <| wlp_persist.mpr ?_
        simp [hstate]
      · simp [hstate]
    · exact wlp_bind.mpr <| wlp_get.mpr <| wlp_whenever.mpr
        ⟨fun _ => wlp_bind.mpr <| wlp_modifyInst.mpr <| wlp_persist.mpr hstate, fun _ => hstate⟩
  refine wlp_bind.mpr <| wlp_mono hhold (fun _ c₁ h₁ => ?_) fun _ _ h => h.elim
  refine wlp_bind.mpr <| wlp_mono (ensureNested_notBusy fuel _ reason (by simp [h₁]))
    (fun _ _ _ => ?_) fun _ _ h => h
  exact wlp_bind.mpr <| wlp_get.mpr <| wlp_pure.mpr trivial

end NotBusy

/-! ## The refusals of `stop` -/

/-- `stop` finds holds that are left, or a service that is starting or stopping. -/
def Refused (force : Bool) (reason : String) (c : Cell σ) : Prop :=
  ((c.inst.yielded force reason).activeHolds ≠ 0 ∧ force = false) ∨
    c.inst.state ∈ [LifecycleState.starting, .stopping]

/-- There is nothing that `stop` would give up before it looks. -/
def NothingToYield (force : Bool) (reason : String) (c : Cell σ) : Prop :=
  (reason = "admin" → c.inst.adminIntent = false ∧ c.inst.holds.get? "admin" = none) ∧
    (force = true → c.inst.holds = ∅ ∧ c.inst.sessions = ∅)

/-- State, holds, sessions and intent are the same, in memory and on disk. -/
structure Untouched (c c' : Cell σ) : Prop where
  state : c'.inst.state = c.inst.state
  holds : c'.inst.holds = c.inst.holds
  sessions : c'.inst.sessions = c.inst.sessions
  adminIntent : c'.inst.adminIntent = c.inst.adminIntent
  stateFile : c'.stateFile = c.stateFile

/-- Giving up changes nothing exactly if there is nothing to give up. -/
theorem untouched_yielded_iff {force : Bool} {reason : String} :
    Untouched c (c.mapInst fun inst => inst.yielded force reason) ↔
      NothingToYield force reason c := by
  have hpop : c.inst.holds.pop "admin" = c.inst.holds ↔ c.inst.holds.get? "admin" = none :=
    ⟨fun h => h ▸ Dict.get?_pop_self _ _, Dict.pop_eq_self_of_get?_none⟩
  constructor
  · intro h
    have hholds := h.holds
    have hsessions := h.sessions
    have hintent := h.adminIntent
    rw [Cell.mapInst_inst] at hholds hsessions hintent
    refine ⟨fun hadmin => ?_, fun hforce => ?_⟩
    · refine ⟨?_, ?_⟩
      · cases force <;> simp_all [InstanceState.yielded]
      · cases force with
        | false => exact hpop.mp (by simpa [InstanceState.yielded, hadmin] using hholds)
        | true =>
            rw [← hholds]
            simp [InstanceState.yielded]
    · subst hforce
      simp only [InstanceState.yielded, if_true] at hholds hsessions
      exact ⟨hholds.symm, by rw [← hsessions]⟩
  · rintro ⟨hadmin, hforce⟩
    have hyielded : (c.inst.yielded force reason).holds = c.inst.holds ∧
        (c.inst.yielded force reason).sessions = c.inst.sessions ∧
        (c.inst.yielded force reason).adminIntent = c.inst.adminIntent ∧
        (c.inst.yielded force reason).state = c.inst.state := by
      unfold InstanceState.yielded
      by_cases hreason : reason = "admin"
      · obtain ⟨hintent, hheld⟩ := hadmin hreason
        cases force <;> simp_all
      · cases force <;> simp_all
    exact ⟨hyielded.2.2.2, hyielded.1, hyielded.2.1, hyielded.2.2.1, rfl⟩

/-- `_stop_locked` is refused while the service is starting or stopping, and only then. -/
theorem stopLocked_outcome {reason : String} :
    wlp (stopLocked C reason) (fun _ c' => c.inst.state ∉ [LifecycleState.starting, .stopping] ∧
        c'.inst.state = .stopped)
      (fun e c' => (c.inst.state ∈ [LifecycleState.starting, .stopping] ∧
        e.cls = .serviceBusyError ∧ c' = c) ∨
        (c.inst.state ∉ [LifecycleState.starting, .stopping] ∧ e.NotBusy)) c := by
  refine wlp_bind.mpr <| wlp_get.mpr <| wlp_ite.mpr ⟨fun hstopped => ?_, fun hstopped =>
    wlp_ite.mpr ⟨fun hfailed => ?_, fun hfailed => wlp_ite.mpr ⟨fun hbusy => ?_, fun hactive => ?_⟩⟩⟩
  · exact wlp_persist.mpr ⟨by simp [hstopped], hstopped⟩
  · exact wlp_transition.mpr ⟨fun _ => ⟨by simp [hfailed], rfl⟩, fun _ he =>
      .inr ⟨by simp [hfailed], notBusy_of_validateTransition he⟩⟩
  · refine wlp_throw.mpr (.inl ⟨?_, rfl, rfl⟩)
    cases hstate : c.inst.state <;> simp_all [activeStates]
  · have hidle : c.inst.state ∉ [LifecycleState.starting, .stopping] := by
      cases hstate : c.inst.state <;> simp_all [activeStates]
    refine wlp_bind.mpr <| wlp_transition.mpr ⟨fun _ => ?_, fun _ he =>
      .inr ⟨hidle, notBusy_of_validateTransition he⟩⟩
    refine wlp_tryCatch.mpr <| wlp_mono (Q := fun _ c' => c'.inst.state = .stopped)
      (X := fun e _ => e.NotBusy) ?_ (fun _ _ h => ⟨hidle, h⟩) fun e c' hnotBusy => ?_
    · refine wlp_bind.mpr <| wlp_resolveDriver.mpr ⟨fun _ => ?_, fun _ _ => by simp [Exn.NotBusy]⟩
      refine wlp_bind.mpr <| wlp_declaration.mpr ⟨fun d _ => ?_, fun _ _ => by simp [Exn.NotBusy]⟩
      refine wlp_bind.mpr <| wlp_callDriver.mpr ⟨fun _ _ => ?_, fun _ _ => by simp [Exn.NotBusy]⟩
      refine wlp_bind.mpr <| wlp_transition.mpr
        ⟨fun _ => ?_, fun _ he => notBusy_of_validateTransition he⟩
      exact wlp_bind.mpr <| wlp_now.mpr <| wlp_bind.mpr <| wlp_modifyInst.mpr <|
        wlp_persist.mpr rfl
    · exact wlp_bind.mpr <| wlp_mono (markFailedLocked_notBusy c')
        (fun _ _ _ => wlp_throw.mpr (.inr ⟨hidle, hnotBusy⟩)) fun _ _ h => .inr ⟨hidle, h⟩

/-- `stop` is refused where it finds the service busy, having given up what it
gives up; otherwise nothing it raises is a refusal. -/
theorem stop_outcome (force : Bool) (reason : String) :
    wlp (stop C force reason) (fun _ c' => ¬ Refused force reason c ∧ c'.inst.state = .stopped)
      (fun e c' => (Refused force reason c ∧ e.cls = .serviceBusyError ∧
        c' = c.mapInst fun inst => inst.yielded force reason) ∨
        (¬ Refused force reason c ∧ e.NotBusy)) c := by
  have hstate : (c.inst.yielded force reason).state = c.inst.state := by
    unfold InstanceState.yielded
    split <;> split <;> rfl
  refine (wlp_stop force reason).mpr <| wlp_bind.mpr <| wlp_get.mpr <| wlp_bind.mpr <|
    wlp_whenever.mpr ⟨fun hheld => wlp_throw.mpr (.inl ⟨.inl hheld, rfl, rfl⟩), fun hfree => ?_⟩
  refine wlp_bind.mpr <| wlp_mono stopLocked_outcome (fun _ c' h' => ?_) fun e c' h' => ?_
  · rw [Cell.mapInst_inst, hstate] at h'
    exact wlp_bind.mpr <| wlp_get.mpr <| wlp_pure.mpr ⟨not_or.mpr ⟨hfree, h'.1⟩, h'.2⟩
  · rw [Cell.mapInst_inst, hstate] at h'
    rcases h' with ⟨hbusy, hcls, rfl⟩ | ⟨hidle, hcls⟩
    · exact .inl ⟨.inr hbusy, hcls, rfl⟩
    · exact .inr ⟨not_or.mpr ⟨hfree, hidle⟩, hcls⟩

/-! ## Refusals that change nothing -/

variable (C) in
/-- `AdminActionService.stop`, of a role that may. -/
def adminStop : Prog σ Document := stop C false "admin"

variable (C) in
/-- `AdminActionService.restart`, of a role that may. -/
def adminRestart (fuel : ℕ) : Prog σ Document := do
  let _ ← stop C false "admin"
  start C fuel "admin"

/-- A call that raises `ServiceBusyError` leaves everything as it was. -/
def RefusesCleanly {α : Type} (act : Prog σ α) (c : Cell σ) : Prop :=
  ∀ e c', act.run c = some (.error e, c') → e.cls = .serviceBusyError → Untouched c c'

/-- A refused stop raises with what it gave up gone. -/
theorem run_stop_of_refused {force : Bool} {reason : String} (h : Refused force reason c) :
    ∃ e, (stop C force reason).run c =
        some (.error e, c.mapInst fun inst => inst.yielded force reason) ∧
      e.cls = .serviceBusyError := by
  obtain ⟨⟨r, c'⟩, hrun⟩ := Option.ne_none_iff_exists'.mp (total_stop (C := C) force reason c)
  cases r with
  | ok _ => exact absurd h (wlp_ok (stop_outcome force reason) hrun).1
  | error e =>
      rcases wlp_error (stop_outcome force reason) hrun with ⟨_, hcls, rfl⟩ | ⟨hno, _⟩
      · exact ⟨e, hrun, hcls⟩
      · exact absurd h hno

theorem refusesCleanly_stop_iff (force : Bool) (reason : String) :
    RefusesCleanly (stop C force reason) c ↔
      (Refused force reason c → NothingToYield force reason c) := by
  constructor
  · intro hclean hrefused
    obtain ⟨e, hrun, hcls⟩ := run_stop_of_refused (C := C) hrefused
    exact untouched_yielded_iff.mp (hclean e _ hrun hcls)
  · intro h e c' hrun hcls
    rcases wlp_error (stop_outcome force reason) hrun with ⟨hrefused, _, rfl⟩ | ⟨_, hnotBusy⟩
    · exact untouched_yielded_iff.mpr (h hrefused)
    · exact absurd hcls hnotBusy

/-- A restart is refused where its stop is. -/
theorem refusesCleanly_adminRestart_iff (fuel : ℕ) :
    RefusesCleanly (adminRestart C fuel) c ↔ RefusesCleanly (stop C false "admin") c := by
  have hrestart : ∀ e c', (adminRestart C fuel).run c = some (.error e, c') →
      e.cls = .serviceBusyError → (stop C false "admin").run c = some (.error e, c') := by
    intro e c' hrun hcls
    rw [adminRestart, run_bind] at hrun
    cases hstop : (stop C false "admin").run c with
    | none => simp [hstop] at hrun
    | some result =>
        obtain ⟨r, c₁⟩ := result
        cases r with
        | error e' =>
            rw [hstop] at hrun
            exact hrun
        | ok _ =>
            -- the start behind a stop that returned finds the service stopped
            rw [hstop] at hrun
            have hstopped := (wlp_ok (stop_outcome false "admin") hstop).2
            exact absurd hcls (wlp_error (start_notBusy fuel "admin" hstopped) hrun)
  constructor
  · intro hclean e c' hrun hcls
    refine hclean e c' ?_ hcls
    rw [adminRestart, run_bind, hrun]
  · exact fun hclean e c' hrun hcls => hclean e c' (hrestart e c' hrun hcls) hcls

/-- The stop that a caller refuses has forgotten that the administrator wants the service. -/
theorem refused_stop_touches :
    ¬ ∀ (C : Context Script) (w : World Script),
      Machine.Run (World.step C) (fun _ _ => True) (World.initial C none {}) w →
      ∀ force reason, RefusesCleanly (stop C force reason) w.cell := by
  intro hall
  have hexec : ((Machine.exec (World.step (scripted (onDemand .multiuser) [])) (fun _ _ => True)
      (World.initial (scripted (onDemand .multiuser) []) none {})
      [scriptedLabel (.start "admin") {}, scriptedLabel (.acquireSession "a") {}]).map fun w =>
      decide (w.cell.inst.adminIntent = true ∧
        (w.cell.inst.yielded false "admin").activeHolds = 1)) = some true := by
    decide +kernel
  obtain ⟨w, hw, hobserved⟩ := Option.map_eq_some_iff.mp hexec
  obtain ⟨hintent, hheld⟩ := of_decide_eq_true hobserved
  have hclean := hall _ w (Machine.run_of_exec hw) false "admin"
  have hrefused : Refused false "admin" w.cell := .inl ⟨by simp [hheld], rfl⟩
  have hforgot := ((refusesCleanly_stop_iff false "admin").mp hclean hrefused).1 rfl
  exact absurd (hintent.symm.trans hforgot.1) (by decide)

/-- A refused stop, and a restart refused by its stop, change nothing exactly if
the stop has nothing to give up. -/
theorem refuses_cleanly_iff (C : Context σ) (c : Cell σ) :
    (∀ force reason, RefusesCleanly (stop C force reason) c ↔
      (Refused force reason c → NothingToYield force reason c)) ∧
    (RefusesCleanly (adminStop C) c ↔
      (Refused false "admin" c → NothingToYield false "admin" c)) ∧
    ∀ fuel, RefusesCleanly (adminRestart C fuel) c ↔
      (Refused false "admin" c → NothingToYield false "admin" c) :=
  ⟨refusesCleanly_stop_iff, refusesCleanly_stop_iff false "admin", fun fuel =>
    (refusesCleanly_adminRestart_iff fuel).trans (refusesCleanly_stop_iff false "admin")⟩

end UltimateBBSBox.Supervisor
