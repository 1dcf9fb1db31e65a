import Mathlib.Data.Finset.Insert
import UltimateBBSBox.Supervisor.Runs
import UltimateBBSBox.Supervisor.Starting

/-!
# Maintenance runs and what they leave behind

`run_maintenance` marks its job as running and takes a `maintenance` hold in a
first lock-held section, and gives both back in a second one.  In between the
lock is free, and the second section assumes what it left: that the instance is
still in `maintenance`.  Where another section has moved it on, the transition of
the second section is refused, and hold and mark are never given back.

`Settles` says which sections find what they assume.  Along runs of such
sections the marks are exactly the jobs of the runs under way, and the hold
counts no more than these.
-/

namespace UltimateBBSBox.Supervisor

open Act

variable {σ : Type} {C : Context σ}

/-- The `maintenance` hold count. -/
def InstanceState.maintenanceHolds (inst : InstanceState) : ℤ := inst.holds.getD "maintenance" 0

theorem maintenanceHolds_withHold (inst : InstanceState) :
    (inst.withHold "maintenance").maintenanceHolds = inst.maintenanceHolds + 1 := by
  simp [InstanceState.maintenanceHolds, InstanceState.withHold]

theorem maintenanceHolds_withoutHold (inst : InstanceState) :
    (inst.withoutHold "maintenance").maintenanceHolds =
      if inst.maintenanceHolds ≤ 1 then 0 else inst.maintenanceHolds - 1 := by
  unfold InstanceState.maintenanceHolds InstanceState.withoutHold
  by_cases hcount : inst.holds.getD "maintenance" 0 ≤ 1 <;> simp [hcount]

/-- Giving a hold back. -/
theorem maintenanceHolds_withoutHold_le {inst : InstanceState} {n : ℤ} (hn : 0 ≤ n)
    (h : inst.maintenanceHolds ≤ n + 1) : (inst.withoutHold "maintenance").maintenanceHolds ≤ n := by
  rw [maintenanceHolds_withoutHold]
  split <;> omega

/-! ## Sections that leave maintenance alone -/

/-- The marks are the same, and the hold is the same or cleared. -/
structure Unaffected (c c' : Cell σ) : Prop where
  jobs : c'.jobsRunning = c.jobsRunning
  holds : c'.inst.maintenanceHolds = c.inst.maintenanceHolds ∨ c'.inst.maintenanceHolds = 0

/-- Touches of other holds. -/
def Touch.elsewhere : Touch → Prop
  | .addHold reason | .removeHold reason | .dropHold reason | .pinHold reason =>
      reason ≠ "maintenance"
  | .jobs => False
  | _ => True

theorem Unaffected.refl (c : Cell σ) : Unaffected c c := ⟨rfl, .inl rfl⟩

theorem Unaffected.of_get? {c c' c'' : Cell σ} (h : Unaffected c c')
    (hjobs : c''.jobsRunning = c'.jobsRunning)
    (hget : c''.inst.holds.get? "maintenance" = c'.inst.holds.get? "maintenance") :
    Unaffected c c'' := by
  have hholds : c''.inst.maintenanceHolds = c'.inst.maintenanceHolds := by
    simp only [InstanceState.maintenanceHolds, Dict.getD, hget]
  exact ⟨hjobs.trans h.jobs, h.holds.imp hholds.trans hholds.trans⟩

theorem unaffected_of_footprint {c c' : Cell σ} (hfoot : Footprint C Touch.elsewhere c c') :
    Unaffected c c' := by
  refine hfoot.closed (P := Unaffected c) (fun t c₁ c₂ ht hstep h => ?_) (.refl c)
  cases hstep with
  | quiet inst override effects env hcore hquiet => exact h.of_get? rfl (by rw [hcore.holds])
  | addHold reason | pinHold reason => exact h.of_get? rfl (Dict.get?_set_ne _ _ (Ne.symm ht))
  | dropHold reason => exact h.of_get? rfl (Dict.get?_pop_ne _ (Ne.symm ht))
  | removeHold reason =>
      refine h.of_get? rfl ?_
      simp only [Cell.mapInst_inst, InstanceState.withoutHold]
      split
      · exact Dict.get?_pop_ne _ (Ne.symm ht)
      · exact Dict.get?_set_ne _ _ (Ne.symm ht)
  | attach => exact h.of_get? rfl (Dict.get?_set_ne _ _ (by decide))
  | detach =>
      refine h.of_get? rfl ?_
      simp only [Cell.mapInst_inst, InstanceState.withoutHold]
      split
      · exact Dict.get?_pop_ne _ (by decide)
      · exact Dict.get?_set_ne _ _ (by decide)
  | clear => exact ⟨h.jobs, .inr rfl⟩
  | exhaust => exact h.of_get? rfl (Dict.get?_pop_ne _ (by decide))
  | attempt => exact h.of_get? rfl (Dict.get?_set_ne _ _ (by decide))
  | jobs => exact False.elim ht
  | _ => exact h.of_get? rfl rfl

theorem Touch.recovering_le_elsewhere : Touch.recovering ≤ Touch.elsewhere := by
  intro t ht
  cases t <;> simp_all [Touch.recovering, Touch.elsewhere]

/-! ## The first section -/

/-- The first section either takes mark and hold, or raises having given back
what it took.  Entered in `maintenance` it would try to enter it again. -/
theorem beginMaintenance_spec {job : Job} (fuel : ℕ) {c : Cell σ}
    (hstate : job.name ∉ c.jobsRunning → c.inst.state ≠ .maintenance) :
    wlp (beginMaintenance C fuel job)
      (fun _ c' => job.name ∉ c.jobsRunning ∧ c'.jobsRunning = insert job.name c.jobsRunning ∧
        c'.inst.maintenanceHolds ≤ max c.inst.maintenanceHolds 0 + 1)
      (fun e c' => e.cls ≠ .invalidTransitionError ∧ c'.jobsRunning = c.jobsRunning ∧
        c'.inst.maintenanceHolds ≤ max c.inst.maintenanceHolds 0) c := by
  refine wlp_bind.mpr <| wlp_get.mpr <| wlp_ite.mpr
    ⟨fun _ => wlp_throw.mpr ⟨by simp, rfl, le_max_left _ _⟩, fun hjob => ?_⟩
  have hmark : (insert job.name c.jobsRunning).erase job.name = c.jobsRunning :=
    Finset.erase_insert hjob
  refine wlp_bind.mpr <| wlp_modifyJobs.mpr <| wlp_ite.mpr ⟨fun _ => ?_, fun _ => ?_⟩
  · refine wlp_bind.mpr <| (wlp_modifyJobs (f := (Finset.erase · job.name))).mpr <|
      wlp_throw.mpr ⟨by simp, hmark, le_max_left _ _⟩
  · refine wlp_bind.mpr <| wlp_bind.mpr <| wlp_modifyInst.mpr <| wlp_persist.mpr ?_
    -- starting the service leaves mark and hold alone, and so does the transition
    let c₀ := ((c.mapJobs (insert job.name)).mapInst fun inst => inst.withHold "maintenance").saved
    refine (fun h => h c₀ rfl rfl (maintenanceHolds_withHold c.inst) :
      (∀ c₀ : Cell σ, c₀.inst.state = c.inst.state →
        c₀.jobsRunning = insert job.name c.jobsRunning →
        c₀.inst.maintenanceHolds = c.inst.maintenanceHolds + 1 → wlp _ _ _ c₀) → _) ?_
    intro c₀ hstate₀ hjobs₀ hholds₀
    have hheld : ∀ {c₁}, Unaffected c₀ c₁ →
        c₁.inst.maintenanceHolds ≤ max c.inst.maintenanceHolds 0 + 1 := by
      intro c₁ h₁
      have := le_max_left c.inst.maintenanceHolds 0
      have := le_max_right c.inst.maintenanceHolds 0
      rcases h₁.holds with h | h <;> omega
    refine wlp_bind.mpr <| wlp_tryCatch.mpr <| wlp_mono
      (Q := fun _ c₁ => Unaffected c₀ c₁)
      (X := fun e c₁ => e.cls ≠ .invalidTransitionError ∧ Unaffected c₀ c₁) ?_
      (fun _ c₁ h₁ => ?_) fun e c₁ h₁ => ?_
    · refine wlp_bind.mpr <| wlp_mono (wlp_and (ensureRunningLocked_spec fuel "maintenance" c₀)
        (within_ensureRunningLocked Touch.recovering_le_elsewhere fuel "maintenance" c₀))
        (fun _ c₁ h₁ => ?_) fun e c₁ h₁ => ⟨h₁.1.valid, unaffected_of_footprint h₁.2⟩
      refine wlp_transition.mpr ⟨fun hmem => ?_, fun e he => ?_⟩
      · exact unaffected_of_footprint (h₁.2.trans (footprint_moved
          (Touch.moving_le_recovering.trans Touch.recovering_le_elsewhere) hmem))
      · refine absurd ?_ (cls_of_validateTransition_eq_error he).2
        rcases h₁.1 with ⟨hactive, rfl⟩ | ⟨hstarted, _⟩
        · have := hstate hjob
          rw [hstate₀] at hactive ⊢
          cases hcur : c.inst.state <;> simp_all [activeStates, transitions]
        · simp [hstarted.state, transitions]
    · exact wlp_pure.mpr ⟨hjob, h₁.jobs.trans hjobs₀, hheld h₁⟩
    · refine wlp_bind.mpr <| wlp_bind.mpr <| wlp_modifyInst.mpr <| wlp_persist.mpr <|
        wlp_bind.mpr <| (wlp_modifyJobs (f := (Finset.erase · job.name))).mpr <|
          wlp_throw.mpr ⟨h₁.1, ?_, ?_⟩
      · show c₁.jobsRunning.erase job.name = c.jobsRunning
        rw [h₁.2.jobs, hjobs₀, hmark]
      · exact maintenanceHolds_withoutHold_le (le_max_right _ _) (hheld h₁.2)

/-! ## The second section -/

/-- What the transition of the second section assumes: a completed job that the
instance is still in `maintenance` (or `ready`), a failed one that it is not `stopped`. -/
def Settleable (state : LifecycleState) : Except String Archive.Fields → Prop
  | .ok _ => state = .maintenance ∨ state = .ready
  | .error _ => state ≠ .stopped

instance (state : LifecycleState) (outcome : Except String Archive.Fields) :
    Decidable (Settleable state outcome) := by
  cases outcome <;> unfold Settleable <;> infer_instance

/-- Where the transition of the second section leads. -/
def settledState : Except String Archive.Fields → LifecycleState
  | .ok _ => .running
  | .error _ => .failed

/-- Where it may be made, the transition of the second section is made. -/
theorem settleMaintenance_spec {job : Job} {outcome : Except String Archive.Fields} {c : Cell σ}
    (h : Settleable c.inst.state outcome) :
    wlp (settleMaintenance C job outcome)
      (fun _ c' => Unaffected c c' ∧
        c'.inst.state = settledState outcome)
      (fun _ _ => False) c := by
  have hmoving := Touch.moving_le_recovering.trans Touch.recovering_le_elsewhere
  cases outcome with
  | ok result =>
      refine wlp_transition.mpr ⟨fun hmem => ⟨unaffected_of_footprint (C := C)
        (footprint_moved hmoving hmem), rfl⟩, fun e he => ?_⟩
      rcases h with h | h <;>
        exact (cls_of_validateTransition_eq_error he).2 (by simp [h, transitions])
  | error message =>
      refine wlp_mono (wlp_and (within_markFailedLocked hmoving c) (markFailedLocked_spec ?_))
        (fun _ _ h' => ⟨unaffected_of_footprint h'.1, h'.2.1⟩) fun _ _ h' => h'.2
      cases hstate : c.inst.state <;> simp_all [Settleable, transitions]

/-- The second section gives mark and hold back, whatever follows it. -/
theorem finishMaintenance_spec {job : Job} {wasActive : Bool} {outcome : Except String Archive.Fields}
    (fuel : ℕ) {c : Cell σ} (h : Settleable c.inst.state outcome) :
    wlp (finishMaintenance C fuel job wasActive outcome)
      (fun _ c' => c'.jobsRunning = c.jobsRunning.erase job.name ∧
        c'.inst.maintenanceHolds ≤ max (c.inst.maintenanceHolds - 1) 0)
      (fun e c' => e.cls ≠ .invalidTransitionError ∧
        c'.jobsRunning = c.jobsRunning.erase job.name ∧
        c'.inst.maintenanceHolds ≤ max (c.inst.maintenanceHolds - 1) 0) c := by
  -- storing the result touches neither marks nor holds nor the state
  have hsettle : ∀ c₁ : Cell σ, c₁.inst.state = c.inst.state → Unaffected c c₁ →
      wlp (settleMaintenance C job outcome)
        (fun _ c₂ => (c₂.jobsRunning = c.jobsRunning ∧
          c₂.inst.maintenanceHolds ≤ max c.inst.maintenanceHolds 0) ∧
          c₂.inst.state = settledState outcome)
        (fun _ _ => False) c₁ := by
    intro c₁ hstate₁ h₁
    refine wlp_mono (settleMaintenance_spec (hstate₁ ▸ h)) (fun _ c₂ h₂ => ⟨⟨?_, ?_⟩, h₂.2⟩)
      fun _ _ h' => h'
    · exact h₂.1.jobs.trans h₁.jobs
    · rcases h₂.1.holds with h | h <;> rcases h₁.holds with h' | h' <;> omega
  refine wlp_bind.mpr <| wlp_now.mpr <| wlp_bind.mpr <| wlp_modifyInst.mpr <| wlp_bind.mpr <|
    wlp_mono (hsettle _ rfl ⟨rfl, .inl rfl⟩) (fun _ c₂ h₂ => ?_) fun _ _ h' => h'.elim
  obtain ⟨⟨hjobs₂, hholds₂⟩, hstate⟩ := h₂
  refine wlp_bind.mpr <| wlp_bind.mpr <| wlp_modifyInst.mpr <| wlp_persist.mpr <|
    wlp_bind.mpr <| (wlp_modifyJobs (f := (Finset.erase · job.name))).mpr ?_
  let c₃ := ((c₂.mapInst fun inst => inst.withoutHold "maintenance").saved).mapJobs
    (Finset.erase · job.name)
  have hjobs₃ : c₃.jobsRunning = c.jobsRunning.erase job.name := by
    show c₂.jobsRunning.erase job.name = _
    rw [hjobs₂]
  have hholds₃ : c₃.inst.maintenanceHolds ≤ max (c.inst.maintenanceHolds - 1) 0 := by
    exact maintenanceHolds_withoutHold_le (le_max_right _ _) (by omega)
  have hdone : ∀ {c'}, Unaffected c₃ c' → c'.jobsRunning = c.jobsRunning.erase job.name ∧
      c'.inst.maintenanceHolds ≤ max (c.inst.maintenanceHolds - 1) 0 := by
    intro c' h'
    refine ⟨h'.jobs.trans hjobs₃, ?_⟩
    rcases h'.holds with h | h <;> omega
  have hrecovering := Touch.recovering_le_elsewhere
  cases outcome with
  | ok result =>
      refine wlp_bind.mpr <| wlp_get.mpr <| wlp_ite.mpr ⟨fun hstop => ?_, fun _ => ?_⟩
      · -- nothing else holds the service that the job woke
        refine wlp_bind.mpr <| wlp_mono (wlp_and (stopLocked_error hstate)
          (footprint_stopLocked (Touch.moving_le_recovering.trans hrecovering)
            (show Touch.elsewhere .stop from trivial) hstop.2.2))
          (fun _ c' h' => wlp_pure.mpr (hdone (unaffected_of_footprint h'.2)))
          fun e c' h' => ⟨h'.1, hdone (unaffected_of_footprint h'.2)⟩
      · refine wlp_bind.mpr <| wlp_mono (wlp_and (scheduleIdleLocked_error _)
          (within_scheduleIdleLocked (Touch.observing_le_recovering.trans hrecovering) _))
          (fun _ c' h' => wlp_pure.mpr (hdone (unaffected_of_footprint h'.2)))
          fun e c' h' => ⟨h'.1, hdone (unaffected_of_footprint h'.2)⟩
  | error message =>
      refine wlp_bind.mpr <| wlp_mono (wlp_and
        (restartAfterFailureLocked_spec (ensureRunningLocked_spec fuel "recovery") hstate)
        (within_restartAfterFailureLocked hrecovering
          (within_ensureRunningLocked hrecovering fuel "recovery") _))
        (fun _ c' h' => ?_) fun e c' h' => ⟨h'.1.1, hdone (unaffected_of_footprint h'.2)⟩
      exact wlp_throw.mpr ⟨by simp, hdone (unaffected_of_footprint h'.2)⟩

/-! ## Runs -/

/-- The section finds what it assumes.  A first section is not entered in
`maintenance` (unless it is refused anyway), a second section still finds an
instance that its transition can start from, and nobody takes a `maintenance`
hold by `start(reason="maintenance")` while no maintenance run is under way. -/
def World.Settles (C : Context σ) (w : World σ) (l : Label σ) : Prop :=
  match l.op with
  | .beginMaintenance jobId =>
      ((jobsByName C.service).get? jobId).isSome = true → jobId ∉ w.cell.jobsRunning →
        w.cell.inst.state ≠ .maintenance
  | .finishMaintenance index =>
      ∀ run ∈ w.running[index]?, ∀ outcome ∈ run.outcome, Settleable w.cell.inst.state outcome
  | .start reason =>
      reason = "maintenance" → w.cell.inst.maintenanceHolds ≠ 0 ∨ w.running ≠ []
  | _ => True

instance (w : World σ) (l : Label σ) : Decidable (w.Settles C l) :=
  match l with
  | ⟨.beginMaintenance jobId, _, _⟩ =>
      inferInstanceAs (Decidable (((jobsByName C.service).get? jobId).isSome = true →
        jobId ∉ w.cell.jobsRunning → w.cell.inst.state ≠ .maintenance))
  | ⟨.finishMaintenance index, _, _⟩ =>
      inferInstanceAs (Decidable (∀ run ∈ w.running[index]?, ∀ outcome ∈ run.outcome,
        Settleable w.cell.inst.state outcome))
  | ⟨.start reason, _, _⟩ =>
      inferInstanceAs (Decidable (reason = "maintenance" →
        w.cell.inst.maintenanceHolds ≠ 0 ∨ w.running ≠ []))
  | ⟨.stop _ _, _, _⟩ | ⟨.acquireSession _, _, _⟩ | ⟨.releaseSession _, _, _⟩ |
    ⟨.notifyFailure _, _, _⟩ | ⟨.transition _ _, _, _⟩ | ⟨.reconcile, _, _⟩ | ⟨.tick _, _, _⟩ |
    ⟨.callMaintenance _, _, _⟩ | ⟨.setLifecycleMode _, _, _⟩ | ⟨.reload, _, _⟩ =>
      instDecidableTrue

/-- The marks are the jobs of the runs under way, and the hold counts no more. -/
structure RunsCounted (w : World σ) : Prop where
  holds : w.cell.inst.maintenanceHolds ≤ w.running.length
  marks : ∀ jobId, jobId ∈ w.cell.jobsRunning ↔ ∃ run ∈ w.running, run.job.name = jobId
  nodup : (w.running.map fun run => run.job.name).Nodup

/-- The jobs of a manifest are listed under their names. -/
theorem name_of_jobsByName {service : Service} {jobId : String} {job : Job}
    (h : (jobsByName service).get? jobId = some job) : job.name = jobId := by
  have hfold : ∀ (jobs : List Job) (d : Dict String Job),
      (∀ k v, d.get? k = some v → v.name = k) →
      ∀ k v, (jobs.foldl (fun jobs job => jobs.set job.name job) d).get? k = some v →
        v.name = k := by
    intro jobs
    induction jobs with
    | nil => exact fun _ h => h
    | cons job rest ih =>
        intro d hd
        refine ih _ fun k v hget => ?_
        rw [Dict.get?_set] at hget
        split at hget
        · rename_i hk
          rw [Option.some.injEq] at hget
          rw [hk, hget]
        · exact hd k v hget
  exact hfold service.jobs ∅ (fun k v h => by simp at h) jobId job h

theorem startHold_maintenance (c : Cell σ) :
    wlp (startHold "maintenance") (fun _ c' => c'.jobsRunning = c.jobsRunning ∧
      c'.inst.maintenanceHolds =
        if c.inst.maintenanceHolds = 0 then 1 else c.inst.maintenanceHolds)
      (fun _ _ => False) c := by
  refine wlp_ite.mpr ⟨fun h => by simp at h, fun _ => wlp_bind.mpr <| wlp_get.mpr <|
    wlp_whenever.mpr ⟨fun hzero => ?_, fun hzero => ⟨rfl, (if_neg hzero).symm⟩⟩⟩
  refine wlp_bind.mpr <| wlp_modifyInst.mpr <| wlp_persist.mpr ⟨rfl, ?_⟩
  have hzero : c.inst.maintenanceHolds = 0 := hzero
  rw [if_pos hzero]
  exact (maintenanceHolds_withHold c.inst).trans (by rw [hzero, zero_add])

namespace RunsCounted

variable {w w' : World σ} {l : Label σ} {r : Except Exn Unit}

theorem of_unaffected (h : RunsCounted w) (hcell : Unaffected w.cell w'.cell)
    (hrunning : w'.running = w.running) : RunsCounted w' := by
  refine ⟨?_, fun jobId => ?_, ?_⟩
  · rw [hrunning]
    have := h.holds
    rcases hcell.holds with hholds | hholds <;> omega
  · rw [hcell.jobs, hrunning, h.marks]
  · rw [hrunning]
    exact h.nodup

theorem start_maintenance (h : RunsCounted w) (hsettles : w.Settles C l)
    (hop : l.op = .start "maintenance") (hstep : w.step C l = some (r, w')) : RunsCounted w' := by
  have hrunning := World.running_of_step hstep (by simp [hop]) (by simp [hop]) (by simp [hop])
    (by simp [hop])
  have hcell : wlp (l.op.lockedSection C l.fuel w.running)
      (fun _ c' => c'.jobsRunning = w.cell.jobsRunning ∧
        c'.inst.maintenanceHolds ≤ w.running.length)
      (fun _ c' => c'.jobsRunning = w.cell.jobsRunning ∧
        c'.inst.maintenanceHolds ≤ w.running.length) (w.cell.withEnv l.env) := by
    rw [hop]
    refine wlp_bind.mpr <| wlp_bind.mpr <| wlp_mono (startHold_maintenance _) (fun _ c₁ h₁ => ?_)
      fun _ _ h' => h'.elim
    have hholds₁ : c₁.inst.maintenanceHolds ≤ w.running.length := by
      have hcond : "maintenance" = "maintenance" →
          w.cell.inst.maintenanceHolds ≠ 0 ∨ w.running ≠ [] := by
        simpa only [World.Settles, hop] using hsettles
      have hbound := h.holds
      have hset : c₁.inst.maintenanceHolds =
        if w.cell.inst.maintenanceHolds = 0 then 1 else w.cell.inst.maintenanceHolds := h₁.2
      rcases hcond rfl with hne | hne
      · rw [hset, if_neg hne]
        exact hbound
      · have := List.length_pos_iff.mpr hne
        rw [hset]
        split <;> omega
    have hkeep : ∀ {c'}, Footprint C Touch.elsewhere c₁ c' →
        c'.jobsRunning = w.cell.jobsRunning ∧ c'.inst.maintenanceHolds ≤ w.running.length := by
      intro c' hfoot
      have hsame := unaffected_of_footprint hfoot
      refine ⟨hsame.jobs.trans h₁.1, ?_⟩
      rcases hsame.holds with hholds | hholds <;> omega
    refine wlp_bind.mpr <| wlp_mono (within_ensureRunningLocked Touch.recovering_le_elsewhere
      l.fuel "maintenance" c₁) (fun _ c' h' => ?_) fun _ c' h' => hkeep h'
    exact wlp_bind.mpr <| wlp_get.mpr <| wlp_pure.mpr <| wlp_pure.mpr <| hkeep h'
  have hfinal : w'.cell.jobsRunning = w.cell.jobsRunning ∧
      w'.cell.inst.maintenanceHolds ≤ w.running.length := by
    rcases World.step_spec hstep hcell with ⟨_, h'⟩ | ⟨_, _, h', _⟩ <;> exact h'
  exact ⟨by rw [hrunning]; exact hfinal.2, fun jobId => by rw [hfinal.1, hrunning, h.marks],
    by rw [hrunning]; exact h.nodup⟩

/-- Only maintenance sections and `start(reason="maintenance")` touch marks and hold. -/
theorem touches_elsewhere {c : Cell σ} {op : Operation} {t : Touch}
    (hstart : op ≠ .start "maintenance") (hbegin : ∀ jobId, op ≠ .beginMaintenance jobId)
    (hfinish : ∀ index, op ≠ .finishMaintenance index) (ht : op.touches c t) : t.elsewhere := by
  have hrecovering := Touch.recovering_le_elsewhere t
  have hmoving := hrecovering ∘ Touch.moving_le_recovering t
  have hobserving := hrecovering ∘ Touch.observing_le_recovering t
  cases op with
  | start reason =>
      rcases ht with ht | rfl | ⟨_, _, rfl⟩
      · exact hrecovering ht
      · exact fun heq => hstart (heq ▸ rfl)
      · trivial
  | stop force reason =>
      rcases ht with ht | rfl | ⟨_, rfl⟩ | ⟨_, rfl⟩
      · exact hmoving ht
      · trivial
      · exact show "admin" ≠ "maintenance" by decide
      · trivial
  | acquireSession sessionId =>
      rcases ht with ht | rfl | rfl
      · exact hrecovering ht
      · trivial
      · trivial
  | releaseSession sessionId =>
      rcases ht with ht | rfl
      · exact hobserving ht
      · trivial
  | notifyFailure error => exact hrecovering ht
  | transition newState reason => exact hmoving ht
  | reconcile =>
      rcases ht with ht | ht
      · exact hrecovering ht
      · simp only [List.mem_cons, List.not_mem_nil, or_false] at ht
        rcases ht with rfl | rfl | rfl <;> simp [Touch.elsewhere]
  | tick now =>
      rcases ht with ht | rfl
      · exact hrecovering ht
      · trivial
  | beginMaintenance jobId => exact absurd rfl (hbegin jobId)
  | callMaintenance index => exact hobserving ht
  | finishMaintenance index => exact absurd rfl (hfinish index)
  | setLifecycleMode mode => exact hobserving ht
  | reload => exact False.elim ht

/-- What the first section does to a counted world. -/
theorem begin_maintenance (h : RunsCounted w) (hsettles : w.Settles C l) {jobId : String}
    (hop : l.op = .beginMaintenance jobId) (hstep : w.step C l = some (r, w')) :
    RunsCounted w' ∧ ∀ e, r = .error e →
      e.cls ≠ .invalidTransitionError ∧ w'.cell.jobsRunning = w.cell.jobsRunning := by
  have hsection : wlp (l.op.lockedSection C l.fuel w.running)
      (fun running c' => ∃ job wasActive, running = w.running ++ [⟨job, wasActive, none⟩] ∧
        job.name ∉ w.cell.jobsRunning ∧ c'.jobsRunning = insert job.name w.cell.jobsRunning ∧
        c'.inst.maintenanceHolds ≤ max w.cell.inst.maintenanceHolds 0 + 1)
      (fun e c' => e.cls ≠ .invalidTransitionError ∧ c'.jobsRunning = w.cell.jobsRunning ∧
        c'.inst.maintenanceHolds ≤ max w.cell.inst.maintenanceHolds 0)
      (w.cell.withEnv l.env) := by
    rw [hop]
    refine wlp_bind.mpr ?_
    unfold findJob
    cases hjob : (jobsByName C.service).get? jobId with
    | none => exact wlp_throw.mpr ⟨by simp, rfl, le_max_left _ _⟩
    | some job =>
        have hname := name_of_jobsByName hjob
        have hstate : job.name ∉ (w.cell.withEnv l.env).jobsRunning →
            (w.cell.withEnv l.env).inst.state ≠ .maintenance := by
          simp only [World.Settles, hop] at hsettles
          rw [hname]
          exact hsettles (by simp [hjob])
        exact wlp_pure.mpr <| wlp_bind.mpr <| wlp_mono (beginMaintenance_spec l.fuel hstate)
          (fun wasActive _ h' => wlp_pure.mpr ⟨job, wasActive, rfl, h'⟩) fun _ _ h' => h'
  have hbound := h.holds
  -- a section that returns adds one run, one mark and one hold at most; one that raises adds none
  rcases World.step_spec hstep hsection with ⟨hr, job, wasActive, hrunning, hfresh, hjobs, hholds⟩ |
    ⟨e, hr, ⟨hcls, hjobs, hholds⟩, hrunning⟩
  · refine ⟨⟨?_, fun name => ?_, ?_⟩, fun e he => by rw [hr] at he; cases he⟩
    · rw [hrunning, List.length_append, List.length_singleton]
      push_cast
      omega
    · simp only [hjobs, hrunning, Finset.mem_insert, h.marks, List.mem_append, List.mem_singleton]
      constructor
      · rintro (rfl | ⟨run, hmem, hname⟩)
        · exact ⟨_, .inr rfl, rfl⟩
        · exact ⟨run, .inl hmem, hname⟩
      · rintro ⟨run, hmem | rfl, hname⟩
        · exact .inr ⟨run, hmem, hname⟩
        · exact .inl hname.symm
    · rw [hrunning, List.map_append, List.nodup_append]
      refine ⟨h.nodup, by simp, fun name hname other hother heq => hfresh ?_⟩
      rw [List.map_singleton, List.mem_singleton] at hother
      obtain ⟨run, hmem, hrun⟩ := List.mem_map.mp hname
      exact (h.marks _).mpr ⟨run, hmem, hrun.trans (heq.trans hother)⟩
  · have hsame : w'.running = w.running := by rw [hrunning, hop]; rfl
    refine ⟨⟨?_, fun name => by rw [hjobs, hsame, h.marks], by rw [hsame]; exact h.nodup⟩,
      fun e' he' => ?_⟩
    · rw [hsame]
      omega
    · rw [hr, Except.error.injEq] at he'
      exact he' ▸ ⟨hcls, hjobs⟩

/-- What the second section does to a counted world. -/
theorem finish_maintenance (h : RunsCounted w) (hsettles : w.Settles C l) {index : ℕ}
    (hop : l.op = .finishMaintenance index) (hstep : w.step C l = some (r, w')) :
    RunsCounted w' ∧ (∀ run ∈ w.running[index]?, run.job.name ∉ w'.cell.jobsRunning) ∧
      ∀ e, r = .error e → e.cls ≠ .invalidTransitionError := by
  have hsection : wlp (l.op.lockedSection C l.fuel w.running)
      (fun running c' => ∃ run ∈ w.running[index]?, running = w.running.eraseIdx index ∧
        c'.jobsRunning = w.cell.jobsRunning.erase run.job.name ∧
        c'.inst.maintenanceHolds ≤ max (w.cell.inst.maintenanceHolds - 1) 0)
      (fun e c' => e.cls ≠ .invalidTransitionError ∧ ∃ run ∈ w.running[index]?,
        c'.jobsRunning = w.cell.jobsRunning.erase run.job.name ∧
        c'.inst.maintenanceHolds ≤ max (w.cell.inst.maintenanceHolds - 1) 0)
      (w.cell.withEnv l.env) := by
    rw [hop]
    simp only [Operation.lockedSection]
    simp only [World.Settles, hop] at hsettles
    split
    · rename_i job wasActive outcome hget
      have hsettleable := hsettles _ hget outcome rfl
      exact wlp_bind.mpr <| wlp_mono (finishMaintenance_spec l.fuel hsettleable)
        (fun _ _ h' => wlp_pure.mpr ⟨_, hget, rfl, h'⟩) fun _ _ h' => ⟨h'.1, _, hget, h'.2⟩
    · exact wlp_diverge.mpr trivial
  -- either way the run is over and its mark and hold are given back
  have hdone : (∃ run ∈ w.running[index]?, w'.running = w.running.eraseIdx index ∧
      w'.cell.jobsRunning = w.cell.jobsRunning.erase run.job.name ∧
      w'.cell.inst.maintenanceHolds ≤ max (w.cell.inst.maintenanceHolds - 1) 0) ∧
      ∀ e, r = .error e → e.cls ≠ .invalidTransitionError := by
    rcases World.step_spec hstep hsection with ⟨hr, hdone⟩ | ⟨e, hr, ⟨hcls, run, hrun, hdone⟩, hrunning⟩
    · exact ⟨hdone, fun e he => by rw [hr] at he; cases he⟩
    · refine ⟨⟨run, hrun, by rw [hrunning, hop]; rfl, hdone⟩, fun e' he' => ?_⟩
      rw [hr, Except.error.injEq] at he'
      exact he' ▸ hcls
  obtain ⟨⟨run, hget, hrunning, hjobs, hholds⟩, hcls⟩ := hdone
  obtain ⟨hindex, hrun⟩ := List.getElem?_eq_some_iff.mp hget
  have hnames : (w'.running.map fun run => run.job.name) =
      (w.running.map fun run => run.job.name).eraseIdx index := by
    rw [hrunning, List.eraseIdx_map]
  have hmem : ∀ name, (∃ run ∈ w'.running, run.job.name = name) ↔
      name ≠ run.job.name ∧ ∃ run ∈ w.running, run.job.name = name := by
    intro name
    have hiff : ∀ running : List MaintenanceRun, (∃ run ∈ running, run.job.name = name) ↔
        name ∈ running.map fun run => run.job.name := fun running => List.mem_map.symm
    have hlength : index < (w.running.map fun run => run.job.name).length := by simpa using hindex
    have hname : (w.running.map fun run => run.job.name)[index] = run.job.name := by simp [hrun]
    rw [hiff, hiff, hnames, ← h.nodup.erase_getElem index hlength, h.nodup.mem_erase_iff, hname]
  refine ⟨⟨?_, fun name => ?_, ?_⟩, fun run' hrun' => ?_, hcls⟩
  · have hbound := h.holds
    rw [hrunning, List.length_eraseIdx_of_lt hindex]
    omega
  · rw [hjobs, Finset.mem_erase, h.marks, hmem]
  · rw [hnames]
    exact h.nodup.eraseIdx index
  · rw [Option.mem_def, hget, Option.some.injEq] at hrun'
    rw [hjobs, ← hrun']
    exact Finset.notMem_erase _ _

/-- The driver call between the sections stores its outcome with the run. -/
theorem call_maintenance (h : RunsCounted w) (hfresh : w.Fresh l) {index : ℕ}
    (hop : l.op = .callMaintenance index) (hstep : w.step C l = some (r, w')) : RunsCounted w' := by
  have hfoot : Footprint C Touch.elsewhere w.cell w'.cell :=
    Relation.ReflTransGen.head ⟨.quiet, trivial, .withEnv w.cell l.env⟩ <|
      (World.step_footprint hstep hfresh (by simp [hop])).mono fun t ht =>
        touches_elsewhere (by simp [hop]) (by simp [hop]) (by simp [hop]) ht
  have hcell := unaffected_of_footprint hfoot
  have hsection : wlp (l.op.lockedSection C l.fuel w.running)
      (fun running _ => (running.map fun run => run.job.name) =
        w.running.map fun run => run.job.name)
      (fun _ _ => True) (w.cell.withEnv l.env) := by
    rw [hop]
    simp only [Operation.lockedSection]
    split
    · rename_i job wasActive hget
      refine wlp_bind.mpr <| wlp_mono wlp_true (fun outcome _ _ => wlp_pure.mpr ?_)
        fun _ _ _ => trivial
      obtain ⟨hindex, hrun⟩ := List.getElem?_eq_some_iff.mp hget
      refine List.ext_getElem (by simp) fun i hi hi' => ?_
      simp only [List.getElem_map, List.getElem_set]
      split
      · rename_i heq
        subst heq
        rw [hrun]
      · rfl
    · exact wlp_diverge.mpr trivial
  have hnames : (w'.running.map fun run => run.job.name) =
      w.running.map fun run => run.job.name := by
    rcases World.step_spec hstep hsection with ⟨_, h'⟩ | ⟨_, _, _, hrunning⟩
    · exact h'
    · rw [hrunning, hop]
      rfl
  have hlength : w'.running.length = w.running.length := by
    have := congrArg List.length hnames
    simpa using this
  refine ⟨?_, fun name => ?_, hnames ▸ h.nodup⟩
  · have := h.holds
    rw [hlength]
    rcases hcell.holds with hholds | hholds <;> omega
  · have hiff : ∀ running : List MaintenanceRun, (∃ run ∈ running, run.job.name = name) ↔
        name ∈ running.map fun run => run.job.name := fun running => List.mem_map.symm
    rw [hcell.jobs, h.marks, hiff, hiff, hnames]

/-- A new supervisor knows of no maintenance run. -/
theorem reload (hop : l.op = .reload) (hstep : w.step C l = some (r, w')) : RunsCounted w' := by
  obtain ⟨hcell, hrunning⟩ := World.step_reload hstep hop
  refine ⟨?_, fun name => ?_, by simp [hrunning]⟩
  · rw [hcell, hrunning]
    unfold Cell.reloaded InstanceState.maintenanceHolds Dict.getD
    cases (w.cell.withEnv l.env).stateFile with
    | none => exact le_refl _
    | some document =>
        simp only [InstanceState.fromDict, Dict.get?_filterKeys]
        exact le_refl _
  · simp [hcell, hrunning, Cell.reloaded]

/-- Sections that find what they assume keep marks and holds counted. -/
theorem step (h : RunsCounted w) (hok : w.Fresh l ∧ w.Settles C l)
    (hstep : w.step C l = some (r, w')) : RunsCounted w' := by
  have hother : l.op ≠ .start "maintenance" → (∀ jobId, l.op ≠ .beginMaintenance jobId) →
      (∀ index, l.op ≠ .callMaintenance index) → (∀ index, l.op ≠ .finishMaintenance index) →
      l.op ≠ .reload → RunsCounted w' :=
    fun hstart hbegin hcall hfinish hreload => h.of_unaffected
      (unaffected_of_footprint <| Relation.ReflTransGen.head
        ⟨.quiet, trivial, .withEnv w.cell l.env⟩ <|
          (World.step_footprint hstep hok.1 hreload).mono fun t ht =>
            touches_elsewhere hstart hbegin hfinish ht)
      (World.running_of_step hstep hbegin hcall hfinish hreload)
  cases hop : l.op with
  | beginMaintenance jobId => exact (h.begin_maintenance hok.2 hop hstep).1
  | callMaintenance index => exact h.call_maintenance hok.1 hop hstep
  | finishMaintenance index => exact (h.finish_maintenance hok.2 hop hstep).1
  | reload => exact reload hop hstep
  | start reason =>
      by_cases hreason : reason = "maintenance"
      · exact h.start_maintenance hok.2 (hreason ▸ hop) hstep
      · exact hother (by simpa [hop] using hreason) (by simp [hop]) (by simp [hop])
          (by simp [hop]) (by simp [hop])
  | _ => exact hother (by simp [hop]) (by simp [hop]) (by simp [hop]) (by simp [hop]) (by simp [hop])

end RunsCounted

/-- The step brings a call `run_maintenance(_, jobId)` to its end: it raises in
its first section, or runs its second one. -/
def World.EndsCall (w : World σ) (l : Label σ) (r : Except Exn Unit) (jobId : String) : Prop :=
  match l.op with
  | .beginMaintenance jobId' => jobId' = jobId ∧ r ≠ .ok ()
  | .finishMaintenance index => ∃ run ∈ w.running[index]?, run.job.name = jobId
  | _ => False

/-- A nightly job that may wake the service. -/
def nightlyJob : Job where
  name := "nightly"
  schedule := "daily 03:00"
  action := "network-exchange"
  wakeIfStopped := none
  shutdownAfter := none

/-- A service with a nightly job. -/
def nightlyService : Context Script := scripted (onDemand .multiuser) [nightlyJob]

/-- A reconcile finds the live runtime in `maintenance` while the job is still
running and takes it for abandoned; the second section then raises
`InvalidTransitionError` and keeps mark and hold for ever. -/
theorem maintenance_call_fails_after_reconcile :
    ¬ ∀ (C : Context Script) (override : Option Mode) (env : Script) (w w' : World Script)
      (l : Label Script) (r : Except Exn Unit) (jobId : String),
      Machine.Run (World.step C) World.Fresh (World.initial C override env) w → w.Fresh l →
      w.step C l = some (r, w') → w.EndsCall l r jobId →
      jobId ∉ w'.cell.jobsRunning ∧ w'.cell.inst.maintenanceHolds ≤ w'.running.length ∧
        ∀ e, r = .error e → e.cls ≠ .invalidTransitionError := by
  intro hall
  let finish := scriptedLabel (.finishMaintenance 0) {}
  have hexec : ((Machine.exec (World.step nightlyService) World.Fresh
      (World.initial nightlyService none {})
      [scriptedLabel (.start "admin") {}, scriptedLabel (.beginMaintenance "nightly") {},
        scriptedLabel .reconcile { alive := true }, scriptedLabel (.callMaintenance 0) {}]).map
      fun w => (w.running.map fun run => run.job.name,
        (w.step nightlyService finish).map fun next =>
          (next.2.cell.jobsRunning, next.2.cell.inst.maintenanceHolds, next.2.running.length))) =
      some (["nightly"], some ({"nightly"}, 1, 0)) := by decide +kernel
  obtain ⟨w, hw, hobserved⟩ := Option.map_eq_some_iff.mp hexec
  obtain ⟨hnames, hnext⟩ := Prod.mk.injEq .. ▸ hobserved
  obtain ⟨⟨r, w'⟩, hstep, hleft⟩ := Option.map_eq_some_iff.mp hnext
  simp only [Prod.mk.injEq] at hleft
  obtain ⟨run, hrun, hname⟩ := List.map_eq_singleton_iff.mp hnames
  have hends : w.EndsCall finish r "nightly" := ⟨run, by rw [hrun]; rfl, hname⟩
  have hclaim := (hall _ _ _ w w' finish r "nightly" (Machine.run_of_exec hw) trivial hstep hends).1
  rw [hleft.1] at hclaim
  exact hclaim (by simp)

/-- In a run whose sections find what they assume, every `run_maintenance` call
ends with its mark and its hold given back and without an invalid transition.
(A call that is refused because the same job is already running leaves that
job's mark in place.) -/
theorem maintenance_call_settles {override : Option Mode} {env : σ} {w w' : World σ} {l : Label σ}
    {r : Except Exn Unit} {jobId : String}
    (hrun : Machine.Run (World.step C) (fun w l => w.Fresh l ∧ w.Settles C l)
      (World.initial C override env) w)
    (hok : w.Fresh l ∧ w.Settles C l) (hstep : w.step C l = some (r, w'))
    (hends : w.EndsCall l r jobId) :
    (jobId ∈ w'.cell.jobsRunning → l.op = .beginMaintenance jobId ∧ jobId ∈ w.cell.jobsRunning) ∧
      w'.cell.inst.maintenanceHolds ≤ w'.running.length ∧
      ∀ e, r = .error e → e.cls ≠ .invalidTransitionError := by
  have hcounted : RunsCounted w :=
    hrun.invariant ⟨by simp [World.initial, freshInstance, InstanceState.maintenanceHolds,
      Dict.getD], by simp [World.initial], by simp [World.initial]⟩
      fun _ _ _ _ h hok hstep => h.step hok hstep
  have hnext := hcounted.step hok hstep
  cases hop : l.op with
  | beginMaintenance jobId' =>
      simp only [World.EndsCall, hop] at hends
      obtain ⟨rfl, hraised⟩ := hends
      have hbegin := (hcounted.begin_maintenance hok.2 hop hstep).2
      refine ⟨fun hmem => ⟨rfl, ?_⟩, hnext.holds, fun e he => (hbegin e he).1⟩
      cases r with
      | ok _ => exact absurd rfl hraised
      | error e => rwa [(hbegin e rfl).2] at hmem
  | finishMaintenance index =>
      simp only [World.EndsCall, hop] at hends
      obtain ⟨run, hget, rfl⟩ := hends
      have hfinish := (hcounted.finish_maintenance hok.2 hop hstep).2
      exact ⟨fun hmem => absurd hmem (hfinish.1 run hget), hnext.holds, hfinish.2⟩
  | _ => simp [World.EndsCall, hop] at hends

/-- A caller arrives while the nightly job runs, and the job completes. -/
theorem maintenance_call_settles_with_caller :
    ∃ (w w' : World Script) (r : Except Exn Unit),
      w.step nightlyService (scriptedLabel (.finishMaintenance 0) {}) = some (r, w') ∧
      ("nightly" ∈ w'.cell.jobsRunning →
        Operation.finishMaintenance 0 = .beginMaintenance "nightly" ∧
          "nightly" ∈ w.cell.jobsRunning) ∧
      w'.cell.inst.maintenanceHolds ≤ w'.running.length ∧
      ∀ e, r = .error e → e.cls ≠ .invalidTransitionError := by
  let finish := scriptedLabel (.finishMaintenance 0) {}
  have hexec : ((Machine.exec (World.step nightlyService)
      (fun w l => w.Fresh l ∧ w.Settles nightlyService l) (World.initial nightlyService none {})
      [scriptedLabel (.beginMaintenance "nightly") {},
        scriptedLabel (.acquireSession "a") {}, scriptedLabel (.callMaintenance 0) {}]).map
      fun w => (w.running.map fun run => run.job.name, decide (w.Settles nightlyService finish),
        (w.step nightlyService finish).isSome)) =
      some (["nightly"], true, true) := by decide +kernel
  obtain ⟨w, hw, hobserved⟩ := Option.map_eq_some_iff.mp hexec
  simp only [Prod.mk.injEq, decide_eq_true_eq] at hobserved
  obtain ⟨hnames, hsettles, hsome⟩ := hobserved
  obtain ⟨⟨r, w'⟩, hstep⟩ := Option.isSome_iff_exists.mp hsome
  obtain ⟨run, hrun, hname⟩ := List.map_eq_singleton_iff.mp hnames
  have hends : w.EndsCall finish r "nightly" := ⟨run, by rw [hrun]; rfl, hname⟩
  have hfresh : w.Fresh finish := trivial
  exact ⟨w, w', r, hstep,
    maintenance_call_settles (Machine.run_of_exec hw) ⟨hfresh, hsettles⟩ hstep hends⟩

end UltimateBBSBox.Supervisor
