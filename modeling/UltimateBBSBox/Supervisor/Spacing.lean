import UltimateBBSBox.Library.Machine
import UltimateBBSBox.Supervisor.LastRuns
import UltimateBBSBox.Supervisor.Maintenance

/-!
# How far apart the scheduler starts a job

The scheduler starts a job where `tick` marks it.  The mark and, later, the end of the run are
written to memory, and to the state file the next time it is saved.  Neither is ever set back
(`RanSince`), whatever happens between two ticks and however they overlap, so that the next mark
is judged against a last run that is no earlier than the one before.

An end of a run has to be read off a clock that has not gone back.  The readings of the ticks
themselves may come in any order: they are taken before the lock.
-/

namespace UltimateBBSBox.Supervisor

open Act

variable {σ α : Type} {C : Context σ} {J : Set String}

/-! ## Sections of callers -/

section Callers

theorem runs_addHold (reason : String) : Within (KeepsRuns J) (addHold (σ := σ) reason) :=
  runs_update fun _ => rfl

theorem runs_startHold (reason : String) : Within (KeepsRuns J) (startHold (σ := σ) reason) := by
  refine within_ite (fun _ => within_bind (runs_modifyInst fun _ => rfl) fun _ =>
    within_bind (runs_modifyInst fun inst => ?_) fun _ => within_bind within_get fun _ =>
      within_whenever fun _ => runs_addHold _)
    fun _ => within_bind within_get fun _ => within_whenever fun _ => runs_addHold _
  split <;> rfl

theorem runs_start (fuel : ℕ) (reason : String) : Within (KeepsRuns J) (start C fuel reason) :=
  within_bind (runs_startHold reason) fun _ =>
    within_bind (runs_ensureRunningLocked fuel reason) fun _ =>
      within_bind within_get fun _ => within_pure _

theorem runs_notifyFailure (fuel : ℕ) (error : String) :
    Within (KeepsRuns J) (notifyFailure C fuel error) :=
  within_bind runs_markFailedLocked fun _ =>
    within_bind (runs_restartAfterFailureLocked (runs_ensureRunningLocked fuel _)) fun _ =>
      within_bind within_get fun _ => within_pure _

theorem runs_stop (force : Bool) (reason : String) : Within (KeepsRuns J) (stop C force reason) :=
  within_bind (within_whenever fun _ => runs_modifyInst fun _ => rfl) fun _ =>
    within_bind (within_whenever fun _ => runs_modifyInst fun _ => rfl) fun _ =>
      within_bind within_get fun _ =>
        within_bind (within_whenever fun _ => within_throw _) fun _ =>
          within_bind runs_stopLocked fun _ => within_bind within_get fun _ => within_pure _

theorem runs_acquireSession (fuel : ℕ) (sessionId : String) :
    Within (KeepsRuns J) (acquireSession C fuel sessionId) := by
  refine within_bind within_get fun _ => within_bind (within_whenever fun _ => within_throw _) fun _ =>
    within_bind runs_now fun _ => within_bind (runs_modifyInst fun _ => rfl) fun _ =>
      within_bind (runs_addHold _) fun _ => within_bind ?_ fun _ => within_pure _
  exact within_tryCatch (runs_ensureRunningLocked fuel _) fun exc =>
    within_bind (runs_modifyInst fun _ => rfl) fun _ =>
      within_bind (runs_removeHold _) fun _ => within_throw exc

theorem runs_releaseSession (sessionId : String) :
    Within (KeepsRuns J) (releaseSession C sessionId) :=
  within_bind within_get fun _ => within_ite (fun _ => within_throw _) fun _ =>
    within_bind (runs_modifyInst fun _ => rfl) fun _ => within_bind (runs_removeHold _) fun _ =>
      within_bind runs_scheduleIdleLocked fun _ => within_bind within_get fun _ => within_pure _

theorem runs_setLifecycleMode (mode : Mode) :
    Within (KeepsRuns J) (setLifecycleMode (σ := σ) mode) := fun _ =>
  wlp_modify.mpr (keepsRuns_of_eq rfl rfl)

end Callers

/-! ## Last runs are not set back -/

/-- The last run of the job, in memory and in the state file, is no earlier than this. -/
structure RanSince (instant : ℤ) (name : String) (c : Cell σ) : Prop where
  memory : ∃ last, c.inst.scheduleLastRun.get? name = some last ∧ instant ≤ last.instant
  file : ∃ last, c.storedRun name = some last ∧ instant ≤ last.instant

section RanSince

variable {instant : ℤ} {name : String} {now : DateTime} {c c' : Cell σ}

theorem RanSince.keeps (h : RanSince instant name c) (hkept : KeepsRuns J c c') (hname : name ∉ J) :
    RanSince instant name c' := by
  obtain ⟨last, hlast, hle⟩ := h.memory
  refine ⟨⟨last, (hkept.memory name hname).trans hlast, hle⟩, ?_⟩
  rcases hkept.file name hname with hfile | hfile
  · obtain ⟨stored, hstored, hle'⟩ := h.file
    exact ⟨stored, hfile.trans hstored, hle'⟩
  · exact ⟨last, hfile.trans hlast, hle⟩

/-- A section that writes no last run. -/
theorem RanSince.within (h : RanSince instant name c) {act : Prog σ α}
    (hact : Within (KeepsRuns ∅) act) :
    wlp act (fun _ => RanSince instant name) (fun _ => RanSince instant name) c :=
  wlp_mono (hact c) (fun _ _ hkept => h.keeps hkept (Set.notMem_empty _))
    fun _ _ hkept => h.keeps hkept (Set.notMem_empty _)

/-- A job that has been marked ran at the time of the mark. -/
theorem ranSince_marked (now : DateTime) (name : String) (c : Cell σ) :
    RanSince now.instant name (c.marked now name) :=
  ⟨⟨now, Dict.get?_set_self _ _ _, le_rfl⟩, ⟨now, Dict.get?_set_self _ _ _, le_rfl⟩⟩

theorem RanSince.mono {instant' : ℤ} (h : RanSince instant' name c) (hle : instant ≤ instant') :
    RanSince instant name c := by
  obtain ⟨⟨last, hlast, hle₁⟩, ⟨stored, hstored, hle₂⟩⟩ := h
  exact ⟨⟨last, hlast, hle.trans hle₁⟩, ⟨stored, hstored, hle.trans hle₂⟩⟩

theorem isDue_of_jobDue {job : Job} (h : jobDue now job c = .ok true) :
    Scheduler.isDue job.schedule now (c.inst.scheduleLastRun.get? job.name) = .ok true := by
  unfold jobDue at h
  split at h
  · cases h
  · exact h

/-- Marking a due job sets no last run back. -/
theorem RanSince.marked {job : Job} (h : RanSince instant name c)
    (hdue : jobDue now job c = .ok true) : RanSince instant name (c.marked now job.name) := by
  by_cases hname : job.name = name
  · subst hname
    obtain ⟨last, hlast, hle⟩ := h.memory
    have hisDue := isDue_of_jobDue hdue
    rw [hlast] at hisDue
    exact (ranSince_marked now job.name c).mono (hle.trans (Scheduler.lt_of_isDue hisDue).le)
  · obtain ⟨last, hlast, hle⟩ := h.memory
    have hget : (c.inst.scheduleLastRun.set job.name now).get? name = some last :=
      (Dict.get?_set_ne _ _ (Ne.symm hname)).trans hlast
    exact ⟨⟨last, hget, hle⟩, ⟨last, hget, hle⟩⟩

theorem RanSince.tickJobs {jobs : List Job} (h : RanSince instant name c) :
    wlp (tickJobs now jobs) (fun _ => RanSince instant name) (fun _ => RanSince instant name) c := by
  induction jobs generalizing c with
  | nil => exact wlp_pure.mpr h
  | cons job rest ih =>
      refine wlp_bind.mpr <| wlp_get.mpr <| wlp_bind.mpr <| wlp_ofExcept.mpr
        ⟨fun due hdue => wlp_ite.mpr ⟨fun hyes => ?_, fun _ => ih h⟩, fun _ _ => h⟩
      have hmarked : RanSince instant name (c.marked now job.name) := h.marked (hyes ▸ hdue)
      exact wlp_bind.mpr <| wlp_modifyInst.mpr <| wlp_bind.mpr <| wlp_persist.mpr <|
        wlp_bind.mpr <| wlp_mono (ih hmarked) (fun _ _ h => wlp_pure.mpr h) fun _ _ h => h

/-- What the loop marks ran at the reading of the tick. -/
theorem ranSince_of_mem_dueNames {jobs : List Job} (h : name ∈ dueNames now jobs c) :
    wlp (Supervisor.tickJobs now jobs) (fun _ => RanSince now.instant name)
      (fun _ => RanSince now.instant name) c := by
  induction jobs generalizing c with
  | nil => cases h
  | cons job rest ih =>
      rw [dueNames] at h
      refine wlp_bind.mpr <| wlp_get.mpr <| wlp_bind.mpr <| wlp_ofExcept.mpr
        ⟨fun due hdue => wlp_ite.mpr ⟨fun hyes => ?_, fun hno => ?_⟩, fun e he => ?_⟩
      · rw [hyes] at hdue
        rw [hdue] at h
        have hrest : wlp (Supervisor.tickJobs now rest) (fun _ => RanSince now.instant name)
            (fun _ => RanSince now.instant name) (c.marked now job.name) := by
          rcases List.mem_cons.mp h with rfl | hmem
          · exact (ranSince_marked now job.name c).tickJobs
          · exact ih hmem
        exact wlp_bind.mpr <| wlp_modifyInst.mpr <| wlp_bind.mpr <| wlp_persist.mpr <|
          wlp_bind.mpr <| wlp_mono hrest (fun _ _ h => wlp_pure.mpr h) fun _ _ h => h
      · rw [Bool.not_eq_true] at hno
        rw [hno] at hdue
        rw [hdue] at h
        exact ih h
      · rw [he] at h
        cases h

/-- What the loop marks was due where the loop came to it. -/
theorem jobDue_of_mem_dueNames {P : Cell σ → Prop} {jobs : List Job}
    (hP : ∀ job c, P c → jobDue now job c = .ok true → P (c.marked now job.name)) (h : P c)
    (hmem : name ∈ dueNames now jobs c) :
    ∃ job ∈ jobs, job.name = name ∧ ∃ c', P c' ∧ jobDue now job c' = .ok true := by
  induction jobs generalizing c with
  | nil => cases hmem
  | cons job rest ih =>
      have hbehind : ∀ c' : Cell σ, P c' → name ∈ dueNames now rest c' →
          ∃ job' ∈ job :: rest, job'.name = name ∧
            ∃ c'', P c'' ∧ jobDue now job' c'' = .ok true := fun c' h' hmem' => by
        obtain ⟨job', hjob', hrest⟩ := ih h' hmem'
        exact ⟨job', List.mem_cons_of_mem _ hjob', hrest⟩
      rw [dueNames] at hmem
      split at hmem
      · rename_i hdue
        rcases List.mem_cons.mp hmem with rfl | hmem
        · exact ⟨job, List.mem_cons_self, rfl, c, h, hdue⟩
        · exact hbehind _ (hP job c h hdue) hmem
      · exact hbehind c h hmem
      · cases hmem

/-! ## The section of a tick -/

theorem RanSince.tickLocked (h : RanSince instant name c) (fuel : ℕ) :
    wlp (tickLocked C fuel now) (fun _ => RanSince instant name) (fun _ => RanSince instant name) c :=
  wlp_bind.mpr <| wlp_mono (h.within (runs_tickIdle now)) (fun _ _ h₁ => wlp_bind.mpr <|
    wlp_mono (h₁.within (runs_tickRestart fuel now)) (fun _ _ h₂ => h₂.tickJobs) fun _ _ h => h)
    fun _ _ h => h

theorem ranSince_of_mem_tickMarks {fuel : ℕ} (h : name ∈ tickMarks C fuel now c) :
    wlp (Supervisor.tickLocked C fuel now) (fun _ => RanSince now.instant name)
      (fun _ => RanSince now.instant name) c := by
  suffices hsection : wlp (tickLook C fuel now >>= fun _ => Supervisor.tickJobs now C.service.jobs)
      (fun _ => RanSince now.instant name) (fun _ => RanSince now.instant name) c by
    unfold wlp at hsection ⊢
    rwa [run_tickLocked]
  refine wlp_bind.mpr ?_
  unfold tickMarks at h
  unfold wlp
  cases hrun : (tickLook C fuel now).run c with
  | none => trivial
  | some result =>
      obtain ⟨r, c₁⟩ := result
      rw [hrun] at h
      cases r with
      | error e => cases h
      | ok _ => exact ranSince_of_mem_dueNames h

theorem jobDue_of_mem_tickMarks {P : Cell σ → Prop} {fuel : ℕ}
    (hP : ∀ job c, P c → jobDue now job c = .ok true → P (c.marked now job.name))
    (hlook : wlp (tickLook C fuel now) (fun _ => P) (fun _ _ => True) c)
    (hmem : name ∈ tickMarks C fuel now c) :
    ∃ job ∈ C.service.jobs, job.name = name ∧ ∃ c', P c' ∧ jobDue now job c' = .ok true := by
  unfold tickMarks at hmem
  split at hmem
  · rename_i hrun
    exact jobDue_of_mem_dueNames hP (wlp_ok hlook hrun) hmem
  · cases hmem

/-! ## The end of a run -/

theorem RanSince.finishMaintenance {job : Job} (h : RanSince instant name c)
    (hclock : ∀ last, c.inst.scheduleLastRun.get? job.name = some last →
      last.instant ≤ (C.environment.now c.env).1.instant)
    (fuel : ℕ) (wasActive : Bool) (outcome : Except String Archive.Fields) :
    wlp (finishMaintenance C fuel job wasActive outcome) (fun _ => RanSince instant name)
      (fun _ => RanSince instant name) c := by
  refine wlp_bind.mpr <| wlp_now.mpr <| wlp_bind.mpr <| wlp_modifyInst.mpr ?_
  refine RanSince.within ?_ (runs_finishTail fuel job wasActive outcome)
  obtain ⟨last, hlast, hle⟩ := h.memory
  refine ⟨?_, h.file⟩
  by_cases hname : name = job.name
  · subst hname
    exact ⟨_, Dict.get?_set_self _ _ _, hle.trans (hclock last hlast)⟩
  · exact ⟨last, (Dict.get?_set_ne _ _ hname).trans hlast, hle⟩

end RanSince

/-! ## Runs -/

namespace World

variable {w w' : World σ} {l : Label σ} {r : Except Exn Unit} {instant : ℤ} {name : String}

/-- The clock does not read earlier, at the end of a maintenance run, than the last run of its job. -/
def ClockForward (C : Context σ) (w : World σ) (l : Label σ) : Prop :=
  match l.op with
  | .finishMaintenance index => ∀ run ∈ w.running[index]?,
      ∀ last ∈ w.cell.inst.scheduleLastRun.get? run.job.name,
        last.instant ≤ (C.environment.now l.env).1.instant
  | _ => True

instance (w : World σ) (l : Label σ) : Decidable (w.ClockForward C l) :=
  match l with
  | ⟨.finishMaintenance index, env, _⟩ =>
      inferInstanceAs (Decidable (∀ run ∈ w.running[index]?,
        ∀ last ∈ w.cell.inst.scheduleLastRun.get? run.job.name,
          last.instant ≤ (C.environment.now env).1.instant))
  | ⟨.start _, _, _⟩ | ⟨.stop _ _, _, _⟩ | ⟨.acquireSession _, _, _⟩ | ⟨.releaseSession _, _, _⟩ |
    ⟨.notifyFailure _, _, _⟩ | ⟨.transition _ _, _, _⟩ | ⟨.reconcile, _, _⟩ | ⟨.tick _, _, _⟩ |
    ⟨.beginMaintenance _, _, _⟩ | ⟨.callMaintenance _, _, _⟩ | ⟨.setLifecycleMode _, _, _⟩ |
    ⟨.reload, _, _⟩ =>
      instDecidableTrue

/-- Step lemma: no step sets a last run back. -/
theorem ranSince_of_step (h : RanSince instant name w.cell) (hclock : w.ClockForward C l)
    (hstep : w.step C l = some (r, w')) : RanSince instant name w'.cell := by
  have hstart : RanSince instant name (w.cell.withEnv l.env) := ⟨h.memory, h.file⟩
  -- returning the maintenance runs changes nothing
  have hreturn : ∀ {α : Type} {act : Prog σ α} {next : α → List MaintenanceRun},
      wlp act (fun _ => RanSince instant name) (fun _ => RanSince instant name) (w.cell.withEnv l.env) →
      wlp (do let a ← act; return next a) (fun _ => RanSince instant name)
        (fun _ => RanSince instant name) (w.cell.withEnv l.env) := fun h => wlp_bind.mpr h
  have hsection : wlp (l.op.lockedSection C l.fuel w.running) (fun _ => RanSince instant name)
      (fun _ => RanSince instant name) (w.cell.withEnv l.env) := by
    cases hop : l.op with
    | start reason => exact hreturn <| hstart.within (runs_start _ _)
    | stop force reason => exact hreturn <| hstart.within (runs_stop _ _)
    | acquireSession sessionId => exact hreturn <| hstart.within (runs_acquireSession _ _)
    | releaseSession sessionId => exact hreturn <| hstart.within (runs_releaseSession _)
    | notifyFailure error => exact hreturn <| hstart.within (runs_notifyFailure _ _)
    | transition newState reason => exact hreturn <| hstart.within runs_transition
    | reconcile => exact hreturn <| hstart.within (runs_reconcileLocked _)
    | tick now => exact hreturn <| hstart.tickLocked _
    | beginMaintenance jobId =>
        refine wlp_bind.mpr ?_
        unfold findJob
        cases (jobsByName C.service).get? jobId with
        | none => exact wlp_throw.mpr hstart
        | some job =>
            exact wlp_pure.mpr <| hreturn <| hstart.within (runs_beginMaintenance _ job)
    | callMaintenance index =>
        unfold Operation.lockedSection
        dsimp only
        split
        · exact hreturn <| hstart.within (runs_callMaintenance _)
        · exact wlp_diverge.mpr trivial
    | finishMaintenance index =>
        unfold Operation.lockedSection
        dsimp only
        split
        · rename_i job wasActive outcome hrun
          unfold ClockForward at hclock
          rw [hop] at hclock
          exact hreturn <| hstart.finishMaintenance (fun last hlast => hclock _ hrun last hlast) _
            wasActive outcome
        · exact wlp_diverge.mpr trivial
    | setLifecycleMode mode => exact hreturn <| hstart.within (runs_setLifecycleMode mode)
    | reload =>
        obtain ⟨last, hlast, hle⟩ := h.file
        have hfile : ∃ document, (w.cell.withEnv l.env).stateFile = some document ∧
            document.scheduleLastRun.get? name = some last := Option.bind_eq_some_iff.mp hlast
        obtain ⟨document, hdocument, hget⟩ := hfile
        refine wlp_bind.mpr <| wlp_modify.mpr <| wlp_pure.mpr ⟨⟨last, ?_, hle⟩, ⟨last, hlast, hle⟩⟩
        rw [hdocument]
        exact hget
  rcases step_spec hstep hsection with ⟨_, h'⟩ | ⟨_, _, h', _⟩
  · exact h'
  · exact h'

end World

section Marks

variable {w₀ w₁ w₂ : World σ} {job : Job} {now now₁ now₂ : DateTime} {env₁ env₂ : σ}
  {fuel fuel₁ fuel₂ : ℕ} {r : Except Exn Unit} {c : Cell σ}

/-- A job that is marked is due. -/
theorem isDue_of_mark (hjob : ∀ other ∈ C.service.jobs, other.name = job.name → other = job)
    (hmark : job.name ∈ tickMarks C fuel now c) :
    ∃ lastRun, Scheduler.isDue job.schedule now lastRun = .ok true := by
  obtain ⟨other, hmem, hname, c', -, hdue⟩ := jobDue_of_mem_tickMarks (P := fun _ => True)
    (fun _ _ _ _ => trivial) (wlp_mono wlp_true (fun _ _ h => h) fun _ _ h => h) hmark
  obtain rfl := hjob other hmem hname
  exact ⟨_, isDue_of_jobDue hdue⟩

/-- Between two marks of a job in one run, its last run is not set back: the second mark finds it
due after a last run that is no earlier than the first. -/
theorem isDue_after_mark (hjob : ∀ other ∈ C.service.jobs, other.name = job.name → other = job)
    (hfirst : w₀.step C ⟨.tick now₁, env₁, fuel₁⟩ = some (r, w₁))
    (hmark₁ : job.name ∈ tickMarks C fuel₁ now₁ (w₀.cell.withEnv env₁))
    (hrun : Machine.Run (World.step C) (World.ClockForward C) w₁ w₂)
    (hmark₂ : job.name ∈ tickMarks C fuel₂ now₂ (w₂.cell.withEnv env₂)) :
    ∃ last, now₁.instant ≤ last.instant ∧
      Scheduler.isDue job.schedule now₂ (some last) = .ok true := by
  have hmarked : RanSince now₁.instant job.name w₁.cell := by
    have hsection : wlp (Operation.lockedSection C fuel₁ w₀.running (.tick now₁))
        (fun _ => RanSince now₁.instant job.name) (fun _ => RanSince now₁.instant job.name)
        (w₀.cell.withEnv env₁) :=
      wlp_bind.mpr <| wlp_mono (ranSince_of_mem_tickMarks hmark₁) (fun _ _ h => wlp_pure.mpr h)
        fun _ _ h => h
    rcases World.step_spec hfirst hsection with ⟨_, h⟩ | ⟨_, _, h, _⟩
    · exact h
    · exact h
  have hlast : RanSince now₁.instant job.name w₂.cell :=
    hrun.invariant hmarked fun _ _ _ _ h hclock hstep => World.ranSince_of_step h hclock hstep
  have hentered : RanSince now₁.instant job.name (w₂.cell.withEnv env₂) := ⟨hlast.memory, hlast.file⟩
  obtain ⟨other, hmem, hname, c', hran, hdue⟩ :=
    jobDue_of_mem_tickMarks (fun _ _ h hdue => RanSince.marked h hdue)
      (wlp_mono (hentered.within (runs_tickLook fuel₂ now₂)) (fun _ _ h => h) fun _ _ _ => trivial)
      hmark₂
  obtain rfl := hjob other hmem hname
  obtain ⟨last, hget, hle⟩ := hran.memory
  exact ⟨last, hle, hget ▸ isDue_of_jobDue hdue⟩

end Marks

/-! ## Both kinds of schedules -/

namespace Scheduler

variable {schedule : String} {ds : List ℕ} {unit hour minute : ℕ} {last now : DateTime}

theorem interval_of_isDue (hinterval : matchInterval (strip schedule.toList) = some (ds, unit))
    (h : isDue schedule now (some last) = .ok true) :
    last.instant + (number ds * unit : ℕ) * microsPerSecond ≤ now.instant := by
  have hcases := exists_isDue_eq_ok_iff.mp ⟨true, h⟩
  obtain ⟨hunderstood, hfits⟩ := hcases
  obtain ⟨hshort, hfits⟩ := hfits ds unit hinterval
  have hcount : 1 ≤ number ds := by
    rcases hunderstood with ⟨ds', unit', h', hcount⟩ | ⟨h', _⟩
    · rw [hinterval, Option.some.injEq, Prod.mk.injEq] at h'
      exact h'.1 ▸ hcount
    · simp [hinterval] at h'
  rwa [isDue_interval_some hinterval hshort hcount (hfits last rfl), Except.ok.injEq,
    decide_eq_true_iff] at h

/-- The day of the calendar on which the clock shows this time. -/
def date (t : DateTime) : ℤ := t.wall / microsPerDay

/-- The time of day that the clock shows. -/
def timeOfDay (t : DateTime) : ℤ := t.wall % microsPerDay

theorem daily_of_isDue {lastRun : Option DateTime}
    (hinterval : matchInterval (strip schedule.toList) = none)
    (hdaily : matchDaily (strip schedule.toList) = some (hour, minute))
    (h : isDue schedule now lastRun = .ok true) :
    (hour * 3600 + minute * 60) * microsPerSecond ≤ timeOfDay now ∧
      ∀ last, lastRun = some last →
        last.instant < date now * microsPerDay + (hour * 3600 + minute * 60) * microsPerSecond -
          now.offset := by
  have hvalid : hour ≤ 23 ∧ minute ≤ 59 := by
    by_contra hinvalid
    obtain ⟨message, hmessage⟩ :
        ∃ message, isDue schedule now lastRun = .error ⟨.supervisorError, message⟩ :=
      isDue_of_invalid_daily hinterval hdaily hinvalid
    rw [hmessage] at h
    cases h
  have hreached : (replaceTime now hour minute hvalid).instant ≤ now.instant →
      (hour * 3600 + minute * 60) * microsPerSecond ≤ timeOfDay now := fun hdue => by
    have hday := Int.mul_ediv_add_emod now.wall microsPerDay
    unfold replaceTime DateTime.instant at hdue
    unfold timeOfDay
    dsimp only at hdue
    rw [mul_comm] at hday
    omega
  cases lastRun with
  | none =>
      rw [isDue_daily_none hinterval hdaily hvalid, Except.ok.injEq, decide_eq_true_iff] at h
      exact ⟨hreached h, fun last hlast => by cases hlast⟩
  | some previous =>
      rw [isDue_daily_some hinterval hdaily hvalid, Except.ok.injEq, decide_eq_true_iff] at h
      refine ⟨hreached h.1, fun last hlast => ?_⟩
      rw [← Option.some.inj hlast]
      exact h.2

end Scheduler

section Schedules

variable {w₀ w₁ w₂ : World σ} {job : Job} {now₁ now₂ : DateTime} {env₁ env₂ : σ} {fuel₁ fuel₂ : ℕ}
  {r : Except Exn Unit} {ds : List ℕ} {unit hour minute : ℕ}

/-- **Intervals.**  Two starts of an interval job by the scheduler are its interval apart, in
every run from the one tick to the other, whatever ran and failed in between. -/
theorem interval_starts_apart (hjob : ∀ other ∈ C.service.jobs, other.name = job.name → other = job)
    (hinterval : Scheduler.matchInterval (Scheduler.strip job.schedule.toList) = some (ds, unit))
    (hfirst : w₀.step C ⟨.tick now₁, env₁, fuel₁⟩ = some (r, w₁))
    (hmark₁ : job.name ∈ tickMarks C fuel₁ now₁ (w₀.cell.withEnv env₁))
    (hrun : Machine.Run (World.step C) (World.ClockForward C) w₁ w₂)
    (hmark₂ : job.name ∈ tickMarks C fuel₂ now₂ (w₂.cell.withEnv env₂)) :
    now₁.instant + (Scheduler.number ds * unit : ℕ) * microsPerSecond ≤ now₂.instant := by
  obtain ⟨last, hle, hdue⟩ := isDue_after_mark hjob hfirst hmark₁ hrun hmark₂
  exact (Int.add_le_add_right hle _).trans (Scheduler.interval_of_isDue hinterval hdue)

/-- A job that runs every hour. -/
def hourlyJob : Job := { nightlyJob with name := "hourly", schedule := "every 1 h" }

/-- A service with an hourly job. -/
def hourlyService : Context Script := scripted (onDemand .multiuser) [hourlyJob]

/-- A run that takes a minute, and the next start. -/
theorem interval_starts_apart_hourly :
    ∃ w₁ w₂ : World Script,
      Machine.Run (World.step hourlyService) (World.ClockForward hourlyService) w₁ w₂ ∧
      w₂.cell.inst.scheduleLastRun.get? "hourly" = some (.ofSeconds 60) ∧
      (DateTime.ofSeconds 0).instant + (Scheduler.number [1] * 3600 : ℕ) * microsPerSecond ≤
        (DateTime.ofSeconds 3660).instant := by
  let first := World.initial hourlyService none ({} : Script)
  have hexec : ((first.step hourlyService (scriptedLabel (.tick (.ofSeconds 0)) {})).bind fun x₁ =>
      (Machine.exec (World.step hourlyService) (World.ClockForward hourlyService) x₁.2
        [scriptedLabel (.beginMaintenance "hourly") {}, scriptedLabel (.callMaintenance 0) {},
          scriptedLabel (.finishMaintenance 0) { seconds := 60 }]).map fun w₂ =>
        decide (w₂.cell.inst.scheduleLastRun.get? "hourly" = some (.ofSeconds 60) ∧
          "hourly" ∈ tickMarks hourlyService 5 (.ofSeconds 0) (first.cell.withEnv {}) ∧
          "hourly" ∈ tickMarks hourlyService 5 (.ofSeconds 3660) (w₂.cell.withEnv {}))) =
      some true := by decide +kernel
  simp only [Option.bind_eq_some_iff, Option.map_eq_some_iff, decide_eq_true_eq] at hexec
  obtain ⟨⟨r, w₁⟩, hstep, w₂, hw, hlast, hmark₁, hmark₂⟩ := hexec
  have hjob : ∀ other ∈ hourlyService.service.jobs, other.name = hourlyJob.name →
      other = hourlyJob := fun other hmem _ => List.mem_singleton.mp hmem
  have hinterval : Scheduler.matchInterval (Scheduler.strip hourlyJob.schedule.toList) =
      some ([1], 3600) := by decide +kernel
  exact ⟨w₁, w₂, Machine.run_of_exec hw, hlast,
    interval_starts_apart hjob hinterval hstep hmark₁ (Machine.run_of_exec hw) hmark₂⟩

/-- **Days.**  A daily job is started no earlier than its time of the day, and then on a later day,
unless the offset of the local time has gone back in between. -/
theorem daily_starts_apart (hjob : ∀ other ∈ C.service.jobs, other.name = job.name → other = job)
    (hinterval : Scheduler.matchInterval (Scheduler.strip job.schedule.toList) = none)
    (hdaily : Scheduler.matchDaily (Scheduler.strip job.schedule.toList) = some (hour, minute))
    (hmark₁ : job.name ∈ tickMarks C fuel₁ now₁ (w₀.cell.withEnv env₁)) :
    (hour * 3600 + minute * 60) * microsPerSecond ≤ Scheduler.timeOfDay now₁ ∧
      ∀ r w₁ w₂ now₂ env₂ fuel₂, w₀.step C ⟨.tick now₁, env₁, fuel₁⟩ = some (r, w₁) →
        Machine.Run (World.step C) (World.ClockForward C) w₁ w₂ →
        job.name ∈ tickMarks C fuel₂ now₂ (w₂.cell.withEnv env₂) →
          (hour * 3600 + minute * 60) * microsPerSecond ≤ Scheduler.timeOfDay now₂ ∧
            (now₁.offset ≤ now₂.offset → Scheduler.date now₁ < Scheduler.date now₂) := by
  obtain ⟨lastRun, hdue₁⟩ := isDue_of_mark hjob hmark₁
  obtain ⟨hreached₁, -⟩ := Scheduler.daily_of_isDue hinterval hdaily hdue₁
  refine ⟨hreached₁, fun r w₁ w₂ now₂ env₂ fuel₂ hfirst hrun hmark₂ => ?_⟩
  obtain ⟨last, hle, hdue₂⟩ := isDue_after_mark hjob hfirst hmark₁ hrun hmark₂
  obtain ⟨hreached₂, hbefore⟩ := Scheduler.daily_of_isDue hinterval hdaily hdue₂
  refine ⟨hreached₂, fun hoffset => ?_⟩
  have hlast := hbefore last rfl
  -- the target of the first day, on the clock of the second reading
  have htarget : Scheduler.date now₁ * microsPerDay + (hour * 3600 + minute * 60) * microsPerSecond <
      Scheduler.date now₂ * microsPerDay + (hour * 3600 + minute * 60) * microsPerSecond := by
    have hday := Int.mul_ediv_add_emod now₁.wall microsPerDay
    unfold Scheduler.timeOfDay at hreached₁
    unfold Scheduler.date at hlast ⊢
    unfold DateTime.instant at hle hlast
    rw [mul_comm] at hday
    omega
  have hpos : (0 : ℤ) < microsPerDay := by decide
  exact lt_of_mul_lt_mul_right (Int.lt_of_add_lt_add_right htarget) hpos.le

/-- Two nights. -/
theorem daily_starts_apart_nightly :
    ((3 : ℕ) * 3600 + (0 : ℕ) * 60) * microsPerSecond ≤ Scheduler.timeOfDay (.ofSeconds 10800) ∧
      ∃ w₁ : World Script, ∃ r,
        (World.initial nightlyService none {}).step nightlyService
          (scriptedLabel (.tick (.ofSeconds 10800)) {}) = some (r, w₁) ∧
        ((3 : ℕ) * 3600 + (0 : ℕ) * 60) * microsPerSecond ≤ Scheduler.timeOfDay (.ofSeconds 100000) ∧
        ((DateTime.ofSeconds 10800).offset ≤ (DateTime.ofSeconds 100000).offset →
          Scheduler.date (.ofSeconds 10800) < Scheduler.date (.ofSeconds 100000)) := by
  let first := World.initial nightlyService none ({} : Script)
  have hexec : ((first.step nightlyService (scriptedLabel (.tick (.ofSeconds 10800)) {})).map
      fun x₁ => decide
        ("nightly" ∈ tickMarks nightlyService 5 (.ofSeconds 10800) (first.cell.withEnv {}) ∧
          "nightly" ∈ tickMarks nightlyService 5 (.ofSeconds 100000) (x₁.2.cell.withEnv {}))) =
      some true := by decide +kernel
  simp only [Option.map_eq_some_iff, decide_eq_true_eq] at hexec
  obtain ⟨⟨r, w₁⟩, hstep, hmark₁, hmark₂⟩ := hexec
  have hjob : ∀ other ∈ nightlyService.service.jobs, other.name = nightlyJob.name →
      other = nightlyJob := fun other hmem _ => List.mem_singleton.mp hmem
  have hinterval : Scheduler.matchInterval (Scheduler.strip nightlyJob.schedule.toList) = none := by
    decide +kernel
  have hdaily : Scheduler.matchDaily (Scheduler.strip nightlyJob.schedule.toList) =
      some (3, 0) := by decide +kernel
  obtain ⟨hreached, hnext⟩ := daily_starts_apart hjob hinterval hdaily hmark₁
  exact ⟨hreached, w₁, r, hstep, hnext r w₁ w₁ _ _ _ hstep (.refl _) hmark₂⟩

end Schedules

end UltimateBBSBox.Supervisor
