import Mathlib.Data.List.Pairwise
import UltimateBBSBox.Library.Window
import UltimateBBSBox.Supervisor.Runs

/-!
# The restart budget

`_restart_after_failure_locked` records every recovery attempt in
`restart_times` and prunes what is older than the window, but only relative to
the clock reading of each failure.  Along runs with a nondecreasing clock the
attempts of any window, wherever it is placed, still stay within
`max_restarts`: `restart_times` is the memory of a budget over a sliding window.

An attempt is recorded before `now + backoff` is computed and saved after.
Where that sum overflows the attempt is in memory only, and a supervisor
constructed afterwards has forgotten it.

A budget that is exhausted and a pending restart time never coexist, so a
failed service with an exhausted budget is not started by reconciling or ticking.
-/

namespace UltimateBBSBox.Supervisor

open Act

variable {σ : Type} {C : Context σ}

/-! ## What the log says about clock and attempts -/

/-- The clock readings of a log, newest first. -/
def clockReadings (log : List Effect) : List ℤ := log.filterMap fun
  | .clock reading => some reading.instant
  | _ => none

/-- The recovery attempts of a log, newest first. -/
def attempts (log : List Effect) : List ℤ := log.filterMap fun
  | .attempt timestamp => some timestamp.instant
  | _ => none

/-- How often the log calls `driver.start`. -/
def starts (log : List Effect) : ℕ := log.countP fun
  | .start _ => true
  | _ => false

/-- The clock never went back. -/
def ClockMonotone (log : List Effect) : Prop := (clockReadings log).Pairwise fun t u => u ≤ t

instance (log : List Effect) : Decidable (ClockMonotone log) :=
  inferInstanceAs (Decidable (List.Pairwise _ _))

/-- Quiet effects are neither clock readings nor attempts nor starts. -/
theorem log_of_quiet {effects : List Effect} (log : List Effect)
    (hquiet : ∀ effect ∈ effects, effect.Quiet) :
    clockReadings (effects ++ log) = clockReadings log ∧
      attempts (effects ++ log) = attempts log ∧ starts (effects ++ log) = starts log := by
  induction effects with
  | nil => exact ⟨rfl, rfl, rfl⟩
  | cons effect rest ih =>
      rw [List.forall_mem_cons] at hquiet
      obtain ⟨hclock, hattempt, hstart⟩ := ih hquiet.2
      cases effect with
      | clock | save | start | attempt => exact False.elim hquiet.1
      | _ =>
          refine ⟨?_, ?_, ?_⟩
          · rw [← hclock]; rfl
          · rw [← hattempt]; rfl
          · rw [← hstart]; simp [starts]

/-! ## Attempts within the window -/

/-- `restart_window_seconds`, in microseconds. -/
def Context.windowMicros (C : Context σ) : ℤ :=
  (C.service.lifecycle.restartWindowSeconds.getD 60 : ℕ) * microsPerSecond

/-- `max_restarts`. -/
def Context.maxRestarts (C : Context σ) : ℕ := C.service.lifecycle.maxRestarts.getD 3

/-- `restart_times` remembers what the budget needs. -/
def BudgetKept (C : Context σ) (c : Cell σ) : Prop :=
  Window.Bounded C.windowMicros C.maxRestarts (clockReadings c.log) (attempts c.log)
    (c.inst.restartTimes.map DateTime.instant)

/-- The comprehension of `_restart_after_failure_locked` forgets what the window has passed. -/
theorem map_recentRestarts {times prior : List DateTime} {now : DateTime} {window : ℕ}
    (h : recentRestarts times now window = .ok prior) :
    prior.map DateTime.instant =
      Window.recent (window * microsPerSecond) now.instant (times.map DateTime.instant) := by
  unfold recentRestarts at h
  split at h
  · rename_i width hwidth
    rw [Except.ok.injEq] at h
    rw [← h, timedelta_natCast_eq_some hwidth, Window.recent, List.filter_map]
    rfl
  · split at h
    · rename_i htimes
      rw [Except.ok.injEq] at h
      simp [← h, htimes, Window.recent]
    · cases h

namespace BudgetKept

variable {c c' : Cell σ}

/-- Touches that leave restart times and log readings alone. -/
theorem of_eq (h : BudgetKept C c) (hclock : clockReadings c'.log = clockReadings c.log)
    (hattempts : attempts c'.log = attempts c.log)
    (htimes : c'.inst.restartTimes = c.inst.restartTimes) : BudgetKept C c' := by
  unfold BudgetKept at h ⊢
  rwa [hclock, hattempts, htimes]

/-- Every touch but the reset of the budget keeps it, as long as the clock does
not go back. -/
theorem touch {t : Touch} (hreset : t ≠ .resetBudget) (ht : Touches C t c c')
    (h : ClockMonotone c.log → BudgetKept C c) (hclock : ClockMonotone c'.log) :
    BudgetKept C c' := by
  cases ht with
  | quiet inst override effects env hcore hquiet =>
      obtain ⟨hreadings, hattempts, _⟩ := log_of_quiet c.log hquiet
      unfold ClockMonotone at hclock
      rw [hreadings] at hclock
      exact (h hclock).of_eq hreadings hattempts hcore.restartTimes
  | clock =>
      exact Window.Bounded.read (h (List.pairwise_cons.mp hclock).2) _
  | prune now prior hnow hprior =>
      have hmem : now.instant ∈ clockReadings c.log := by
        obtain ⟨rest, hlog⟩ := List.head?_eq_some_iff.mp hnow
        rw [hlog]
        exact List.mem_cons_self ..
      have hforget := Window.Bounded.forget (h hclock) hmem
      unfold BudgetKept
      rwa [Cell.mapInst_inst, map_recentRestarts hprior]
  | attempt now hnow hroom =>
      have hlatest : ∀ t ∈ clockReadings c.log, t ≤ now.instant := by
        obtain ⟨rest, hlog⟩ := List.head?_eq_some_iff.mp hnow
        rw [Cell.note_log, Cell.mapInst_log, hlog] at hclock
        rw [hlog]
        intro t ht
        rcases List.mem_cons.mp ht with rfl | ht
        · exact le_refl _
        · exact (List.pairwise_cons.mp hclock).1 t ht
      have hadmit := (h hclock).accept hlatest (by rw [List.length_map]; exact hroom)
      unfold BudgetKept
      rw [Cell.note_inst, Cell.mapInst_inst, List.map_append]
      exact hadmit
  | resetBudget => exact absurd rfl hreset
  | _ => exact (h hclock).of_eq rfl rfl rfl

end BudgetKept

/-- No admin start finds the instance failed and resets its restart times. -/
def World.NoBudgetReset (w : World σ) (l : Label σ) : Prop :=
  match l.op with
  | .start reason => reason = "admin" → w.cell.inst.state ≠ .failed
  | _ => True

/-- A supervisor is only constructed anew where the state file has the restart
times: no recorded attempt was left unsaved by an overflow of its backoff. -/
def World.AttemptsSaved (w : World σ) (l : Label σ) : Prop :=
  match l.op with
  | .reload =>
      (match w.cell.stateFile with
        | some document => document.restartTimes
        | none => []) = w.cell.inst.restartTimes
  | _ => True

instance (w : World σ) (l : Label σ) : Decidable (w.NoBudgetReset l) :=
  match l with
  | ⟨.start reason, _, _⟩ =>
      inferInstanceAs (Decidable (reason = "admin" → w.cell.inst.state ≠ .failed))
  | ⟨.stop _ _, _, _⟩ | ⟨.acquireSession _, _, _⟩ | ⟨.releaseSession _, _, _⟩ |
    ⟨.notifyFailure _, _, _⟩ | ⟨.transition _ _, _, _⟩ | ⟨.reconcile, _, _⟩ | ⟨.tick _, _, _⟩ |
    ⟨.beginMaintenance _, _, _⟩ | ⟨.callMaintenance _, _, _⟩ | ⟨.finishMaintenance _, _, _⟩ |
    ⟨.setLifecycleMode _, _, _⟩ | ⟨.reload, _, _⟩ =>
      instDecidableTrue

instance (w : World σ) (l : Label σ) : Decidable (w.AttemptsSaved l) :=
  match l with
  | ⟨.reload, _, _⟩ =>
      inferInstanceAs (Decidable ((match w.cell.stateFile with
        | some document => document.restartTimes
        | none => []) = w.cell.inst.restartTimes))
  | ⟨.start _, _, _⟩ | ⟨.stop _ _, _, _⟩ | ⟨.acquireSession _, _, _⟩ | ⟨.releaseSession _, _, _⟩ |
    ⟨.notifyFailure _, _, _⟩ | ⟨.transition _ _, _, _⟩ | ⟨.reconcile, _, _⟩ | ⟨.tick _, _, _⟩ |
    ⟨.beginMaintenance _, _, _⟩ | ⟨.callMaintenance _, _, _⟩ | ⟨.finishMaintenance _, _, _⟩ |
    ⟨.setLifecycleMode _, _, _⟩ =>
      instDecidableTrue

theorem Cell.restartTimes_reloaded (c : Cell σ) :
    (c.reloaded C).inst.restartTimes =
      match c.stateFile with
      | some document => document.restartTimes
      | none => [] := by
  unfold Cell.reloaded
  cases c.stateFile <;> rfl

/-- Along a run with a nondecreasing clock that never resets or forgets the
budget, the attempts stay within it. -/
theorem budgetKept_of_run {override : Option Mode} {env : σ} {w : World σ}
    (hrun : Machine.Run (World.step C)
      (fun w l => w.Fresh l ∧ w.NoBudgetReset l ∧ w.AttemptsSaved l)
      (World.initial C override env) w) (hclock : ClockMonotone w.cell.log) :
    BudgetKept C w.cell := by
  refine World.run_cell_invariant (P := fun c => ClockMonotone c.log → BudgetKept C c) hrun
    (fun _ => .nil) (fun _ _ h => h.1) (fun _ _ ht h => BudgetKept.touch (by simp) ht h)
    (fun w l t c c' hok htouch ht h => BudgetKept.touch ?_ ht h)
    (fun w l hok hop h hclock => (h hclock).of_eq rfl rfl ?_) hclock
  · -- only an admin start of a failed instance resets the budget
    rintro rfl
    cases hop : l.op with
    | start reason =>
        have hnoreset := hok.2.1
        rw [hop] at htouch
        simp only [World.NoBudgetReset, hop] at hnoreset
        simp only [Operation.touches, Touch.recovering, reduceCtorEq, and_true, false_or] at htouch
        exact hnoreset htouch.1 htouch.2
    | _ =>
        rw [hop] at htouch
        simp [Operation.touches, Touch.recovering, Touch.moving, Touch.observing] at htouch
  · have hsaved := hok.2.2
    simp only [World.AttemptsSaved, hop] at hsaved
    rw [Cell.restartTimes_reloaded]
    exact hsaved

/-! ## Exhaustion -/

/-- An exhausted budget has no pending restart time, in memory and on disk. -/
structure ExhaustionSettled (c : Cell σ) : Prop where
  inst : c.inst.restartExhausted = true → c.inst.nextRestartAt = none
  saved : ∀ document, .save document ∈ c.log →
    document.restartExhausted = true → document.nextRestartAt = none

namespace ExhaustionSettled

variable {c c' : Cell σ}

theorem of_eq (h : ExhaustionSettled c) (hlog : ∀ document, .save document ∈ c'.log →
      .save document ∈ c.log)
    (hinst : c'.inst.restartExhausted = true → c'.inst.nextRestartAt = none) :
    ExhaustionSettled c' :=
  ⟨hinst, fun document hmem => h.saved document (hlog document hmem)⟩

theorem touch {t : Touch} (h : ExhaustionSettled c) (ht : Touches C t c c') :
    ExhaustionSettled c' := by
  have hcons : ∀ {effect : Effect} {log : List Effect}, (∀ document, effect ≠ .save document) →
      ∀ document, .save document ∈ effect :: log → .save document ∈ log :=
    fun hsave document hmem =>
      (List.mem_cons.mp hmem).resolve_left fun heq => hsave document heq.symm
  cases ht with
  | quiet inst override effects env hcore hquiet =>
      refine h.of_eq (fun document hmem => ?_) ?_
      · exact (List.mem_append.mp hmem).resolve_left fun hmem => hquiet _ hmem
      · rw [hcore.restartExhausted, hcore.nextRestartAt]
        exact h.inst
  | clock | start reply | stop reply hholds => exact h.of_eq (hcons (by simp)) h.inst
  | save =>
      refine ⟨h.inst, fun document hmem => ?_⟩
      rcases List.mem_cons.mp hmem with heq | hmem
      · cases heq
        exact h.inst
      · exact h.saved document hmem
  | resetBudget => exact h.of_eq (fun _ hmem => hmem) fun hfalse => by simp at hfalse
  | exhaust => exact h.of_eq (fun _ hmem => hmem) fun _ => rfl
  | attempt => exact h.of_eq (hcons (by simp)) fun hfalse => by simp at hfalse
  | nextRestart nextRestart hroom =>
      exact h.of_eq (fun _ hmem => hmem) fun htrue => absurd (hroom.symm.trans htrue) (by simp)
  | recovered => exact h.of_eq (fun _ hmem => hmem) fun _ => rfl
  | _ => exact h.of_eq (fun _ hmem => hmem) h.inst

theorem reload (h : ExhaustionSettled c) : ExhaustionSettled (c.reloaded C) := by
  refine h.of_eq (fun _ hmem => hmem) ?_
  unfold Cell.reloaded
  cases hfile : c.stateFile with
  | none => exact fun hfalse => by simp [freshInstance] at hfalse
  | some document => exact h.saved document (Cell.mem_log_of_stateFile hfile)

theorem of_run {override : Option Mode} {env : σ} {w : World σ}
    (hrun : Machine.Run (World.step C) World.Fresh (World.initial C override env) w) :
    ExhaustionSettled w.cell :=
  World.run_cell_invariant hrun
    ⟨fun hfalse => by simp [World.initial, freshInstance] at hfalse,
      fun _ hmem => by simp [World.initial] at hmem⟩
    (fun _ _ h => h) (fun _ _ ht h => h.touch ht) (fun _ _ _ _ _ _ _ ht h => h.touch ht)
    fun _ _ _ _ h => h.reload

end ExhaustionSettled

/-- Failed with an exhausted budget and nothing pending, after `n` starts. -/
structure Spent (n : ℕ) (c : Cell σ) : Prop where
  failed : c.inst.state = .failed
  exhausted : c.inst.restartExhausted = true
  notPending : c.inst.nextRestartAt = none
  starts : starts c.log = n

namespace Spent

variable {n : ℕ} {c c' : Cell σ}

/-- Touches that neither move nor start nor keep the budget. -/
def harmless : Touch → Prop
  | .quiet | .clock | .save | .pinHold _ | .dropHold _ => True
  | _ => False

theorem observing_le_harmless : Touch.observing ≤ harmless := by
  intro t ht
  cases t <;> trivial

theorem of_footprint (hfoot : Footprint C harmless c c') (h : Spent n c) : Spent n c' := by
  refine hfoot.closed (P := Spent n) (fun t c c' ht hstep h => ?_) h
  cases hstep with
  | quiet inst override effects env hcore hquiet =>
      exact ⟨hcore.state.trans h.failed, hcore.restartExhausted.trans h.exhausted,
        hcore.nextRestartAt.trans h.notPending, (log_of_quiet _ hquiet).2.2.trans h.starts⟩
  | clock | save | pinHold | dropHold => exact ⟨h.failed, h.exhausted, h.notPending, h.starts⟩
  | _ => exact False.elim ht

/-- Reconciling what is not alive starts nothing. -/
theorem reconcileLocked (h : Spent n c) (fuel : ℕ)
    (hdead : wlp (reconcileLook C) (fun alive _ => alive = false) (fun _ _ => True) c) :
    twp (reconcileLocked C fuel) (fun _ => Spent n) (fun _ => Spent n) c := by
  have hlook : Within (Footprint C harmless) (reconcileLook C) :=
    within_reconcileLook observing_le_harmless (fun _ _ => trivial) trivial
  refine (twp_reconcileLocked C).mpr <| twp_mono
    (total_reconcileLook.twp (wlp_and hdead (hlook c))) (fun alive c₁ h₁ => ?_)
    fun _ c₁ h₁ => of_footprint h₁.2 h
  obtain ⟨rfl, hfoot⟩ := h₁
  have hspent := of_footprint hfoot h
  refine twp_of_run_eq
    (run_reconcileConverge_of_exhausted C hspent.failed hspent.exhausted) ?_
  have hrest : Within (Footprint C harmless) (do
      scheduleIdleLocked C
      persist : Prog σ Unit) :=
    within_bind (within_scheduleIdleLocked observing_le_harmless) fun _ =>
      within_persist observing_le_harmless
  exact (total_bind total_scheduleIdleLocked fun _ => total_persist).twp <|
    wlp_mono (hrest c₁) (fun _ _ h' => of_footprint h' hspent) fun _ _ h' => of_footprint h' hspent

/-- Ticking starts nothing either. -/
theorem tickLocked (h : Spent n c) (fuel : ℕ) (now : DateTime) :
    twp (tickLocked C fuel now) (fun _ => Spent n) (fun _ => Spent n) c := by
  have hidle : twp (tickIdle C now) (fun _ => Spent n) (fun _ => Spent n) c := by
    refine twp_bind.mpr <| twp_get.mpr ?_
    cases parseTimestamp c.inst.idleDeadline with
    | none => exact twp_pure.mpr h
    | some deadline =>
        have hno : ¬ (reached deadline now ∧ c.inst.activeHolds = 0 ∧ c.inst.state = .running) := by
          simp [h.failed]
        simp only [whenever_of_not hno]
        exact twp_pure.mpr h
  refine twp_bind.mpr <| twp_mono hidle (fun _ c₁ h₁ => ?_) fun _ _ h' => h'
  have hrestart : twp (tickRestart C fuel now) (fun _ => Spent n) (fun _ => Spent n) c₁ := by
    refine twp_bind.mpr <| twp_get.mpr ?_
    rw [h₁.notPending]
    exact twp_pure.mpr h₁
  refine twp_bind.mpr <| twp_mono hrestart (fun _ c₂ h₂ => ?_) fun _ _ h' => h'
  have hjobs : Within (Footprint C harmless) (tickJobs now C.service.jobs) :=
    within_tickJobs observing_le_harmless now C.service.jobs
  exact (total_tickJobs now C.service.jobs).twp <|
    wlp_mono (hjobs c₂) (fun _ _ h' => of_footprint h' h₂) fun _ _ h' => of_footprint h' h₂

/-- A whole tick without a due maintenance job starts nothing. -/
theorem tick (h : Spent n c) (fuel : ℕ)
    (hdead : wlp (reconcileLook C) (fun alive _ => alive = false) (fun _ _ => True) c)
    (hdue : wlp (tickPass C fuel) (fun due _ => due = []) (fun _ _ => True) c) :
    twp (tick C fuel) (fun _ => Spent n) (fun _ => Spent n) c := by
  have hpass : twp (tickPass C fuel) (fun _ => Spent n) (fun _ => Spent n) c := by
    refine twp_bind.mpr <| twp_mono (h.reconcileLocked fuel hdead) (fun _ c₁ h₁ => ?_)
      fun _ _ h' => h'
    have hclock : Footprint C harmless c₁ (c₁.afterClock C) :=
      .single (show harmless .clock from trivial) .clock
    exact twp_bind.mpr <| total_now.twp <| wlp_now.mpr <|
      (of_footprint hclock h₁).tickLocked fuel _
  refine twp_bind.mpr <| twp_mono (twp_and hpass hdue) (fun due c₁ h₁ => ?_) fun _ _ h' => h'.1
  obtain ⟨hspent, rfl⟩ := h₁
  exact twp_pure.mpr hspent

end Spent

/-! ## The budget, over whole runs -/

/-- One restart a minute. -/
def oneRestart : Lifecycle :=
  { onDemand .multiuser with restart := some .onFailure, maxRestarts := some 1 }

/-- One restart a minute, after a backoff that no datetime can represent. -/
def endlessBackoff : Lifecycle :=
  { oneRestart with restartBackoffSeconds := some 1000000000000 }

/-- The runtime fails, the backoff overflows, the supervisor is constructed anew
and the runtime is reported failed again. -/
def endlessBackoffLabels : List (Label Script) :=
  [scriptedLabel (.start "admin") {},
    scriptedLabel (.notifyFailure "exited") { seconds := 1 },
    scriptedLabel .reload { seconds := 2 },
    scriptedLabel (.notifyFailure "exited") { seconds := 3 }]

/-- An attempt whose backoff overflows is not saved, so a supervisor constructed
afterwards records a second one inside the window of a budget of one. -/
theorem restart_budget_fails_after_overflow :
    ¬ ∀ (C : Context Script) (override : Option Mode) (env : Script) (w : World Script),
      Machine.Run (World.step C) (fun w l => w.Fresh l ∧ w.NoBudgetReset l)
        (World.initial C override env) w → ClockMonotone w.cell.log →
      ∀ left, Window.count C.windowMicros left (attempts w.cell.log) ≤ C.maxRestarts := by
  intro hall
  have hexec : ((Machine.exec (World.step (scripted endlessBackoff []))
      (fun w l => w.Fresh l ∧ w.NoBudgetReset l)
      (World.initial (scripted endlessBackoff []) none {}) endlessBackoffLabels).map fun w =>
        (decide (ClockMonotone w.cell.log), attempts w.cell.log)) =
      some (true, [3000000, 1000000]) := by decide +kernel
  obtain ⟨w, hw, hobserved⟩ := Option.map_eq_some_iff.mp hexec
  obtain ⟨hclock, hattempts⟩ := Prod.mk.injEq .. ▸ hobserved
  have hcount := hall _ _ _ w (Machine.run_of_exec hw) (of_decide_eq_true hclock) 0
  rw [hattempts] at hcount
  exact absurd hcount (by decide)

/-- The attempts of any closed interval as long as the restart window stay
within `max_restarts`, and a failed service whose budget is exhausted is not
started by a reconcile or by a tick that finds it not alive. -/
theorem restart_budget (C : Context σ) :
    (∀ override env w, Machine.Run (World.step C)
        (fun w l => w.Fresh l ∧ w.NoBudgetReset l ∧ w.AttemptsSaved l)
        (World.initial C override env) w → ClockMonotone w.cell.log →
      ∀ left, Window.count C.windowMicros left (attempts w.cell.log) ≤ C.maxRestarts) ∧
    (∀ override env w, Machine.Run (World.step C) World.Fresh (World.initial C override env) w →
      w.cell.inst.state = .failed → w.cell.inst.restartExhausted = true →
      ∀ env' fuel, let c := w.cell.withEnv env'
        wlp (reconcileLook C) (fun alive _ => alive = false) (fun _ _ => True) c →
        (∃ r c', (reconcileLocked C fuel).run c = some (r, c') ∧ starts c'.log = starts c.log) ∧
          (wlp (tickPass C fuel) (fun due _ => due = []) (fun _ _ => True) c →
            ∃ r c', (tick C fuel).run c = some (r, c') ∧ starts c'.log = starts c.log)) := by
  refine ⟨fun override env w hrun hclock => (budgetKept_of_run hrun hclock).bounded,
    fun override env w hrun hfailed hexhausted env' fuel => ?_⟩
  intro c hdead
  have hspent : Spent (starts c.log) c :=
    ⟨hfailed, hexhausted, (ExhaustionSettled.of_run hrun).inst hexhausted, rfl⟩
  constructor
  · obtain ⟨r, c', hrun', h⟩ := exists_run_of_twp (hspent.reconcileLocked fuel hdead)
    exact ⟨r, c', hrun', h.starts⟩
  · intro hdue
    obtain ⟨r, c', hrun', h⟩ := exists_run_of_twp (hspent.tick fuel hdead hdue)
    exact ⟨r, c', hrun', h.starts⟩

/-- A runtime that does not come back: the one attempt is spent, the budget is
exhausted, and reconciling or ticking leaves the service alone. -/
theorem restart_budget_single_attempt :
    ∃ w : World Script, attempts w.cell.log = [1000000] ∧
      Window.count (scripted oneRestart []).windowMicros 0 (attempts w.cell.log) ≤ 1 ∧
      (∃ r c', (reconcileLocked (scripted oneRestart []) 5).run (w.cell.withEnv {}) = some (r, c') ∧
        starts c'.log = starts w.cell.log) ∧
      ∃ r c', (tick (scripted oneRestart []) 5).run (w.cell.withEnv {}) = some (r, c') ∧
        starts c'.log = starts w.cell.log := by
  have hexec : ((Machine.exec (World.step (scripted oneRestart []))
      (fun w l => w.Fresh l ∧ w.NoBudgetReset l ∧ w.AttemptsSaved l)
      (World.initial (scripted oneRestart []) none {})
      [scriptedLabel (.start "admin") {},
        scriptedLabel (.notifyFailure "exited") { seconds := 1, starts := [false] }]).map fun w =>
        (decide (ClockMonotone w.cell.log), w.cell.inst.state, w.cell.inst.restartExhausted,
          attempts w.cell.log)) = some (true, .failed, true, [1000000]) := by decide +kernel
  obtain ⟨w, hw, hobserved⟩ := Option.map_eq_some_iff.mp hexec
  simp only [Prod.mk.injEq, decide_eq_true_eq] at hobserved
  obtain ⟨hclock, hfailed, hexhausted, hattempts⟩ := hobserved
  have hrun := Machine.run_of_exec hw
  have hdead : wlp (reconcileLook (scripted oneRestart [])) (fun alive _ => alive = false)
      (fun _ _ => True) (w.cell.withEnv {}) := by
    simp [reconcileLook, reconcileHolds, driverStatus, wlp_callDriver, scripted,
      Environment.scripted]
  have hdue : wlp (tickPass (scripted oneRestart []) 5) (fun due _ => due = []) (fun _ _ => True)
      (w.cell.withEnv {}) := by
    refine wlp_bind.mpr <| wlp_mono wlp_true (fun _ c _ => ?_) fun _ _ _ => trivial
    refine wlp_bind.mpr <| wlp_now.mpr <| wlp_bind.mpr <| wlp_mono wlp_true (fun _ c' _ => ?_)
      fun _ _ _ => trivial
    exact wlp_bind.mpr <| wlp_mono wlp_true (fun _ _ _ => wlp_pure.mpr rfl) fun _ _ _ => trivial
  have hbudget := restart_budget (scripted oneRestart [])
  have hsettled := hbudget.2 none {} w (hrun.mono fun _ _ h => h.1) hfailed hexhausted {} 5 hdead
  exact ⟨w, hattempts, hbudget.1 none {} w hrun hclock 0, hsettled.1, hsettled.2 hdue⟩

end UltimateBBSBox.Supervisor
