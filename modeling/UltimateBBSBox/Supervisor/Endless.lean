import Mathlib.Order.Interval.Finset.Nat
import UltimateBBSBox.Supervisor.Deeds
import UltimateBBSBox.Supervisor.Halting
import UltimateBBSBox.Supervisor.Progress

/-!
# Restarts that the window forgets

Where the startup timeouts of all restarts do not fit in the restart window, the oldest restart
time leaves the window before the budget is used up.  A runtime that never becomes ready is then
started over and over within one call, and what ends this is the interpreter's stack, not the
budget.
-/

namespace UltimateBBSBox.Supervisor

open Act

/-! ## A whole attempt, and its restart time -/

theorem timedelta_zero : timedelta 0 = some 0 := by
  have hround : roundHalfEven (0 * 1000000) = 0 := by
    rw [zero_mul]
    exact_mod_cast roundHalfEven_intCast 0
  unfold timedelta
  rw [hround]
  decide

theorem addSeconds_zero (t : DateTime) : addSeconds t 0 = .ok t := by
  have hadd : t.add 0 = some t := by
    unfold DateTime.add
    simp only [add_zero]
    rw [dif_pos t.inRange]
  unfold addSeconds
  rw [timedelta_zero, Option.bind_some, hadd]

section Doomed

variable {service : Service} {declaration : Declaration} {pollInterval : ℚ} {nestingLimit : ℕ}

/-- The readiness loop raises at its deadline. -/
theorem wlp_awaitReady_neverReady {d : Declaration} {readiness : Readiness}
    {timeout : ℕ} {deadline : ℚ} (fuel : ℕ) {c : Cell ℚ} (hearly : c.env ≤ deadline) :
    wlp (awaitReady (neverReady service declaration pollInterval nestingLimit) d readiness timeout deadline fuel)
      (fun _ _ => False) (fun _ c' => c'.env = deadline ∧ c'.inst = c.inst ∧ starts c'.log = starts c.log)
      c := by
  induction fuel generalizing c with
  | zero => exact wlp_diverge.mpr trivial
  | succ fuel ih =>
      refine wlp_bind.mpr <| wlp_callDriver.mpr ⟨fun ready hready => ?_, fun _ herror => by cases herror⟩
      obtain rfl : ready = false := (Except.ok.inj hready).symm
      refine wlp_bind.mpr <| wlp_monotonic.mpr <| wlp_ite.mpr ⟨fun hlate => wlp_throw.mpr ?_, fun hlate => ?_⟩
      · exact ⟨le_antisymm hearly hlate, rfl, starts_cons (by simp)⟩
      · refine wlp_bind.mpr <| wlp_monotonic.mpr <| wlp_bind.mpr <| wlp_sleep.mpr ?_
        have hbound : c.env + min pollInterval (max 0 (deadline - c.env)) ≤ deadline := by
          have hmin := min_le_right pollInterval (max 0 (deadline - c.env))
          rw [max_eq_right (by linarith)] at hmin ⊢
          linarith
        exact wlp_mono (ih hbound) (fun _ _ h => h) fun _ _ h =>
          ⟨h.1, h.2.1, h.2.2.trans (starts_cons (by simp))⟩

/-- An attempt takes the startup timeout and fails. -/
theorem wlp_startAttempt_neverReady {d : Declaration} {reason : String} (fuel : ℕ) (c : Cell ℚ) :
    wlp (startAttempt (neverReady service declaration pollInterval nestingLimit) fuel d reason) (fun _ _ => False)
      (fun _ c' => c'.env = c.env + (neverReady service declaration pollInterval nestingLimit).startupTimeout ∧
        c'.inst = c.inst ∧ starts c'.log = starts c.log + 1) c := by
  refine wlp_bind.mpr <| wlp_callDriver.mpr ⟨fun _ _ => ?_, fun _ herror => by cases herror⟩
  generalize hc₁ : Cell.afterCall c _ _ = c₁
  have henv : c₁.env = c.env := by rw [← hc₁]; rfl
  have hinst : c₁.inst = c.inst := by rw [← hc₁]; rfl
  have hstarts : starts c₁.log = starts c.log + 1 := by
    rw [← hc₁, Cell.afterCall_log]
    simp [starts]
  refine wlp_bind.mpr <| wlp_get.mpr ?_
  simp only [startupTimeout_eq]
  refine wlp_bind.mpr <| wlp_monotonic.mpr <| wlp_bind.mpr <| wlp_mono
    (wlp_awaitReady_neverReady fuel (le_add_of_nonneg_right (Nat.cast_nonneg _))) (fun _ _ h => h.elim)
    fun _ c₂ h₂ => ?_
  refine ⟨h₂.1.trans ?_, h₂.2.1.trans hinst, h₂.2.2.trans hstarts⟩
  rw [← henv]
  rfl

/-- The clock reading after so many startup timeouts. -/
def reading (C : Context ℚ) (k : ℕ) : DateTime := clipped (k * C.startupTimeout * microsPerSecond)

/-- After so many attempts from one call, with the restart times of some of them. -/
structure Doomed (C : Context ℚ) (k : ℕ) (c : Cell ℚ) : Prop where
  state : c.inst.state = .stopped ∨ c.inst.state = .failed
  time : c.env = k * C.startupTimeout
  times : ∃ js : List ℕ, c.inst.restartTimes = js.map (reading C) ∧ js.Nodup ∧ ∀ j ∈ js, j ≤ k
  starts : k ≤ starts c.log

/-- Those of the attempts that the window still has at the next failure. -/
def remembered (C : Context ℚ) (k : ℕ) (js : List ℕ) : List ℕ :=
  js.filter fun j => (k + 1 - j) * C.startupTimeout ≤ C.restartWindow

theorem mem_remembered {C : Context ℚ} {k j : ℕ} {js : List ℕ} :
    j ∈ remembered C k js ↔ j ∈ js ∧ (k + 1 - j) * C.startupTimeout ≤ C.restartWindow := by
  simp [remembered]

theorem nodup_remembered {C : Context ℚ} {k : ℕ} {js : List ℕ} (hnodup : js.Nodup) :
    (remembered C k js).Nodup := hnodup.filter _

/-- The next attempt is added to those that the window has. -/
theorem remembered_and_next {C : Context ℚ} {k : ℕ} {js : List ℕ} (hnodup : js.Nodup)
    (hbefore : ∀ j ∈ js, j ≤ k) :
    (remembered C k js ++ [k + 1]).Nodup ∧ ∀ j ∈ remembered C k js ++ [k + 1], j ≤ k + 1 := by
  have hrecent : ∀ j ∈ remembered C k js, j ≤ k := fun j hj => hbefore j (mem_remembered.mp hj).1
  constructor
  · refine List.nodup_append.mpr ⟨nodup_remembered hnodup, List.nodup_singleton _, fun j hj l hl => ?_⟩
    rw [List.mem_singleton.mp hl]
    have hle := hrecent j hj
    omega
  · intro j hj
    rcases List.mem_append.mp hj with hj | hj
    · have hle := hrecent j hj
      omega
    · exact (List.mem_singleton.mp hj).le

/-- What the window has is never a whole budget. -/
theorem length_remembered_lt {C : Context ℚ} {k : ℕ} {js : List ℕ} (hnodup : js.Nodup)
    (hbefore : ∀ j ∈ js, j ≤ k) (hwindow : C.restartWindow < C.maxRestarts * C.startupTimeout) :
    (remembered C k js).length < C.maxRestarts := by
  have hsubset : (remembered C k js).toFinset ⊆ Finset.Icc (k + 2 - C.maxRestarts) k := by
    intro j hj
    rw [List.mem_toFinset, mem_remembered] at hj
    have hlt : k + 1 - j < C.maxRestarts := Nat.lt_of_mul_lt_mul_right (hj.2.trans_lt hwindow)
    have hle := hbefore j hj.1
    rw [Finset.mem_Icc]
    omega
  have hcard := Finset.card_le_card hsubset
  rw [List.toFinset_card_of_nodup (nodup_remembered hnodup), Nat.card_Icc] at hcard
  have hpos : 0 < C.maxRestarts := Nat.pos_of_mul_pos_right (Nat.zero_lt_of_lt hwindow)
  omega

/-- The clock after so many startup timeouts. -/
theorem now_neverReady (C : Context ℚ) (k : ℕ) :
    (Environment.neverReady.now (k * C.startupTimeout)).1 = reading C k := by
  unfold Environment.neverReady reading
  dsimp only
  congr 1
  rw [show (k : ℚ) * C.startupTimeout * (microsPerSecond : ℤ) =
    ((k * C.startupTimeout * microsPerSecond : ℤ) : ℚ) by push_cast; ring, Int.floor_intCast]

/-- Readings are compared by the attempts between them. -/
theorem attempts_between {j k timeout width : ℕ} {micros : ℤ} (hmicros : 0 < micros) (hle : j ≤ k) :
    (k : ℤ) * timeout * micros - j * timeout * micros ≤ width * micros ↔ (k - j) * timeout ≤ width := by
  rw [← sub_mul, ← sub_mul, mul_le_mul_iff_left₀ hmicros, ← Nat.cast_sub hle, ← Nat.cast_mul, Nat.cast_le]

/-- What `_restart_after_failure_locked` selects, of readings that the calendar has. -/
theorem recentRestarts_readings {C : Context ℚ} {js : List ℕ} {k : ℕ}
    (hcalendar : ((k : ℤ) + 1) * C.startupTimeout * microsPerSecond < maxWall)
    (hwindow : (C.restartWindow : ℤ) * microsPerSecond < maxWall) (hbefore : ∀ j ∈ js, j ≤ k) :
    recentRestarts (js.map (reading C)) (reading C (k + 1)) C.restartWindow =
      .ok ((remembered C k js).map (reading C)) := by
  have hmicros : (0 : ℤ) < microsPerSecond := by decide
  have hinstant : ∀ j : ℕ, j ≤ k + 1 →
      (reading C j).instant = j * C.startupTimeout * microsPerSecond := by
    intro j hj
    have hle : (j : ℤ) * C.startupTimeout ≤ (k + 1) * C.startupTimeout :=
      mul_le_mul_of_nonneg_right (by exact_mod_cast hj) (Int.natCast_nonneg _)
    exact clipped_instant (mul_nonneg (by positivity) hmicros.le)
      (lt_of_le_of_lt (mul_le_mul_of_nonneg_right hle hmicros.le) hcalendar)
  unfold recentRestarts
  cases hwidth : timedelta C.restartWindow with
  | none =>
      have hlong := timedelta_natCast_eq_none hwidth
      unfold maxWall microsPerDay microsPerSecond at *
      omega
  | some width =>
      rw [timedelta_natCast_eq_some hwidth]
      dsimp only
      rw [List.filter_map]
      congr 2
      refine List.filter_congr fun j hj => ?_
      have hle := hbefore j hj
      rw [Function.comp_apply, decide_eq_decide, hinstant (k + 1) le_rfl, hinstant j (by omega)]
      exact attempts_between hmicros (by omega)

/-- What the lifecycle has to be for the window to forget. -/
structure Forgets (C : Context ℚ) (n : ℕ) : Prop where
  restarts : C.Restarts
  backoff : C.service.lifecycle.restartBackoffSeconds.getD 0 = 0
  window : C.restartWindow < C.maxRestarts * C.startupTimeout
  calendar : ((n + C.maxRestarts : ℕ) : ℤ) * C.startupTimeout * microsPerSecond < maxWall

/-- The failure of an attempt has room in the budget, and the service is started again. -/
theorem wlp_restartAfterFailureLocked_neverReady {n k : ℕ} {ensureRunning : Prog ℚ Unit} {c : Cell ℚ}
    (hforgets : Forgets (neverReady service declaration pollInterval nestingLimit) n) (hk : k < n)
    (hstate : c.inst.state = .failed)
    (htime : c.env = (k + 1 : ℕ) * (neverReady service declaration pollInterval nestingLimit).startupTimeout)
    (htimes : ∃ js : List ℕ, c.inst.restartTimes =
      js.map (reading (neverReady service declaration pollInterval nestingLimit)) ∧ js.Nodup ∧ ∀ j ∈ js, j ≤ k)
    (hstarts : k + 1 ≤ starts c.log)
    (hensure : ∀ c', Doomed (neverReady service declaration pollInterval nestingLimit) (k + 1) c' →
      wlp ensureRunning (fun _ _ => False) (fun _ c'' => n ≤ starts c''.log) c') :
    wlp (restartAfterFailureLocked (neverReady service declaration pollInterval nestingLimit) ensureRunning)
      (fun _ _ => False) (fun _ c' => n ≤ starts c'.log) c := by
  generalize hC : neverReady service declaration pollInterval nestingLimit = C at *
  have henv : C.environment = .neverReady := by rw [← hC]; rfl
  obtain ⟨js, hjs, hnodup, hbefore⟩ := htimes
  have hmicros : (0 : ℤ) < microsPerSecond := by decide
  have hcalendar : ((k : ℤ) + 1) * C.startupTimeout * microsPerSecond < maxWall := by
    refine lt_of_le_of_lt (mul_le_mul_of_nonneg_right (mul_le_mul_of_nonneg_right ?_
      (Int.natCast_nonneg _)) hmicros.le) hforgets.calendar
    exact_mod_cast (by omega : k + 1 ≤ n + C.maxRestarts)
  have hwindow : (C.restartWindow : ℤ) * microsPerSecond < maxWall := by
    refine lt_of_le_of_lt (mul_le_mul_of_nonneg_right ?_ hmicros.le) hforgets.calendar
    exact_mod_cast hforgets.window.le.trans (Nat.mul_le_mul_right _ (Nat.le_add_left _ _))
  have hnow : (C.environment.now c.env).1 = reading C (k + 1) := by
    rw [henv, htime]
    exact now_neverReady C (k + 1)
  refine wlp_bind.mpr <| wlp_get.mpr ?_
  dsimp only
  rw [lifecycle_restart, lifecycle_restartWindowSeconds, lifecycle_maxRestarts,
    lifecycle_restartBackoffSeconds]
  refine wlp_ite.mpr ⟨fun hnever => absurd hforgets.restarts hnever, fun _ => ?_⟩
  refine wlp_bind.mpr <| wlp_now.mpr ?_
  have hprior := recentRestarts_readings hcalendar hwindow hbefore
  unfold Context.restartWindow at hprior
  rw [hnow, hjs, hprior]
  refine wlp_bind.mpr <| wlp_ofExcept.mpr ⟨fun prior heq => ?_, fun _ h => by cases h⟩
  rw [Except.ok.injEq] at heq
  have hroom := length_remembered_lt hnodup hbefore hforgets.window
  refine wlp_bind.mpr <| wlp_modifyInst.mpr <| wlp_ite.mpr ⟨fun hexhausted => ?_, fun _ => ?_⟩
  · rw [← heq, List.length_map] at hexhausted
    exact absurd hroom (not_lt.mpr hexhausted)
  refine wlp_bind.mpr <| wlp_modifyInst.mpr <| wlp_bind.mpr <| wlp_record.mpr <| wlp_bind.mpr ?_
  rw [hforgets.backoff, NNRat.cast_zero, addSeconds_zero]
  refine wlp_ofExcept.mpr ⟨fun next _ => ?_, fun _ h => by cases h⟩
  refine wlp_bind.mpr <| wlp_modifyInst.mpr <| wlp_bind.mpr <| wlp_persist.mpr ?_
  rw [whenever, if_pos rfl]
  generalize hc' : Cell.saved _ = c'
  have hdoomed : Doomed C (k + 1) c' := by
    obtain ⟨hnodup', hbefore'⟩ := @remembered_and_next C k js hnodup hbefore
    rw [← hc']
    refine ⟨.inr hstate, ?_, ⟨remembered C k js ++ [k + 1], ?_, hnodup', hbefore'⟩, ?_⟩
    · rw [← htime]
      simp only [Cell.saved, Cell.note, Cell.mapInst, Cell.afterClock, Cell.withEnv, henv]
      rfl
    · rw [List.map_append, heq]
      rfl
    · refine hstarts.trans_eq ?_
      simp [Cell.saved, Cell.note, starts]
  exact wlp_bind.mpr <| wlp_mono (hensure c' hdoomed) (fun _ _ h => h.elim) fun _ _ h => h

/-- What is done about a failed attempt, before the failure is recorded. -/
theorem wlp_fail_neverReady {d : Declaration} {message : String} {c : Cell ℚ}
    (hstate : c.inst.state = .starting) :
    wlp (do
      tryCatch (cleanUp (neverReady service declaration pollInterval nestingLimit) d) fun _ => pure ()
      markFailedLocked (neverReady service declaration pollInterval nestingLimit) message "start_failure" : Prog ℚ Unit)
      (fun _ c' => c'.inst.state = .failed ∧ c'.env = c.env ∧
        c'.inst.restartTimes = c.inst.restartTimes ∧ starts c'.log = starts c.log)
      (fun _ _ => False) c := by
  refine wlp_bind.mpr <| wlp_tryCatch.mpr <| wlp_bind.mpr <| wlp_callDriver.mpr
    ⟨fun alive halive => ?_, fun _ h => by cases h⟩
  obtain rfl : alive = false := (Except.ok.inj halive).symm
  refine wlp_pure.mpr <| wlp_bind.mpr <| wlp_get.mpr <| wlp_bind.mpr <| wlp_whenever.mpr
    ⟨fun _ => wlp_transition.mpr ⟨fun _ => ?_, fun _ h => ?_⟩, fun hfailed => ?_⟩
  · refine wlp_bind.mpr <| wlp_modifyInst.mpr <| wlp_persist.mpr ⟨rfl, rfl, rfl, ?_⟩
    simp [Cell.saved, Cell.moved, Cell.note, starts]
  · rw [validateTransition_eq_ok_iff.mpr (by rw [Cell.afterCall_inst, hstate]; decide)] at h
    cases h
  · rw [Cell.afterCall_inst, hstate] at hfailed
    exact absurd (not_not.mp hfailed) (by decide)

/-- From a state that can be started, the recursion goes on until the stack has no room for another
call, and raises. -/
theorem wlp_ensureNested_neverReady {n : ℕ}
    (hforgets : Forgets (neverReady service declaration pollInterval nestingLimit) n) (fuel depth : ℕ)
    {k : ℕ} (hdepth : k + depth = n) (reason : String) {c : Cell ℚ}
    (hdoomed : Doomed (neverReady service declaration pollInterval nestingLimit) k c) :
    wlp (ensureNested (neverReady service declaration pollInterval nestingLimit) fuel depth reason)
      (fun _ _ => False) (fun _ c' => n ≤ starts c'.log) c := by
  induction depth generalizing k reason c with
  | zero => exact wlp_throw.mpr (hdepth.symm.trans_le hdoomed.starts)
  | succ depth ih =>
      have hstartable : c.inst.state ∉ activeStates ∧
          c.inst.state ∉ [LifecycleState.starting, .stopping] ∧
          LifecycleState.starting ∈ transitions c.inst.state := by
        rcases hdoomed.state with hstate | hstate <;> rw [hstate] <;> decide
      refine wlp_bind.mpr <| wlp_get.mpr <| wlp_ite.mpr ⟨fun h => absurd h hstartable.1,
        fun _ => wlp_ite.mpr ⟨fun h => absurd h hstartable.2.1, fun _ => ?_⟩⟩
      refine wlp_bind.mpr <| wlp_declaration.mpr ⟨fun d _ => ?_, fun _ h => by cases h⟩
      refine wlp_bind.mpr <| wlp_resolveDriver.mpr ⟨fun _ => ?_, fun _ h => by cases h⟩
      refine wlp_bind.mpr <| wlp_transition.mpr ⟨fun _ => ?_, fun _ h => ?_⟩
      swap
      · rw [Cell.note_inst, Cell.withEnv_inst, validateTransition_eq_ok_iff.mpr hstartable.2.2] at h
        cases h
      generalize hc₁ : Cell.moved _ _ _ _ _ = c₁
      have hstate₁ : c₁.inst.state = .starting := by rw [← hc₁]; rfl
      have htimes₁ : c₁.inst.restartTimes = c.inst.restartTimes := by rw [← hc₁]; rfl
      have htime₁ : c₁.env = c.env := by rw [← hc₁]; rfl
      have hstarts₁ : starts c₁.log = starts c.log := by
        rw [← hc₁]
        simp [Cell.moved, Cell.note, starts]
      refine wlp_tryCatch.mpr <| wlp_mono (wlp_startAttempt_neverReady fuel c₁) (fun _ _ h => h.elim)
        fun exc c₂ h₂ => ?_
      obtain ⟨htime₂, hinst₂, hstarts₂⟩ := h₂
      refine wlp_bind.mpr <| wlp_mono (wlp_bind.mp (wlp_fail_neverReady (by rw [hinst₂, hstate₁])))
        (fun _ _ h => wlp_bind.mpr <| wlp_mono h (fun _ c₃ h₃ => ?_) fun _ _ h => h.elim)
        fun _ _ h => h.elim
      obtain ⟨hstate₃, htime₃, htimes₃, hstarts₃⟩ := h₃
      have htimes : c₃.inst.restartTimes = c.inst.restartTimes := by
        rw [htimes₃, hinst₂, htimes₁]
      have htime : c₃.env = (k + 1 : ℕ) *
          (neverReady service declaration pollInterval nestingLimit).startupTimeout := by
        rw [htime₃, htime₂, htime₁, hdoomed.time]
        push_cast
        ring
      have hstarts : k + 1 ≤ starts c₃.log := by
        rw [hstarts₃, hstarts₂, hstarts₁]
        exact Nat.succ_le_succ hdoomed.starts
      -- the restart has room in the budget, so the next call is made
      have hrestart := wlp_restartAfterFailureLocked_neverReady hforgets (by omega) hstate₃ htime
        (htimes ▸ hdoomed.times) hstarts fun c' h' => ih (by omega) "recovery" h'
      exact wlp_bind.mpr <| wlp_mono hrestart (fun _ _ h => h.elim) fun _ _ h => h

/-- Holding a fresh instance leaves it where it is. -/
theorem wlp_startHold_fresh {reason : String} {c : Cell ℚ} (hstate : c.inst.state = .stopped)
    (htimes : c.inst.restartTimes = []) :
    wlp (startHold reason) (fun _ c' => c'.inst.state = .stopped ∧ c'.inst.restartTimes = [] ∧
      c'.env = c.env) (fun _ _ => False) c := by
  have hheld : ∀ (c' : Cell ℚ) (held : String), c'.inst.state = .stopped →
      c'.inst.restartTimes = [] → c'.env = c.env →
      wlp (do
        let c ← get
        whenever (c.inst.holds.getD held 0 = 0) (addHold held) : Prog ℚ Unit)
        (fun _ c' => c'.inst.state = .stopped ∧ c'.inst.restartTimes = [] ∧ c'.env = c.env)
        (fun _ _ => False) c' := fun c' held hstate' htimes' htime' =>
    wlp_bind.mpr <| wlp_get.mpr <| wlp_whenever.mpr ⟨fun _ => wlp_bind.mpr <| wlp_modifyInst.mpr <|
      wlp_persist.mpr ⟨hstate', htimes', htime'⟩, fun _ => ⟨hstate', htimes', htime'⟩⟩
  refine wlp_ite.mpr ⟨fun _ => ?_, fun _ => hheld c reason hstate htimes rfl⟩
  refine wlp_bind.mpr <| wlp_modifyInst.mpr <| wlp_bind.mpr <| wlp_modifyInst.mpr ?_
  -- only a failed instance forgets its restart times here
  refine hheld _ "admin" ?_ ?_ rfl <;> simp [Cell.mapInst, hstate, htimes]

theorem total_startHold {reason : String} : Total (startHold (σ := ℚ) reason) := by
  have hheld : ∀ held, Total (do
      let c ← get
      whenever (c.inst.holds.getD held 0 = 0) (addHold held) : Prog ℚ Unit) := fun held =>
    total_bind total_get fun _ => total_whenever fun _ => total_bind (total_modifyInst _) fun _ =>
      total_persist
  exact total_ite (fun _ => total_bind (total_modifyInst _) fun _ =>
    total_bind (total_modifyInst _) fun _ => hheld "admin") fun _ => hheld reason

/-- **The window forgets.**  Where the startup timeouts of all restarts do not fit in the restart
window, starting a runtime that never becomes ready calls the driver at least once for each nested
call of `_ensure_running_locked` that the interpreter's stack has room for, whatever the budget is,
and raises. -/
theorem never_ready_starts (service : Service) (declaration : Declaration) (pollInterval : ℚ)
    (nestingLimit : ℕ) (hpoll : 0 < pollInterval)
    (hforgets : Forgets (neverReady service declaration pollInterval nestingLimit) (nestingLimit + 1))
    (override : Option Mode) (reason : String) :
    ∃ enough, ∀ fuel, enough ≤ fuel → ∃ exc w',
      World.step (neverReady service declaration pollInterval nestingLimit)
        (World.initial (neverReady service declaration pollInterval nestingLimit) override 0)
        ⟨.start reason, 0, fuel⟩ = some (.error exc, w') ∧ nestingLimit + 1 ≤ starts w'.cell.log := by
  have hrounds := Nat.le_ceil
    ((neverReady service declaration pollInterval nestingLimit).startupTimeout / pollInterval)
  rw [div_le_iff₀ hpoll] at hrounds
  refine ⟨⌈(neverReady service declaration pollInterval nestingLimit).startupTimeout / pollInterval⌉₊ + 1,
    fun fuel hfuel => ?_⟩
  obtain ⟨rounds, rfl⟩ : ∃ rounds, fuel = rounds + 1 := ⟨fuel - 1, by omega⟩
  have hlonger : ((neverReady service declaration pollInterval nestingLimit).startupTimeout : ℚ) ≤
      rounds * pollInterval := by
    have hle : (⌈((neverReady service declaration pollInterval nestingLimit).startupTimeout : ℚ) /
        pollInterval⌉₊ : ℚ) ≤ rounds := by exact_mod_cast Nat.le_of_succ_le_succ hfuel
    exact hrounds.trans (mul_le_mul_of_nonneg_right hle hpoll.le)
  generalize hw : World.initial (neverReady service declaration pollInterval nestingLimit) override 0 = w
  generalize hl : (⟨.start reason, 0, rounds + 1⟩ : Label ℚ) = l
  have hsection : twp (l.op.lockedSection (neverReady service declaration pollInterval nestingLimit) l.fuel
      w.running) (fun _ _ => False) (fun _ c' => nestingLimit + 1 ≤ starts c'.log)
      (w.cell.withEnv l.env) := by
    rw [← hw, ← hl]
    refine twp_bind.mpr <| twp_bind.mpr <| twp_mono
      (total_startHold.twp (wlp_startHold_fresh rfl rfl)) (fun _ c₁ h₁ => ?_) fun _ _ h => h.elim
    obtain ⟨hstate, htimes, htime⟩ := h₁
    have hdoomed : Doomed (neverReady service declaration pollInterval nestingLimit) 0 c₁ := by
      refine ⟨.inl hstate, ?_, ⟨[], htimes, .nil, fun j hj => by cases hj⟩, Nat.zero_le _⟩
      rw [htime, Nat.cast_zero, zero_mul]
      rfl
    have hensure := (total_ensureNested SleepClock.neverReady hpoll hlonger (nestingLimit + 1) reason).twp
      (wlp_ensureNested_neverReady hforgets (rounds + 1) _ (Nat.zero_add _) reason hdoomed)
    exact twp_bind.mpr <| twp_mono hensure (fun _ _ h => h.elim) fun _ _ h => h
  obtain ⟨⟨result, c⟩, hrun⟩ := Option.ne_none_iff_exists'.mp hsection.1
  cases result with
  | ok running => exact (wlp_ok hsection.2 hrun).elim
  | error exc => exact ⟨exc, ⟨c, _⟩, by rw [World.step, hrun], wlp_error hsection.2 hrun⟩

end Doomed

/-- A lifecycle that restarts three times in two seconds, with a second for each attempt. -/
def hasty : Lifecycle :=
  { onDemand .multiuser with
    restart := some .onFailure
    maxRestarts := some 3
    restartWindowSeconds := some 2
    startupTimeoutSeconds := some 1 }

/-- The hasty service that never becomes ready. -/
def hastyService : Context ℚ := neverReady (scripted hasty []).service (scriptedDeclaration hasty) 1 400

/-- Three attempts of a second do not fit in two seconds. -/
theorem never_ready_starts_hundreds :
    hastyService.maxRestarts = 3 ∧ ∃ enough, ∀ fuel, enough ≤ fuel → ∃ exc w',
      World.step hastyService (World.initial hastyService none 0) ⟨.start "admin", 0, fuel⟩ =
        some (.error exc, w') ∧ 401 ≤ starts w'.cell.log :=
  ⟨rfl, never_ready_starts _ _ 1 400 one_pos ⟨by decide, rfl, by decide, by decide⟩ none "admin"⟩

end UltimateBBSBox.Supervisor
