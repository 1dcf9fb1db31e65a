import UltimateBBSBox.Supervisor.Budget
import UltimateBBSBox.Supervisor.Execution

/-!
# How often one call starts the driver

`_ensure_running_locked` and `_restart_after_failure_locked` call each other where there is no
backoff, and what ends that is the number of recent restart times.  Each attempt may take the
whole startup timeout, so the restart times of one call stay recent long enough when the
timeouts of all restarts fit in the window.

The clock is one that moves by sleeping only, so that the readiness loop is what takes time.
-/

namespace UltimateBBSBox.Supervisor

open Act

variable {σ α : Type}

/-! ## A clock that sleeping moves -/

/-- Time passes by `sleep` only, and the wall clock is not ahead of the monotonic one. -/
structure SleepClock (E : Environment σ) where
  time : σ → ℚ
  monotonic : ∀ env, (E.monotonic env).1 = time env ∧ time (E.monotonic env).2 = time env
  now : ∀ env, time (E.now env).2 = time env
  wall : ∀ env env', time env ≤ time env' →
    (E.now env').1.instant - (E.now env).1.instant ≤ ⌈(time env' - time env) * microsPerSecond⌉
  sleep : ∀ env seconds, 0 ≤ seconds → time (E.sleep seconds env) = time env + seconds
  resolve : ∀ env, time (E.resolve env).2 = time env
  start : ∀ inst d env, time (E.start inst d env).env = time env
  stop : ∀ inst d env, time (E.stop inst d env).env = time env
  status : ∀ inst d env, time (E.status inst d env).env = time env
  isReady : ∀ inst d readiness env, time (E.isReady inst d readiness env).env = time env

/-- `startup_timeout_seconds`. -/
def Context.startupTimeout (C : Context σ) : ℕ := C.service.lifecycle.startupTimeoutSeconds.getD 60

/-- `restart_window_seconds`. -/
def Context.restartWindow (C : Context σ) : ℕ := C.service.lifecycle.restartWindowSeconds.getD 60

variable {C : Context σ}

section Clock

variable (clock : SleepClock C.environment)

/-- No start, no change of the restart times, and no time that passes. -/
structure Still (c c' : Cell σ) : Prop where
  starts : starts c'.log = starts c.log
  times : c'.inst.restartTimes = c.inst.restartTimes
  time : clock.time c'.env = clock.time c.env

instance : IsPreorder (Cell σ) (Still clock) where
  refl _ := ⟨rfl, rfl, rfl⟩
  trans _ _ _ h h' := ⟨h'.starts.trans h.starts, h'.times.trans h.times, h'.time.trans h.time⟩

variable {clock}

/-- An effect that is no start. -/
theorem starts_cons {effect : Effect} {log : List Effect} (h : ∀ inst, effect ≠ .start inst) :
    starts (effect :: log) = starts log := by
  cases effect with
  | start inst => exact absurd rfl (h inst)
  | _ => simp [starts]

theorem still_modifyInst {f : InstanceState → InstanceState}
    (h : ∀ inst, (f inst).restartTimes = inst.restartTimes) :
    Within (Still clock) (modifyInst (σ := σ) f) := fun c => wlp_modifyInst.mpr ⟨rfl, h c.inst, rfl⟩

theorem still_persist : Within (Still clock) (persist (σ := σ)) := fun _ =>
  wlp_persist.mpr ⟨starts_cons (by simp), rfl, rfl⟩

theorem still_afterClock (c : Cell σ) : Still clock c (c.afterClock C) :=
  ⟨starts_cons (by simp), rfl, clock.now c.env⟩

theorem still_now : Within (Still clock) (now C) := fun c => wlp_now.mpr (still_afterClock c)

theorem still_resolveDriver : Within (Still clock) (resolveDriver C) := fun c =>
  wlp_resolveDriver.mpr
    ⟨fun _ => ⟨starts_cons (by simp), rfl, clock.resolve c.env⟩,
      fun _ _ => ⟨starts_cons (by simp), rfl, clock.resolve c.env⟩⟩

theorem still_declaration : Within (Still clock) (declaration C) := fun c =>
  wlp_declaration.mpr ⟨fun _ _ => refl_of (Still clock) c, fun _ _ => refl_of (Still clock) c⟩

theorem still_callDriver {call : InstanceState → σ → Reply σ α} {effect : InstanceState → Effect}
    (heffect : ∀ inst inst', effect inst ≠ .start inst')
    (htime : ∀ inst env, clock.time (call inst env).env = clock.time env) :
    Within (Still clock) (callDriver call effect) := by
  intro c
  have hstill : Still clock c (c.afterCall effect (call c.inst c.env)) :=
    ⟨starts_cons (heffect c.inst), rfl, htime c.inst c.env⟩
  exact wlp_callDriver.mpr ⟨fun _ _ => hstill, fun _ _ => hstill⟩

theorem still_transition {newState : LifecycleState} {reason : String} {error : Option String} :
    Within (Still clock) (transition C newState reason error) := fun c =>
  wlp_transition.mpr ⟨fun _ => ⟨by
    simp only [Cell.moved, Cell.saved_log, Cell.note_log, Cell.afterClock_log, Cell.mapInst_log]
    rw [starts_cons (by simp), starts_cons (by simp), starts_cons (by simp)], rfl, clock.now c.env⟩,
    fun _ _ => refl_of (Still clock) c⟩

theorem still_markFailedLocked {error reason : String} :
    Within (Still clock) (markFailedLocked C error reason) :=
  within_bind within_get fun _ =>
    within_bind (within_whenever fun _ => still_transition) fun _ =>
      within_bind (still_modifyInst fun _ => rfl) fun _ => still_persist

theorem still_cleanUp {d : Declaration} : Within (Still clock) (cleanUp C d) :=
  within_bind (still_callDriver (by simp) fun inst env => clock.status inst d env) fun _ =>
    within_ite (fun _ => still_callDriver (by simp) fun inst env => clock.stop inst d env)
      fun _ => within_pure _

/-- A section that comes back and stays within a relation. -/
theorem twp_within {R : Cell σ → Cell σ → Prop} {act : Prog σ α} (htotal : Total act)
    (hwithin : Within R act) (c : Cell σ) : twp act (fun _ c' => R c c') (fun _ c' => R c c') c :=
  htotal.twp (hwithin c)

theorem total_cleanUp {d : Declaration} : Total (cleanUp C d) :=
  total_bind (total_callDriver _ _) fun _ => total_ite (fun _ => total_callDriver _ _) fun _ => total_pure _

/-! ## An attempt takes at most the startup timeout -/

/-- At most so much time has passed, and nothing was started. -/
structure Waited (clock : SleepClock C.environment) (limit : ℚ) (c c' : Cell σ) : Prop where
  starts : starts c'.log = starts c.log
  times : c'.inst.restartTimes = c.inst.restartTimes
  before : clock.time c.env ≤ clock.time c'.env
  after : clock.time c'.env ≤ limit

theorem Still.waited {c c' : Cell σ} {limit : ℚ} (h : Still clock c c') (hlimit : clock.time c.env ≤ limit) :
    Waited clock limit c c' := ⟨h.starts, h.times, h.time.ge, h.time.trans_le hlimit⟩

theorem Waited.of_still {c c' c'' : Cell σ} {limit : ℚ} (h : Still clock c c')
    (h' : Waited clock limit c' c'') : Waited clock limit c c'' :=
  ⟨h'.starts.trans h.starts, h'.times.trans h.times, h.time.ge.trans h'.before, h'.after⟩

theorem Waited.still {c c' c'' : Cell σ} {limit : ℚ} (h : Waited clock limit c c')
    (h' : Still clock c' c'') : Waited clock limit c c'' :=
  ⟨h'.starts.trans h.starts, h'.times.trans h.times, h.before.trans h'.time.ge,
    h'.time.trans_le h.after⟩

theorem total_monotonic : Total (monotonic C) :=
  total_bind total_get fun _ => total_bind (total_modify _) fun _ => total_pure _

variable (clock) in
/-- What `clock.monotonic` returns. -/
theorem twp_monotonic (c : Cell σ) :
    twp (monotonic C) (fun elapsed c' => elapsed = clock.time c.env ∧ Still clock c c')
      (fun _ _ => False) c :=
  total_monotonic.twp <| wlp_monotonic.mpr
    ⟨(clock.monotonic c.env).1, rfl, rfl, (clock.monotonic c.env).2⟩

/-- One round of the readiness loop ends it, or sleeps. -/
theorem twp_awaitReady_round {d : Declaration} {readiness : Readiness} {timeout fuel : ℕ} {deadline : ℚ}
    {Q : Cell σ → Prop} {c : Cell σ} (hdone : ∀ c', Still clock c c' → Q c')
    (hsleep : ∀ c', Still clock c c' → clock.time c.env < deadline →
      twp (awaitReady C d readiness timeout deadline fuel) (fun _ => Q) (fun _ => Q)
        (c'.withEnv (C.environment.sleep (min C.pollInterval (deadline - clock.time c.env)) c'.env))) :
    twp (awaitReady C d readiness timeout deadline (fuel + 1)) (fun _ => Q) (fun _ => Q) c := by
  have hready : Within (Still clock) (driverIsReady C d readiness) :=
    still_callDriver (by simp) fun inst env => clock.isReady inst d readiness env
  refine twp_bind.mpr <| twp_mono (twp_within (total_callDriver _ _) hready c) (fun ready c₁ h₁ => ?_)
    fun _ c₁ h₁ => hdone c₁ h₁
  cases ready with
  | true => exact twp_pure.mpr (hdone c₁ h₁)
  | false =>
      refine twp_bind.mpr <| twp_mono (twp_monotonic clock c₁) (fun elapsed c₂ h₂ => ?_) fun _ _ h => h.elim
      obtain ⟨rfl, h₂⟩ := h₂
      have hstill := trans_of (Still clock) h₁ h₂
      by_cases hlate : deadline ≤ clock.time c₁.env
      · simp only [hlate, if_true]
        exact (total_throw _).twp (wlp_throw.mpr (hdone c₂ hstill))
      · simp only [hlate, if_false]
        refine twp_bind.mpr <| twp_mono (twp_monotonic clock c₂) (fun elapsed c₃ h₃ => ?_) fun _ _ h => h.elim
        obtain ⟨rfl, h₃⟩ := h₃
        rw [h₁.time, not_le] at hlate
        rw [hstill.time, max_eq_right (by linarith)]
        exact twp_bind.mpr <| (total_modify _).twp <|
          wlp_sleep.mpr (hsleep c₃ (trans_of (Still clock) hstill h₃) hlate)

/-- The readiness loop ends by its deadline. -/
theorem twp_awaitReady {d : Declaration} {readiness : Readiness} {timeout : ℕ} {deadline : ℚ}
    (hpoll : 0 < C.pollInterval) (fuel : ℕ) (c : Cell σ) (hdeadline : clock.time c.env ≤ deadline)
    (hfuel : deadline - clock.time c.env ≤ fuel * C.pollInterval) :
    twp (awaitReady C d readiness timeout deadline (fuel + 1))
      (fun _ c' => Waited clock deadline c c') (fun _ c' => Waited clock deadline c c') c := by
  induction fuel generalizing c with
  | zero =>
      refine twp_awaitReady_round (fun c' h => h.waited hdeadline) fun c' h hearly => ?_
      rw [Nat.cast_zero, zero_mul] at hfuel
      linarith
  | succ fuel ih =>
      refine twp_awaitReady_round (fun c' h => h.waited hdeadline) fun c' h hearly => ?_
      have hnonneg : 0 ≤ min C.pollInterval (deadline - clock.time c.env) :=
        le_min hpoll.le (by linarith)
      have htime := clock.sleep c'.env _ hnonneg
      rw [h.time] at htime
      have hleft : deadline - (clock.time c.env + min C.pollInterval (deadline - clock.time c.env)) ≤
          fuel * C.pollInterval := by
        rcases min_cases C.pollInterval (deadline - clock.time c.env) with ⟨hmin, -⟩ | ⟨hmin, -⟩
        · rw [hmin]
          push_cast at hfuel
          linarith
        · rw [hmin, add_sub_cancel, sub_self]
          positivity
      have hbound : min C.pollInterval (deadline - clock.time c.env) ≤ deadline - clock.time c.env :=
        min_le_right _ _
      have hwaited : ∀ c'', Waited clock deadline
          (c'.withEnv (C.environment.sleep (min C.pollInterval (deadline - clock.time c.env)) c'.env)) c'' →
          Waited clock deadline c c'' := by
        intro c'' h'
        have hbefore := h'.before
        rw [Cell.withEnv_env, htime] at hbefore
        exact ⟨h'.starts.trans h.starts, h'.times.trans h.times, by linarith, h'.after⟩
      refine twp_mono (ih _ ?_ ?_) (fun _ c'' => hwaited c'') fun _ c'' => hwaited c''
      · rw [Cell.withEnv_env, htime]
        linarith
      · rw [Cell.withEnv_env, htime]
        exact hleft

/-- What an attempt does: one start, and at most the startup timeout passes. -/
structure Attempted (clock : SleepClock C.environment) (c c' : Cell σ) : Prop where
  starts : starts c'.log = starts c.log + 1
  times : c'.inst.restartTimes = c.inst.restartTimes
  before : clock.time c.env ≤ clock.time c'.env
  after : clock.time c'.env ≤ clock.time c.env + C.startupTimeout

theorem startupTimeout_eq (c : Cell σ) :
    (C.lifecycle c).startupTimeoutSeconds.getD 60 = C.startupTimeout := by
  unfold Context.lifecycle Context.startupTimeout
  split <;> rfl

theorem twp_startAttempt {d : Declaration} {reason : String} (hpoll : 0 < C.pollInterval) (fuel : ℕ)
    (hfuel : (C.startupTimeout : ℚ) ≤ fuel * C.pollInterval) (c : Cell σ) :
    twp (startAttempt C (fuel + 1) d reason) (fun _ c' => Attempted clock c c')
      (fun _ c' => Attempted clock c c') c := by
  have hnonneg : (0 : ℚ) ≤ C.startupTimeout := Nat.cast_nonneg _
  -- the call of the driver is the only start
  have hcall : twp (driverStart C d) (fun _ c' => starts c'.log = starts c.log + 1 ∧
      c'.inst.restartTimes = c.inst.restartTimes ∧ clock.time c'.env = clock.time c.env)
      (fun _ c' => starts c'.log = starts c.log + 1 ∧
        c'.inst.restartTimes = c.inst.restartTimes ∧ clock.time c'.env = clock.time c.env) c := by
    have hcalled : ∀ reply : Reply σ Unit, clock.time reply.env = clock.time c.env →
        starts (c.afterCall .start reply).log = starts c.log + 1 ∧
          (c.afterCall .start reply).inst.restartTimes = c.inst.restartTimes ∧
          clock.time (c.afterCall .start reply).env = clock.time c.env := by
      intro reply htime
      refine ⟨?_, rfl, htime⟩
      rw [Cell.afterCall_log]
      simp [starts]
    exact (total_callDriver _ _).twp <| wlp_callDriver.mpr
      ⟨fun _ _ => hcalled _ (clock.start c.inst d c.env), fun _ _ => hcalled _ (clock.start c.inst d c.env)⟩
  refine twp_bind.mpr <| twp_mono hcall (fun _ c₁ h₁ => ?_) fun _ c₁ h₁ =>
    ⟨h₁.1, h₁.2.1, h₁.2.2.ge, by linarith [h₁.2.2]⟩
  have hattempted : ∀ c', Waited clock (clock.time c₁.env + C.startupTimeout) c₁ c' → Attempted clock c c' := by
    intro c' h'
    have hbefore := h'.before
    have hafter := h'.after
    rw [h₁.2.2] at hbefore hafter
    exact ⟨by rw [h'.starts, h₁.1], h'.times.trans h₁.2.1, hbefore, hafter⟩
  refine twp_bind.mpr <| twp_get.mpr ?_
  simp only [startupTimeout_eq]
  refine twp_bind.mpr <| twp_mono (twp_monotonic clock c₁) (fun elapsed c₂ h₂ => ?_) fun _ _ h => h.elim
  obtain ⟨rfl, h₂⟩ := h₂
  have hwait := @twp_awaitReady σ C clock d ((C.lifecycle c₁).readiness.getD ⟨.processAlive, none⟩)
    C.startupTimeout (clock.time c₁.env + C.startupTimeout) hpoll fuel c₂ (by linarith [h₂.time])
    (by linarith [h₂.time])
  refine twp_bind.mpr <| twp_mono hwait (fun _ c₃ h₃ => ?_) fun _ c₃ h₃ => hattempted c₃ (h₃.of_still h₂)
  have hrest : Within (Still clock) (do
      transition C .ready reason none
      transition C .running reason none
      let started ← now C
      modifyInst fun inst =>
        { inst with
          lastStartAt := some started
          lastFailure := none
          nextRestartAt := none
          restartExhausted := false }
      persist) :=
    within_bind still_transition fun _ => within_bind still_transition fun _ =>
      within_bind still_now fun _ => within_bind (still_modifyInst fun _ => rfl) fun _ => still_persist
  have htotal : Total (do
      transition C .ready reason none
      transition C .running reason none
      let started ← now C
      modifyInst fun inst =>
        { inst with
          lastStartAt := some started
          lastFailure := none
          nextRestartAt := none
          restartExhausted := false }
      persist) :=
    total_bind (total_transition _ _ _) fun _ => total_bind (total_transition _ _ _) fun _ =>
      total_bind total_now fun _ => total_bind (total_modifyInst _) fun _ => total_persist
  exact twp_mono (twp_within htotal hrest c₃) (fun _ c₄ h₄ => hattempted c₄ ((h₃.of_still h₂).still h₄))
    fun _ c₄ h₄ => hattempted c₄ ((h₃.of_still h₂).still h₄)

/-! ## Restart times that stay recent -/

/-- A reading of the clock that is at most this old. -/
def ReadWithin (clock : SleepClock C.environment) (age : ℚ) (env : σ) (reading : DateTime) : Prop :=
  ∃ env', reading = (C.environment.now env').1 ∧ clock.time env' ≤ clock.time env ∧
    clock.time env ≤ clock.time env' + age

/-- So many of the restart times are at most this old. -/
def Remembers (clock : SleepClock C.environment) (count : ℕ) (age : ℚ) (c : Cell σ) : Prop :=
  ∃ readings : List DateTime, readings.Sublist c.inst.restartTimes ∧ readings.length = count ∧
    ∀ reading ∈ readings, ReadWithin clock age c.env reading

theorem remembers_zero (age : ℚ) (c : Cell σ) : Remembers clock 0 age c :=
  ⟨[], List.nil_sublist _, rfl, fun _ h => by cases h⟩

theorem Remembers.later {count : ℕ} {age passed : ℚ} {c c' : Cell σ} (h : Remembers clock count age c)
    (htimes : c'.inst.restartTimes = c.inst.restartTimes) (hbefore : clock.time c.env ≤ clock.time c'.env)
    (hafter : clock.time c'.env ≤ clock.time c.env + passed) : Remembers clock count (age + passed) c' := by
  obtain ⟨readings, hsublist, hlength, hread⟩ := h
  refine ⟨readings, htimes ▸ hsublist, hlength, fun reading hreading => ?_⟩
  obtain ⟨env', heq, hle, hage⟩ := hread reading hreading
  exact ⟨env', heq, hle.trans hbefore, by linarith⟩

/-- Restart times that are within the window are selected. -/
theorem Remembers.recent {count : ℕ} {age : ℚ} {c : Cell σ} {prior : List DateTime}
    (h : Remembers clock count age c) (hage : age ≤ C.restartWindow)
    (hprior : recentRestarts c.inst.restartTimes (C.environment.now c.env).1 C.restartWindow = .ok prior) :
    ∃ readings : List DateTime, readings.Sublist prior ∧ readings.length = count ∧
      ∀ reading ∈ readings, ReadWithin clock age c.env reading := by
  obtain ⟨readings, hsublist, hlength, hread⟩ := h
  refine ⟨readings, ?_, hlength, hread⟩
  unfold recentRestarts at hprior
  split at hprior
  · rename_i width hwidth
    rw [← Except.ok.inj hprior, timedelta_natCast_eq_some hwidth]
    have hall : readings.filter (fun item =>
        decide ((C.environment.now c.env).1.instant - item.instant ≤ C.restartWindow * microsPerSecond)) =
        readings := by
      refine List.filter_eq_self.mpr fun reading hreading => decide_eq_true ?_
      obtain ⟨env', rfl, hle, hold⟩ := hread reading hreading
      refine (clock.wall env' c.env hle).trans (Int.ceil_le.mpr ?_)
      have hpassed : clock.time c.env - clock.time env' ≤ C.restartWindow := by linarith
      have hmicros : (0 : ℚ) ≤ (microsPerSecond : ℤ) := by simp [microsPerSecond]
      push_cast
      exact mul_le_mul_of_nonneg_right hpassed hmicros
    rw [← hall]
    exact hsublist.filter _
  · split at hprior
    · rename_i hnil
      rw [← Except.ok.inj hprior]
      rwa [hnil] at hsublist
    · cases hprior

/-! ## The recursion -/

/-- The starts of a cell stay within this number. -/
def StartsWithin (bound : ℕ) (c : Cell σ) : Prop := starts c.log ≤ bound

theorem Still.startsWithin {bound : ℕ} {c c' : Cell σ} (h : Still clock c c') (hc : StartsWithin bound c) :
    StartsWithin bound c' := h.starts.trans_le hc

theorem startsWithin_saved {bound : ℕ} {c : Cell σ} : StartsWithin bound c.saved ↔ StartsWithin bound c := by
  unfold StartsWithin
  rw [Cell.saved_log, starts_cons (by simp)]

/-- A section that starts nothing. -/
theorem twp_still {act : Prog σ α} {bound : ℕ} {c : Cell σ} (htotal : Total act)
    (hstill : Within (Still clock) act) (hc : StartsWithin bound c) :
    twp act (fun _ c' => StartsWithin bound c') (fun _ c' => StartsWithin bound c') c :=
  twp_mono (twp_within htotal hstill c) (fun _ _ h => h.startsWithin hc) fun _ _ h => h.startsWithin hc

/-- A failure is recorded, and what is started after that has one restart time more. -/
theorem twp_restartAfterFailureLocked {ensureRunning : Prog σ Unit} {bound count : ℕ} {age : ℚ} {c : Cell σ}
    (hremembers : Remembers clock count age c) (hnonneg : 0 ≤ age) (hage : age ≤ C.restartWindow)
    (hc : StartsWithin bound c)
    (hensure : ∀ c', Remembers clock (count + 1) age c' → count < C.maxRestarts →
      starts c'.log = starts c.log → twp ensureRunning (fun _ c'' => StartsWithin bound c'')
        (fun _ c'' => StartsWithin bound c'') c') :
    twp (restartAfterFailureLocked C ensureRunning) (fun _ c' => StartsWithin bound c')
      (fun _ c' => StartsWithin bound c') c := by
  refine twp_bind.mpr <| twp_get.mpr ?_
  by_cases hpolicy : (C.lifecycle c).restart.getD .never ∉ [RestartPolicy.onFailure, .always]
  · rw [if_pos hpolicy]
    exact twp_pure.mpr hc
  · rw [if_neg hpolicy]
    refine twp_bind.mpr <| twp_mono (total_now.twp (wlp_now.mpr ⟨rfl, rfl⟩ : wlp (now C)
      (fun reading c' => reading = (C.environment.now c.env).1 ∧ c' = c.afterClock C)
      (fun _ _ => False) c)) (fun reading c₁ h₁ => ?_) fun _ _ h => h.elim
    obtain ⟨rfl, rfl⟩ := h₁
    have hclock : Still clock c (c.afterClock C) := still_afterClock c
    have hc₁ := hclock.startsWithin hc
    rw [lifecycle_restartWindowSeconds, lifecycle_maxRestarts, lifecycle_restartBackoffSeconds]
    refine twp_bind.mpr ⟨total_ofExcept _ _, wlp_ofExcept.mpr ⟨fun prior hprior => ?_, fun _ _ => hc₁⟩⟩
    obtain ⟨readings, hsublist, hlength, hread⟩ := hremembers.recent hage hprior
    refine twp_bind.mpr <| (total_modifyInst _).twp <| wlp_modifyInst.mpr ?_
    by_cases hexhausted : C.service.lifecycle.maxRestarts.getD 3 ≤ prior.length
    · rw [if_pos hexhausted]
      refine twp_bind.mpr <| (total_modifyInst _).twp <| wlp_modifyInst.mpr ?_
      refine twp_bind.mpr <| total_persist.twp <| wlp_persist.mpr ?_
      exact (total_throw _).twp (wlp_throw.mpr (startsWithin_saved.mpr hc₁))
    · rw [if_neg hexhausted]
      rw [not_le] at hexhausted
      have hcount : count < C.maxRestarts := by
        rw [← hlength]
        exact hsublist.length_le.trans_lt hexhausted
      refine twp_bind.mpr <| (total_modifyInst _).twp <| wlp_modifyInst.mpr ?_
      refine twp_bind.mpr <| (total_record _).twp <| wlp_record.mpr ?_
      have hattempt : starts (.attempt (C.environment.now c.env).1 :: (c.afterClock C).log) =
          starts c.log := (starts_cons (by simp)).trans hclock.starts
      refine twp_bind.mpr ⟨total_ofExcept _ _,
        wlp_ofExcept.mpr ⟨fun nextRestart _ => ?_, fun _ _ => hattempt.trans_le hc⟩⟩
      refine twp_bind.mpr <| (total_modifyInst _).twp <| wlp_modifyInst.mpr ?_
      refine twp_bind.mpr <| total_persist.twp <| wlp_persist.mpr ?_
      generalize hc₂ : Cell.saved _ = c₂
      have hstarts : starts c₂.log = starts c.log := by
        rw [← hc₂, Cell.saved_log, starts_cons (by simp)]
        exact hattempt
      have htime : clock.time c₂.env = clock.time c.env := by
        rw [← hc₂]
        exact hclock.time
      have htimes : c₂.inst.restartTimes = prior ++ [(C.environment.now c.env).1] := by
        rw [← hc₂]
        rfl
      have hremembers₂ : Remembers clock (count + 1) age c₂ := by
        refine ⟨readings ++ [(C.environment.now c.env).1], ?_, ?_, ?_⟩
        · rw [htimes]
          exact hsublist.append (List.Sublist.refl _)
        · rw [List.length_append, hlength, List.length_singleton]
        · intro reading hreading
          rcases List.mem_append.mp hreading with hold | hnew
          · obtain ⟨env', heq, hle, hold⟩ := hread reading hold
            exact ⟨env', heq, hle.trans_eq htime.symm, htime.trans_le hold⟩
          · rw [List.mem_singleton] at hnew
            exact ⟨c.env, hnew, htime.ge, by linarith⟩
      by_cases hbackoff : C.service.lifecycle.restartBackoffSeconds.getD 0 = 0
      · rw [whenever, if_pos hbackoff]
        refine twp_bind.mpr <| twp_mono (hensure c₂ hremembers₂ hcount hstarts) (fun _ c₃ hc₃ => ?_)
          fun _ _ h => h
        have htotal : Total (do
            let c ← get
            whenever (c.inst.state = .running) do
              modifyInst fun inst => { inst with holds := inst.holds.pop "recovery" }
              persist : Prog σ Unit) :=
          total_bind total_get fun _ => total_whenever fun _ =>
            total_bind (total_modifyInst _) fun _ => total_persist
        have hstill : Within (Still clock) (do
            let c ← get
            whenever (c.inst.state = .running) do
              modifyInst fun inst => { inst with holds := inst.holds.pop "recovery" }
              persist : Prog σ Unit) :=
          within_bind within_get fun _ => within_whenever fun _ =>
            within_bind (still_modifyInst fun _ => rfl) fun _ => still_persist
        exact twp_still htotal hstill hc₃
      · rw [whenever_of_not hbackoff]
        exact twp_pure.mpr (hstarts.trans_le hc)

/-- A failed attempt, and the recovery that follows it. -/
theorem twp_recover {d : Declaration} {ensureRunning : Prog σ Unit} {exc : Exn} {bound count : ℕ} {age : ℚ}
    {c : Cell σ} (hremembers : Remembers clock count age c) (hnonneg : 0 ≤ age)
    (hage : age ≤ C.restartWindow) (hc : StartsWithin bound c)
    (hensure : ∀ c', Remembers clock (count + 1) age c' → count < C.maxRestarts →
      starts c'.log = starts c.log → twp ensureRunning (fun _ c'' => StartsWithin bound c'')
        (fun _ c'' => StartsWithin bound c'') c') :
    twp (do
      tryCatch (cleanUp C d) fun _ => pure ()
      markFailedLocked C exc.message "start_failure"
      restartAfterFailureLocked C ensureRunning
      let c ← get
      whenever (c.inst.state = .failed) (throw exc) : Prog σ Unit)
      (fun _ c' => StartsWithin bound c') (fun _ c' => StartsWithin bound c') c := by
  have hcleanUp : twp (tryCatch (cleanUp C d) fun _ => pure ()) (fun _ c' => Still clock c c')
      (fun _ c' => Still clock c c') c :=
    twp_within (total_tryCatch total_cleanUp fun _ => total_pure _)
      (within_tryCatch still_cleanUp fun _ => within_pure _) c
  refine twp_bind.mpr <| twp_mono hcleanUp (fun _ c₁ h₁ => ?_) fun _ _ h => h.startsWithin hc
  have hfailed := twp_within (total_markFailedLocked exc.message "start_failure")
    (@still_markFailedLocked σ C clock _ _) c₁
  refine twp_bind.mpr <| twp_mono hfailed (fun _ c₂ h₂ => ?_)
    fun _ _ h => (trans_of (Still clock) h₁ h).startsWithin hc
  have hstill := trans_of (Still clock) h₁ h₂
  have hremembers₂ : Remembers clock count (age + 0) c₂ :=
    hremembers.later hstill.times hstill.time.ge (by rw [hstill.time, add_zero])
  rw [add_zero] at hremembers₂
  have hrestart := twp_restartAfterFailureLocked hremembers₂ hnonneg hage (hstill.startsWithin hc)
    fun c' h' hcount hstarts => hensure c' h' hcount (hstarts.trans hstill.starts)
  refine twp_bind.mpr <| twp_mono hrestart (fun _ c₃ h₃ => ?_) fun _ _ h => h
  refine twp_bind.mpr <| twp_get.mpr ?_
  exact (total_whenever fun _ => total_throw _).twp <|
    wlp_whenever.mpr ⟨fun _ => wlp_throw.mpr h₃, fun _ => h₃⟩

/-- **The recursion of recoveries.**  With so many recent restart times, `_ensure_running_locked`
starts the driver once, and at most once more for each restart that is left. -/
theorem twp_ensureNested (hpoll : 0 < C.pollInterval) {rounds : ℕ}
    (hrounds : (C.startupTimeout : ℚ) ≤ rounds * C.pollInterval)
    (hwindow : C.maxRestarts * C.startupTimeout ≤ C.restartWindow) {fuel : ℕ} (hfuel : rounds + 1 ≤ fuel)
    (depth : ℕ) {left count : ℕ} (reason : String) {c : Cell σ} (hleft : count + left = C.maxRestarts)
    (hremembers : Remembers clock count ((count - 1 : ℕ) * C.startupTimeout) c) :
    twp (ensureNested C fuel depth reason) (fun _ c' => StartsWithin (starts c.log + left + 1) c')
      (fun _ c' => StartsWithin (starts c.log + left + 1) c') c := by
  induction depth generalizing left count reason c with
  | zero =>
      refine (total_throw _).twp (wlp_throw.mpr ?_)
      unfold StartsWithin
      omega
  | succ depth ih =>
      have hc : StartsWithin (starts c.log + left + 1) c := by
        unfold StartsWithin
        omega
      refine twp_bind.mpr <| twp_get.mpr ?_
      by_cases hactive : c.inst.state ∈ activeStates
      · rw [if_pos hactive]
        exact twp_pure.mpr hc
      rw [if_neg hactive]
      by_cases hbusy : c.inst.state ∈ [LifecycleState.starting, .stopping]
      · rw [if_pos hbusy]
        exact (total_throw _).twp (wlp_throw.mpr hc)
      rw [if_neg hbusy]
      refine twp_bind.mpr <| twp_mono
        (twp_within total_declaration (@still_declaration σ C clock) c)
        (fun d c₁ h₁ => ?_) fun _ _ h => h.startsWithin hc
      refine twp_bind.mpr <| twp_mono
        (twp_within total_resolveDriver (@still_resolveDriver σ C clock) c₁)
        (fun _ c₂ h₂ => ?_) fun _ _ h => (trans_of (Still clock) h₁ h).startsWithin hc
      have hstill₂ := trans_of (Still clock) h₁ h₂
      refine twp_bind.mpr <| twp_mono
        (twp_within (total_transition .starting reason none) (@still_transition σ C clock _ _ _) c₂)
        (fun _ c₃ h₃ => ?_) fun _ _ h => (trans_of (Still clock) hstill₂ h).startsWithin hc
      have hstill := trans_of (Still clock) hstill₂ h₃
      obtain ⟨fuel, rfl⟩ : ∃ n, fuel = n + 1 := ⟨fuel - 1, by omega⟩
      have hlonger : (C.startupTimeout : ℚ) ≤ fuel * C.pollInterval := by
        have hle : (rounds : ℚ) ≤ fuel := by exact_mod_cast Nat.le_of_succ_le_succ hfuel
        exact hrounds.trans (mul_le_mul_of_nonneg_right hle hpoll.le)
      have hattempted : ∀ c', Attempted clock c₃ c' → StartsWithin (starts c.log + left + 1) c' := by
        intro c' h'
        unfold StartsWithin
        rw [h'.starts, hstill.starts]
        omega
      refine twp_tryCatch <| twp_mono (twp_startAttempt hpoll fuel hlonger c₃)
        (fun _ c' h' => hattempted c' h') fun exc c₄ h₄ => ?_
      -- after the attempt the restart times are older by at most one startup timeout
      have hage : Remembers clock count (count * C.startupTimeout) c₄ := by
        cases count with
        | zero => exact remembers_zero _ _
        | succ count =>
            have hlater := hremembers.later (hstill.times ▸ h₄.times) (hstill.time ▸ h₄.before)
              (hstill.time ▸ h₄.after)
            rw [Nat.add_sub_cancel] at hlater
            push_cast
            rwa [add_one_mul]
      have hrecent : (count * C.startupTimeout : ℚ) ≤ C.restartWindow := by
        have hle : count * C.startupTimeout ≤ C.maxRestarts * C.startupTimeout :=
          Nat.mul_le_mul_right _ (by omega)
        exact_mod_cast hle.trans hwindow
      refine twp_recover hage (by positivity) hrecent (hattempted c₄ h₄) fun c' h' hcount hstarts => ?_
      have hstarts' : starts c'.log = starts c.log + 1 := by
        rw [hstarts, h₄.starts, hstill.starts]
      have hrec := @ih (left - 1) (count + 1) "recovery" c' (by omega) (by simpa using h')
      rw [hstarts', show starts c.log + 1 + (left - 1) + 1 = starts c.log + left + 1 by omega] at hrec
      exact hrec

theorem twp_ensureRunningLocked (hpoll : 0 < C.pollInterval) {rounds : ℕ}
    (hrounds : (C.startupTimeout : ℚ) ≤ rounds * C.pollInterval)
    (hwindow : C.maxRestarts * C.startupTimeout ≤ C.restartWindow) {fuel : ℕ} (hfuel : rounds + 1 ≤ fuel)
    {left count : ℕ} (reason : String) {c : Cell σ} (hleft : count + left = C.maxRestarts)
    (hremembers : Remembers clock count ((count - 1 : ℕ) * C.startupTimeout) c) :
    twp (ensureRunningLocked C fuel reason) (fun _ c' => StartsWithin (starts c.log + left + 1) c')
      (fun _ c' => StartsWithin (starts c.log + left + 1) c') c :=
  twp_ensureNested hpoll hrounds hwindow hfuel _ reason hleft hremembers

end Clock

/-! ## The recursion ends -/

theorem total_restartAfterFailureLocked {ensureRunning : Prog σ Unit} (hensure : Total ensureRunning) :
    Total (restartAfterFailureLocked C ensureRunning) := by
  refine total_bind total_get fun _ => total_ite (fun _ => total_pure _) fun _ =>
    total_bind total_now fun _ => total_bind (total_ofExcept _) fun _ =>
      total_bind (total_modifyInst _) fun _ => total_ite (fun _ => ?_) fun _ => ?_
  · exact total_bind (total_modifyInst _) fun _ => total_bind total_persist fun _ => total_throw _
  · exact total_bind (total_modifyInst _) fun _ => total_bind (total_record _) fun _ =>
      total_bind (total_ofExcept _) fun _ => total_bind (total_modifyInst _) fun _ =>
        total_bind total_persist fun _ => total_whenever fun _ =>
          total_bind hensure fun _ => total_bind total_get fun _ => total_whenever fun _ =>
            total_bind (total_modifyInst _) fun _ => total_persist

/-- With fuel for one readiness loop the recursion comes back, at the latest where the stack has no
room for another call. -/
theorem total_ensureNested (clock : SleepClock C.environment) (hpoll : 0 < C.pollInterval) {rounds : ℕ}
    (hrounds : (C.startupTimeout : ℚ) ≤ rounds * C.pollInterval) (depth : ℕ) (reason : String) :
    Total (ensureNested C (rounds + 1) depth reason) := by
  induction depth generalizing reason with
  | zero => exact total_throw _
  | succ depth ih =>
      have hattempt : ∀ d, Total (startAttempt C (rounds + 1) d reason) := fun d c =>
        (@twp_startAttempt σ C clock d reason hpoll rounds hrounds c).1
      exact total_bind total_get fun _ => total_ite (fun _ => total_pure _) fun _ =>
        total_ite (fun _ => total_throw _) fun _ => total_bind total_declaration fun d =>
          total_bind total_resolveDriver fun _ => total_bind (total_transition _ _ _) fun _ =>
            total_tryCatch (hattempt d) fun _ =>
              total_bind (total_tryCatch total_cleanUp fun _ => total_pure _) fun _ =>
                total_bind (total_markFailedLocked _ _) fun _ =>
                  total_bind (total_restartAfterFailureLocked (ih "recovery")) fun _ =>
                    total_bind total_get fun _ => total_whenever fun _ => total_throw _

/-! ## A runtime that never becomes ready -/

theorem clipped_inRange (micros : ℤ) :
    0 ≤ max 0 (min micros (maxWall - 1)) ∧ max 0 (min micros (maxWall - 1)) < maxWall := by
  have hpos : 0 < maxWall := by decide
  omega

/-- UTC, that many microseconds after the first midnight, as far as the calendar goes. -/
def clipped (micros : ℤ) : DateTime where
  wall := max 0 (min micros (maxWall - 1))
  offset := 0
  inRange := clipped_inRange micros

theorem clipped_instant {micros : ℤ} (hnonneg : 0 ≤ micros) (hlt : micros < maxWall) :
    (clipped micros).instant = micros := by
  unfold DateTime.instant clipped
  dsimp only
  omega

/-- Two clocks that agree, and a runtime that starts but never becomes ready. -/
def Environment.neverReady : Environment ℚ where
  now time := (clipped ⌊time * microsPerSecond⌋, time)
  monotonic time := (time, time)
  sleep seconds time := time + seconds
  resolve time := (.ok (), time)
  start inst _ time := ⟨.ok (), inst.runtime, time⟩
  stop inst _ time := ⟨.ok (), inst.runtime, time⟩
  status inst _ time := ⟨.ok false, inst.runtime, time⟩
  isReady inst _ _ time := ⟨.ok false, inst.runtime, time⟩
  runMaintenance inst _ _ time := ⟨.ok [], inst.runtime, time⟩

theorem neverReady_wall (time time' : ℚ) (h : time ≤ time') :
    (clipped ⌊time' * microsPerSecond⌋).instant - (clipped ⌊time * microsPerSecond⌋).instant ≤
      ⌈(time' - time) * microsPerSecond⌉ := by
  have hmicros : (0 : ℚ) ≤ (microsPerSecond : ℤ) := by simp [microsPerSecond]
  have hnonneg : 0 ≤ ⌈(time' - time) * microsPerSecond⌉ :=
    Int.ceil_nonneg (mul_nonneg (sub_nonneg.mpr h) hmicros)
  have hsum : ⌊time' * microsPerSecond⌋ ≤ ⌊time * microsPerSecond⌋ + ⌈(time' - time) * microsPerSecond⌉ := by
    rw [← Int.floor_add_intCast]
    refine Int.floor_le_floor ?_
    have hceil := Int.le_ceil ((time' - time) * microsPerSecond)
    linarith
  unfold DateTime.instant clipped
  dsimp only
  omega

/-- Its clocks move by sleeping only. -/
def SleepClock.neverReady : SleepClock Environment.neverReady where
  time := id
  monotonic _ := ⟨rfl, rfl⟩
  now _ := rfl
  wall := neverReady_wall
  sleep _ _ _ := rfl
  resolve _ := rfl
  start _ _ _ := rfl
  stop _ _ _ := rfl
  status _ _ _ := rfl
  isReady _ _ _ _ := rfl

/-- A service whose runtime never becomes ready. -/
def neverReady (service : Service) (declaration : Declaration) (pollInterval : ℚ) (nestingLimit : ℕ) :
    Context ℚ where
  service := service
  declaration := .ok declaration
  environment := .neverReady
  pollInterval := pollInterval
  nestingLimit := nestingLimit

/-- The declaration of the scripted service. -/
def scriptedDeclaration (lifecycle : Lifecycle) : Declaration :=
  ⟨(scripted lifecycle []).service, ⟨"svc", .localProcess, none, none, .local⟩, none⟩

end UltimateBBSBox.Supervisor
