import UltimateBBSBox.Supervisor.Budget
import UltimateBBSBox.Supervisor.Fleet
import UltimateBBSBox.Supervisor.Starting

/-!
# Reconciliation converges

With a driver that answers from the runtime alone, `_reconcile_locked` ends
stopped, running or failed, and running exactly if the runtime lives.  What it
leaves behind is `Converged`: holds that agree with mode and intent, nothing held
that is stopped, and a failed service that is held waits for its budget or for
its restart time.  A reconciliation of a converged service that does not see a
later time than the last one looks at the service and changes nothing.

A transition that the lifecycle graph does not have raises, and only
`_ensure_running_locked` handles what is raised in it, with a transition whose
reason is `start_failure`.  `Orderly` says that the journal has no such line.
-/

namespace UltimateBBSBox.Supervisor

open Act

variable {σ : Type} {C : Context σ}

/-! ## Steady drivers -/

/-- Clock, resolver and the driver's questions leave alone what `shows` reads off the runtime. -/
structure Environment.Undisturbed (E : Environment σ) (shows : Archive.Fields → σ → Bool) : Prop where
  now : ∀ runtime env, shows runtime (E.now env).2 = shows runtime env
  monotonic : ∀ runtime env, shows runtime (E.monotonic env).2 = shows runtime env
  resolve : ∀ runtime env, shows runtime (E.resolve env).2 = shows runtime env
  status : ∀ inst declaration env, shows (E.status inst declaration env).runtime
    (E.status inst declaration env).env = shows inst.runtime env
  isReady : ∀ inst declaration readiness env,
    shows (E.isReady inst declaration readiness env).runtime
      (E.isReady inst declaration readiness env).env = shows inst.runtime env

/-- A driver that answers from the runtime alone and whose start brings it up. -/
structure Environment.Steady (E : Environment σ) where
  alive : Archive.Fields → σ → Bool
  ready : Archive.Fields → σ → Bool
  undisturbed_alive : E.Undisturbed alive
  undisturbed_ready : E.Undisturbed ready
  status : ∀ inst declaration env answer,
    (E.status inst declaration env).result = .ok answer → answer = alive inst.runtime env
  isReady : ∀ inst declaration readiness env, ready inst.runtime env = true →
    (E.isReady inst declaration readiness env).result = .ok true
  start : ∀ inst declaration env, (E.start inst declaration env).result = .ok ()
  start_alive : ∀ inst declaration env, alive (E.start inst declaration env).runtime
    (E.start inst declaration env).env = true
  start_ready : ∀ inst declaration env, ready (E.start inst declaration env).runtime
    (E.start inst declaration env).env = true

/-- The runtime of the service lives. -/
def Cell.alive (driver : C.environment.Steady) (c : Cell σ) : Bool :=
  driver.alive c.inst.runtime c.env

section Alive

variable (driver : C.environment.Steady) (c : Cell σ)

@[simp] theorem Cell.alive_afterClock : (c.afterClock C).alive driver = c.alive driver :=
  driver.undisturbed_alive.now _ _

@[simp] theorem Cell.alive_moved (newState : LifecycleState) (reason : String)
    (error : Option String) :
    (c.moved C newState reason error).alive driver = c.alive driver :=
  driver.undisturbed_alive.now _ _

@[simp] theorem Cell.alive_resolved :
    (c.withEnv (C.environment.resolve c.env).2).alive driver = c.alive driver :=
  driver.undisturbed_alive.resolve _ _

@[simp] theorem Cell.alive_asked (effect : InstanceState → Effect) (declaration : Declaration) :
    (c.afterCall effect (C.environment.status c.inst declaration c.env)).alive driver =
      c.alive driver :=
  driver.undisturbed_alive.status _ _ _

end Alive

/-! ## Orderly sections -/

/-- The journal lines written in between follow the lifecycle graph, and none
of them records an exception that was handled. -/
def Orderly (c c' : Cell σ) : Prop :=
  ∃ newer, c'.log = newer ++ c.log ∧ ∀ event, .journal event ∈ newer →
    event.newState ∈ transitions event.oldState ∧ event.reason ≠ "start_failure"

/-- An orderly section that leaves mode, intent and the holds derived from them alone. -/
structure Advances (c c' : Cell σ) : Prop where
  orderly : Orderly c c'
  override : c'.override = c.override
  adminIntent : c'.inst.adminIntent = c.inst.adminIntent
  holds : ∀ k, k ≠ "recovery" → c'.inst.holds.get? k = c.inst.holds.get? k

theorem Orderly.refl (c : Cell σ) : Orderly c c := ⟨[], rfl, by simp⟩

theorem Orderly.trans {c c₁ c₂ : Cell σ} (h : Orderly c c₁) (h' : Orderly c₁ c₂) :
    Orderly c c₂ := by
  obtain ⟨newer, hlog, hnewer⟩ := h
  obtain ⟨newer', hlog', hnewer'⟩ := h'
  refine ⟨newer' ++ newer, by rw [hlog', hlog, List.append_assoc], fun event hevent => ?_⟩
  rcases List.mem_append.mp hevent with hevent | hevent
  · exact hnewer' event hevent
  · exact hnewer event hevent

/-- Effects that are no journal lines are in order. -/
theorem Orderly.of_log {c c' : Cell σ} {newer : List Effect} (hlog : c'.log = newer ++ c.log)
    (hnewer : ∀ event, .journal event ∉ newer) : Orderly c c' :=
  ⟨newer, hlog, fun event hevent => absurd hevent (hnewer event)⟩

theorem Orderly.moved {c : Cell σ} {newState : LifecycleState} {reason : String}
    {error : Option String} (hvalid : newState ∈ transitions c.inst.state)
    (hreason : reason ≠ "start_failure") : Orderly c (c.moved C newState reason error) := by
  refine ⟨[_, _, _], rfl, fun event hevent => ?_⟩
  simp only [List.mem_cons, List.not_mem_nil, or_false, reduceCtorEq, false_or,
    Effect.journal.injEq] at hevent
  subst hevent
  exact ⟨hvalid, hreason⟩

namespace Advances

variable {c c₁ c₂ : Cell σ}

theorem refl (c : Cell σ) : Advances c c := ⟨.refl c, rfl, rfl, fun _ _ => rfl⟩

theorem trans (h : Advances c c₁) (h' : Advances c₁ c₂) : Advances c c₂ where
  orderly := h.orderly.trans h'.orderly
  override := h'.override.trans h.override
  adminIntent := h'.adminIntent.trans h.adminIntent
  holds k hk := (h'.holds k hk).trans (h.holds k hk)

theorem moved {newState : LifecycleState} {reason : String} {error : Option String}
    (hvalid : newState ∈ transitions c.inst.state) (hreason : reason ≠ "start_failure") :
    Advances c (c.moved C newState reason error) where
  orderly := .moved hvalid hreason
  override := rfl
  adminIntent := rfl
  holds _ _ := rfl

/-- Effects that are no journal lines, around an update of other fields. -/
theorem of_log {c' : Cell σ} (newer : List Effect) (hlog : c'.log = newer ++ c.log)
    (hnewer : ∀ event, .journal event ∉ newer) (hoverride : c'.override = c.override)
    (hintent : c'.inst.adminIntent = c.inst.adminIntent)
    (hholds : ∀ k, k ≠ "recovery" → c'.inst.holds.get? k = c.inst.holds.get? k) :
    Advances c c' :=
  ⟨.of_log hlog hnewer, hoverride, hintent, hholds⟩

end Advances

/-! ## Starting with a steady driver -/

/-- The service was brought up. -/
structure BroughtUp (driver : C.environment.Steady) (c c' : Cell σ) : Prop where
  state : c'.inst.state = .running
  alive : c'.alive driver = true
  holds : c'.inst.holds = c.inst.holds
  advances : Advances c c'

section Starting

variable (driver : C.environment.Steady) {c : Cell σ}

/-- Where the runtime is ready, the readiness loop ends at its first question. -/
theorem wlp_awaitReady_of_ready {d : Declaration} {readiness : Readiness} {timeout : ℕ}
    {deadline : ℚ} (fuel : ℕ) (hready : driver.ready c.inst.runtime c.env = true)
    (halive : c.alive driver = true) :
    wlp (awaitReady C d readiness timeout deadline fuel)
      (fun _ c' => SameCore c.inst c'.inst ∧ c'.alive driver = true ∧ Advances c c')
      (fun _ _ => False) c := by
  cases fuel with
  | zero => trivial
  | succ fuel =>
      have hanswer := driver.isReady c.inst d readiness c.env hready
      refine wlp_bind.mpr <| wlp_callDriver.mpr ⟨fun answer hok => ?_, fun message herror => ?_⟩
      · have htrue : answer = true := by
          rw [hanswer, Except.ok.injEq] at hok
          exact hok.symm
        refine wlp_ite.mpr ⟨fun _ => wlp_pure.mpr ⟨⟨rfl, rfl, rfl, rfl, rfl, rfl⟩, ?_, ?_⟩,
          fun hnot => absurd htrue hnot⟩
        · exact (driver.undisturbed_alive.isReady _ _ _ _).trans halive
        · exact .of_log [_] rfl (by simp) rfl rfl fun _ _ => rfl
      · rw [hanswer] at herror
        cases herror

/-- An attempt brings the service up. -/
theorem wlp_startAttempt_of_steady {d : Declaration} {reason : String} (fuel : ℕ)
    (hstate : c.inst.state = .starting) (hreason : reason ≠ "start_failure") :
    wlp (startAttempt C fuel d reason) (fun _ c' => BroughtUp driver c c') (fun _ _ => False)
      c := by
  refine wlp_bind.mpr <| wlp_callDriver.mpr ⟨fun _ _ => ?_, fun message herror => ?_⟩
  · refine wlp_bind.mpr <| wlp_get.mpr <| wlp_bind.mpr <| wlp_monotonic.mpr <| wlp_bind.mpr ?_
    refine wlp_mono (wlp_awaitReady_of_ready driver fuel ?_ ?_) (fun _ c₁ h₁ => ?_)
      fun _ _ h' => h'
    · exact (driver.undisturbed_ready.monotonic _ _).trans (driver.start_ready _ _ _)
    · exact (driver.undisturbed_alive.monotonic _ _).trans (driver.start_alive _ _ _)
    · obtain ⟨hcore, halive, hadvances⟩ := h₁
      have hstarting : c₁.inst.state = .starting := hcore.state.trans hstate
      have hready : .ready ∈ transitions c₁.inst.state := by simp [hstarting, transitions]
      refine wlp_bind.mpr <| wlp_transition.mpr ⟨fun _ => ?_, fun e he =>
        absurd hready (cls_of_validateTransition_eq_error he).2⟩
      refine wlp_bind.mpr <| wlp_transition.mpr ⟨fun hrunning => ?_, fun e he =>
        absurd (by simp [transitions]) (cls_of_validateTransition_eq_error he).2⟩
      refine wlp_bind.mpr <| wlp_now.mpr <| wlp_bind.mpr <| wlp_modifyInst.mpr <|
        wlp_persist.mpr ⟨rfl, ?_, hcore.holds, ?_⟩
      · change ((((c₁.moved C .ready reason none).moved C .running reason none).afterClock
          C).alive driver) = true
        simpa using halive
      · have hcalled : ∀ env : σ, Advances c
            ((c.afterCall .start (C.environment.start c.inst d c.env)).withEnv env) :=
          fun _ => .of_log [.start c.inst] rfl (by simp) rfl rfl fun _ _ => rfl
        have hmoved : Advances c₁ ((c₁.moved C .ready reason none).moved C .running reason none) :=
          Advances.trans (.moved hready hreason) (.moved hrunning hreason)
        refine (((hcalled _).trans hadvances).trans hmoved).trans ?_
        exact .of_log [_, _] rfl (by simp) rfl rfl fun _ _ => rfl
  · rw [driver.start] at herror
    cases herror

/-- Ensuring that a service runs returns only where it runs. -/
theorem wlp_ensureRunningLocked_of_steady {reason : String} (fuel : ℕ)
    (hreason : reason ≠ "start_failure") :
    wlp (ensureRunningLocked C fuel reason)
      (fun _ c' => (c.inst.state ∈ activeStates ∧ c' = c) ∨ BroughtUp driver c c')
      (fun _ _ => True) c := by
  refine wlp_bind.mpr <| wlp_get.mpr <| wlp_ite.mpr
    ⟨fun hactive => wlp_pure.mpr (.inl ⟨hactive, rfl⟩), fun hactive => ?_⟩
  refine wlp_ite.mpr ⟨fun _ => trivial, fun hbusy => ?_⟩
  refine wlp_bind.mpr <| wlp_declaration.mpr ⟨fun d _ => ?_, fun _ _ => trivial⟩
  refine wlp_bind.mpr <| wlp_resolveDriver.mpr ⟨fun _ => ?_, fun _ _ => trivial⟩
  refine wlp_bind.mpr <| wlp_transition.mpr ⟨fun hstarting => ?_, fun _ _ => trivial⟩
  refine wlp_tryCatch.mpr <| wlp_mono
    (wlp_startAttempt_of_steady driver fuel rfl hreason) (fun _ c' h' => .inr ?_)
    fun _ _ h' => h'.elim
  have hresolved : Advances c ((c.withEnv (C.environment.resolve c.env).2).note .resolve) :=
    .of_log [_] rfl (by simp) rfl rfl fun _ _ => rfl
  exact ⟨h'.state, h'.alive, h'.holds,
    (hresolved.trans (.moved hstarting hreason)).trans h'.advances⟩

end Starting

/-! ## The parts of a reconciliation -/

section Parts

variable (driver : C.environment.Steady) {c : Cell σ}

/-- The holds that follow from mode and intent are there. -/
structure HoldsDerived (C : Context σ) (c : Cell σ) : Prop where
  alwaysOn : (C.lifecycle c).mode = .alwaysOn → c.inst.holds.get? "always_on" = some 1
  onDemand : (C.lifecycle c).mode ≠ .alwaysOn → c.inst.holds.get? "always_on" = none
  adminIntent : c.inst.adminIntent = true → c.inst.holds.get? "admin" = some 1

theorem HoldsDerived.of_advances {c' : Cell σ} (h : HoldsDerived C c) (hadvances : Advances c c') :
    HoldsDerived C c' := by
  have hlifecycle : C.lifecycle c' = C.lifecycle c := by
    simp only [Context.lifecycle, hadvances.override]
  have halwaysOn := hadvances.holds "always_on" (by decide)
  have hadmin := hadvances.holds "admin" (by decide)
  refine ⟨fun hmode => ?_, fun hmode => ?_, fun hintent => ?_⟩
  · rw [halwaysOn]
    exact h.alwaysOn (hlifecycle ▸ hmode)
  · rw [halwaysOn]
    exact h.onDemand (hlifecycle ▸ hmode)
  · rw [hadmin]
    exact h.adminIntent (hadvances.adminIntent ▸ hintent)

/-- Deriving the holds changes nothing else. -/
theorem wlp_reconcileHolds (c : Cell σ) :
    wlp (reconcileHolds C) (fun _ c' => HoldsDerived C c' ∧ ∃ holds,
      c' = c.mapInst fun inst => { inst with holds := holds }) (fun _ _ => False) c := by
  have hlifecycle : ∀ f : InstanceState → InstanceState,
      C.lifecycle (c.mapInst f) = C.lifecycle c := fun _ => rfl
  refine wlp_bind.mpr <| wlp_get.mpr <| wlp_bind.mpr <| wlp_modifyInst.mpr ?_
  refine wlp_whenever.mpr ⟨fun hintent => wlp_modifyInst.mpr ⟨⟨fun hmode => ?_, fun hmode => ?_,
    fun _ => ?_⟩, _, rfl⟩, fun hintent => ⟨⟨fun hmode => ?_, fun hmode => ?_, fun hintent' =>
      absurd hintent' hintent⟩, _, rfl⟩⟩
  · have hmode' : (C.lifecycle c).mode = .alwaysOn := hmode
    simp [hmode']
  · have hmode' : (C.lifecycle c).mode ≠ .alwaysOn := hmode
    simp [hmode']
  · simp
  · have hmode' : (C.lifecycle c).mode = .alwaysOn := hmode
    simp [hmode']
  · have hmode' : (C.lifecycle c).mode ≠ .alwaysOn := hmode
    simp [hmode']

/-- Derived holds are derived again as they are. -/
theorem wlp_reconcileHolds_of_derived (h : HoldsDerived C c) :
    wlp (reconcileHolds C) (fun _ c' => c' = c) (fun _ _ => False) c := by
  have halwaysOn : (if (C.lifecycle c).mode = .alwaysOn then c.inst.holds.set "always_on" 1
      else c.inst.holds.pop "always_on") = c.inst.holds := by
    split
    · rename_i hmode
      exact Dict.set_eq_self_of_get? (h.alwaysOn hmode)
    · rename_i hmode
      exact Dict.pop_eq_self_of_get?_none (h.onDemand hmode)
  have hfirst : (c.mapInst fun inst =>
      { inst with
        holds :=
          if (C.lifecycle c).mode = .alwaysOn then inst.holds.set "always_on" 1
          else inst.holds.pop "always_on" }) = c := by
    simp only [Cell.mapInst, halwaysOn]
  refine wlp_bind.mpr <| wlp_get.mpr <| wlp_bind.mpr <| wlp_modifyInst.mpr ?_
  rw [hfirst]
  refine wlp_whenever.mpr ⟨fun hintent => wlp_modifyInst.mpr ?_, fun _ => rfl⟩
  simp only [Cell.mapInst, Dict.set_eq_self_of_get? (h.adminIntent hintent)]

theorem wlp_markFailedLocked_of_steady {error reason : String}
    (hstate : .failed ∈ transitions c.inst.state) (hreason : reason ≠ "start_failure") :
    wlp (markFailedLocked C error reason) (fun _ c' => c'.inst.state = .failed ∧
      c'.alive driver = c.alive driver ∧ Advances c c') (fun _ _ => False) c := by
  refine wlp_bind.mpr <| wlp_get.mpr <| wlp_bind.mpr <| wlp_whenever.mpr
    ⟨fun _ => wlp_transition.mpr ⟨fun _ => ?_, fun e he =>
      absurd hstate (cls_of_validateTransition_eq_error he).2⟩, fun hfailed => ?_⟩
  · refine wlp_bind.mpr <| wlp_modifyInst.mpr <| wlp_persist.mpr ⟨rfl, ?_, ?_⟩
    · exact Cell.alive_moved driver c .failed reason (some error)
    · have hmoved : Advances c (c.moved C .failed reason (some error)) := .moved hstate hreason
      exact hmoved.trans (.of_log [_] rfl (by simp) rfl rfl fun _ _ => rfl)
  · rw [not_not.mp hfailed] at hstate
    simp [transitions] at hstate

/-- Adopting a live runtime. -/
theorem wlp_adopt_of_steady (hstate : .starting ∈ transitions c.inst.state) :
    wlp (adopt C) (fun _ c' => c'.inst.state = .running ∧
      c'.alive driver = c.alive driver ∧ Advances c c') (fun _ _ => False) c := by
  refine wlp_bind.mpr <| wlp_transition.mpr ⟨fun hstarting => ?_, fun e he =>
    absurd hstate (cls_of_validateTransition_eq_error he).2⟩
  refine wlp_bind.mpr <| wlp_transition.mpr ⟨fun hready => ?_, fun e he =>
    absurd (by simp [transitions]) (cls_of_validateTransition_eq_error he).2⟩
  refine wlp_transition.mpr ⟨fun hrunning => ⟨rfl, by simp, ?_⟩, fun e he =>
    absurd (by simp [transitions]) (cls_of_validateTransition_eq_error he).2⟩
  have hreason : "reconcile_adopt" ≠ "start_failure" := by decide
  exact Advances.trans (Advances.trans (.moved hstarting hreason) (.moved hready hreason))
    (.moved hrunning hreason)

/-- Recovering either leaves the service failed or brings it up. -/
theorem wlp_restartAfterFailureLocked_of_steady (fuel : ℕ) (hfailed : c.inst.state = .failed) :
    wlp (restartAfterFailureLocked C (ensureRunningLocked C fuel "recovery"))
      (fun _ c' => (c'.inst.state = .failed ∧ c'.alive driver = c.alive driver ∨
        c'.inst.state = .running ∧ c'.alive driver = true) ∧ Advances c c')
      (fun _ _ => True) c := by
  refine wlp_bind.mpr <| wlp_get.mpr <| wlp_ite.mpr
    ⟨fun _ => wlp_pure.mpr ⟨.inl ⟨hfailed, rfl⟩, .refl c⟩, fun _ => ?_⟩
  refine wlp_bind.mpr <| wlp_now.mpr <| wlp_bind.mpr <| wlp_ofExcept.mpr
    ⟨fun prior _ => ?_, fun _ _ => trivial⟩
  refine wlp_bind.mpr <| wlp_modifyInst.mpr <| wlp_ite.mpr ⟨fun _ => ?_, fun _ => ?_⟩
  · -- the budget is exhausted
    exact wlp_bind.mpr <| wlp_modifyInst.mpr <| wlp_bind.mpr <| wlp_persist.mpr trivial
  · refine wlp_bind.mpr <| wlp_modifyInst.mpr <| wlp_bind.mpr <| wlp_record.mpr <|
      wlp_bind.mpr <| wlp_ofExcept.mpr ⟨fun next _ => ?_, fun _ _ => trivial⟩
    refine wlp_bind.mpr <| wlp_modifyInst.mpr <| wlp_bind.mpr <| wlp_persist.mpr <|
      wlp_whenever.mpr ⟨fun _ => ?_, fun _ => ⟨.inl ⟨hfailed, ?_⟩, ?_⟩⟩
    · -- without backoff the restart is made at once
      refine wlp_bind.mpr <| wlp_mono
        (wlp_ensureRunningLocked_of_steady driver fuel (by decide)) (fun _ c₁ h₁ => ?_)
        fun _ _ _ => trivial
      rcases h₁ with ⟨hactive, _⟩ | h₁
      · exact absurd hactive (by simp [hfailed, activeStates])
      refine wlp_bind.mpr <| wlp_get.mpr <| wlp_whenever.mpr ⟨fun _ => ?_, fun hno =>
        absurd h₁.state hno⟩
      refine wlp_bind.mpr <| wlp_modifyInst.mpr <| wlp_persist.mpr
        ⟨.inr ⟨h₁.state, h₁.alive⟩, ?_⟩
      refine Advances.trans (Advances.trans ?_ h₁.advances) ?_
      · exact .of_log [.save _, .attempt _, .clock _] rfl (by simp) rfl rfl fun k hk => by
          simp [hk]
      · exact .of_log [.save _] rfl (by simp) rfl rfl fun k hk => by
          simp [hk]
    · exact Cell.alive_afterClock driver c
    · exact .of_log [.save _, .attempt _, .clock _] rfl (by simp) rfl rfl fun k hk => by
        simp [hk]

/-- State and runtime as the first `if` chain of `_reconcile_locked` leaves them. -/
structure Looked (alive : Bool) (c : Cell σ) : Prop where
  state : c.inst.state ∈ [LifecycleState.stopped, .running, .failed]
  running : c.inst.state = .running → c.alive driver = true
  unmoved : c.inst.state ≠ .running → c.alive driver = alive
  stopped : c.inst.state = .stopped → alive = false

theorem wlp_reconcileState_of_steady (fuel : ℕ) {alive : Bool} (halive : c.alive driver = alive) :
    wlp (reconcileState C fuel alive) (fun _ c' => Looked driver alive c' ∧ Advances c c')
      (fun _ _ => True) c := by
  refine wlp_bind.mpr <| wlp_get.mpr <| wlp_ite.mpr ⟨fun hstale => ?_, fun hstale => ?_⟩
  · refine wlp_ite.mpr ⟨fun hstopping => ?_, fun hstopping => ?_⟩
    · -- a stop that was cut off
      refine wlp_transition.mpr ⟨fun hvalid => ⟨⟨?_, ?_, fun _ => ?_, ?_⟩,
        .moved hvalid (by decide)⟩, fun _ _ => trivial⟩
      · cases alive <;> simp
      · cases alive <;> simp
      · exact (Cell.alive_moved driver c _ _ _).trans halive
      · cases alive <;> simp
    · refine wlp_ite.mpr ⟨fun hlives => ?_, fun hlives => ?_⟩
      · -- a start that was cut off, of a runtime that lives
        have hready : wlp (whenever (c.inst.state = .starting)
            (transition C .ready "reconcile_adopt" none))
            (fun _ c' => c'.alive driver = true ∧ Advances c c') (fun _ _ => True) c :=
          wlp_whenever.mpr ⟨fun _ => wlp_transition.mpr ⟨fun hvalid =>
            ⟨(Cell.alive_moved driver c _ _ _).trans (halive.trans hlives),
              .moved hvalid (by decide)⟩, fun _ _ => trivial⟩,
            fun _ => ⟨halive.trans hlives, .refl c⟩⟩
        refine wlp_bind.mpr <| wlp_mono hready (fun _ c₁ h₁ => ?_) fun _ _ h' => h'
        refine wlp_transition.mpr ⟨fun hvalid => ⟨⟨by simp, fun _ => ?_, by simp, by simp⟩,
          h₁.2.trans (.moved hvalid (by decide))⟩, fun _ _ => trivial⟩
        exact (Cell.alive_moved driver c₁ _ _ _).trans h₁.1
      · -- one whose runtime is gone
        have hfails : .failed ∈ transitions c.inst.state := by
          simp only [staleStates, List.mem_cons, List.not_mem_nil, or_false] at hstale
          rcases hstale with h | h | h <;> simp [h, transitions]
        refine wlp_bind.mpr <| wlp_mono
          (wlp_markFailedLocked_of_steady driver hfails (by decide)) (fun _ c₁ h₁ => ?_)
          fun _ _ h' => h'.elim
        refine wlp_transition.mpr ⟨fun hvalid => ⟨⟨by simp, by simp, fun _ => ?_, fun _ => ?_⟩,
          h₁.2.2.trans (.moved hvalid (by decide))⟩, fun _ _ => trivial⟩
        · exact (Cell.alive_moved driver c₁ _ _ _).trans (h₁.2.1.trans halive)
        · simpa using hlives
  · refine wlp_ite.mpr ⟨fun hdead => ?_, fun hdead => wlp_ite.mpr ⟨fun habandoned => ?_,
      fun habandoned => wlp_ite.mpr ⟨fun hfound => ?_, fun hfound => wlp_pure.mpr ?_⟩⟩⟩
    · -- a service that ran and whose runtime is gone
      have hfails : .failed ∈ transitions c.inst.state := by
        have hstate := hdead.1
        simp only [List.mem_cons, List.not_mem_nil, or_false] at hstate
        rcases hstate with h | h <;> simp [h, transitions]
      refine wlp_bind.mpr <| wlp_mono
        (wlp_markFailedLocked_of_steady driver hfails (by decide)) (fun _ c₁ h₁ => ?_)
        fun _ _ h' => h'.elim
      obtain ⟨hfailed, halive₁, hadvances⟩ := h₁
      refine wlp_bind.mpr <| wlp_get.mpr <| wlp_ite.mpr ⟨fun _ => ?_, fun _ => ?_⟩
      · refine wlp_mono (wlp_restartAfterFailureLocked_of_steady driver fuel hfailed)
          (fun _ c₂ h₂ => ⟨?_, hadvances.trans h₂.2⟩) fun _ _ h' => h'
        rcases h₂.1 with ⟨hstate, halive₂⟩ | ⟨hstate, halive₂⟩
        · exact ⟨by simp [hstate], by simp [hstate], fun _ => halive₂.trans (halive₁.trans halive),
            by simp [hstate]⟩
        · exact ⟨by simp [hstate], fun _ => halive₂, by simp [hstate], by simp [hstate]⟩
      · refine wlp_transition.mpr ⟨fun hvalid => ⟨⟨by simp, by simp, fun _ => ?_, fun _ =>
          hdead.2⟩, hadvances.trans (.moved hvalid (by decide))⟩, fun _ _ => trivial⟩
        exact (Cell.alive_moved driver c₁ _ _ _).trans (halive₁.trans halive)
    · -- a maintenance run that was cut off
      refine wlp_transition.mpr ⟨fun hvalid => ⟨⟨by simp, fun _ => ?_, by simp, by simp⟩,
        .moved hvalid (by decide)⟩, fun _ _ => trivial⟩
      exact (Cell.alive_moved driver c _ _ _).trans (halive.trans habandoned.2)
    · -- a runtime that lives although it was stopped
      refine wlp_mono (wlp_adopt_of_steady driver (by simp [hfound.1, transitions]))
        (fun _ c₁ h₁ => ⟨⟨by simp [h₁.1], fun _ => ?_, by simp [h₁.1], by simp [h₁.1]⟩, h₁.2.2⟩)
        fun _ _ h' => h'.elim
      exact h₁.2.1.trans (halive.trans hfound.2)
    · -- state and runtime agree, or the service had failed
      cases hstate : c.inst.state <;> simp_all [staleStates, Looked.mk, Advances.refl]

/-- The newest clock reading. -/
def lastReading (log : List Effect) : Option ℤ := (clockReadings log).head?

/-- What a reconciliation leaves behind that found the log `since`. -/
structure Converged (since : List Effect) (c : Cell σ) : Prop where
  derived : HoldsDerived C c
  state : c.inst.state ∈ [LifecycleState.stopped, .running, .failed]
  running : c.inst.state = .running ↔ c.alive driver = true
  stopped : c.inst.state = .stopped → c.inst.activeHolds = 0
  failed : c.inst.state = .failed → c.inst.activeHolds = 0 ∨ c.inst.restartExhausted = true ∨
    ∃ eligible latest newer, c.inst.nextRestartAt = some eligible ∧ c.log = newer ++ since ∧
      lastReading newer = some latest ∧ latest < eligible.instant

theorem Converged.of_running {since : List Effect} (hderived : HoldsDerived C c) (hstate : c.inst.state = .running)
    (halive : c.alive driver = true) : Converged driver since c where
  derived := hderived
  state := by simp [hstate]
  running := by simp [hstate, halive]
  stopped := by simp [hstate]
  failed := by simp [hstate]

/-- Starting what is held. -/
theorem wlp_reconcileStart_of_steady {since : List Effect} (fuel : ℕ)
    (hsince : since <:+ c.log) (hderived : HoldsDerived C c)
    (hstate : c.inst.state ∈ [LifecycleState.stopped, .running, .failed])
    (hrunning : c.inst.state = .running ↔ c.alive driver = true) :
    wlp (reconcileStart C fuel) (fun _ c' => Converged driver since c' ∧ Advances c c')
      (fun _ _ => True) c := by
  have hensure : ∀ {c₁ : Cell σ}, Advances c c₁ → c₁.inst.state = .stopped ∨
      c₁.inst.state = .failed → wlp (ensureRunningLocked C fuel "reconcile")
      (fun _ c' => Converged driver since c' ∧ Advances c c') (fun _ _ => True) c₁ := by
    intro c₁ hadvances hstate₁
    refine wlp_mono (wlp_ensureRunningLocked_of_steady driver fuel (by decide))
      (fun _ c' h' => ?_) fun _ _ h' => h'
    rcases h' with ⟨hactive, _⟩ | h'
    · rcases hstate₁ with h | h <;> simp [h, activeStates] at hactive
    · have hadvances' := hadvances.trans h'.advances
      exact ⟨.of_running driver (hderived.of_advances hadvances') h'.state h'.alive, hadvances'⟩
  refine wlp_bind.mpr <| wlp_get.mpr <| wlp_ite.mpr
    ⟨fun hstopped => hensure (.refl c) (.inl hstopped.2), fun hstopped => wlp_ite.mpr
      ⟨fun hfailed => ?_, fun hfailed => wlp_pure.mpr ⟨⟨hderived, hstate, hrunning,
        fun h => by simpa [h] using hstopped, fun h => ?_⟩, .refl c⟩⟩⟩
  · cases hnext : c.inst.nextRestartAt with
    | none => exact hensure (.refl c) (.inr hfailed.2.1)
    | some eligible =>
        have hclock : Advances c (c.afterClock C) :=
          .of_log [.clock _] rfl (by simp) rfl rfl fun _ _ => rfl
        refine wlp_bind.mpr <| wlp_now.mpr <| wlp_whenever.mpr
          ⟨fun _ => hensure hclock (.inr hfailed.2.1), fun hwaits => ⟨⟨?_, hstate, ?_, ?_, ?_⟩,
            hclock⟩⟩
        · exact hderived.of_advances hclock
        · rw [Cell.alive_afterClock]
          exact hrunning
        · exact fun h => absurd (hfailed.2.1.symm.trans h) (by simp)
        · obtain ⟨newer, hnewer⟩ := hsince
          refine fun _ => .inr (.inr ⟨eligible, _, .clock _ :: newer, hnext, ?_, rfl,
            not_le.mp hwaits⟩)
          rw [Cell.afterClock_log, ← hnewer, List.cons_append]
  · by_cases hactive : c.inst.activeHolds = 0
    · exact .inl hactive
    · refine .inr (.inl ?_)
      simpa [hactive, h] using hfailed

/-- Scheduling and saving. -/
theorem wlp_scheduleIdleLocked_of_converged {since : List Effect}
    (h : Converged driver since c) :
    wlp (scheduleIdleLocked C) (fun _ c' => Converged driver since c' ∧ Advances c c')
      (fun _ _ => True) c := by
  refine wlp_bind.mpr <| wlp_get.mpr <| wlp_ite.mpr ⟨fun _ => wlp_pure.mpr ⟨h, .refl c⟩,
    fun hidle => wlp_ite.mpr ⟨fun _ => wlp_pure.mpr ⟨h, .refl c⟩, fun _ => ?_⟩⟩
  refine wlp_bind.mpr <| wlp_now.mpr <| wlp_bind.mpr <| wlp_ofExcept.mpr
    ⟨fun deadline _ => ?_, fun _ _ => trivial⟩
  simp only [not_or, not_not] at hidle
  have hadvances : Advances c (((c.afterClock C).mapInst fun inst =>
      { inst with idleDeadline := some deadline }).saved) :=
    .of_log [.save _, .clock _] rfl (by simp) rfl rfl fun _ _ => rfl
  refine wlp_bind.mpr <| wlp_modifyInst.mpr <| wlp_persist.mpr
    ⟨.of_running driver (h.derived.of_advances hadvances) hidle.2.2 ?_, hadvances⟩
  exact (Cell.alive_afterClock driver c).trans (h.running.mp hidle.2.2)

theorem Converged.saved {since : List Effect} (h : Converged driver since c) :
    Converged driver since c.saved where
  derived := ⟨h.derived.alwaysOn, h.derived.onDemand, h.derived.adminIntent⟩
  state := h.state
  running := h.running
  stopped := h.stopped
  failed hfailed := by
    refine (h.failed hfailed).imp_right (Or.imp_right ?_)
    rintro ⟨eligible, latest, newer, hnext, hlog, hlast, hlater⟩
    exact ⟨eligible, latest, .save _ :: newer, hnext, by rw [Cell.saved_log, hlog,
      List.cons_append], hlast, hlater⟩

/-- A reconciliation that returns has converged, in order. -/
theorem wlp_reconcileLocked_of_steady (fuel : ℕ) (c : Cell σ) :
    wlp (reconcileLocked C fuel) (fun _ c' => Converged driver c.log c' ∧ Orderly c c')
      (fun _ _ => True) c := by
  refine wlp_bind.mpr <| wlp_mono (wlp_reconcileHolds c) (fun _ c₁ h₁ => ?_) fun _ _ h' => h'.elim
  obtain ⟨hderived, holds, hc₁⟩ := h₁
  have hlog₁ : c₁.log = c.log := by rw [hc₁, Cell.mapInst_log]
  refine wlp_bind.mpr <| wlp_resolveDriver.mpr ⟨fun _ => ?_, fun _ _ => trivial⟩
  refine wlp_bind.mpr <| wlp_declaration.mpr ⟨fun d _ => ?_, fun _ _ => trivial⟩
  refine wlp_bind.mpr <| wlp_callDriver.mpr ⟨fun alive hanswer => ?_, fun _ _ => trivial⟩
  -- the answer is what the runtime shows from here on
  generalize hc₂ : Cell.afterCall _ _ _ = c₂
  have hlooked : Advances c₁ c₂ := by
    rw [← hc₂]
    exact .of_log [.status _, .resolve] rfl (by simp) rfl rfl fun _ _ => rfl
  have halive : c₂.alive driver = alive := by
    rw [← hc₂, driver.status _ _ _ _ hanswer]
    exact Cell.alive_asked driver _ .status d
  have horderly : Orderly c c₂ := by
    obtain ⟨newer, hlog, hnewer⟩ := hlooked.orderly
    exact ⟨newer, hlog₁ ▸ hlog, hnewer⟩
  refine wlp_bind.mpr <| wlp_mono (wlp_reconcileState_of_steady driver fuel halive)
    (fun _ c₃ h₃ => ?_) fun _ _ _ => trivial
  have hadopted : wlp (whenever (c₃.inst.state = .failed ∧ alive = true) (adopt C))
      (fun _ c' => (c'.inst.state ∈ [LifecycleState.stopped, .running, .failed] ∧
        (c'.inst.state = .running ↔ c'.alive driver = true)) ∧ Advances c₃ c')
      (fun _ _ => True) c₃ := by
    refine wlp_whenever.mpr ⟨fun hlives => ?_, fun hlives => ⟨⟨h₃.1.state, ⟨h₃.1.running,
      fun hup => ?_⟩⟩, .refl c₃⟩⟩
    · refine wlp_mono (wlp_adopt_of_steady driver (by simp [hlives.1, transitions]))
        (fun _ c' h' => ⟨⟨by simp [h'.1], by simp [h'.1, h'.2.1, h₃.1.unmoved, hlives]⟩, h'.2.2⟩)
        fun _ _ h' => h'.elim
    · -- a runtime that lives was adopted, so the service neither stopped nor failed
      by_contra hrunning
      have hup' := (h₃.1.unmoved hrunning).symm.trans hup
      have hstates := h₃.1.state
      simp only [List.mem_cons, List.not_mem_nil, or_false] at hstates
      rcases hstates with hstopped | hrunning' | hfailed
      · exact absurd (h₃.1.stopped hstopped) (by simp [hup'])
      · exact hrunning hrunning'
      · exact hlives ⟨hfailed, hup'⟩
  refine wlp_bind.mpr <| wlp_get.mpr <| wlp_bind.mpr <| wlp_mono hadopted (fun _ c₄ h₄ => ?_)
    fun _ _ h' => h'
  have hadvances₄ := (hlooked.trans h₃.2).trans h₄.2
  have hsince : c.log <:+ c₄.log := by
    obtain ⟨newer, hlog, _⟩ := hadvances₄.orderly
    exact ⟨newer, by rw [hlog, hlog₁]⟩
  refine wlp_bind.mpr <| wlp_mono (wlp_reconcileStart_of_steady driver fuel hsince
    (hderived.of_advances hadvances₄) h₄.1.1 h₄.1.2) (fun _ c₅ h₅ => ?_) fun _ _ h' => h'
  refine wlp_bind.mpr <| wlp_mono (wlp_scheduleIdleLocked_of_converged driver h₅.1)
    (fun _ c₆ h₆ => wlp_persist.mpr ⟨h₆.1.saved driver, ?_⟩) fun _ _ h' => h'
  have hlast : Orderly c₂ c₆ := (((h₃.2.trans h₄.2).trans h₅.2).trans h₆.2).orderly
  exact (horderly.trans hlast).trans (@Orderly.of_log σ c₆ c₆.saved [_] rfl (by simp))

end Parts

/-! ## Reconciling again -/

/-- No transition, and no start or stop of the driver. -/
def Effect.Looks : Effect → Prop
  | .journal _ | .start _ | .stop _ _ => False
  | _ => True

/-- Everything between `c` and `c'` only looks. -/
def Looking (c c' : Cell σ) : Prop :=
  ∃ newest, c'.log = newest ++ c.log ∧ ∀ effect ∈ newest, effect.Looks

theorem Looking.refl (c : Cell σ) : Looking c c := ⟨[], rfl, by simp⟩

theorem Looking.trans {c c₁ c₂ : Cell σ} (h : Looking c c₁) (h' : Looking c₁ c₂) :
    Looking c c₂ := by
  obtain ⟨newest, hlog, hlooks⟩ := h
  obtain ⟨newest', hlog', hlooks'⟩ := h'
  refine ⟨newest' ++ newest, by rw [hlog', hlog, List.append_assoc], fun effect heffect => ?_⟩
  exact (List.mem_append.mp heffect).elim (hlooks' effect) (hlooks effect)

instance : IsPreorder (Cell σ) Looking where
  refl := Looking.refl
  trans _ _ _ := Looking.trans

theorem Looking.note {c c' : Cell σ} (effect : Effect) (hlog : c'.log = effect :: c.log)
    (hlooks : effect.Looks) : Looking c c' :=
  ⟨[effect], hlog, by simpa using hlooks⟩

theorem looking_modifyInst (f : InstanceState → InstanceState) :
    Within Looking (modifyInst (σ := σ) f) := fun c => wlp_modifyInst.mpr ⟨[], rfl, by simp⟩

theorem looking_persist : Within Looking (persist (σ := σ)) := fun _ =>
  wlp_persist.mpr (.note (.save _) rfl trivial)

theorem looking_now : Within Looking (now C) := fun _ =>
  wlp_now.mpr (.note (.clock _) rfl trivial)

theorem looking_scheduleIdleLocked : Within Looking (scheduleIdleLocked C) :=
  within_bind within_get fun _ => within_ite (fun _ => within_pure _) fun _ =>
    within_ite (fun _ => within_pure _) fun _ => within_bind looking_now fun _ =>
      within_bind (within_ofExcept _) fun _ =>
        within_bind (looking_modifyInst _) fun _ => looking_persist

/-- No reading in `newest` is later than the last one in `newer`. -/
def NotLater (newest newer : List Effect) : Prop :=
  ∀ t ∈ clockReadings newest, ∀ latest, lastReading newer = some latest → t ≤ latest

/-- Everything between `c` and `c'` only looks, unless the clock went on. -/
def OnlyLooks (since : List Effect) (c c' : Cell σ) : Prop :=
  ∃ newest, c'.log = newest ++ c.log ∧ ∀ newer, c.log = newer ++ since → NotLater newest newer →
    ∀ effect ∈ newest, effect.Looks

theorem Looking.onlyLooks {since : List Effect} {c c' : Cell σ} (h : Looking c c') :
    OnlyLooks since c c' := by
  obtain ⟨newest, hlog, hlooks⟩ := h
  exact ⟨newest, hlog, fun _ _ _ => hlooks⟩

section Again

variable (driver : C.environment.Steady) {c : Cell σ} {since : List Effect}

/-- Where state and runtime agree there is nothing to compare. -/
theorem wlp_reconcileState_of_agrees (fuel : ℕ) {alive : Bool}
    (hstate : c.inst.state ∈ [LifecycleState.stopped, .running, .failed])
    (hrunning : c.inst.state = .running ↔ alive = true) :
    wlp (reconcileState C fuel alive) (fun _ c' => c' = c) (fun _ _ => False) c := by
  simp only [List.mem_cons, List.not_mem_nil, or_false] at hstate
  rcases hstate with h | h | h <;> simp_all [reconcileState, staleStates]

/-- What is held and failed waits, so starting it before its time only looks. -/
theorem wlp_reconcileStart_of_converged (fuel : ℕ) {c₁ : Cell σ}
    (h : Converged driver since c) (hlooking : Looking c c₁)
    (hinst : c₁.inst = { c.inst with runtime := c₁.inst.runtime }) :
    wlp (do
      reconcileStart C fuel
      scheduleIdleLocked C
      persist : Prog σ Unit)
      (fun _ c' => OnlyLooks since c c') (fun _ c' => OnlyLooks since c c') c₁ := by
  have hrest : Within Looking (do
      scheduleIdleLocked C
      persist : Prog σ Unit) := within_bind looking_scheduleIdleLocked fun _ => looking_persist
  have hstays : ∀ {c₂ : Cell σ}, Looking c c₂ → wlp (do
      scheduleIdleLocked C
      persist : Prog σ Unit)
      (fun _ c' => OnlyLooks since c c') (fun _ c' => OnlyLooks since c c') c₂ :=
    fun hlooking => wlp_mono (hrest.wlp_from hlooking) (fun _ _ h' => h'.onlyLooks)
      fun _ _ h' => h'.onlyLooks
  have hstate : c₁.inst.state = c.inst.state := by rw [hinst]
  have hactive : c₁.inst.activeHolds = c.inst.activeHolds := by rw [hinst]; rfl
  refine wlp_bind.mpr <| wlp_bind.mpr <| wlp_get.mpr <| wlp_ite.mpr
    ⟨fun hstopped => absurd (h.stopped (hstate ▸ hstopped.2)) (hactive ▸ hstopped.1),
      fun _ => wlp_ite.mpr ⟨fun hfailed => ?_, fun _ => wlp_pure.mpr (hstays hlooking)⟩⟩
  rcases h.failed (hstate ▸ hfailed.2.1) with hnone | hexhausted |
    ⟨eligible, latest, newer, hnext, hlog, hlast, hlater⟩
  · exact absurd hnone (hactive ▸ hfailed.1)
  · have hexhausted₁ : c₁.inst.restartExhausted = true := by rw [hinst]; exact hexhausted
    exact absurd (hexhausted₁.symm.trans hfailed.2.2) (by simp)
  · have hnext₁ : parseTimestamp c₁.inst.nextRestartAt = some eligible := by
      rw [hinst]; exact hnext
    rw [hnext₁]
    have hclock : Looking c (c₁.afterClock C) :=
      hlooking.trans (.note (.clock _) rfl trivial)
    refine wlp_bind.mpr <| wlp_now.mpr <| wlp_whenever.mpr
      ⟨fun hreached => ?_, fun _ => hstays hclock⟩
    -- the restart is due, so this reading is later than the last one
    obtain ⟨looked, hlog₁, _⟩ := hlooking
    have hlate : ∀ c₂ : Cell σ, (c₁.afterClock C).log <:+ c₂.log → OnlyLooks since c c₂ := by
      rintro c₂ ⟨started, hstarted⟩
      rw [Cell.afterClock_log, hlog₁] at hstarted
      refine ⟨started ++ .clock (C.environment.now c₁.env).1 :: looked, by
        rw [← hstarted, List.append_assoc, List.cons_append], fun newer' hlog' hnotLater => ?_⟩
      have hnewer : newer' = newer := List.append_cancel_right (hlog'.symm.trans hlog)
      have hle := hnotLater (C.environment.now c₁.env).1.instant
        (List.mem_filterMap.mpr ⟨_, List.mem_append_right _ List.mem_cons_self, rfl⟩) latest
        (hnewer ▸ hlast)
      exact absurd (hlater.trans_le hreached) (not_lt.mpr hle)
    have hwithin : Within (Footprint C Touch.recovering) (do
        ensureRunningLocked C fuel "reconcile"
        scheduleIdleLocked C
        persist) :=
      within_bind (within_ensureRunningLocked (le_refl _) fuel _) fun _ =>
        within_bind (within_scheduleIdleLocked Touch.observing_le_recovering) fun _ =>
          within_persist Touch.observing_le_recovering
    exact wlp_bind.mp <| wlp_mono (hwithin _) (fun _ _ h' => hlate _ (suffix_of_footprint h'))
      fun _ _ h' => hlate _ (suffix_of_footprint h')

/-- Reconciling a converged service again only looks. -/
theorem wlp_reconcileLocked_of_converged (fuel : ℕ) (h : Converged driver since c) :
    wlp (reconcileLocked C fuel) (fun _ c' => OnlyLooks since c c')
      (fun _ c' => OnlyLooks since c c') c := by
  refine wlp_bind.mpr <| wlp_mono (wlp_reconcileHolds_of_derived h.derived)
    (fun _ c₁ h₁ => ?_) fun _ _ h' => h'.elim
  subst h₁
  have hresolved : ∀ env : σ, Looking c₁ ((c₁.withEnv env).note .resolve) :=
    fun env => .note .resolve rfl trivial
  refine wlp_bind.mpr <| wlp_resolveDriver.mpr
    ⟨fun _ => ?_, fun _ _ => (hresolved _).onlyLooks⟩
  refine wlp_bind.mpr <| wlp_declaration.mpr ⟨fun d _ => ?_, fun _ _ => (hresolved _).onlyLooks⟩
  have hasked : ∀ reply : Reply σ Bool, Looking c₁
      (((c₁.withEnv (C.environment.resolve c₁.env).2).note .resolve).afterCall .status reply) :=
    fun reply => (hresolved _).trans (.note (.status _) rfl trivial)
  refine wlp_bind.mpr <| wlp_callDriver.mpr
    ⟨fun alive hanswer => ?_, fun _ _ => (hasked _).onlyLooks⟩
  have halive : alive = c₁.alive driver := by
    rw [driver.status _ _ _ _ hanswer]
    exact Cell.alive_resolved driver c₁
  have hlooking := hasked (C.environment.status c₁.inst d (C.environment.resolve c₁.env).2)
  have hagrees : c₁.inst.state = .running ↔ alive = true := by rw [halive]; exact h.running
  generalize hc₂ : Cell.afterCall _ _ _ = c₂
  have hinst : c₂.inst = { c₁.inst with runtime := c₂.inst.runtime } := by rw [← hc₂]; rfl
  have hstate : c₂.inst.state = c₁.inst.state := by rw [hinst]
  refine wlp_bind.mpr <| wlp_mono (wlp_reconcileState_of_agrees fuel (hstate ▸ h.state)
    (hstate ▸ hagrees)) (fun _ c₃ h₃ => ?_) fun _ _ h' => h'.elim
  subst h₃
  refine wlp_bind.mpr <| wlp_get.mpr <| wlp_bind.mpr <| wlp_whenever.mpr
    ⟨fun hlives => ?_, fun _ => wlp_reconcileStart_of_converged driver fuel h
      (hc₂ ▸ hlooking) hinst⟩
  -- nothing that failed lives
  exact absurd ((hagrees.mpr hlives.2).symm.trans (hstate ▸ hlives.1)) (by simp)

end Again

/-! ## One pass after another -/

/-- A pass that returns leaves every service stopped, running or failed, running
exactly if its runtime lives and stopped only if it is not held, without an edge
outside the lifecycle graph; a second pass that reads no later time than the
first one did makes no transition and neither starts nor stops a runtime. -/
theorem reconcile_converges (site : Site σ) (driver : ∀ id, (site.environment id).Steady)
    {fuel : ℕ} {fleet fleet' : String → Cell σ} {documents : List Document}
    (hrun : (site.reconcile fuel).run fleet = some (.ok documents, fleet')) :
    ∀ service ∈ site.registry.services, ∃ newer,
      (fleet' service.id).log = newer ++ (fleet service.id).log ∧
      (∀ event, .journal event ∈ newer →
        event.newState ∈ transitions event.oldState ∧ event.reason ≠ "start_failure") ∧
      (fleet' service.id).inst.state ∈ [LifecycleState.stopped, .running, .failed] ∧
      ((fleet' service.id).inst.state = .running ↔ (driver service.id).alive
        (fleet' service.id).inst.runtime (fleet' service.id).env = true) ∧
      ((fleet' service.id).inst.state = .stopped → (fleet' service.id).inst.activeHolds = 0) ∧
      ∀ fuel' r fleet'', (site.reconcile fuel').run fleet' = some (r, fleet'') →
        ∃ newest, (fleet'' service.id).log = newest ++ (fleet' service.id).log ∧
          (NotLater newest newer → ∀ effect ∈ newest, effect.Looks) := by
  intro service hmem
  have hkeys := nodup_ids site.registry
  let steady : (site.context service).environment.Steady := driver service.id
  -- the pass returned, so it reconciled this service and that returned
  obtain ⟨r₁, hloop, hr₁⟩ := site.run_reconcile_iff.mp hrun
  have hok : r₁ = .ok () := by
    cases r₁ with
    | ok _ => rfl
    | error e => cases hr₁
  obtain ⟨r', hsolo, hr'⟩ | ⟨_, hno⟩ := treated_of_run_forEach_atIndex hkeys hloop service hmem
  · rw [hr' hok] at hsolo
    obtain ⟨hconverged, newer, hlog, hnewer⟩ :=
      wlp_ok (wlp_reconcileLocked_of_steady steady fuel _) hsolo
    refine ⟨newer, hlog, hnewer, hconverged.state, hconverged.running, hconverged.stopped,
      fun fuel' r fleet'' hagain => ?_⟩
    obtain ⟨r₂, hloop₂, _⟩ := site.run_reconcile_iff.mp hagain
    have hlooks : OnlyLooks (fleet service.id).log (fleet' service.id) (fleet'' service.id) := by
      obtain ⟨r'', hsolo₂, _⟩ | ⟨hsame, _⟩ :=
        treated_of_run_forEach_atIndex hkeys hloop₂ service hmem
      · have hwlp := wlp_reconcileLocked_of_converged steady fuel' hconverged
        cases r'' with
        | ok _ => exact wlp_ok hwlp hsolo₂
        | error e => exact wlp_error hwlp hsolo₂
      · -- an exception ended the second pass before it came to this service
        rw [hsame]
        exact (Looking.refl _).onlyLooks
    obtain ⟨newest, hnewest, himp⟩ := hlooks
    exact ⟨newest, hnewest, himp newer hlog⟩
  · exact absurd hok hno

/-- A runtime that lives from its start to its stop, under a clock that stands still. -/
def Environment.still : Environment Bool where
  now lives := (.ofSeconds 100, lives)
  monotonic lives := (100, lives)
  sleep _ lives := lives
  resolve lives := (.ok (), lives)
  start inst _ _ := ⟨.ok (), inst.runtime, true⟩
  stop inst _ _ := ⟨.ok (), inst.runtime, false⟩
  status inst _ lives := ⟨.ok lives, inst.runtime, lives⟩
  isReady inst _ _ lives := ⟨.ok lives, inst.runtime, lives⟩
  runMaintenance inst _ _ lives := ⟨.ok [], inst.runtime, lives⟩

/-- It answers from the runtime alone. -/
def Environment.stillSteady : Environment.still.Steady where
  alive _ lives := lives
  ready _ lives := lives
  undisturbed_alive := ⟨fun _ _ => rfl, fun _ _ => rfl, fun _ _ => rfl, fun _ _ _ => rfl,
    fun _ _ _ _ => rfl⟩
  undisturbed_ready := ⟨fun _ _ => rfl, fun _ _ => rfl, fun _ _ => rfl, fun _ _ _ => rfl,
    fun _ _ _ _ => rfl⟩
  status _ _ _ _ h := (Except.ok.inj h).symm
  isReady _ _ _ _ h := congrArg Except.ok h
  start _ _ _ := rfl
  start_alive _ _ _ := rfl
  start_ready _ _ _ := rfl

/-- Two services that are always on. -/
def alwaysOnSite : Site Bool where
  registry := Site.unresolvedFirst.registry
  environment _ := .still
  pollInterval := 1 / 10
  nestingLimit := 400

/-- After a crash in a maintenance run whose runtime is gone, the service runs. -/
theorem reconcile_converges_after_crash :
    ∃ (fleet after : String → Cell Bool) (documents : List Document),
      (alwaysOnSite.reconcile 5).run fleet = some (.ok documents, after) ∧
      (fleet "a").inst.state = .maintenance ∧ (after "a").inst.state = .running ∧
      (after "a").env = true := by
  let fleet : String → Cell Bool := fun id =>
    { inst := { freshInstance id with state := .maintenance }
      jobsRunning := ∅
      override := none
      log := []
      env := false }
  have hexec : ((alwaysOnSite.reconcile 5).run fleet).map (fun result =>
      decide ((∃ documents, result.1 = .ok documents) ∧ (result.2 "a").inst.state = .running)) =
      some true := by
    decide +kernel
  obtain ⟨⟨r, after⟩, hrun, hobserved⟩ := Option.map_eq_some_iff.mp hexec
  obtain ⟨⟨documents, hdocuments⟩, hrunning⟩ := of_decide_eq_true hobserved
  obtain rfl : r = .ok documents := hdocuments
  obtain ⟨_, _, _, _, halive, _⟩ := reconcile_converges alwaysOnSite
    (fun _ => Environment.stillSteady) hrun (Site.alwaysOnService "a")
    (by simp [alwaysOnSite, Site.unresolvedFirst])
  exact ⟨fleet, after, documents, hrun, rfl, hrunning, halive.mp hrunning⟩

end UltimateBBSBox.Supervisor
