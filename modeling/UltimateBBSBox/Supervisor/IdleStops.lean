import UltimateBBSBox.Supervisor.Budget
import UltimateBBSBox.Supervisor.Idle

/-!
# No idle stop without an idle period

Which sections install a hold by assignment while a deadline is pending, and
that every other section, ended or cut off, keeps `IdleKept`.  From that, what a
run says about its idle stops.
-/

namespace UltimateBBSBox.Supervisor

open Act

variable {σ : Type} {C : Context σ}

/-! ## Sections -/

/-- Deeds that install no hold. -/
def Deed.calm : Deed → Prop
  | .plain | .mode | .move _ | .schedule => True
  | _ => False

/-- Deeds that set no deadline. -/
def Deed.unscheduled : Deed → Prop
  | .schedule => False
  | _ => True

theorem Deed.stopping_le_calm : Deed.stopping ≤ Deed.calm := by
  rintro (_ | state | _ | _ | _ | _) hd <;> trivial

theorem Deed.starting_le_unscheduled : Deed.starting C ≤ Deed.unscheduled := by
  rintro (_ | state | _ | _ | _ | _) hd <;> trivial

theorem Deed.starting_le_calm (h : ¬ C.Restarts) : Deed.starting C ≤ Deed.calm := by
  rintro (_ | state | _ | _ | _ | _) hd <;> trivial

theorem noHolds_of_calm {c c' : Cell σ} (hfoot : Doings C Deed.calm c c')
    (h : NoHolds c.inst.holds) : NoHolds c'.inst.holds := by
  refine hfoot.closed (P := fun c => NoHolds c.inst.holds) (fun d s s' hd hdeed h => ?_) h
  cases hdeed with
  | update inst hsame =>
      rw [Cell.mapInst_inst, hsame.holds]
      exact h
  | release holds hfewer =>
      intro k
      cases hget : holds.get? k with
      | none => exact hget
      | some count' =>
          obtain ⟨count, hcount, _⟩ := hfewer k count' hget
          rw [h k] at hcount
          cases hcount
  | addHold | pin | attempt => exact False.elim hd
  | _ => exact h

namespace IdleKept

variable {held : List ℕ} {base : ℕ} {c c' : Cell σ} {α : Type} {act : Prog σ α}

theorem of_calm (h : IdleKept C held base c) (hfoot : Doings C Deed.calm c c') :
    IdleKept C held base c' := by
  refine hfoot.closed (fun d s s' hd hdeed h => h.deed hdeed ?_) h
  rintro (rfl | rfl)
  · exact False.elim hd
  · exact False.elim hd

/-- What installs no hold. -/
theorem wlp_calm (hact : Within (Doings C Deed.calm) act) (h : IdleKept C held base c) :
    wlp act (fun _ => IdleKept C held base) (fun _ => IdleKept C held base) c :=
  hact.wlp_of_closed (fun _ _ hfoot h => h.of_calm hfoot) h

/-- What sets no deadline, where none is pending. -/
theorem wlp_unscheduled (hact : Within (Doings C Deed.unscheduled) act)
    (h : IdleKept C held base c) (hnone : c.inst.idleDeadline = none) :
    wlp act (fun _ c' => IdleKept C held base c' ∧ c'.inst.idleDeadline = none)
      (fun _ c' => IdleKept C held base c' ∧ c'.inst.idleDeadline = none) c := by
  refine hact.wlp_of_closed (P := fun c => IdleKept C held base c ∧ c.inst.idleDeadline = none)
    (fun s s' hfoot h => ?_) ⟨h, hnone⟩
  refine hfoot.closed (P := fun c => IdleKept C held base c ∧ c.inst.idleDeadline = none)
    (fun d s s' hd hdeed h => ⟨h.1.deed hdeed fun _ => h.2, idleDeadline_of_deed hdeed ?_ h.2⟩) h
  rintro rfl
  exact hd

/-- Bringing the service up: restarts install a hold, so no deadline may be pending. -/
theorem wlp_starting (hact : Within (Doings C (Deed.starting C)) act)
    (h : IdleKept C held base c) (hrest : c.inst.idleDeadline = none ∨ ¬ C.Restarts) :
    wlp act (fun _ => IdleKept C held base) (fun _ => IdleKept C held base) c := by
  rcases hrest with hnone | hnever
  · exact wlp_mono (h.wlp_unscheduled (hact.mono Deed.starting_le_unscheduled) hnone)
      (fun _ _ h' => h'.1) fun _ _ h' => h'.1
  · exact h.wlp_calm (hact.mono (Deed.starting_le_calm hnever))

/-- A hold that is there tells that no deadline is pending. -/
theorem idleDeadline_of_hold (h : IdleKept C held base c) {reason : String}
    (hhold : c.inst.holds.getD reason 0 ≠ 0) : c.inst.idleDeadline = none := by
  by_contra hdeadline
  exact hhold (by simp [Dict.getD, h.noHolds hdeadline reason])

/-- `start` drops the deadline, or finds none. -/
theorem wlp_startHold (h : IdleKept C held base c) (reason : String) :
    wlp (startHold reason)
      (fun _ c' => IdleKept C held base c' ∧ c'.inst.idleDeadline = none) (fun _ _ => False) c := by
  have hadd : ∀ (c₁ : Cell σ), IdleKept C held base c₁ → ∀ reason,
      wlp (whenever (c₁.inst.holds.getD reason 0 = 0) (addHold reason))
        (fun _ c' => IdleKept C held base c' ∧ c'.inst.idleDeadline = none) (fun _ _ => False) c₁ := by
    intro c₁ h₁ reason
    refine wlp_whenever.mpr ⟨fun _ => ?_, fun hhold => ⟨h₁, h₁.idleDeadline_of_hold hhold⟩⟩
    exact wlp_bind.mpr <| wlp_modifyInst.mpr <| wlp_persist.mpr
      ⟨h₁.deed (.addHold reason) (by simp), rfl⟩
  refine wlp_ite.mpr ⟨fun _ => ?_, fun _ => wlp_bind.mpr <| wlp_get.mpr <| hadd c h reason⟩
  refine wlp_bind.mpr <| wlp_modifyInst.mpr <| wlp_bind.mpr <| wlp_modifyInst.mpr <|
    wlp_bind.mpr <| wlp_get.mpr <| hadd _ ?_ "admin"
  have hintent : IdleKept C held base (c.mapInst fun inst => { inst with adminIntent := true }) :=
    h.same rfl rfl rfl
  by_cases hfailed : c.inst.state = .failed
  · exact hintent.same rfl (by simp [hfailed]) (by simp [hfailed])
  · exact hintent.same rfl (by simp [hfailed]) (by simp [hfailed])

theorem wlp_start (h : IdleKept C held base c) (fuel : ℕ) (reason : String) :
    wlp (start C fuel reason) (fun _ => IdleKept C held base) (fun _ => IdleKept C held base) c := by
  refine wlp_bind.mpr <| wlp_mono (h.wlp_startHold reason) (fun _ c₁ h₁ => ?_)
    fun _ _ h' => h'.elim
  refine wlp_starting ?_ h₁.1 (.inl h₁.2)
  exact within_bind (doings_ensureRunningLocked (fun _ h => h) fuel reason) fun _ =>
    within_bind within_get fun _ => within_pure _

theorem wlp_acquireSession (h : IdleKept C held base c) (fuel : ℕ) (sessionId : String) :
    wlp (acquireSession C fuel sessionId) (fun _ => IdleKept C held base)
      (fun _ => IdleKept C held base) c := by
  refine wlp_bind.mpr <| wlp_get.mpr <| wlp_bind.mpr <| wlp_whenever.mpr
    ⟨fun _ => wlp_throw.mpr h, fun _ => ?_⟩
  have hentered : IdleKept C held base ((c.afterClock C).mapInst fun inst =>
      { inst with sessions := inst.sessions.set sessionId (C.environment.now c.env).1 }) :=
    (h.afterClock C).same rfl rfl rfl
  refine wlp_bind.mpr <| wlp_now.mpr <| wlp_bind.mpr <| wlp_modifyInst.mpr <| wlp_bind.mpr <|
    wlp_bind.mpr <| wlp_modifyInst.mpr <| wlp_persist.mpr <|
      wlp_starting ?_ (hentered.deed (.addHold "sessions") (by simp)) (.inl rfl)
  refine within_bind (within_tryCatch (doings_ensureRunningLocked (fun _ h => h) fuel "session")
    fun exc => ?_) fun _ => within_pure _
  exact within_bind (doings_modifyInst trivial fun _ => ⟨rfl, rfl, rfl⟩) fun _ =>
    within_bind (doings_removeHold trivial) fun _ => within_throw exc

theorem wlp_beginMaintenance (h : IdleKept C held base c) (fuel : ℕ) (job : Job) :
    wlp (beginMaintenance C fuel job) (fun _ => IdleKept C held base)
      (fun _ => IdleKept C held base) c := by
  have hmarked : IdleKept C held base (c.mapJobs (insert job.name)) := h.same rfl rfl rfl
  refine wlp_bind.mpr <| wlp_get.mpr <| wlp_ite.mpr ⟨fun _ => wlp_throw.mpr h, fun _ => ?_⟩
  refine wlp_bind.mpr <| (wlp_modifyJobs (f := insert job.name)).mpr <| wlp_ite.mpr
    ⟨fun _ => ?_, fun _ => ?_⟩
  · exact wlp_bind.mpr <| (wlp_modifyJobs (f := (Finset.erase · job.name))).mpr <|
      wlp_throw.mpr (hmarked.same rfl rfl rfl)
  · refine wlp_bind.mpr <| wlp_bind.mpr <| wlp_modifyInst.mpr <| wlp_persist.mpr ?_
    refine wlp_mono (wlp_unscheduled ?_ (hmarked.deed (.addHold "maintenance") (by simp)) rfl)
      (fun _ _ h' => h'.1) fun _ _ h' => h'.1
    refine within_bind (within_tryCatch (within_bind
      (doings_ensureRunningLocked Deed.starting_le_unscheduled fuel "maintenance") fun _ =>
        doings_transition trivial) fun exc => ?_) fun _ => within_pure _
    exact within_bind (doings_removeHold trivial) fun _ =>
      within_bind (doings_modifyJobs trivial (Finset.erase · job.name)) fun _ => within_throw exc

theorem wlp_notifyFailure (h : IdleKept C held base c) (fuel : ℕ) (error : String)
    (hrest : c.inst.idleDeadline = none ∨ c.inst.state = .stopped ∨ ¬ C.Restarts) :
    wlp (notifyFailure C fuel error) (fun _ => IdleKept C held base)
      (fun _ => IdleKept C held base) c := by
  rcases or_left_comm.mp hrest with hstopped | hrest
  · -- a stopped service cannot fail
    refine wlp_bind.mpr <| wlp_bind.mpr <| wlp_get.mpr <| wlp_bind.mpr <| wlp_whenever.mpr
      ⟨fun _ => wlp_transition.mpr ⟨fun hvalid => ?_, fun _ _ => h⟩, fun hfailed => ?_⟩
    · rw [hstopped] at hvalid
      exact absurd hvalid (by decide)
    · rw [hstopped] at hfailed
      exact absurd (by decide) hfailed
  · refine wlp_starting ?_ h hrest
    exact within_bind (doings_markFailedLocked trivial trivial) fun _ =>
      within_bind (doings_restartAfterFailureLocked (fun _ h => h)
        (doings_ensureRunningLocked (fun _ h => h) fuel "recovery")) fun _ =>
          within_bind within_get fun _ => within_pure _

theorem wlp_finishMaintenance (h : IdleKept C held base c) (fuel : ℕ) (job : Job)
    (wasActive : Bool) {outcome : Except String Archive.Fields}
    (hrest : c.inst.idleDeadline = none ∨ c.inst.state = .stopped ∨ ¬ C.Restarts ∨
      ∀ message, outcome ≠ .error message) :
    wlp (finishMaintenance C fuel job wasActive outcome) (fun _ => IdleKept C held base)
      (fun _ => IdleKept C held base) c := by
  cases outcome with
  | ok result =>
      refine wlp_calm (within_bind (doings_now trivial) fun _ =>
        within_bind (doings_modifyInst trivial fun _ => ⟨rfl, rfl, rfl⟩) fun _ =>
          within_bind (doings_transition trivial) fun _ =>
            within_bind (doings_removeHold trivial) fun _ =>
              within_bind (doings_modifyJobs trivial (Finset.erase · job.name)) fun _ =>
                within_bind within_get fun _ => within_ite (fun _ => ?_) fun _ => ?_) h
      · exact within_bind (doings_stopLocked Deed.stopping_le_calm) fun _ => within_pure _
      · exact within_bind (doings_scheduleIdleLocked trivial trivial) fun _ => within_pure _
  | error message =>
      have hrest : c.inst.state = .stopped ∨ c.inst.idleDeadline = none ∨ ¬ C.Restarts := by
        rcases hrest with hnone | hstopped | hnever | herror
        · exact .inr (.inl hnone)
        · exact .inl hstopped
        · exact .inr (.inr hnever)
        · exact absurd rfl (herror message)
      rcases hrest with hstopped | hrest
      · -- a stopped service cannot fail
        refine wlp_bind.mpr <| wlp_now.mpr <| wlp_bind.mpr <| wlp_modifyInst.mpr <| wlp_bind.mpr <|
          wlp_bind.mpr <| wlp_get.mpr <| wlp_bind.mpr <| wlp_whenever.mpr
            ⟨fun _ => wlp_transition.mpr ⟨fun hvalid => ?_, fun _ _ => ?_⟩, fun hfailed => ?_⟩
        · rw [Cell.mapInst_inst, Cell.afterClock_inst, hstopped] at hvalid
          exact absurd hvalid (by decide)
        · exact (h.afterClock C).same rfl rfl rfl
        · rw [Cell.mapInst_inst, Cell.afterClock_inst, hstopped] at hfailed
          exact absurd (by decide) hfailed
      · refine wlp_starting (within_bind (doings_now trivial) fun _ =>
          within_bind (doings_modifyInst trivial fun _ => ⟨rfl, rfl, rfl⟩) fun _ =>
            within_bind (doings_markFailedLocked trivial trivial) fun _ =>
              within_bind (doings_removeHold trivial) fun _ =>
                within_bind (doings_modifyJobs trivial (Finset.erase · job.name)) fun _ => ?_)
          h hrest
        exact within_bind (doings_restartAfterFailureLocked (fun _ h => h)
          (doings_ensureRunningLocked (fun _ h => h) fuel "recovery")) fun _ => within_throw _

/-- A stop that returns leaves the service stopped. -/
theorem stopped_of_stopLocked (reason : String) (c : Cell σ) :
    wlp (stopLocked C reason) (fun _ c' => c'.inst.state = .stopped) (fun _ _ => True) c := by
  refine wlp_bind.mpr <| wlp_get.mpr <| wlp_ite.mpr ⟨fun hstopped => wlp_persist.mpr hstopped,
    fun _ => wlp_ite.mpr ⟨fun _ => wlp_transition.mpr ⟨fun _ => rfl, fun _ _ => trivial⟩,
      fun _ => wlp_ite.mpr ⟨fun _ => wlp_throw.mpr trivial, fun _ => ?_⟩⟩⟩
  refine wlp_bind.mpr <| wlp_mono wlp_true (fun _ c₁ _ => ?_) fun _ _ h => h
  refine wlp_tryCatch.mpr <| wlp_mono (Q := fun _ c' => c'.inst.state = .stopped)
    (X := fun _ _ => True) ?_ (fun _ _ h => h) fun e c₂ _ => ?_
  · refine wlp_bind.mpr <| wlp_mono wlp_true (fun _ c₂ _ => ?_) fun _ _ h => h
    refine wlp_bind.mpr <| wlp_mono wlp_true (fun d c₃ _ => ?_) fun _ _ h => h
    refine wlp_bind.mpr <| wlp_mono wlp_true (fun _ c₄ _ => ?_) fun _ _ h => h
    exact wlp_bind.mpr <| wlp_transition.mpr ⟨fun _ => wlp_bind.mpr <| wlp_now.mpr <|
      wlp_bind.mpr <| wlp_modifyInst.mpr <| wlp_persist.mpr rfl, fun _ _ => trivial⟩
  · exact wlp_bind.mpr <| wlp_mono wlp_true (fun _ _ _ => wlp_throw.mpr trivial) fun _ _ h => h

theorem wlp_tickIdle (h : IdleKept C held base c) (now : DateTime) :
    wlp (tickIdle C now)
      (fun _ c' => IdleKept C held base c' ∧ (c' = c ∨ c'.inst.state = .stopped))
      (fun _ => IdleKept C held base) c := by
  refine wlp_bind.mpr <| wlp_get.mpr ?_
  cases parseTimestamp c.inst.idleDeadline with
  | none => exact wlp_pure.mpr ⟨h, .inl rfl⟩
  | some deadline =>
      refine wlp_whenever.mpr ⟨fun _ => ?_, fun _ => ⟨h, .inl rfl⟩⟩
      refine wlp_mono (wlp_and (h.wlp_calm (doings_stopLocked Deed.stopping_le_calm))
        (stopped_of_stopLocked "idle_timeout" c)) (fun _ _ h' => ⟨h'.1, .inr h'.2⟩)
        fun _ _ h' => h'.1

theorem wlp_tickLocked (h : IdleKept C held base c) (fuel : ℕ) (now : DateTime)
    (hrest : c.inst.idleDeadline = none ∨ c.inst.state ≠ .failed ∨ c.inst.nextRestartAt = none ∨
      ¬ C.Restarts) :
    wlp (tickLocked C fuel now) (fun _ => IdleKept C held base) (fun _ => IdleKept C held base)
      c := by
  have hjobs : ∀ c₂ : Cell σ, IdleKept C held base c₂ →
      wlp (tickJobs now C.service.jobs) (fun _ => IdleKept C held base)
        (fun _ => IdleKept C held base) c₂ := fun c₂ h₂ =>
    h₂.wlp_calm (doings_tickJobs (C := C) trivial now _)
  refine wlp_bind.mpr <| wlp_mono (h.wlp_tickIdle now) (fun _ c₁ h₁ => ?_) fun _ _ h' => h'
  refine wlp_bind.mpr <| wlp_mono (Q := fun _ => IdleKept C held base) ?_
    (fun _ c₂ h₂ => hjobs c₂ h₂) fun _ _ h' => h'
  refine wlp_bind.mpr <| wlp_get.mpr ?_
  cases hnext : parseTimestamp c₁.inst.nextRestartAt with
  | none => exact wlp_pure.mpr h₁.1
  | some nextRestart =>
      refine wlp_whenever.mpr ⟨fun hdue => ?_, fun _ => h₁.1⟩
      have hsame : c₁ = c := by
        rcases h₁.2 with rfl | hstopped
        · rfl
        · rw [hdue.1] at hstopped
          cases hstopped
      subst hsame
      refine wlp_starting ?_ h ?_
      · exact within_bind (doings_ensureRunningLocked (fun _ h => h) fuel "recovery") fun _ =>
          within_bind within_get fun _ => within_whenever fun _ => doings_dropHold trivial
      · rcases hrest with hnone | hfailed | hpending | hnever
        · exact .inl hnone
        · exact absurd hdue.1 hfailed
        · rw [hpending] at hnext
          cases hnext
        · exact .inr hnever

/-! ### Reconciling -/

/-- Where nothing is held, the driver's answer starts nothing. -/
theorem calm_reconcileConverge (hholds : NoHolds c.inst.holds) (fuel : ℕ) (alive : Bool) :
    wlp (reconcileConverge C fuel alive) (fun _ => Doings C Deed.calm c)
      (fun _ => Doings C Deed.calm c) c := by
  have hnone : ∀ c' : Cell σ, Doings C Deed.calm c c' → c'.inst.activeHolds = 0 :=
    fun c' hfoot => activeHolds_of_noHolds (noHolds_of_calm hfoot hholds)
  have hmove : ∀ newState reason, Within (Doings C Deed.calm) (transition C newState reason none) :=
    fun _ _ => doings_transition trivial
  have hfail : ∀ error reason, Within (Doings C Deed.calm) (markFailedLocked C error reason) :=
    fun _ _ => doings_markFailedLocked trivial trivial
  have hadopt : Within (Doings C Deed.calm) (adopt C) :=
    within_bind (hmove _ _) fun _ => within_bind (hmove _ _) fun _ => hmove _ _
  have hstate : wlp (reconcileState C fuel alive) (fun _ => Doings C Deed.calm c)
      (fun _ => Doings C Deed.calm c) c := by
    refine wlp_bind.mpr <| wlp_get.mpr <| wlp_ite.mpr ⟨fun _ => ?_, fun _ => wlp_ite.mpr
      ⟨fun _ => ?_, fun _ => ?_⟩⟩
    · exact within_ite (fun _ => hmove _ _) (fun _ => within_ite
        (fun _ => within_bind (within_whenever fun _ => hmove _ _) fun _ => hmove _ _)
        fun _ => within_bind (hfail _ _) fun _ => hmove _ _) c
    · -- the runtime is gone, and nobody needs it
      refine wlp_bind.mpr <| wlp_mono (hfail _ _ c) (fun _ c₁ h₁ => ?_) fun _ _ h' => h'
      refine wlp_bind.mpr <| wlp_get.mpr <| wlp_ite.mpr
        ⟨fun hheld => absurd (hnone c₁ h₁) hheld, fun _ => (hmove _ _).wlp_from h₁⟩
    · exact within_ite (fun _ => hmove _ _) (fun _ => within_ite (fun _ => hadopt)
        fun _ => within_pure _) c
  refine wlp_bind.mpr <| wlp_mono hstate (fun _ c₁ h₁ => ?_) fun _ _ h' => h'
  refine wlp_bind.mpr <| wlp_get.mpr <| wlp_bind.mpr <| wlp_mono
    ((within_whenever fun _ => hadopt).wlp_from h₁) (fun _ c₂ h₂ => ?_) fun _ _ h' => h'
  have hidle := hnone c₂ h₂
  refine wlp_bind.mpr <| wlp_bind.mpr <| wlp_get.mpr <| wlp_ite.mpr
    ⟨fun hheld => absurd hidle hheld.1, fun _ => wlp_ite.mpr
      ⟨fun hheld => absurd hidle hheld.1, fun _ => wlp_pure.mpr ?_⟩⟩
  exact (within_bind (doings_scheduleIdleLocked trivial trivial) fun _ =>
    doings_persist trivial).wlp_from h₂

/-- Where reconciling finds no reason for a hold, looking installs none. -/
theorem calm_reconcileLook (hmode : (C.lifecycle c).mode ≠ .alwaysOn)
    (hintent : c.inst.adminIntent = false) :
    wlp (reconcileLook C) (fun _ => Doings C Deed.calm c) (fun _ => Doings C Deed.calm c) c := by
  have hpopped : Doings C Deed.calm c (c.mapInst fun inst =>
      { inst with holds := inst.holds.pop "always_on" }) :=
    .single (show Deed.calm .plain from trivial) (.release _ (.pop _ _))
  have hask : Within (Doings C Deed.calm) (do
      resolveDriver C
      driverStatus C (← declaration C)) :=
    within_bind (doings_resolveDriver trivial) fun _ => within_bind doings_declaration
      fun _ => doings_callDriver trivial fun _ => rfl
  refine wlp_bind.mpr <| wlp_bind.mpr <| wlp_get.mpr <| wlp_bind.mpr <| wlp_modifyInst.mpr <|
    wlp_whenever.mpr ⟨fun hadmin => ?_, fun _ => ?_⟩
  · rw [hintent] at hadmin
    cases hadmin
  · simp only [if_neg hmode]
    exact hask.wlp_from hpopped

theorem wlp_reconcileLocked (h : IdleKept C held base c) (fuel : ℕ)
    (hrest : c.inst.idleDeadline = none ∨
      ((C.lifecycle c).mode ≠ .alwaysOn ∧ c.inst.adminIntent = false)) :
    wlp (reconcileLocked C fuel) (fun _ => IdleKept C held base) (fun _ => IdleKept C held base)
      c := by
  refine (Supervisor.wlp_reconcileLocked C).mpr ?_
  by_cases hnone : c.inst.idleDeadline = none
  · -- holds may be installed while no deadline is pending, and one is set last
    refine wlp_mono (h.wlp_unscheduled (doings_reconcileLook trivial trivial) hnone)
      (fun alive c₁ h₁ => ?_) fun _ _ h' => h'.1
    refine wlp_bind.mpr <| wlp_mono (h₁.1.wlp_unscheduled
      (doings_reconcileState Deed.starting_le_unscheduled trivial fuel alive) h₁.2)
      (fun _ c₂ h₂ => ?_) fun _ _ h' => h'.1
    refine wlp_bind.mpr <| wlp_get.mpr <| wlp_bind.mpr <| wlp_mono (h₂.1.wlp_unscheduled
      (within_whenever fun _ => doings_adopt Deed.starting_le_unscheduled) h₂.2)
      (fun _ c₃ h₃ => ?_) fun _ _ h' => h'.1
    refine wlp_bind.mpr <| wlp_mono (h₃.1.wlp_unscheduled
      (doings_reconcileStart Deed.starting_le_unscheduled fuel) h₃.2)
      (fun _ c₄ h₄ => ?_) fun _ _ h' => h'.1
    exact h₄.1.wlp_calm (within_bind (doings_scheduleIdleLocked trivial trivial) fun _ =>
      doings_persist trivial)
  · have hquiet := hrest.resolve_left hnone
    refine wlp_mono (calm_reconcileLook hquiet.1 hquiet.2) (fun alive c₁ h₁ => ?_)
      fun _ _ h' => h.of_calm h'
    refine wlp_mono (calm_reconcileConverge (noHolds_of_calm h₁ (h.noHolds hnone)) fuel alive)
      (fun _ _ h' => (h.of_calm h₁).of_calm h') fun _ _ h' => (h.of_calm h₁).of_calm h'

end IdleKept

/-! ## Steps -/

/-- The driver call of the maintenance run raised. -/
def MaintenanceRun.failed (run : MaintenanceRun) : Bool :=
  match run.outcome with
  | some (.error _) => true
  | _ => false

/-- No hold is installed by assignment while an idle deadline is pending: neither
the holds that `reconcile` derives from mode and intent, nor the `recovery` hold
of a restart after a failure. -/
def World.CancelsIdle (C : Context σ) (w : World σ) (l : Label σ) : Prop :=
  w.cell.inst.idleDeadline = none ∨
    match l.op with
    | .reconcile => (C.lifecycle w.cell).mode ≠ .alwaysOn ∧ w.cell.inst.adminIntent = false
    | .notifyFailure _ => w.cell.inst.state = .stopped ∨ ¬ C.Restarts
    | .tick _ =>
        w.cell.inst.state ≠ .failed ∨ w.cell.inst.nextRestartAt = none ∨ ¬ C.Restarts
    | .finishMaintenance index =>
        w.cell.inst.state = .stopped ∨ ¬ C.Restarts ∨
          ∀ run ∈ w.running[index]?, run.failed = false
    | _ => True

instance (w : World σ) (l : Label σ) : Decidable (w.CancelsIdle C l) :=
  match l with
  | ⟨.reconcile, _, _⟩ =>
      inferInstanceAs (Decidable (w.cell.inst.idleDeadline = none ∨
        ((C.lifecycle w.cell).mode ≠ .alwaysOn ∧ w.cell.inst.adminIntent = false)))
  | ⟨.notifyFailure _, _, _⟩ =>
      inferInstanceAs (Decidable (w.cell.inst.idleDeadline = none ∨
        (w.cell.inst.state = .stopped ∨ ¬ C.Restarts)))
  | ⟨.tick _, _, _⟩ =>
      inferInstanceAs (Decidable (w.cell.inst.idleDeadline = none ∨
        (w.cell.inst.state ≠ .failed ∨ w.cell.inst.nextRestartAt = none ∨ ¬ C.Restarts)))
  | ⟨.finishMaintenance index, _, _⟩ =>
      inferInstanceAs (Decidable (w.cell.inst.idleDeadline = none ∨
        (w.cell.inst.state = .stopped ∨ ¬ C.Restarts ∨
          ∀ run ∈ w.running[index]?, run.failed = false)))
  | ⟨.start _, _, _⟩ | ⟨.stop _ _, _, _⟩ | ⟨.acquireSession _, _, _⟩ | ⟨.releaseSession _, _, _⟩ |
    ⟨.transition _ _, _, _⟩ | ⟨.beginMaintenance _, _, _⟩ | ⟨.callMaintenance _, _, _⟩ |
    ⟨.setLifecycleMode _, _, _⟩ | ⟨.reload, _, _⟩ =>
      .isTrue (.inr trivial)

section Steps

variable {held : List ℕ} {base : ℕ} {w w' : World σ} {l : Label σ} {r : Except Exn Unit}

/-- A section that installs no hold over a deadline. -/
theorem IdleKept.step (hstep : w.step C l = some (r, w')) (hreload : l.op ≠ .reload)
    (hcancels : w.CancelsIdle C l) (h : IdleKept C held base w.cell) :
    IdleKept C held base w'.cell := by
  have hkept : IdleKept C held base (w.cell.withEnv l.env) := h.same rfl rfl rfl
  have hreturn : ∀ {α : Type} {act : Prog σ α} {next : α → List MaintenanceRun},
      wlp act (fun _ => IdleKept C held base) (fun _ => IdleKept C held base)
        (w.cell.withEnv l.env) →
      wlp (do let a ← act; return next a) (fun _ => IdleKept C held base)
        (fun _ => IdleKept C held base) (w.cell.withEnv l.env) := fun h => wlp_bind.mpr h
  have hsection : wlp (l.op.lockedSection C l.fuel w.running) (fun _ => IdleKept C held base)
      (fun _ => IdleKept C held base) (w.cell.withEnv l.env) := by
    unfold World.CancelsIdle at hcancels
    cases hop : l.op with
    | start reason => exact hreturn (hkept.wlp_start l.fuel reason)
    | stop force reason =>
        exact hreturn (hkept.wlp_calm (doings_stop Deed.stopping_le_calm force reason))
    | acquireSession sessionId => exact hreturn (hkept.wlp_acquireSession l.fuel sessionId)
    | releaseSession sessionId =>
        exact hreturn (hkept.wlp_calm (doings_releaseSession trivial trivial sessionId))
    | notifyFailure error =>
        rw [hop] at hcancels
        exact hreturn (hkept.wlp_notifyFailure l.fuel error hcancels)
    | transition newState reason => exact hreturn (hkept.wlp_calm (doings_transition trivial))
    | reconcile =>
        rw [hop] at hcancels
        exact hreturn (hkept.wlp_reconcileLocked l.fuel hcancels)
    | tick now =>
        rw [hop] at hcancels
        exact hreturn (hkept.wlp_tickLocked l.fuel now hcancels)
    | beginMaintenance jobId =>
        refine wlp_bind.mpr ?_
        unfold findJob
        cases (jobsByName C.service).get? jobId with
        | none => exact wlp_throw.mpr hkept
        | some job => exact wlp_pure.mpr <| hreturn (hkept.wlp_beginMaintenance l.fuel job)
    | callMaintenance index =>
        simp only [Operation.lockedSection]
        split
        · exact hreturn (hkept.wlp_calm (doings_callMaintenance trivial _))
        · exact wlp_diverge.mpr trivial
    | finishMaintenance index =>
        rw [hop] at hcancels
        simp only [Operation.lockedSection]
        split
        · rename_i job wasActive outcome hrun
          refine hreturn (hkept.wlp_finishMaintenance l.fuel job wasActive ?_)
          rcases hcancels with hnone | hstopped | hnever | hfine
          · exact .inl hnone
          · exact .inr (.inl hstopped)
          · exact .inr (.inr (.inl hnever))
          · refine .inr (.inr (.inr fun message herror => ?_))
            have hfailed := hfine _ hrun
            rw [herror] at hfailed
            cases hfailed
        · exact wlp_diverge.mpr trivial
    | setLifecycleMode mode =>
        exact hreturn (hkept.wlp_calm (doings_setLifecycleMode trivial mode))
    | reload => exact absurd hop hreload
  rcases World.step_spec hstep hsection with ⟨_, h'⟩ | ⟨_, _, h', _⟩ <;> exact h'

/-- The lock is free: what is held now has no deadline. -/
theorem IdleKept.watched (h : IdleKept C held base w.cell) :
    IdleKept C (Watched.watch held w).held w.cell.log.length (Watched.watch held w).world.cell := by
  have hmarks : ∀ n ∈ (Watched.watch held w).held, n ≤ w.cell.log.length := by
    intro n hn
    unfold Watched.watch at hn
    split at hn
    · rcases List.mem_cons.mp hn with rfl | hn
      · exact le_refl _
      · exact (h.marks n hn).trans h.grown
    · exact (h.marks n hn).trans h.grown
  have hsince : ∀ {holds : Dict String ℤ} {idleDeadline : Option DateTime},
      idleDeadline = w.cell.inst.idleDeadline →
      IdleSince C held holds idleDeadline w.cell.log →
      IdleSince C (Watched.watch held w).held holds idleDeadline w.cell.log := by
    intro holds idleDeadline hdeadline hsince
    unfold Watched.watch
    split
    · rename_i hactive
      have hnone : w.cell.inst.idleDeadline = none := by
        by_contra hpending
        exact hactive (activeHolds_of_noHolds (h.noHolds hpending))
      rw [hdeadline, hnone]
      exact .of_none hsince.positive
    · exact hsince
  refine ⟨hsince rfl h.since, h.stored, fun log hlog hlength => ?_, le_refl _, hmarks⟩
  rw [hlog.eq_of_length_le hlength]
  intro document hdocument
  exact hsince (h.stored document hdocument)
    (h.cuts _ (List.suffix_refl _) h.grown document hdocument)

/-- A new process starts from what was stored. -/
theorem IdleKept.constructed {override : Option Mode} {env : σ} {log : List Effect}
    (hstored : StoredIdle C held log) (hmarks : ∀ n ∈ held, n ≤ log.length) :
    IdleKept C held log.length (World.constructed C override env log).cell := by
  refine ⟨?_, fun document hdocument => ?_, fun log' hlog' hlength => ?_, le_refl _, hmarks⟩
  · rw [World.constructed_log]
    cases hsave : newestSave log with
    | none =>
        rw [World.constructed_inst_of_none hsave]
        exact .of_none fun k count hget => by simp [freshInstance] at hget
    | some document =>
        rw [World.constructed_inst_of_some hsave]
        exact (hstored document hsave).filterKeys isPersistentHold
  · rw [World.constructed_log] at hdocument
    rw [World.constructed_inst_of_some hdocument]
    rfl
  · rw [hlog'.eq_of_length_le hlength]
    exact hstored

end Steps

/-! ## Runs -/

/-- The condition, whether the section ends or is cut off. -/
def Watched.Cancels (C : Context σ) (t : Watched σ) : Happening σ → Prop
  | .ended l | .cut l _ => t.world.CancelsIdle C l

instance (t : Watched σ) (h : Happening σ) : Decidable (t.Cancels C h) :=
  match h with
  | .ended l => inferInstanceAs (Decidable (t.world.CancelsIdle C l))
  | .cut l _ => inferInstanceAs (Decidable (t.world.CancelsIdle C l))

/-- Deadline and state file tell when the last hold was active. -/
def Watched.Kept (C : Context σ) (t : Watched σ) : Prop :=
  IdleKept C t.held t.world.cell.log.length t.world.cell

theorem Watched.Kept.happen {t t' : Watched σ} {h : Happening σ}
    {o : Option (Except Exn Unit)} (hhappen : t.happen C h = some (o, t'))
    (hcancels : t.Cancels C h) (hkept : t.Kept C) : t'.Kept C := by
  unfold Watched.happen at hhappen
  cases hnext : t.world.happen C h with
  | none =>
      rw [hnext] at hhappen
      cases hhappen
  | some result =>
      rw [hnext] at hhappen
      cases hhappen
      have hreloaded : ∀ override env,
          IdleKept C t.held t.world.cell.log.length
            (World.constructed C override env t.world.cell.log).cell := fun override env =>
        .constructed (hkept.cuts _ (List.suffix_refl _) hkept.grown) hkept.marks
      cases h with
      | ended l =>
          obtain ⟨r, _, hstep⟩ := World.happen_ended_iff.mp hnext
          by_cases hreload : l.op = .reload
          · have hcell : result.2.cell =
                (World.constructed C t.world.cell.override l.env t.world.cell.log).cell :=
              (World.step_reload hstep hreload).1
            have hkept' : IdleKept C t.held t.world.cell.log.length result.2.cell := by
              rw [hcell]
              exact hreloaded _ _
            exact hkept'.watched
          · exact (hkept.step hstep hreload hcancels).watched
      | cut l kept =>
          obtain ⟨r, u, hstep, _, hcut⟩ := World.happen_cut_iff.mp hnext
          have hsurvives : IdleKept C t.held t.world.cell.log.length u.cell := by
            by_cases hreload : l.op = .reload
            · rw [(World.step_reload hstep hreload).1]
              exact hreloaded _ _
            · exact hkept.step hstep hreload hcancels
          have hlength : t.world.cell.log.length ≤ (t.world.survivingLog u kept).length := by
            have := hsurvives.grown
            rw [World.survivingLog, List.length_drop]
            omega
          rw [hcut]
          refine IdleKept.watched (.constructed
            (hsurvives.cuts _ (List.drop_suffix _ _) hlength) fun n hn => ?_)
          exact (hkept.marks n hn).trans hlength

theorem Watched.kept_of_run {override : Option Mode} {env : σ} {t : Watched σ}
    (hrun : Machine.Run (Watched.happen C) (fun t h => t.Cancels C h)
      (Watched.initial C override env) t) : t.Kept C := by
  have hinitial : IdleKept C [] 0 (World.constructed C override env []).cell :=
    IdleKept.constructed (show StoredIdle C [] [] from fun document h => by cases h)
      fun n hn => by cases hn
  exact hrun.invariant (P := fun t => t.Kept C) hinitial fun t h o t' hkept hcancels hhappen =>
    hkept.happen hhappen hcancels

/-! ## Stops -/

/-- Without a move to STOPPING the journal gets no line about one. -/
theorem noStop_of_doings {allowed : Deed → Prop} {c c' : Cell σ}
    (hallowed : ¬ allowed (.move .stopping)) (hfoot : Doings C allowed c c') :
    ∃ newer, c'.log = newer ++ c.log ∧
      ∀ event, .journal event ∈ newer → event.newState ≠ .stopping := by
  refine hfoot.closed (P := fun c' => ∃ newer, c'.log = newer ++ c.log ∧
    ∀ event, .journal event ∈ newer → event.newState ≠ .stopping) (fun d s s' hd hdeed h => ?_)
    ⟨[], rfl, fun _ h => by cases h⟩
  obtain ⟨newer, hlog, hnewer⟩ := h
  have hgrow : ∀ effects, s'.log = effects ++ s.log →
      (∀ event, .journal event ∈ effects → event.newState ≠ .stopping) →
      ∃ newer, s'.log = newer ++ c.log ∧
        ∀ event, .journal event ∈ newer → event.newState ≠ .stopping := by
    intro effects hs' heffects
    refine ⟨effects ++ newer, by rw [hs', hlog, List.append_assoc], fun event hevent => ?_⟩
    rcases List.mem_append.mp hevent with hevent | hevent
    · exact heffects event hevent
    · exact hnewer event hevent
  cases hdeed with
  | ask effect env hshows =>
      refine hgrow [effect] rfl fun event hevent => ?_
      rw [← List.mem_singleton.mp hevent] at hshows
      exact False.elim hshows
  | call effect reply hshows =>
      refine hgrow [effect s.inst] rfl fun event hevent => ?_
      rw [← List.mem_singleton.mp hevent] at hshows
      exact False.elim hshows
  | save | addHold | stopped => exact hgrow [_] rfl (by simp)
  | attempt now => exact hgrow [.attempt now] rfl (by simp)
  | schedule => exact hgrow [_, _] rfl (by simp)
  | move newState reason error hvalid =>
      refine hgrow [_, _, _] rfl ?_
      simp only [List.mem_cons, reduceCtorEq, Effect.journal.injEq, List.not_mem_nil, or_false,
        false_or]
      rintro event rfl
      rintro rfl
      exact hallowed hd
  | _ => exact hgrow [] rfl (by simp)

/-- Any deed but the move to STOPPING. -/
def Deed.unstopping (d : Deed) : Prop := d ≠ .move .stopping

theorem Deed.starting_le_unstopping : Deed.starting C ≤ Deed.unstopping := by
  rintro _ hd rfl
  exact hd

/-- `tick` has not stopped the service (yet), or has just begun to because its
deadline has come. -/
def BeginsStop (C : Context σ) (now : DateTime) (c c₁ : Cell σ) : Prop :=
  c₁ = c ∨ ∃ deadline, c.inst.idleDeadline = some deadline ∧ reached deadline now ∧
    c₁ = c.moved C .stopping "idle_timeout" none

/-- The idle stop is the first thing that `tick` does. -/
theorem beginsStop_of_tickLocked (fuel : ℕ) (now : DateTime) (c : Cell σ) :
    wlp (tickLocked C fuel now)
      (fun _ c' => ∃ c₁, BeginsStop C now c c₁ ∧ Doings C Deed.unstopping c₁ c')
      (fun _ c' => ∃ c₁, BeginsStop C now c c₁ ∧ Doings C Deed.unstopping c₁ c') c := by
  have hmove : ∀ {newState reason error}, newState ≠ .stopping →
      Within (Doings C Deed.unstopping) (transition C newState reason error) :=
    fun hne => doings_transition fun heq => hne (Deed.move.inj heq)
  have hplain : Deed.unstopping .plain := Deed.noConfusion
  have hfail : ∀ error reason, Within (Doings C Deed.unstopping) (markFailedLocked C error reason) :=
    fun _ _ => doings_markFailedLocked hplain fun heq => by cases heq
  have hidle : wlp (tickIdle C now)
      (fun _ c' => ∃ c₁, BeginsStop C now c c₁ ∧ Doings C Deed.unstopping c₁ c')
      (fun _ c' => ∃ c₁, BeginsStop C now c c₁ ∧ Doings C Deed.unstopping c₁ c') c := by
    refine wlp_bind.mpr <| wlp_get.mpr ?_
    cases hdeadline : parseTimestamp c.inst.idleDeadline with
    | none => exact wlp_pure.mpr ⟨c, .inl rfl, .refl⟩
    | some deadline =>
        refine wlp_whenever.mpr ⟨fun hdue => ?_, fun _ => ⟨c, .inl rfl, .refl⟩⟩
        -- the service runs, so of the branches of the stop only the last is left
        have hrunning := hdue.2.2
        refine wlp_bind.mpr <| wlp_get.mpr <| wlp_ite.mpr ⟨fun hstopped => ?_, fun _ => wlp_ite.mpr
          ⟨fun hfailed => ?_, fun _ => wlp_ite.mpr ⟨fun hinactive => ?_, fun _ => ?_⟩⟩⟩
        · rw [hrunning] at hstopped
          cases hstopped
        · rw [hrunning] at hfailed
          cases hfailed
        · rw [hrunning] at hinactive
          exact absurd (by decide) hinactive
        · refine wlp_bind.mpr <| wlp_transition.mpr ⟨fun _ => ?_, fun e _ => ⟨c, .inl rfl, .refl⟩⟩
          have hafter : Within (Doings C Deed.unstopping) (tryCatch (do
              resolveDriver C
              driverStop C false (← declaration C)
              transition C .stopped "idle_timeout" none
              let stopped ← Supervisor.now C
              modifyInst fun inst =>
                { inst with lastStopAt := some stopped, idleDeadline := none }
              persist) fun exc => do
                markFailedLocked C exc.message "stop_failure"
                throw exc) := by
            refine within_tryCatch (within_bind (doings_resolveDriver hplain) fun _ =>
              within_bind doings_declaration fun _ =>
                within_bind (doings_callDriver hplain fun _ => rfl) fun _ =>
                  within_bind (hmove (by decide)) fun _ =>
                    within_bind (doings_now hplain) fun stopped => ?_)
              fun _ => within_bind (hfail _ _) fun _ => within_throw _
            exact fun c => wlp_bind.mpr <| wlp_modifyInst.mpr <| wlp_persist.mpr <|
              Steps.single hplain (.stopped stopped)
          exact wlp_mono (hafter _)
            (fun _ c' hfoot => ⟨_, .inr ⟨deadline, hdeadline, hdue.1, rfl⟩, hfoot⟩)
            fun _ c' hfoot => ⟨_, .inr ⟨deadline, hdeadline, hdue.1, rfl⟩, hfoot⟩
  refine wlp_bind.mpr <| wlp_mono hidle (fun _ c' h' => ?_) fun _ _ h' => h'
  obtain ⟨c₁, hbegins, hfoot⟩ := h'
  have hrest : Within (Doings C Deed.unstopping) (do
      tickRestart C fuel now
      tickJobs now C.service.jobs) :=
    within_bind (doings_tickRestart Deed.starting_le_unstopping fuel now) fun _ =>
      doings_tickJobs hplain now _
  exact wlp_mono (hrest.wlp_from hfoot) (fun _ _ h' => ⟨c₁, hbegins, h'⟩)
    fun _ _ h' => ⟨c₁, hbegins, h'⟩

/-- A line about a stop, written since `c`, is the one the tick began with. -/
theorem stop_event_of_tick {now : DateTime} {c c₁ c' : Cell σ} {after before : List Effect}
    {event : Event} (hbegins : BeginsStop C now c c₁) (hfoot : Doings C Deed.unstopping c₁ c')
    (hlog : c'.log = after ++ .journal event :: before) (hnew : c.log.length ≤ before.length)
    (hstopping : event.newState = .stopping) :
    ∃ deadline, c.inst.idleDeadline = some deadline ∧ reached deadline now ∧
      before = .clock event.timestamp :: c.log := by
  have hfirst : ∀ between, c₁.log = between ++ .journal event :: before →
      ∃ deadline, c.inst.idleDeadline = some deadline ∧ reached deadline now ∧
        before = .clock event.timestamp :: c.log := by
    intro between hold
    rcases hbegins with rfl | ⟨deadline, hdeadline, hreached, rfl⟩
    · -- nothing about a stop is new
      have hlength := congrArg List.length hold
      simp only [List.length_append, List.length_cons] at hlength
      omega
    · refine ⟨deadline, hdeadline, hreached, ?_⟩
      rcases between with _ | ⟨_, _ | ⟨_, _ | ⟨_, between⟩⟩⟩
      · cases hold
      · cases hold
        rfl
      · cases hold
      · have hlength := congrArg List.length hold
        simp only [Cell.moved, Cell.saved_log, Cell.note_log, Cell.afterClock_log,
          Cell.mapInst_log, List.length_append, List.length_cons] at hlength
        omega
  obtain ⟨newer, hnewer, hquiet⟩ := noStop_of_doings (fun h => h rfl) hfoot
  rw [hnewer] at hlog
  rcases List.append_eq_append_iff.mp hlog with ⟨between, _, hold⟩ | ⟨between, hafter, hold⟩
  · exact hfirst between hold
  · cases between with
    | nil => exact hfirst [] hold.symm
    | cons effect between =>
        rw [List.cons_append, List.cons.injEq] at hold
        refine absurd hstopping (hquiet event ?_)
        rw [hafter, ← hold.1]
        simp

/-- An idle stop comes after a whole idle period.  In every run of sections,
ended or cut off, that install no hold by assignment while a deadline is
pending, a tick that moves the service to STOPPING at time `T` finds that every
moment at which a hold was active lies before a clock reading of at most
`T - idle_timeout_seconds`.  (The clock does not go back: the reading of the
tick is not later than those made while it has the lock.) -/
theorem idle_stop_after_idle_period {override : Option Mode} {env : σ} {t : Watched σ}
    {w' : World σ} {l : Label σ} {r : Except Exn Unit} {now : DateTime}
    (hrun : Machine.Run (Watched.happen C) (fun t h => t.Cancels C h)
      (Watched.initial C override env) t)
    (hop : l.op = .tick now) (hstep : t.world.step C l = some (r, w'))
    {after before : List Effect} {event : Event}
    (hlog : w'.cell.log = after ++ .journal event :: before)
    (hnew : t.world.cell.log.length ≤ before.length) (hstopping : event.newState = .stopping)
    (hclock : now.instant ≤ event.timestamp.instant)
    {newer older : List Effect} (hsplit : before = newer ++ older) (hheld : HeldAt t.held older) :
    ∃ reading, .clock reading ∈ newer ∧
      reading.instant + C.idleMicros ≤ event.timestamp.instant := by
  have hkept := Watched.kept_of_run hrun
  have hsection : wlp (l.op.lockedSection C l.fuel t.world.running)
      (fun _ c' => ∃ c₁, BeginsStop C now (t.world.cell.withEnv l.env) c₁ ∧
        Doings C Deed.unstopping c₁ c')
      (fun _ c' => ∃ c₁, BeginsStop C now (t.world.cell.withEnv l.env) c₁ ∧
        Doings C Deed.unstopping c₁ c') (t.world.cell.withEnv l.env) := by
    rw [hop]
    exact wlp_bind.mpr (beginsStop_of_tickLocked l.fuel now _)
  obtain ⟨c₁, hbegins, hfoot⟩ : ∃ c₁, BeginsStop C now (t.world.cell.withEnv l.env) c₁ ∧
      Doings C Deed.unstopping c₁ w'.cell := by
    rcases World.step_spec hstep hsection with ⟨_, h⟩ | ⟨_, _, h, _⟩ <;> exact h
  obtain ⟨deadline, hdeadline, hreached, hbefore⟩ :=
    stop_event_of_tick hbegins hfoot hlog hnew hstopping
  have hquiet : QuietSince t.held (deadline.instant - C.idleMicros)
      (.clock event.timestamp :: t.world.cell.log) :=
    (hkept.since.idle deadline hdeadline).2.cons id
  rw [Cell.withEnv_log] at hbefore
  rw [← hbefore, hsplit] at hquiet
  obtain ⟨reading, hreading, hinstant⟩ := hquiet.reading_of_heldAt hheld
  refine ⟨reading, hreading, ?_⟩
  have hdue : deadline.instant ≤ now.instant := hreached
  omega

/-- An on-demand service that stops after five minutes without a hold. -/
def lingering : Context Script :=
  scripted { onDemand .multiuser with idleTimeoutSeconds := some 300 } []

/-- The journal line below the newest `depth` effects, and the log it was appended to. -/
def eventBelow (depth : ℕ) (log : List Effect) : Option (Event × List Effect) :=
  match log.drop depth with
  | .journal event :: before => some (event, before)
  | _ => none

theorem eq_append_of_eventBelow {depth : ℕ} {log : List Effect} {found : Event × List Effect}
    (h : eventBelow depth log = some found) :
    log = log.take depth ++ .journal found.1 :: found.2 := by
  unfold eventBelow at h
  split at h
  · rename_i hdrop
    cases h
    rw [← hdrop, List.take_append_drop]
  · cases h

/-- A caller comes and goes, and a tick stops the service five minutes later. -/
theorem idle_stop_after_idle_period_of_caller :
    ∃ (t : Watched Script) (newer older : List Effect) (reading : DateTime),
      Machine.Run (Watched.happen lingering) (fun t h => t.Cancels lingering h)
        (Watched.initial lingering none {}) t ∧
      HeldAt t.held older ∧ .clock reading ∈ newer ∧
        reading.instant + lingering.idleMicros ≤ (DateTime.ofSeconds 310).instant := by
  have hexec : ((Machine.exec (Watched.happen lingering) (fun t h => t.Cancels lingering h)
      (Watched.initial lingering none {})
      [.ended (scriptedLabel (.acquireSession "a") {}),
        .ended (scriptedLabel (.releaseSession "a") { seconds := 10 })]).bind fun t =>
      (t.world.step lingering
        (scriptedLabel (.tick (.ofSeconds 310)) { seconds := 310 })).map fun result =>
          (eventBelow 8 result.2.cell.log).any fun found =>
            decide (found.1.newState = .stopping ∧ found.1.timestamp = .ofSeconds 310 ∧
              t.world.cell.log.length ≤ found.2.length ∧
              (found.2.drop 4).length ∈ t.held)) = some true := by
    decide +kernel
  obtain ⟨t, ht, hstepped⟩ := Option.bind_eq_some_iff.mp hexec
  obtain ⟨⟨r, w'⟩, hstep, hobserved⟩ := Option.map_eq_some_iff.mp hstepped
  obtain ⟨found, hfound, hevent⟩ := (Option.any_eq_true _ _).mp hobserved
  obtain ⟨hstopping, htime, hnew, hheld⟩ := of_decide_eq_true hevent
  have hrun := Machine.run_of_exec ht
  obtain ⟨reading, hreading, hle⟩ := idle_stop_after_idle_period hrun rfl hstep
    (eq_append_of_eventBelow hfound) hnew hstopping (by rw [htime])
    (List.take_append_drop 4 found.2).symm (.inr hheld)
  exact ⟨t, _, _, reading, hrun, .inr hheld, hreading, htime ▸ hle⟩

/-- A pending deadline outlives the `always_on` hold of a mode that is switched
on and off again: a tick stops the service although the clock has not moved
since the hold was active. -/
theorem idle_stop_right_after_always_on :
    ∃ (t : Watched Script) (w' : World Script) (r : Except Exn Unit) (event : Event)
      (after newer older : List Effect),
      Machine.Run (Watched.happen lingering) (fun _ _ => True)
        (Watched.initial lingering none {}) t ∧
      t.world.step lingering (scriptedLabel (.tick (.ofSeconds 310)) { seconds := 310 }) =
        some (r, w') ∧
      w'.cell.log = after ++ .journal event :: (newer ++ older) ∧ event.newState = .stopping ∧
      event.reason = "idle_timeout" ∧ event.timestamp = .ofSeconds 310 ∧
      ClockMonotone w'.cell.log ∧ HeldAt t.held older ∧
      ∀ reading, .clock reading ∈ newer →
        (DateTime.ofSeconds 310).instant < reading.instant + lingering.idleMicros := by
  have hexec : ((Machine.exec (Watched.happen lingering) (fun _ _ => True)
      (Watched.initial lingering none {})
      [.ended (scriptedLabel (.acquireSession "a") {}),
        .ended (scriptedLabel (.releaseSession "a") { seconds := 10 }),
        .ended (scriptedLabel (.setLifecycleMode .alwaysOn) { seconds := 20 }),
        .ended (scriptedLabel .reconcile { seconds := 20, alive := true }),
        .ended (scriptedLabel (.setLifecycleMode .onDemand) { seconds := 309 }),
        .ended (scriptedLabel .reconcile { seconds := 309, alive := true })]).bind fun t =>
      (t.world.step lingering
        (scriptedLabel (.tick (.ofSeconds 310)) { seconds := 310 })).map fun result =>
          (eventBelow 8 result.2.cell.log).any fun found =>
            decide (found.1.newState = .stopping ∧ found.1.reason = "idle_timeout" ∧
              found.1.timestamp = .ofSeconds 310 ∧ ClockMonotone result.2.cell.log ∧
              (found.2.drop 4).length ∈ t.held ∧
              ∀ reading ∈ clockReadings (found.2.take 4),
                (DateTime.ofSeconds 310).instant < reading + lingering.idleMicros)) =
      some true := by
    decide +kernel
  obtain ⟨t, ht, hstepped⟩ := Option.bind_eq_some_iff.mp hexec
  obtain ⟨⟨r, w'⟩, hstep, hobserved⟩ := Option.map_eq_some_iff.mp hstepped
  obtain ⟨found, hfound, hevent⟩ := (Option.any_eq_true _ _).mp hobserved
  obtain ⟨hstopping, hreason, htime, hclock, hheld, hreadings⟩ := of_decide_eq_true hevent
  refine ⟨t, w', r, found.1, w'.cell.log.take 8, found.2.take 4, found.2.drop 4,
    Machine.run_of_exec ht, hstep, ?_, hstopping, hreason, htime, hclock, .inr hheld,
    fun reading hreading => ?_⟩
  · rw [List.take_append_drop]
    exact eq_append_of_eventBelow hfound
  · exact hreadings reading.instant (List.mem_filterMap.mpr ⟨_, hreading, rfl⟩)

end UltimateBBSBox.Supervisor
