import UltimateBBSBox.Supervisor.Runs

/-!
# Holds are counted, and what is held is not stopped

Along every run the stored hold counts are positive, in memory and in every
saved document, so `active_holds` is zero only where there is no hold at all;
hence every stop of the runtime, but the one that cleans up after a failed start
attempt, happens where nothing holds the service.

The `sessions` hold and the session table are two records of one fact, and stay
equal.
-/

namespace UltimateBBSBox.Supervisor

open Act

variable {σ : Type} {C : Context σ}

/-! ## Positive counts -/

/-- Every count is positive. -/
def Positive (holds : Dict String ℤ) : Prop := ∀ reason count, holds.get? reason = some count → 0 < count

namespace Positive

variable {holds : Dict String ℤ} {inst : InstanceState}

theorem empty : Positive ∅ := fun reason count h => by simp at h

theorem pop (h : Positive holds) (reason : String) : Positive (holds.pop reason) := by
  intro reason' count hget
  rw [Dict.get?_pop] at hget
  split at hget
  · cases hget
  · exact h reason' count hget

theorem set (h : Positive holds) (reason : String) {count : ℤ} (hcount : 0 < count) :
    Positive (holds.set reason count) := by
  intro reason' count' hget
  rw [Dict.get?_set] at hget
  split at hget
  · rw [Option.some.injEq] at hget
    exact hget ▸ hcount
  · exact h reason' count' hget

theorem filterKeys (h : Positive holds) (keep : String → Bool) :
    Positive (holds.filterKeys keep) := by
  intro reason count hget
  rw [Dict.get?_filterKeys] at hget
  split at hget
  · exact h reason count hget
  · cases hget

/-- A count read with default zero is not negative. -/
theorem getD_nonneg (h : Positive holds) (reason : String) : 0 ≤ holds.getD reason 0 := by
  unfold Dict.getD
  cases hget : holds.get? reason with
  | none => exact le_refl _
  | some count => exact (h reason count hget).le

theorem withHold (h : Positive inst.holds) (reason : String) :
    Positive (inst.withHold reason).holds :=
  h.set reason (by have := h.getD_nonneg reason; omega)

theorem withoutHold (h : Positive inst.holds) (reason : String) :
    Positive (inst.withoutHold reason).holds := by
  unfold InstanceState.withoutHold
  by_cases hcount : inst.holds.getD reason 0 ≤ 1
  · simpa only [if_pos hcount] using h.pop reason
  · simpa only [if_neg hcount] using h.set reason (by omega)

end Positive

/-! ## The invariant of the holds -/

/-- Counts are positive wherever they are stored, and the runtime was stopped
only where there was none. -/
structure HoldsSound (c : Cell σ) : Prop where
  holds : Positive c.inst.holds
  saved : ∀ document, .save document ∈ c.log → Positive document.holds
  stops : ∀ inst, .stop false inst ∈ c.log →
    inst.activeHolds = 0 ∧ ∀ reason, inst.holds.get? reason = none

namespace HoldsSound

variable {c c' : Cell σ}

/-- A change of the holds alone keeps the invariant if the new counts are positive. -/
theorem mapInst {f : InstanceState → InstanceState} (h : HoldsSound c)
    (hholds : Positive (f c.inst).holds) : HoldsSound (c.mapInst f) :=
  ⟨hholds, h.saved, h.stops⟩

/-- Effects other than saves and stops keep the invariant. -/
theorem extend {effect : Effect} (h : HoldsSound c) (hlog : c'.log = effect :: c.log)
    (hholds : Positive c'.inst.holds) (hsave : ∀ document, effect ≠ .save document)
    (hstop : ∀ inst, effect ≠ .stop false inst) : HoldsSound c' where
  holds := hholds
  saved document hmem := h.saved document <|
    (List.mem_cons.mp (hlog ▸ hmem)).resolve_left fun heq => hsave document heq.symm
  stops inst hmem := h.stops inst <|
    (List.mem_cons.mp (hlog ▸ hmem)).resolve_left fun heq => hstop inst heq.symm

theorem touch {t : Touch} (h : HoldsSound c) (ht : Touches C t c c') : HoldsSound c' := by
  cases ht with
  | quiet inst override effects env hcore hquiet =>
      refine ⟨hcore.holds ▸ h.holds, fun document hmem => ?_, fun inst hmem => ?_⟩
      · exact h.saved document <| (List.mem_append.mp hmem).resolve_left fun hmem =>
          hquiet _ hmem
      · exact h.stops inst <| (List.mem_append.mp hmem).resolve_left fun hmem =>
          hquiet _ hmem
  | clock => exact h.extend rfl h.holds (by simp) (by simp)
  | start reply => exact h.extend rfl h.holds (by simp) (by simp)
  | stop reply hholds =>
      refine ⟨h.holds, fun document hmem => h.saved document ?_, fun inst hmem => ?_⟩
      · exact (List.mem_cons.mp hmem).resolve_left (by simp)
      · rcases List.mem_cons.mp hmem with heq | hmem
        · -- the counts are positive, so their sum is zero only where there is none
          cases heq
          refine ⟨hholds, fun reason => ?_⟩
          by_contra hreason
          exact (InstanceState.activeHolds_pos h.holds hreason).ne' hholds
        · exact h.stops inst hmem
  | save =>
      refine ⟨h.holds, fun document hmem => ?_, fun inst hmem => h.stops inst ?_⟩
      · rcases List.mem_cons.mp hmem with heq | hmem
        · cases heq
          exact h.holds.filterKeys isPersistentHold
        · exact h.saved document hmem
      · exact (List.mem_cons.mp hmem).resolve_left (by simp)
  | jobs f => exact ⟨h.holds, h.saved, h.stops⟩
  | move newState hvalid => exact h.mapInst h.holds
  | addHold reason => exact h.mapInst (h.holds.withHold reason)
  | removeHold reason => exact h.mapInst (h.holds.withoutHold reason)
  | dropHold reason => exact h.mapInst (h.holds.pop reason)
  | pinHold reason => exact h.mapInst (h.holds.set reason one_pos)
  | attach sessionId timestamp hfresh hsingle =>
      have hholds : Positive
          { c.inst with sessions := c.inst.sessions.set sessionId timestamp }.holds := h.holds
      exact h.mapInst (hholds.withHold "sessions")
  | detach sessionId hknown =>
      have hholds : Positive
          { c.inst with sessions := c.inst.sessions.pop sessionId }.holds := h.holds
      exact h.mapInst (hholds.withoutHold "sessions")
  | clear => exact h.mapInst .empty
  | resetBudget hfailed => exact h.mapInst h.holds
  | prune now prior hnow hprior => exact h.mapInst h.holds
  | exhaust failure => exact h.mapInst (h.holds.pop "recovery")
  | attempt now hnow hroom =>
      exact h.extend rfl (h.holds.set "recovery" one_pos) (by simp) (by simp)
  | nextRestart nextRestart hroom => exact h.mapInst h.holds
  | recovered started => exact h.mapInst h.holds

theorem reload (h : HoldsSound c) : HoldsSound (c.reloaded C) := by
  refine ⟨?_, h.saved, h.stops⟩
  unfold Cell.reloaded
  cases hfile : c.stateFile with
  | none => exact .empty
  | some document =>
      exact (h.saved document (Cell.mem_log_of_stateFile hfile)).filterKeys isPersistentHold

theorem initial (C : Context σ) (override : Option Mode) (env : σ) :
    HoldsSound (World.initial C override env).cell :=
  ⟨.empty, fun _ hmem => by simp [World.initial] at hmem,
    fun _ hmem => by simp [World.initial] at hmem⟩

/-- Along every run the counts stay positive and stops meet no hold. -/
theorem of_run {ok : World σ → Label σ → Prop} {w w' : World σ}
    (hrun : Machine.Run (World.step C) ok w w') (hfresh : ∀ w l, ok w l → w.Fresh l)
    (h : HoldsSound w.cell) : HoldsSound w'.cell :=
  World.run_cell_invariant hrun h hfresh (fun _ _ ht h => h.touch ht)
    (fun _ _ _ _ _ _ _ ht h => h.touch ht) fun _ _ _ _ h => h.reload

end HoldsSound

/-- The runtime is stopped, outside the cleanup of a failed start attempt, only
where `active_holds()` is zero, which is to say where no hold of any kind is
left. -/
theorem stop_only_without_holds {override : Option Mode} {env : σ} {w : World σ}
    (hrun : Machine.Run (World.step C) World.Fresh (World.initial C override env) w)
    {inst : InstanceState} (hstop : .stop false inst ∈ w.cell.log) :
    inst.activeHolds = 0 ∧ ∀ reason, inst.holds.get? reason = none :=
  (HoldsSound.of_run hrun (fun _ _ h => h) (.initial C override env)).stops inst hstop

/-- The runtime is stopped, and not to clean up after a start attempt. -/
def Effect.isStop : Effect → Bool
  | .stop false _ => true
  | _ => false

/-- One caller comes and goes, and the idle tick stops the runtime. -/
theorem stop_only_without_holds_idle :
    ∃ (w : World Script) (inst : InstanceState),
      Machine.Run (World.step (scripted (onDemand .multiuser) [])) World.Fresh
        (World.initial (scripted (onDemand .multiuser) []) none {}) w ∧
      .stop false inst ∈ w.cell.log ∧
      inst.activeHolds = 0 ∧ ∀ reason, inst.holds.get? reason = none := by
  have hexec : ((Machine.exec (World.step (scripted (onDemand .multiuser) [])) World.Fresh
      (World.initial (scripted (onDemand .multiuser) []) none {})
      [scriptedLabel (.acquireSession "a") {}, scriptedLabel (.releaseSession "a") {},
        scriptedLabel (.tick (.ofSeconds 1)) { seconds := 1 }]).map fun w =>
        w.cell.log.any Effect.isStop) = some true := by decide +kernel
  obtain ⟨w, hw, hany⟩ := Option.map_eq_some_iff.mp hexec
  obtain ⟨effect, hmem, heffect⟩ := List.any_eq_true.mp hany
  have hrun := Machine.run_of_exec hw
  cases effect with
  | stop cleanup inst =>
      cases cleanup with
      | false => exact ⟨w, inst, hrun, hmem, stop_only_without_holds hrun hmem⟩
      | true => cases heffect
  | _ => cases heffect

/-! ## Sessions and their hold -/

/-- The `sessions` hold counts the session table, and a service that is not
shared has one session at most. -/
structure SessionsCounted (C : Context σ) (c : Cell σ) : Prop where
  hold : c.inst.holds.get? "sessions" =
    if c.inst.sessions.size = 0 then none else some (c.inst.sessions.size : ℤ)
  single : C.service.lifecycle.sharing = .singleSession → c.inst.sessions.size ≤ 1

namespace SessionsCounted

variable {c c' : Cell σ}

theorem getD_sessions (h : SessionsCounted C c) :
    c.inst.holds.getD "sessions" 0 = c.inst.sessions.size := by
  unfold Dict.getD
  rw [h.hold]
  split
  · rename_i hsize
    simp [hsize]
  · rfl

/-- Sessions and their hold are read from the instance alone. -/
theorem of_eq (h : SessionsCounted C c) (hsessions : c'.inst.sessions = c.inst.sessions)
    (hhold : c'.inst.holds.get? "sessions" = c.inst.holds.get? "sessions") :
    SessionsCounted C c' :=
  ⟨by rw [hhold, hsessions, h.hold], by rw [hsessions]; exact h.single⟩

theorem of_no_session (hsessions : c.inst.sessions = ∅)
    (hhold : c.inst.holds.get? "sessions" = none) : SessionsCounted C c :=
  ⟨by simp [hsessions, hhold], by simp [hsessions]⟩

theorem attach (h : SessionsCounted C c) {sessionId : String} (timestamp : DateTime)
    (hfresh : c.inst.sessions.get? sessionId = none)
    (hsingle : C.service.lifecycle.sharing = .singleSession → c.inst.sessions.size = 0) :
    SessionsCounted C (c.mapInst fun inst =>
      { inst with sessions := inst.sessions.set sessionId timestamp }.withHold "sessions") := by
  have hsize := Dict.size_set_of_get?_none timestamp hfresh
  constructor
  · simp only [Cell.mapInst_inst, InstanceState.withHold, Dict.get?_set_self, h.getD_sessions,
      hsize]
    simp
  · intro hsharing
    simp only [Cell.mapInst_inst, InstanceState.withHold, hsize, hsingle hsharing]
    omega

theorem detach (h : SessionsCounted C c) {sessionId : String}
    (hknown : c.inst.sessions.get? sessionId ≠ none) :
    SessionsCounted C (c.mapInst fun inst =>
      { inst with sessions := inst.sessions.pop sessionId }.withoutHold "sessions") := by
  obtain ⟨timestamp, hget⟩ := Option.ne_none_iff_exists'.mp hknown
  have hsize := Dict.size_pop_of_get?_some hget
  constructor
  · simp only [Cell.mapInst_inst, InstanceState.withoutHold, h.getD_sessions]
    -- the last session takes the hold with it
    by_cases hlast : (c.inst.sessions.size : ℤ) ≤ 1
    · simp [hlast, show (c.inst.sessions.pop sessionId).size = 0 by omega]
    · simp [hlast, show (c.inst.sessions.pop sessionId).size ≠ 0 by omega]
      omega
  · intro hsharing
    have := h.single hsharing
    simp only [Cell.mapInst_inst, InstanceState.withoutHold]
    omega

/-- Touches of other holds leave sessions and their hold alone. -/
theorem touch {t : Touch} (h : SessionsCounted C c)
    (hother : t ∉ [Touch.addHold "sessions", .removeHold "sessions", .dropHold "sessions",
      .pinHold "sessions"]) (ht : Touches C t c c') : SessionsCounted C c' := by
  have hne : ∀ {reason : String}, t ∈ [Touch.addHold reason, .removeHold reason,
      .dropHold reason, .pinHold reason] → "sessions" ≠ reason := by
    rintro reason hmem rfl
    exact hother hmem
  cases ht with
  | quiet inst override effects env hcore hquiet =>
      exact h.of_eq hcore.sessions (by rw [hcore.holds])
  | clock | start | stop | save | jobs | move | resetBudget | prune | nextRestart
  | recovered => exact h.of_eq rfl rfl
  | addHold reason => exact h.of_eq rfl (Dict.get?_set_ne _ _ (hne (by simp)))
  | removeHold reason =>
      refine h.of_eq rfl ?_
      simp only [Cell.mapInst_inst, InstanceState.withoutHold]
      split
      · exact Dict.get?_pop_ne _ (hne (by simp))
      · exact Dict.get?_set_ne _ _ (hne (by simp))
  | dropHold reason => exact h.of_eq rfl (Dict.get?_pop_ne _ (hne (by simp)))
  | pinHold reason => exact h.of_eq rfl (Dict.get?_set_ne _ _ (hne (by simp)))
  | attach sessionId timestamp hfresh hsingle => exact h.attach timestamp hfresh hsingle
  | detach sessionId hknown => exact h.detach hknown
  | clear => exact of_no_session rfl rfl
  | exhaust failure => exact h.of_eq rfl (Dict.get?_pop_ne _ (by decide))
  | attempt now hnow hroom => exact h.of_eq rfl (Dict.get?_set_ne _ _ (by decide))

/-- Neither sessions nor their hold are persisted. -/
theorem reload : SessionsCounted C (c.reloaded C) := by
  unfold Cell.reloaded
  cases c.stateFile with
  | none => exact of_no_session rfl rfl
  | some document =>
      refine of_no_session rfl ?_
      simp only [InstanceState.fromDict, Dict.get?_filterKeys]
      exact if_neg (by decide)

end SessionsCounted

/-- `start(reason="sessions")` installs the hold without a session. -/
def World.NoBareSessionHold (_ : World σ) (l : Label σ) : Prop :=
  match l.op with
  | .start reason => reason ≠ "sessions"
  | _ => True

instance (w : World σ) (l : Label σ) : Decidable (w.NoBareSessionHold l) :=
  match l with
  | ⟨.start reason, _, _⟩ =>
      inferInstanceAs (Decidable (reason ≠ "sessions"))
  | ⟨.stop _ _, _, _⟩ | ⟨.acquireSession _, _, _⟩ | ⟨.releaseSession _, _, _⟩ |
    ⟨.notifyFailure _, _, _⟩ | ⟨.transition _ _, _, _⟩ | ⟨.reconcile, _, _⟩ | ⟨.tick _, _, _⟩ |
    ⟨.beginMaintenance _, _, _⟩ | ⟨.callMaintenance _, _, _⟩ | ⟨.finishMaintenance _, _, _⟩ |
    ⟨.setLifecycleMode _, _, _⟩ | ⟨.reload, _, _⟩ =>
      instDecidableTrue

/-- Only `start(reason="sessions")` touches the `sessions` hold without the session table. -/
theorem Operation.touches_sessions_hold {c : Cell σ} {op : Operation} {t : Touch}
    (hstart : op ≠ .start "sessions") (ht : op.touches c t) :
    t ∉ [Touch.addHold "sessions", .removeHold "sessions", .dropHold "sessions",
      .pinHold "sessions"] := by
  intro hmem
  simp only [List.mem_cons, List.not_mem_nil, or_false] at hmem
  cases op with
  | start reason =>
      have hreason : reason ≠ "sessions" := fun heq => hstart (heq ▸ rfl)
      rcases hmem with rfl | rfl | rfl | rfl <;>
        simp [Operation.touches, Touch.recovering, eq_comm, hreason] at ht
  | _ =>
      rcases hmem with rfl | rfl | rfl | rfl <;>
        simp [Operation.touches, Touch.recovering, Touch.moving, Touch.observing] at ht

/-- Session accounting: the `sessions` hold is the number of sessions, absent
when there is none; every stored count is positive, in memory and in what is saved; a
`single_session` service has one session at most. -/
theorem sessions_accounted {override : Option Mode} {env : σ} {w : World σ}
    (hrun : Machine.Run (World.step C) (fun w l => w.Fresh l ∧ w.NoBareSessionHold l)
      (World.initial C override env) w) :
    (w.cell.inst.holds.get? "sessions" =
        if w.cell.inst.sessions.size = 0 then none
        else some (w.cell.inst.sessions.size : ℤ)) ∧
      (∀ reason count, w.cell.inst.holds.get? reason = some count → 0 < count) ∧
      (∀ document, .save document ∈ w.cell.log →
        ∀ reason count, document.holds.get? reason = some count → 0 < count) ∧
      (C.service.lifecycle.sharing = .singleSession → w.cell.inst.sessions.size ≤ 1) := by
  have hholds := HoldsSound.of_run hrun (fun _ _ h => h.1) (.initial C override env)
  have hsessions : SessionsCounted C w.cell := by
    refine World.run_cell_invariant (P := SessionsCounted C) hrun (.of_no_session rfl rfl)
      (fun _ _ h => h.1) (fun _ _ ht h => h.touch (by simp) ht)
      (fun w l t c c' hok htouch ht h => h.touch ?_ ht) fun _ _ _ _ _ => SessionsCounted.reload
    refine Operation.touches_sessions_hold (fun hop => ?_) htouch
    simp [World.NoBareSessionHold, hop] at hok
  exact ⟨hsessions.hold, hholds.holds, hholds.saved, hsessions.single⟩

/-- Two callers of a shared service, of whom the first has left. -/
theorem sessions_accounted_two_callers :
    ∃ w : World Script,
      Machine.Run (World.step (scripted (onDemand .multiuser) []))
        (fun w l => w.Fresh l ∧ w.NoBareSessionHold l)
        (World.initial (scripted (onDemand .multiuser) []) none {}) w ∧
      w.cell.inst.sessions.size = 1 ∧
      w.cell.inst.holds.get? "sessions" =
        if w.cell.inst.sessions.size = 0 then none
        else some (w.cell.inst.sessions.size : ℤ) := by
  have hexec : ((Machine.exec (World.step (scripted (onDemand .multiuser) []))
      (fun w l => w.Fresh l ∧ w.NoBareSessionHold l)
      (World.initial (scripted (onDemand .multiuser) []) none {})
      [scriptedLabel (.acquireSession "a") {}, scriptedLabel (.acquireSession "b") {},
        scriptedLabel (.releaseSession "a") {}]).map fun w => w.cell.inst.sessions.size) =
      some 1 := by decide +kernel
  obtain ⟨w, hw, hsize⟩ := Option.map_eq_some_iff.mp hexec
  have hrun := Machine.run_of_exec hw
  exact ⟨w, hrun, hsize, (sessions_accounted hrun).1⟩

end UltimateBBSBox.Supervisor
