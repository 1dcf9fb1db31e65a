import UltimateBBSBox.Supervisor.Runs

/-!
# What callers see of their sessions

Each supervisor section and the lifecycle session of one caller: acquiring adds
the entry or leaves the table as it was, releasing takes it out, and nothing
else touches it but a forced stop and a new supervisor.  Releasing may take the
entry out and still raise: the idle deadline need not be a datetime.
-/

namespace UltimateBBSBox.Supervisor

open Act

variable {σ : Type} {C : Context σ}

/-- The cell without the session. -/
def Cell.released (c : Cell σ) (sessionId : String) : Cell σ :=
  (c.mapInst fun inst =>
    { inst with sessions := inst.sessions.pop sessionId }.withoutHold "sessions").saved

variable (C) in
/-- The idle deadline that releasing the session sets, if it sets one, is a datetime. -/
def IdleFits (sessionId : String) (c : Cell σ) : Prop :=
  let c' := c.released sessionId
  (C.lifecycle c').mode = .onDemand → c'.inst.activeHolds = 0 → c'.inst.state = .running →
    c'.inst.idleDeadline = none →
    ∃ later, addSeconds (C.environment.now c'.env).1 ((C.lifecycle c').idleTimeoutSeconds.getD 0) =
      .ok later

instance (sessionId : String) (c : Cell σ) : Decidable (IdleFits C sessionId c) := by
  unfold IdleFits
  infer_instance

/-- Releasing raises if the session is unknown, or if it is the last one and the
idle deadline does not fit; then the session is gone all the same. -/
theorem releaseSession_spec (sessionId : String) (c : Cell σ) :
    wlp (releaseSession C sessionId)
      (fun _ c' => c.inst.sessions.get? sessionId ≠ none ∧
        c'.inst.sessions = c.inst.sessions.pop sessionId)
      (fun _ c' => (c.inst.sessions.get? sessionId = none ∧ c' = c) ∨
        (c.inst.sessions.get? sessionId ≠ none ∧ ¬ IdleFits C sessionId c ∧
          c'.inst.sessions = c.inst.sessions.pop sessionId)) c := by
  refine wlp_bind.mpr <| wlp_get.mpr <| wlp_ite.mpr ⟨fun hunknown => wlp_throw.mpr
    (.inl ⟨hunknown, rfl⟩), fun hknown => ?_⟩
  refine wlp_bind.mpr <| wlp_modifyInst.mpr <| wlp_bind.mpr <| wlp_bind.mpr <|
    wlp_modifyInst.mpr <| wlp_persist.mpr ?_
  refine wlp_bind.mpr <| wlp_bind.mpr <| wlp_get.mpr <| wlp_ite.mpr ⟨fun _ => ?_, fun hidle => ?_⟩
  · exact wlp_pure.mpr <| wlp_bind.mpr <| wlp_get.mpr <| wlp_pure.mpr ⟨hknown, rfl⟩
  refine wlp_ite.mpr ⟨fun _ => ?_, fun hdeadline => ?_⟩
  · exact wlp_pure.mpr <| wlp_bind.mpr <| wlp_get.mpr <| wlp_pure.mpr ⟨hknown, rfl⟩
  refine wlp_bind.mpr <| wlp_now.mpr <| wlp_bind.mpr <| wlp_ofExcept.mpr
    ⟨fun deadline _ => ?_, fun e he => .inr ⟨hknown, fun hfits => ?_, rfl⟩⟩
  · exact wlp_bind.mpr <| wlp_modifyInst.mpr <| wlp_persist.mpr <| wlp_bind.mpr <|
      wlp_get.mpr <| wlp_pure.mpr ⟨hknown, rfl⟩
  · simp only [not_or, not_not] at hidle
    obtain ⟨later, hlater⟩ := hfits hidle.1 hidle.2.1 hidle.2.2
      (Option.not_isSome_iff_eq_none.mp hdeadline)
    exact absurd (hlater.symm.trans he) (by simp)

/-- Acquiring adds the session, or raises and leaves no trace of it. -/
theorem acquireSession_spec {sessionId : String} {c : Cell σ} (fuel : ℕ)
    (hfresh : c.inst.sessions.get? sessionId = none) :
    wlp (acquireSession C fuel sessionId)
      (fun id c' => id = sessionId ∧ ∃ timestamp,
        c'.inst.sessions = c.inst.sessions.set sessionId timestamp)
      (fun _ c' => ∀ id, c'.inst.sessions.get? id = c.inst.sessions.get? id) c := by
  refine wlp_bind.mpr <| wlp_get.mpr <| wlp_bind.mpr <| wlp_whenever.mpr
    ⟨fun _ => wlp_throw.mpr fun _ => rfl, fun _ => ?_⟩
  refine wlp_bind.mpr <| wlp_now.mpr <| wlp_bind.mpr <| wlp_modifyInst.mpr <|
    wlp_bind.mpr <| wlp_bind.mpr <| wlp_modifyInst.mpr <| wlp_persist.mpr ?_
  refine wlp_bind.mpr <| wlp_tryCatch.mpr <| wlp_mono
    (within_ensureRunningLocked (le_refl Touch.recovering) fuel "session" _)
    (fun _ c₁ h₁ => ?_) fun e c₁ h₁ => ?_
  · exact wlp_pure.mpr ⟨rfl, _, sessions_of_recovering h₁⟩
  · refine wlp_bind.mpr <| wlp_modifyInst.mpr <| wlp_bind.mpr <| wlp_bind.mpr <|
      wlp_modifyInst.mpr <| wlp_persist.mpr <| wlp_throw.mpr fun id => ?_
    have hsessions := sessions_of_recovering h₁
    by_cases hid : id = sessionId
    · simp [hid, hfresh]
    · simp [hsessions, hid]

/-- Sections other than a forced stop leave the sessions of other callers alone. -/
theorem get?_sessions_of_step {w w' : World σ} {l : Label σ} {r : Except Exn Unit} {id : String}
    (hstep : w.step C l = some (r, w')) (hfresh : w.Fresh l)
    (hstop : ∀ reason, l.op ≠ .stop true reason) (hreload : l.op ≠ .reload)
    (hacquire : l.op ≠ .acquireSession id) (hrelease : l.op ≠ .releaseSession id) :
    w'.cell.inst.sessions.get? id = w.cell.inst.sessions.get? id := by
  have hreturn : ∀ {α : Type} {act : Prog σ α}
      (_ : wlp act (fun _ c' => c'.inst.sessions.get? id = w.cell.inst.sessions.get? id)
        (fun _ c' => c'.inst.sessions.get? id = w.cell.inst.sessions.get? id)
        (w.cell.withEnv l.env)),
      wlp (do let _ ← act; return w.running)
        (fun _ c' => c'.inst.sessions.get? id = w.cell.inst.sessions.get? id)
        (fun _ c' => c'.inst.sessions.get? id = w.cell.inst.sessions.get? id)
        (w.cell.withEnv l.env) := fun h => wlp_bind.mpr h
  -- three touches change the session table; the first two name a session
  have hother : (∀ t, l.op.touches w.cell t → t ∉ [Touch.attach, .detach, .clear]) →
      w'.cell.inst.sessions.get? id = w.cell.inst.sessions.get? id := fun hkeeps => by
    rw [sessions_of_footprint hkeeps (World.step_footprint hstep hfresh hreload), Cell.withEnv_inst]
  cases hop : l.op with
  | acquireSession sessionId =>
      have hne : id ≠ sessionId := fun heq => hacquire (heq ▸ hop)
      have hunused : w.cell.inst.sessions.get? sessionId = none := by
        simpa only [World.Fresh, hop] using hfresh
      have hsection := hreturn <| wlp_mono (acquireSession_spec (C := C) (c := w.cell.withEnv l.env)
        l.fuel hunused) (fun _ c' h' => by
          obtain ⟨_, _, hsessions⟩ := h'
          rw [hsessions, Dict.get?_set_ne _ _ hne]
          rfl)
        fun _ c' h' => h' id
      rcases World.step_spec hstep (by rw [hop]; exact hsection) with ⟨_, h'⟩ | ⟨_, _, h', _⟩ <;>
        exact h'
  | releaseSession sessionId =>
      have hne : id ≠ sessionId := fun heq => hrelease (heq ▸ hop)
      have hpop : ∀ c' : Cell σ,
          c'.inst.sessions = (w.cell.withEnv l.env).inst.sessions.pop sessionId →
          c'.inst.sessions.get? id = w.cell.inst.sessions.get? id := fun c' h' => by
        rw [h', Dict.get?_pop_ne _ hne]
        rfl
      have hsection := hreturn <| wlp_mono (releaseSession_spec (C := C) sessionId _)
        (fun _ c' h' => hpop c' h'.2) fun _ c' h' =>
          h'.elim (fun h' => by rw [h'.2]; rfl) fun h' => hpop c' h'.2.2
      rcases World.step_spec hstep (by rw [hop]; exact hsection) with ⟨_, h'⟩ | ⟨_, _, h', _⟩ <;>
        exact h'
  | stop force reason =>
      refine hother fun t ht => ?_
      rw [hop] at ht
      have hforce : force ≠ true := fun heq => hstop reason (heq ▸ hop)
      rintro hmem
      simp only [List.mem_cons, List.not_mem_nil, or_false] at hmem
      rcases hmem with rfl | rfl | rfl <;>
        simp [Operation.touches, Touch.moving, hforce] at ht
  | reload => exact absurd hop hreload
  | _ =>
      refine hother fun t ht hmem => ?_
      rw [hop] at ht
      simp only [List.mem_cons, List.not_mem_nil, or_false] at hmem
      rcases hmem with rfl | rfl | rfl <;>
        simp [Operation.touches, Touch.recovering, Touch.moving, Touch.observing] at ht

/-- Only a caller that comes adds a session. -/
theorem get?_sessions_none_of_footprint {allowed : Touch → Prop} {c c' : Cell σ} {id : String}
    (hattach : ¬ allowed .attach) (hfoot : Footprint C allowed c c')
    (hnone : c.inst.sessions.get? id = none) : c'.inst.sessions.get? id = none := by
  refine hfoot.closed (P := fun c => c.inst.sessions.get? id = none)
    (fun l s s' hl hstep hP => ?_) hnone
  cases hstep with
  | quiet inst override effects env hcore hquiet =>
      change inst.sessions.get? id = none
      rw [hcore.sessions, hP]
  | attach => exact absurd hl hattach
  | detach sessionId _ =>
      change (s.inst.sessions.pop sessionId).get? id = none
      rw [Dict.get?_pop, hP, ite_self]
  | clear => rfl
  | _ => exact hP

/-- A session that the supervisor does not know comes only from acquiring it. -/
theorem get?_sessions_none_of_step {w w' : World σ} {l : Label σ} {r : Except Exn Unit}
    {id : String} (hstep : w.step C l = some (r, w')) (hfresh : w.Fresh l)
    (hacquire : l.op ≠ .acquireSession id) (hnone : w.cell.inst.sessions.get? id = none) :
    w'.cell.inst.sessions.get? id = none := by
  cases hop : l.op with
  | reload =>
      rw [(World.step_reload hstep hop).1]
      unfold Cell.reloaded
      split <;> rfl
  | acquireSession sessionId =>
      rw [get?_sessions_of_step hstep hfresh (by simp [hop]) (by simp [hop]) hacquire
        (by simp [hop]), hnone]
  | _ =>
      refine get?_sessions_none_of_footprint (fun hattach => ?_)
        (World.step_footprint hstep hfresh (by simp [hop])) hnone
      simp [hop, Operation.touches, Touch.recovering, Touch.moving, Touch.observing] at hattach

end UltimateBBSBox.Supervisor
