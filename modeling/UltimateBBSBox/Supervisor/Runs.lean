import UltimateBBSBox.Library.Machine
import UltimateBBSBox.Supervisor.Footprint

/-!
# Runs of the supervisor on one service

A run is any interleaving of lock-held sections.  Maintenance runs are listed
while they are between their two sections; their unlocked driver call is a step
of its own.  `restart` is a forced stop followed by a start, and a `tick` is a
reconciliation, a tick section and the maintenance calls of the due jobs: the
lock is free in between, so they are several steps.  A `tick` section uses a
clock reading taken before the lock, hence an arbitrary one.

Every step starts from an arbitrary state of the outside world.  A section that
does not come back is not a step.  `reload` ends the process between two
sections and constructs a supervisor over the same state directory.
-/

namespace UltimateBBSBox.Supervisor

open Act

variable {σ : Type}

/-- A maintenance run between its two lock-held sections. -/
structure MaintenanceRun where
  job : Job
  wasActive : Bool
  /-- What the driver call came to, once it is over. -/
  outcome : Option (Except String Archive.Fields)

/-- The supervised service and its maintenance runs under way. -/
structure World (σ : Type) where
  cell : Cell σ
  running : List MaintenanceRun

/-- The sections. -/
inductive Operation
  | start (reason : String)
  | stop (force : Bool) (reason : String)
  | acquireSession (sessionId : String)
  | releaseSession (sessionId : String)
  | notifyFailure (error : String)
  | transition (newState : LifecycleState) (reason : String)
  | reconcile
  | tick (now : DateTime)
  | beginMaintenance (jobId : String)
  | callMaintenance (index : ℕ)
  | finishMaintenance (index : ℕ)
  | setLifecycleMode (mode : Mode)
  | reload

/-- A step: which section runs, from which state of the outside world, and the
fuel its loops and recursions have. -/
structure Label (σ : Type) where
  op : Operation
  env : σ
  fuel : ℕ

namespace Operation

variable (C : Context σ) (fuel : ℕ) (running : List MaintenanceRun)

/-- The section, and the maintenance runs that are under way when it returns. -/
def lockedSection : Operation → Prog σ (List MaintenanceRun)
  | .start reason => do
      let _ ← Supervisor.start C fuel reason
      return running
  | .stop force reason => do
      let _ ← Supervisor.stop C force reason
      return running
  | .acquireSession sessionId => do
      let _ ← Supervisor.acquireSession C fuel sessionId
      return running
  | .releaseSession sessionId => do
      let _ ← Supervisor.releaseSession C sessionId
      return running
  | .notifyFailure error => do
      let _ ← Supervisor.notifyFailure C fuel error
      return running
  | .transition newState reason => do
      Supervisor.transition C newState reason none
      return running
  | .reconcile => do
      reconcileLocked C fuel
      return running
  | .tick now => do
      let _ ← tickLocked C fuel now
      return running
  | .beginMaintenance jobId => do
      let job ← findJob C jobId
      let wasActive ← Supervisor.beginMaintenance C fuel job
      return running ++ [⟨job, wasActive, none⟩]
  | .callMaintenance index =>
      match running[index]? with
      | some ⟨job, wasActive, none⟩ => do
          let outcome ← Supervisor.callMaintenance C job
          return running.set index ⟨job, wasActive, some outcome⟩
      | _ => diverge
  | .finishMaintenance index =>
      match running[index]? with
      | some ⟨job, wasActive, some outcome⟩ => do
          let _ ← Supervisor.finishMaintenance C fuel job wasActive outcome
          return running.eraseIdx index
      | _ => diverge
  | .setLifecycleMode mode => do
      Supervisor.setLifecycleMode mode
      return running
  | .reload => do
      Supervisor.reload C
      return []

/-- The maintenance runs that are under way when the section raises. -/
def runningAfterError : Operation → List MaintenanceRun
  | .finishMaintenance index => running.eraseIdx index
  | _ => running

end Operation

namespace World

/-- One section, from an arbitrary state of the outside world. -/
def step (C : Context σ) (w : World σ) (l : Label σ) : Option (Except Exn Unit × World σ) :=
  match (l.op.lockedSection C l.fuel w.running).run (w.cell.withEnv l.env) with
  | none => none
  | some (.ok running, c) => some (.ok (), ⟨c, running⟩)
  | some (.error e, c) => some (.error e, ⟨c, l.op.runningAfterError w.running⟩)

/-- A supervisor over an empty state directory. -/
def initial (C : Context σ) (override : Option Mode) (env : σ) : World σ where
  cell :=
    { inst := freshInstance C.service.id
      jobsRunning := ∅
      override := override
      log := []
      env := env }
  running := []

end World

/-! ## Footprints of the steps -/

namespace Operation

/-- The kinds of touches of a section entered in cell `c`; `reload` is no
sequence of touches. -/
def touches (c : Cell σ) : Operation → Touch → Prop
  | .start reason, l =>
      Touch.recovering l ∨ l = .addHold reason ∨
        (reason = "admin" ∧ c.inst.state = .failed ∧ l = .resetBudget)
  | .stop force reason, l =>
      Touch.moving l ∨ l = .stop ∨ (reason = "admin" ∧ l = .dropHold "admin") ∨
        (force = true ∧ l = .clear)
  | .acquireSession _, l => Touch.recovering l ∨ l = .attach ∨ l = .detach
  | .releaseSession _, l => Touch.observing l ∨ l = .detach
  | .notifyFailure _, l => Touch.recovering l
  | .transition _ _, l => Touch.moving l
  | .reconcile, l =>
      Touch.recovering l ∨ l ∈ [Touch.pinHold "always_on", .pinHold "admin", .dropHold "always_on"]
  | .tick _, l => Touch.recovering l ∨ l = .stop
  | .beginMaintenance _, l =>
      Touch.recovering l ∨ l ∈ [Touch.addHold "maintenance", .removeHold "maintenance", .jobs]
  | .callMaintenance _, l => Touch.observing l
  | .finishMaintenance _, l =>
      Touch.recovering l ∨ l ∈ [Touch.removeHold "maintenance", .jobs, .stop]
  | .setLifecycleMode _, l => Touch.observing l
  | .reload, _ => False

/-- Each section touches only what its operation may touch.  Sessions are
acquired under fresh ids. -/
theorem footprint {C : Context σ} {op : Operation} (fuel : ℕ) (running : List MaintenanceRun)
    {c : Cell σ} (hreload : op ≠ .reload)
    (hfresh : ∀ sessionId, op = .acquireSession sessionId →
      c.inst.sessions.get? sessionId = none) :
    wlp (op.lockedSection C fuel running) (fun _ => Footprint C (op.touches c) c)
      (fun _ => Footprint C (op.touches c) c) c := by
  -- returning the maintenance runs touches nothing
  have hreturn : ∀ {α : Type} {allowed : Touch → Prop} {act : Prog σ α}
      {next : α → List MaintenanceRun},
      wlp act (fun _ => Footprint C allowed c) (fun _ => Footprint C allowed c) c →
      wlp (do let a ← act; return next a) (fun _ => Footprint C allowed c)
        (fun _ => Footprint C allowed c) c := fun h => wlp_bind.mpr h
  cases op with
  | start reason =>
      exact hreturn <| footprint_start (fun _ => Or.inl) (.inr (.inl rfl))
        (fun hadmin hfailed => .inr (.inr ⟨hadmin, hfailed, rfl⟩)) fuel
  | stop force reason =>
      exact hreturn <| within_stop (fun _ => Or.inl) (.inr (.inl rfl))
        (fun hadmin => .inr (.inr (.inl ⟨hadmin, rfl⟩)))
        (fun hforce => .inr (.inr (.inr ⟨hforce, rfl⟩))) c
  | acquireSession sessionId =>
      exact hreturn <| footprint_acquireSession (fun _ => Or.inl) (.inr (.inl rfl))
        (.inr (.inr rfl)) fuel (hfresh sessionId rfl)
  | releaseSession sessionId =>
      have hobserving : Touch.observing ≤ touches c (.releaseSession sessionId) := fun _ => Or.inl
      exact hreturn <| within_releaseSession hobserving (.inr rfl) sessionId c
  | notifyFailure error => exact hreturn <| within_notifyFailure (fun _ h => h) fuel error c
  | transition newState reason => exact hreturn <| within_transition (fun _ h => h) c
  | reconcile =>
      exact hreturn <| within_reconcileLocked (fun _ => Or.inl)
        (fun reason hreason => .inr (by
          rcases List.mem_cons.mp hreason with rfl | hreason
          · simp
          · simp [List.mem_singleton.mp hreason]))
        (.inr (by simp)) fuel c
  | tick now =>
      have hrecovering : Touch.recovering ≤ touches c (.tick now) := fun _ => Or.inl
      exact hreturn <| within_tickLocked hrecovering (.inr rfl) fuel now c
  | beginMaintenance jobId =>
      refine wlp_bind.mpr ?_
      unfold findJob
      cases (jobsByName C.service).get? jobId with
      | none => exact wlp_throw.mpr .refl
      | some job =>
          exact wlp_pure.mpr <| hreturn <| within_beginMaintenance (fun _ => Or.inl)
            (.inr (by simp)) (.inr (by simp)) (.inr (by simp)) fuel job c
  | callMaintenance index =>
      simp only [lockedSection]
      split
      · exact hreturn <| within_callMaintenance (fun _ h => h) _ c
      · exact wlp_diverge.mpr trivial
  | finishMaintenance index =>
      simp only [lockedSection]
      split
      · exact hreturn <| within_finishMaintenance (fun _ => Or.inl) (.inr (by simp))
          (.inr (by simp)) (.inr (by simp)) fuel _ _ _ c
      · exact wlp_diverge.mpr trivial
  | setLifecycleMode mode => exact hreturn <| within_setLifecycleMode (fun _ h => h) mode c
  | reload => exact absurd rfl hreload

end Operation

/-! ## Steps and runs -/

/-- A cell after `reload`. -/
def Cell.reloaded (C : Context σ) (c : Cell σ) : Cell σ :=
  { c with
    inst := match c.stateFile with
      | some document => InstanceState.fromDict document
      | none => freshInstance C.service.id
    jobsRunning := ∅ }

theorem Cell.mem_log_of_stateFile {c : Cell σ} {document : Document}
    (h : c.stateFile = some document) : .save document ∈ c.log := by
  obtain ⟨effect, hmem, heffect⟩ := List.exists_of_findSome?_eq_some h
  cases effect <;> simp_all

namespace World

variable {C : Context σ} {w w' : World σ} {l : Label σ} {r : Except Exn Unit}

/-- What the weakest precondition of a section says about the step. -/
theorem step_spec {Q : List MaintenanceRun → Cell σ → Prop} {X : Exn → Cell σ → Prop}
    (hstep : w.step C l = some (r, w'))
    (h : wlp (l.op.lockedSection C l.fuel w.running) Q X (w.cell.withEnv l.env)) :
    (r = .ok () ∧ Q w'.running w'.cell) ∨
      (∃ e, r = .error e ∧ X e w'.cell ∧ w'.running = l.op.runningAfterError w.running) := by
  unfold step at hstep
  split at hstep
  · cases hstep
  · rename_i running c hrun
    cases hstep
    exact .inl ⟨rfl, wlp_ok h hrun⟩
  · rename_i e c hrun
    cases hstep
    exact .inr ⟨e, rfl, wlp_error h hrun, rfl⟩

/-- Only maintenance sections and `reload` change which runs are under way. -/
theorem running_of_step (hstep : w.step C l = some (r, w'))
    (hbegin : ∀ jobId, l.op ≠ .beginMaintenance jobId)
    (hcall : ∀ index, l.op ≠ .callMaintenance index)
    (hfinish : ∀ index, l.op ≠ .finishMaintenance index) (hreload : l.op ≠ .reload) :
    w'.running = w.running := by
  have hreturn : ∀ {α : Type} {act : Prog σ α} {c : Cell σ},
      wlp (do let _ ← act; return w.running) (fun running _ => running = w.running)
        (fun _ _ => True) c :=
    wlp_bind.mpr <| wlp_mono wlp_true (fun _ _ _ => wlp_pure.mpr rfl) fun _ _ _ => trivial
  have hsection : wlp (l.op.lockedSection C l.fuel w.running) (fun running _ => running = w.running)
      (fun _ _ => True) (w.cell.withEnv l.env) := by
    cases hop : l.op with
    | beginMaintenance jobId => exact absurd hop (hbegin jobId)
    | callMaintenance index => exact absurd hop (hcall index)
    | finishMaintenance index => exact absurd hop (hfinish index)
    | reload => exact absurd hop hreload
    | _ => exact hreturn
  rcases step_spec hstep hsection with ⟨_, h⟩ | ⟨_, _, _, h⟩
  · exact h
  · rw [h]
    cases hop : l.op with
    | finishMaintenance index => exact absurd hop (hfinish index)
    | _ => rfl

/-- Ids of new sessions are fresh: `uuid4` does not repeat itself. -/
def Fresh (w : World σ) (l : Label σ) : Prop :=
  match l.op with
  | .acquireSession sessionId => w.cell.inst.sessions.get? sessionId = none
  | _ => True

instance (w : World σ) (l : Label σ) : Decidable (w.Fresh l) :=
  match l with
  | ⟨.acquireSession sessionId, _, _⟩ =>
      inferInstanceAs (Decidable (w.cell.inst.sessions.get? sessionId = none))
  | ⟨.start _, _, _⟩ | ⟨.stop _ _, _, _⟩ | ⟨.releaseSession _, _, _⟩ | ⟨.notifyFailure _, _, _⟩ |
    ⟨.transition _ _, _, _⟩ | ⟨.reconcile, _, _⟩ | ⟨.tick _, _, _⟩ | ⟨.beginMaintenance _, _, _⟩ |
    ⟨.callMaintenance _, _, _⟩ | ⟨.finishMaintenance _, _, _⟩ | ⟨.setLifecycleMode _, _, _⟩ |
    ⟨.reload, _, _⟩ =>
      instDecidableTrue

theorem step_reload (hstep : w.step C l = some (r, w')) (hreload : l.op = .reload) :
    w'.cell = (w.cell.withEnv l.env).reloaded C ∧ w'.running = [] := by
  have h := step_spec (Q := fun running c =>
    c = (w.cell.withEnv l.env).reloaded C ∧ running = []) (X := fun _ _ => False) hstep (by
      rw [hreload]
      exact ⟨rfl, rfl⟩)
  rcases h with ⟨_, h⟩ | ⟨_, _, h, _⟩
  · exact h
  · exact False.elim h

/-- Every step but `reload` is a sequence of the touches its operation may make. -/
theorem step_footprint (hstep : w.step C l = some (r, w')) (hfresh : w.Fresh l)
    (hreload : l.op ≠ .reload) :
    Footprint C (l.op.touches w.cell) (w.cell.withEnv l.env) w'.cell := by
  have h := step_spec hstep <| Operation.footprint l.fuel w.running hreload fun sessionId hop => by
    simpa only [Fresh, hop, Cell.withEnv_inst] using hfresh
  rcases h with ⟨_, h⟩ | ⟨_, _, h, _⟩ <;> exact h

/-- A property of the cell that every touch and every `reload` keeps, a run keeps. -/
theorem run_cell_invariant {ok : World σ → Label σ → Prop} {P : Cell σ → Prop}
    (hrun : Machine.Run (step C) ok w w') (hw : P w.cell)
    (hfresh : ∀ w l, ok w l → w.Fresh l)
    (hquiet : ∀ c c', Touches C .quiet c c' → P c → P c')
    (htouch : ∀ w l t c c', ok w l → l.op.touches w.cell t → Touches C t c c' → P c → P c')
    (hreload : ∀ w l, ok w l → l.op = .reload → P (w.cell.withEnv l.env) →
      P ((w.cell.withEnv l.env).reloaded C)) :
    P w'.cell := by
  refine hrun.invariant (P := fun w => P w.cell) hw fun w l r w' hP hok hstep => ?_
  have henv : P (w.cell.withEnv l.env) := hquiet _ _ (.withEnv _ _) hP
  by_cases hop : l.op = .reload
  · rw [(step_reload hstep hop).1]
    exact hreload w l hok hop henv
  · exact (step_footprint hstep (hfresh w l hok) hop).closed
      (fun t c c' ht h => htouch w l t c c' hok ht h) henv

end World

/-! ## A scripted outside world

For concrete runs: clock and driver answer from a record of what they will say. -/

/-- What clock, resolver and driver answer; `starts` lists the outcomes of the
next calls of `driver.start`, which succeeds once the list is used up. -/
structure Script where
  seconds : ℕ := 0
  resolves : Bool := true
  alive : Bool := false
  starts : List Bool := []
  stops : Bool := true
  maintains : Bool := true

/-- The world that answers from its script; readiness is immediate. -/
def Environment.scripted : Environment Script where
  now script := (.ofSeconds script.seconds, script)
  monotonic script := (script.seconds, script)
  sleep _ script := script
  resolve script :=
    (if script.resolves then .ok () else .error "no runtime is configured", script)
  start inst _ script :=
    { result := if script.starts.head? = some false then .error "cannot start" else .ok ()
      runtime := inst.runtime
      env := { script with starts := script.starts.tail } }
  stop inst _ script :=
    { result := if script.stops then .ok () else .error "cannot stop"
      runtime := inst.runtime
      env := script }
  status inst _ script := ⟨.ok script.alive, inst.runtime, script⟩
  isReady inst _ _ script := ⟨.ok true, inst.runtime, script⟩
  runMaintenance inst _ _ script :=
    { result := if script.maintains then .ok [] else .error "job failed"
      runtime := inst.runtime
      env := script }

/-- A service `svc` in the scripted world. -/
def scripted (lifecycle : Lifecycle) (jobs : List Job) : Context Script :=
  let service : Service :=
    { id := "svc"
      type := .bbs
      endpointId := "svc"
      integrationId := none
      exposure := ⟨true, none, none⟩
      access := none
      lifecycle := lifecycle
      jobs := jobs }
  { service := service
    declaration := .ok ⟨service, ⟨"svc", .localProcess, none, none, .local⟩, none⟩
    environment := .scripted
    pollInterval := 1 / 10
    nestingLimit := 400 }

/-- An on-demand service that stops as soon as nobody holds it. -/
def onDemand (sharing : Sharing) : Lifecycle where
  mode := .onDemand
  sharing := sharing
  idleTimeoutSeconds := some 0
  startupTimeoutSeconds := none
  restart := none
  maxRestarts := none
  restartWindowSeconds := none
  restartBackoffSeconds := none
  readiness := none

/-- A step in the scripted world. -/
def scriptedLabel (op : Operation) (script : Script) : Label Script := ⟨op, script, 5⟩

end UltimateBBSBox.Supervisor
