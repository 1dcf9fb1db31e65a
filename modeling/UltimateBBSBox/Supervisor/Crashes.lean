import UltimateBBSBox.Supervisor.Runs
import UltimateBBSBox.Supervisor.Deeds

/-!
# Processes that die in the middle of a section

`World.happen` lets a section end as in `World.step`, or cuts it off: of what it
did to the outside only the oldest effects have happened, and a supervisor is
constructed over the state directory they leave behind.  Any number of
processes may follow each other like this.

A section that would never have come back is cut off like one that comes back
and had the same answers up to the cut.
-/

namespace UltimateBBSBox.Supervisor

open Act

variable {σ : Type}

/-- What happens: a section ends, or is cut off after `kept` of its effects. -/
inductive Happening (σ : Type)
  | ended (l : Label σ)
  | cut (l : Label σ) (kept : ℕ)

/-- What the state file holds after the effects of a log. -/
def newestSave (log : List Effect) : Option Document := log.findSome? fun
  | .save document => some document
  | _ => none

theorem Cell.stateFile_eq (c : Cell σ) : c.stateFile = newestSave c.log := rfl

/-- The state that is stored in the state file, or that a service starts from
which has no state file. -/
def persistedState (log : List Effect) : LifecycleState :=
  match newestSave log with
  | some document => document.state
  | none => .stopped

namespace World

/-- A supervisor constructed over what is left of earlier ones. -/
def constructed (C : Context σ) (override : Option Mode) (env : σ) (log : List Effect) :
    World σ where
  cell := Cell.reloaded C ⟨freshInstance C.service.id, ∅, override, log, env⟩
  running := []

/-- What is left of a section of `w` that would have ended in `w'`. -/
def survivingLog (w w' : World σ) (kept : ℕ) : List Effect :=
  w'.cell.log.drop (w'.cell.log.length - (w.cell.log.length + kept))

/-- One section that ends or is cut off; the result of the former. -/
def happen (C : Context σ) (w : World σ) :
    Happening σ → Option (Option (Except Exn Unit) × World σ)
  | .ended l =>
      match w.step C l with
      | none => none
      | some (r, w') => some (some r, w')
  | .cut l kept =>
      match w.step C l with
      | none => none
      | some (_, w') =>
          some (none, constructed C w.cell.override l.env (w.survivingLog w' kept))

variable {C : Context σ} {w w' : World σ} {l : Label σ} {r : Except Exn Unit} {kept : ℕ}

@[simp] theorem constructed_log (override : Option Mode) (env : σ) (log : List Effect) :
    (constructed C override env log).cell.log = log := rfl

theorem constructed_inst_of_none {override : Option Mode} {env : σ} {log : List Effect}
    (h : newestSave log = none) :
    (constructed C override env log).cell.inst = freshInstance C.service.id := by
  simp only [constructed, Cell.reloaded, Cell.stateFile_eq, h]

theorem constructed_inst_of_some {override : Option Mode} {env : σ} {log : List Effect}
    {document : Document} (h : newestSave log = some document) :
    (constructed C override env log).cell.inst = InstanceState.fromDict document := by
  simp only [constructed, Cell.reloaded, Cell.stateFile_eq, h]

/-- An empty state directory is what `initial` starts over. -/
theorem initial_eq_constructed (override : Option Mode) (env : σ) :
    initial C override env = constructed C override env [] := rfl

theorem happen_ended_iff {o : Option (Except Exn Unit)} :
    w.happen C (.ended l) = some (o, w') ↔ ∃ r, o = some r ∧ w.step C l = some (r, w') := by
  rw [happen]
  cases w.step C l with
  | none => simp
  | some result => simp [Prod.ext_iff, eq_comm]

theorem happen_cut_iff {o : Option (Except Exn Unit)} :
    w.happen C (.cut l kept) = some (o, w') ↔ ∃ r u, w.step C l = some (r, u) ∧ o = none ∧
      w' = constructed C w.cell.override l.env (w.survivingLog u kept) := by
  rw [happen]
  cases w.step C l with
  | none => simp
  | some result => simp [Prod.ext_iff, eq_comm]

end World

/-! ## Doings of the steps -/

/-- What the section of an operation may do: only `set_lifecycle_mode` sets an override. -/
def Operation.deeds (op : Operation) (d : Deed) : Prop :=
  d = .mode → ∃ mode, op = .setLifecycleMode mode

/-- Every section but `reload` consists of deeds. -/
theorem Operation.doings {C : Context σ} {op : Operation} (fuel : ℕ)
    (running : List MaintenanceRun) (hreload : op ≠ .reload) :
    Within (Doings C op.deeds) (op.lockedSection C fuel running) := by
  have hkind : ∀ {op : Operation} {d : Deed}, d ≠ .mode → op.deeds d :=
    fun hne hmode => absurd hmode hne
  have hstart : ∀ {op : Operation}, Deed.starting C ≤ op.deeds := by
    rintro op d hd rfl
    exact False.elim hd
  have hstop : ∀ {op : Operation}, Deed.stopping ≤ op.deeds := by
    rintro op d hd rfl
    exact False.elim hd
  have hreturn : ∀ {op : Operation} {α : Type} {act : Prog σ α} {next : α → List MaintenanceRun},
      Within (Doings C op.deeds) act →
      Within (Doings C op.deeds) (do let a ← act; return next a) :=
    fun h => within_bind h fun _ => within_pure _
  cases op with
  | start reason => exact hreturn (doings_start hstart (hkind nofun) fuel reason)
  | stop force reason => exact hreturn (doings_stop hstop force reason)
  | acquireSession sessionId =>
      exact hreturn (doings_acquireSession hstart (hkind nofun) fuel sessionId)
  | releaseSession sessionId =>
      exact hreturn (doings_releaseSession (hkind nofun) (hkind nofun) sessionId)
  | notifyFailure error => exact hreturn (doings_notifyFailure hstart fuel error)
  | transition newState reason => exact hreturn (doings_transition (hkind nofun))
  | reconcile =>
      exact hreturn fun c => (wlp_reconcileLocked C).mpr <| wlp_bind.mp <|
        within_bind (doings_reconcileLook (hkind nofun) (hkind nofun))
          (fun alive => doings_reconcileConverge hstart (hkind nofun) (hkind nofun) fuel alive) c
  | tick now => exact hreturn (doings_tickLocked hstart hstop fuel now)
  | beginMaintenance jobId =>
      refine within_bind ?_ fun job =>
        hreturn (doings_beginMaintenance hstart (hkind nofun) (hkind nofun) fuel job)
      unfold findJob
      cases (jobsByName C.service).get? jobId with
      | none => exact within_throw _
      | some job => exact within_pure _
  | callMaintenance index =>
      simp only [lockedSection]
      split
      · exact hreturn (doings_callMaintenance (hkind nofun) _)
      · exact within_diverge
  | finishMaintenance index =>
      simp only [lockedSection]
      split
      · exact hreturn (doings_finishMaintenance hstart hstop (hkind nofun) fuel _ _ _)
      · exact within_diverge
  | setLifecycleMode mode => exact hreturn (doings_setLifecycleMode (fun _ => ⟨mode, rfl⟩) mode)
  | reload => exact absurd rfl hreload

theorem World.step_doings {C : Context σ} {w w' : World σ} {l : Label σ} {r : Except Exn Unit}
    (hstep : w.step C l = some (r, w')) (hreload : l.op ≠ .reload) :
    Doings C l.op.deeds (w.cell.withEnv l.env) w'.cell := by
  rcases World.step_spec hstep (Operation.doings l.fuel w.running hreload _) with
    ⟨_, h⟩ | ⟨_, _, h, _⟩ <;> exact h

end UltimateBBSBox.Supervisor
